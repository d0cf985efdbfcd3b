import HostBindings.Proxy.Class
import HostBindings.Registration.Lineage

/-
  Registration of parameters, methods and classes.

  Parameters are registered by index and wait for the method
  they belong to.  Methods are kept for the class that
  declares them.  A concrete class takes over the methods of
  its lineage and is queued for emission.

  Key definitions include:
    * `checkParameters`
    * `replaceParameter`
    * `Session`
    * `Registration`
    * `Session.registerMethod`
    * `Session.registerClass`
    * `Session.register`
    * `Session.takeClasses`
-/

------------------------------------------------------------
-- Checking Parameters
------------------------------------------------------------

namespace HostBindings

/-
  The parameter right before a required one, given those
  before it, nearest first, if any of them is optional.
-/
def predecessor?
    (earlier : List Parameter)
    (p : Parameter) : Option Parameter :=
  if p.isRequired && earlier.any (!·.isRequired) then
    earlier.head?
  else
    none

/-
  Check the rest of a parameter list after those that passed,
  nearest first.  At each parameter a repeated name is found
  before a violation of the order.
-/
def checkAfter
    (className methodName : String) :
    List Parameter → List Parameter → Except Fault Unit
| _, [] => .ok ()
| earlier, p :: rest =>
    if p.name ∈ earlier.map Parameter.name then
      .error (.duplicateParameter className methodName p.name)
    else
      match predecessor? earlier p with
      | some before =>
          .error (.orderingViolation className methodName
            p.name before.name)
      | none =>
          checkAfter className methodName (p :: earlier) rest

/-
  Names must be distinct, and nothing required may follow
  anything optional.
-/
def checkParameters
    (className methodName : String)
    (parameters : List Parameter) : Except Fault Unit :=
  checkAfter className methodName [] parameters

------------------------------------------------------------
-- Replacing Parameters
------------------------------------------------------------

/- The first replacement for a parameter, or itself. -/
def replaceParameter
    (replacements : List Replacement)
    (p : Parameter) : Parameter :=
  match replacements.find? (·.name = p.name) with
  | some replacement => replacement.parameter
  | none => p

namespace Method

/- Replace the parameters of a method, all at once. -/
def replace
    (replacements : List Replacement)
    (method : Method) : Method :=
  { method with
    parameters :=
      method.parameters.map (replaceParameter replacements) }

end Method

------------------------------------------------------------
-- Sessions
------------------------------------------------------------

/-
  What has been registered: the parameters that wait for a
  method, the methods of every declaring class, the declared
  classes, and the classes that wait for emission.
-/
structure Session where
  waiting : Keyed Nat Parameter
  declared : Keyed String (List Method)
  graph : ClassGraph
  queue : List ProxyClass
deriving DecidableEq, Repr

namespace Session

/- A session in which nothing has been registered. -/
def start : Session :=
  ⟨[], [], [], []⟩

/- How many parameters wait for a method. -/
def waitingCount (session : Session) : Nat :=
  session.waiting.length

/- Take the queued classes out of the session. -/
def takeClasses (session : Session) : List ProxyClass × Session :=
  (session.queue, { session with queue := [] })

/- Declare a class and its base. -/
def declareClass
    (session : Session)
    (className : String)
    (base : Option String) : Session :=
  { session with
    graph := Keyed.put className base session.graph }

/- Register a parameter at an index. -/
def registerParameter
    (session : Session)
    (index : Nat)
    (p : Parameter) : Session :=
  { session with
    waiting := Keyed.put index p session.waiting }

------------------------------------------------------------
-- Methods
------------------------------------------------------------

/-
  The waiting parameters at consecutive indices, or the first
  index without one.
-/
def gather
    (waiting : Keyed Nat Parameter) :
    Nat → Nat → Except Nat (List Parameter)
| _, 0 => .ok []
| index, count + 1 =>
    match Keyed.find? index waiting with
    | none => .error index
    | some p =>
        match gather waiting (index + 1) count with
        | .error missing => .error missing
        | .ok rest => .ok (p :: rest)

/- The methods that a class declares itself. -/
def methodsOf
    (session : Session)
    (className : String) : List Method :=
  (Keyed.find? className session.declared).getD []

/-
  Register a method with the waiting parameters.  Afterwards
  no parameter waits, whether or not the method is accepted.
-/
def registerMethod
    (session : Session)
    (className methodName : String)
    (arity : Nat)
    (traits : MethodTraits) : Session × Except Fault Unit :=
  let cleared := { session with waiting := [] }
  match gather session.waiting 0 arity with
  | .error index =>
      (cleared,
        .error (.missingDescriptor className methodName index))
  | .ok parameters =>
      match checkParameters className methodName parameters with
      | .error fault => (cleared, .error fault)
      | .ok () =>
          let method : Method :=
            { traits with
              name := methodName
              parameters := parameters }
          let declared :=
            Keyed.put className
              (session.methodsOf className ++ [method])
              session.declared
          ({ cleared with declared := declared }, .ok ())

------------------------------------------------------------
-- Classes
------------------------------------------------------------

/-
  The methods along a lineage, most distant ancestor first.
-/
def inherited
    (session : Session)
    (lineage : List String) : List Method :=
  lineage.reverse.flatMap session.methodsOf

/-
  One method for every name: an override takes the place of
  what it overrides.
-/
def flatten (methods : List Method) : List Method :=
  (Keyed.collect Method.name methods).values

/-
  Replace the parameters of methods one after the other and
  check each of them.
-/
def replaceAll
    (className : String)
    (replacements : List Replacement) :
    List Method → Except Fault (List Method)
| [] => .ok []
| method :: rest =>
    let replaced := method.replace replacements
    match
      checkParameters className replaced.name
        replaced.parameters with
    | .error fault => .error fault
    | .ok () =>
        match replaceAll className replacements rest with
        | .error fault => .error fault
        | .ok more => .ok (replaced :: more)

/- Methods after the replacements of a class, if any. -/
def substitute
    (className : String)
    (replacements : List Replacement)
    (methods : List Method) : Except Fault (List Method) :=
  if replacements = [] then
    .ok methods
  else
    replaceAll className replacements methods

/- Resolve a concrete class and queue it for emission. -/
def registerClass
    (session : Session)
    (className : String)
    (traits : ClassTraits) : Session × Except Fault Unit :=
  match session.graph.lineage className with
  | .error fault => (session, .error fault)
  | .ok lineage =>
      match
        substitute className traits.replacements
          (flatten (session.inherited lineage)) with
      | .error fault => (session, .error fault)
      | .ok methods =>
          let proxyClass : ProxyClass :=
            { traits with
              name := className
              baseName := lineage[1]?
              methods := methods }
          ({ session with
              queue := session.queue ++ [proxyClass] },
            .ok ())

end Session

------------------------------------------------------------
-- Registrations
------------------------------------------------------------

/- What can be asked of a session. -/
inductive Registration where
| declareClass (className : String) (base : Option String)
| parameter (index : Nat) (p : Parameter)
| method
    (className methodName : String)
    (arity : Nat)
    (traits : MethodTraits)
| proxyClass (className : String) (traits : ClassTraits)
deriving DecidableEq, Repr

namespace Session

/- Carry out a registration. -/
def register
    (session : Session) :
    Registration → Session × Except Fault Unit
| .declareClass className base =>
    (session.declareClass className base, .ok ())
| .parameter index p =>
    (session.registerParameter index p, .ok ())
| .method className methodName arity traits =>
    session.registerMethod className methodName arity traits
| .proxyClass className traits =>
    session.registerClass className traits

end Session

end HostBindings
