import HostBindings.Elaboration.Emitter
import HostBindings.Registration.Description

/-
  Runs of an emitter over proxy modules.

  Modules are described one after the other.  The classes of
  a module are emitted before the next module is described,
  and each class is followed by its functions.  Names of
  functions must be distinct over the whole run.  Whatever
  happens, the emitter is told the end.

  Key definitions include:
    * `Summary`
    * `Event`
    * `Run.Progress`
    * `Run.Step`
    * `Run.emitMethod`
    * `Run.emitClass`
    * `Run.elaborateModule`
    * `Run.Report`
    * `run`
-/

------------------------------------------------------------
-- Progress
------------------------------------------------------------

namespace HostBindings

/- How much has been generated. -/
structure Summary where
  modules : Nat
  classes : Nat
  functions : Nat
deriving DecidableEq, Repr

/- What happens in a run. -/
inductive Event where
| describe (moduleName : String)
| call (made : Call)
deriving DecidableEq, Repr

namespace Event

/- The call that an event is, if it is one. -/
def call? : Event → Option Call
| .describe _ => none
| .call made => some made

end Event

namespace Run

/-
  How far a run has come: the state of the emitter, what has
  been registered, the names that are taken, what has been
  counted, and what has happened so far.
-/
structure Progress (σ : Type) where
  state : σ
  session : Session
  taken : List String
  summary : Summary
  trace : List Event
  log : List LogLine

/- A step of a run, which may fail and still make progress. -/
abbrev Step (σ : Type) :=
  Progress σ → Progress σ × Except Fault Unit

variable {σ : Type}

namespace Progress

/- The start of a run. -/
def start (state : σ) : Progress σ where
  state := state
  session := Session.start
  taken := []
  summary := ⟨0, 0, 0⟩
  trace := []
  log := []

/- Write lines to the log. -/
def note
    (p : Progress σ)
    (lines : List LogLine) : Progress σ :=
  { p with log := p.log ++ lines }

/- Count a function. -/
def countFunction (p : Progress σ) : Progress σ :=
  { p with
    summary.functions := p.summary.functions + 1 }

/- Count a class. -/
def countClass (p : Progress σ) : Progress σ :=
  { p with summary.classes := p.summary.classes + 1 }

/- Count a module. -/
def countModule (p : Progress σ) : Progress σ :=
  { p with summary.modules := p.summary.modules + 1 }

end Progress

------------------------------------------------------------
-- Steps
------------------------------------------------------------

/- Take a second step if the first goes well. -/
def andThen (first second : Step σ) : Step σ :=
  fun p =>
    match first p with
    | (p, .ok ()) => second p
    | (p, .error fault) => (p, .error fault)

/- Take steps one after the other up to the first fault. -/
def inTurn : List (Step σ) → Step σ
| [] => fun p => (p, .ok ())
| first :: rest => andThen first (inTurn rest)

/- A step that only changes the progress. -/
def advance (change : Progress σ → Progress σ) : Step σ :=
  fun p => (change p, .ok ())

/- Call the emitter. -/
def callEmitter (emitter : Emitter σ) (made : Call) : Step σ :=
  fun p =>
    let response := emitter.respond p.state made
    ({ p with
        state := response.state
        trace := p.trace ++ [.call made]
        log := p.log ++ response.log },
      response.result)

------------------------------------------------------------
-- Functions and Classes
------------------------------------------------------------

/- The texts about a method; hidden ones have none. -/
def localizations
    (catalog : Option Catalog)
    (proxyClass : ProxyClass)
    (method : Method)
    (name : String) : Except Fault Localizations :=
  match catalog with
  | none => .ok []
  | some catalog =>
      if method.isHidden then
        .ok []
      else
        catalog.localize proxyClass.nameSpace name
          method.parameters

/- Emit a function under a name that is free. -/
def emitNamed
    (emitter : Emitter σ)
    (catalog : Option Catalog)
    (proxyClass : ProxyClass)
    (method : Method)
    (name : String) : Step σ :=
  fun p =>
    match localizations catalog proxyClass method name with
    | .error fault => (p, .error fault)
    | .ok localizations =>
        andThen
          (callEmitter emitter
            (.function proxyClass method
              { name := name
                nameSpace := proxyClass.nameSpace
                localizations := localizations }))
          (advance Progress.countFunction)
          (p.note (Catalog.warnings name localizations))

/- Emit the function of a method. -/
def emitMethod
    (emitter : Emitter σ)
    (catalog : Option Catalog)
    (proxyClass : ProxyClass)
    (method : Method) : Step σ :=
  fun p =>
    match functionName proxyClass.methodInfix method with
    | .error fault => (p, .error fault)
    | .ok name =>
        let qualified :=
          qualifiedName proxyClass.nameSpace name
        if qualified ∈ p.taken then
          (p, .error (.duplicateFunction qualified))
        else
          emitNamed emitter catalog proxyClass method name
            { p with taken := qualified :: p.taken }

/- Emit a class and then its functions. -/
def emitClass
    (emitter : Emitter σ)
    (catalog : Option Catalog)
    (proxyClass : ProxyClass) : Step σ :=
  andThen (callEmitter emitter (.object proxyClass))
    (andThen
      (inTurn
        (proxyClass.methods.map
          (emitMethod emitter catalog proxyClass)))
      (advance Progress.countClass))

------------------------------------------------------------
-- Modules
------------------------------------------------------------

/- Make the registrations of a module. -/
def describe (module : ProxyModule) : Step σ :=
  fun p =>
    let (session, outcome) := module.description.run p.session
    ({ p with
        session := session
        trace := p.trace ++ [.describe module.name]
        log :=
          p.log ++
            [.info ("Elaborating module " ++ module.name)] },
      outcome)

/- No parameter may be left waiting after a module. -/
def checkWaiting (module : ProxyModule) : Step σ :=
  fun p =>
    let count := p.session.waitingCount
    if 0 < count then
      (p, .error (.danglingParameters module.name count))
    else
      (p, .ok ())

/- Emit the classes that are queued. -/
def emitQueue
    (emitter : Emitter σ)
    (catalog : Option Catalog) : Step σ :=
  fun p =>
    let (classes, session) := p.session.takeClasses
    inTurn (classes.map (emitClass emitter catalog))
      { p with session := session }

/- Describe a module and emit its classes. -/
def elaborateModule
    (emitter : Emitter σ)
    (catalog : Option Catalog)
    (module : ProxyModule) : Step σ :=
  andThen (describe module)
    (andThen (checkWaiting module)
      (andThen (emitQueue emitter catalog)
        (advance Progress.countModule)))

/- Everything in a run up to its end. -/
def elaborate
    (emitter : Emitter σ)
    (catalog : Option Catalog)
    (modules : List ProxyModule) : Step σ :=
  andThen (callEmitter emitter .prepare)
    (inTurn (modules.map (elaborateModule emitter catalog)))

------------------------------------------------------------
-- Whole Runs
------------------------------------------------------------

/- The state after a run, what happened, and the result. -/
structure Report (σ : Type) where
  state : σ
  trace : List Event
  log : List LogLine
  result : Except Fault Summary

namespace Report

/- The calls of a run, in order. -/
def calls (report : Report σ) : List Call :=
  report.trace.filterMap Event.call?

/- The report on a run that has come to its end. -/
def ofProgress
    (p : Progress σ)
    (result : Except Fault Summary) : Report σ :=
  ⟨p.state, p.trace, p.log, result⟩

end Report

/- The line of the log for a run that went well. -/
def generated (summary : Summary) : LogLine :=
  .info ("Generated " ++ toString summary.functions ++
    " functions from " ++ toString summary.classes ++
    " classes in " ++ toString summary.modules ++ " modules")

/- End a run in which everything went well so far. -/
def finishWell
    (emitter : Emitter σ)
    (p : Progress σ) : Report σ :=
  match callEmitter emitter (.finish true) p with
  | (p, .ok ()) =>
      .ofProgress (p.note [generated p.summary])
        (.ok p.summary)
  | (p, .error fault) => .ofProgress p (.error fault)

/- End a run after a fault, which stays the result. -/
def finishBadly
    (emitter : Emitter σ)
    (fault : Fault)
    (p : Progress σ) : Report σ :=
  let failed :=
    p.note [.error ("Generation failed: " ++ fault.message)]
  match callEmitter emitter (.finish false) failed with
  | (p, .ok ()) => .ofProgress p (.error fault)
  | (p, .error second) =>
      .ofProgress
        (p.note
          [.error ("Finalize after failure also failed: " ++
            second.message)])
        (.error fault)

end Run

/- Run an emitter over modules, from a state. -/
def run
    {σ : Type}
    (emitter : Emitter σ)
    (catalog : Option Catalog)
    (modules : List ProxyModule)
    (state : σ) : Run.Report σ :=
  match
    Run.elaborate emitter catalog modules
      (Run.Progress.start state) with
  | (p, .ok ()) => Run.finishWell emitter p
  | (p, .error fault) => Run.finishBadly emitter fault p

end HostBindings
