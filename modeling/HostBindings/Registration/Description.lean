import HostBindings.Registration.Session

/-
  Descriptions of proxies.

  A description makes registrations one after the other and
  may go on as their outcomes suggest.  It ends well or with
  a fault.

  Key definitions include:
    * `Description`
    * `Description.run`
    * `Description.step`
    * `Description.andThen`
    * `Description.ignoring`
    * `Description.method`
    * `Description.abstractClass`
    * `Description.concreteClass`
    * `ProxyModule`
-/

------------------------------------------------------------
-- Descriptions
------------------------------------------------------------

namespace HostBindings

/-
  A finished description with its outcome, or a registration
  and how to go on from its outcome.
-/
inductive Description where
| finish (outcome : Except Fault Unit)
| register
    (registration : Registration)
    (next : Except Fault Unit → Description)

namespace Description

/- Make the registrations of a description in a session. -/
def run :
    Description → Session → Session × Except Fault Unit
| .finish outcome, session => (session, outcome)
| .register registration next, session =>
    let (session, outcome) := session.register registration
    (next outcome).run session

/- A description that does nothing. -/
def done : Description :=
  .finish (.ok ())

/- A single registration. -/
def step (registration : Registration) : Description :=
  .register registration .finish

/- Go on with a second description if the first ends well. -/
def andThen : Description → Description → Description
| .finish (.ok ()), second => second
| .finish (.error fault), _ => .finish (.error fault)
| .register registration next, second =>
    .register registration fun outcome =>
      (next outcome).andThen second

/- End well whatever the outcome. -/
def ignoring : Description → Description
| .finish _ => done
| .register registration next =>
    .register registration fun outcome =>
      (next outcome).ignoring

/- Descriptions one after the other up to the first fault. -/
def sequence : List Description → Description
| [] => done
| first :: rest => first.andThen (sequence rest)

------------------------------------------------------------
-- Methods and Classes
------------------------------------------------------------

/- Parameters at consecutive indices. -/
def parametersFrom : Nat → List Parameter → List Description
| _, [] => []
| index, p :: rest =>
    step (.parameter index p) :: parametersFrom (index + 1) rest

/- A method after its parameters in order. -/
def method
    (className methodName : String)
    (traits : MethodTraits)
    (parameters : List Parameter) : Description :=
  sequence
    (parametersFrom 0 parameters ++
      [step (.method className methodName parameters.length
        traits)])

/- A class that is only there to be extended. -/
def abstractClass
    (className : String)
    (base : Option String) : Description :=
  step (.declareClass className base)

/- A class that is declared and queued for emission. -/
def concreteClass
    (className : String)
    (base : Option String)
    (traits : ClassTraits) : Description :=
  (abstractClass className base).andThen
    (step (.proxyClass className traits))

end Description

------------------------------------------------------------
-- Modules
------------------------------------------------------------

/- A named description. -/
structure ProxyModule where
  name : String
  description : Description

end HostBindings
