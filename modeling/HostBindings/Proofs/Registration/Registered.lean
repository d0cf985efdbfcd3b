import Mathlib
import HostBindings.Registration.Description

/-
  The classes that a description registers.

  Every registration of a class that goes well puts one class
  at the end of the queue, and nothing else touches the queue.

  Main declarations:
    * `Session.resolveClass`
    * `Session.registered`
    * `Session.queue_register`
    * `Description.registered`
    * `Description.queue_run`
-/

------------------------------------------------------------
-- Single Registrations
------------------------------------------------------------

namespace HostBindings

namespace Session

/- The class with the methods of its lineage. -/
def resolveClass
    (session : Session)
    (className : String)
    (traits : ClassTraits) : Except Fault ProxyClass :=
  match session.graph.lineage className with
  | .error fault => .error fault
  | .ok lineage =>
      match
        substitute className traits.replacements
          (flatten (session.inherited lineage)) with
      | .error fault => .error fault
      | .ok methods =>
          .ok
            { traits with
              name := className
              baseName := lineage[1]?
              methods := methods }

/- Registering a class queues it once it is resolved. -/
theorem registerClass_eq
    (session : Session)
    (className : String)
    (traits : ClassTraits) :
    session.registerClass className traits =
      match session.resolveClass className traits with
      | .error fault => (session, .error fault)
      | .ok proxyClass =>
          ({ session with
              queue := session.queue ++ [proxyClass] },
            .ok ()) := by
  unfold registerClass resolveClass
  cases session.graph.lineage className with
  | error fault => rfl
  | ok lineage =>
      simp only
      cases substitute className traits.replacements
          (flatten (session.inherited lineage)) with
      | error fault => rfl
      | ok methods => rfl

/- The class that a registration adds to the queue. -/
def registered
    (session : Session) : Registration → List ProxyClass
| .proxyClass className traits =>
    (session.resolveClass className traits).toOption.toList
| _ => []

/- A method is registered without a look at the queue. -/
theorem queue_registerMethod
    (session : Session)
    (className methodName : String)
    (arity : Nat)
    (traits : MethodTraits) :
    (session.registerMethod className methodName arity
      traits).1.queue = session.queue := by
  unfold registerMethod
  cases gather session.waiting 0 arity with
  | error index => rfl
  | ok parameters =>
      simp only
      cases checkParameters className methodName parameters with
      | error fault => rfl
      | ok => rfl

/- The queue after a registration. -/
theorem queue_register
    (session : Session)
    (registration : Registration) :
    (session.register registration).1.queue =
      session.queue ++ session.registered registration := by
  cases registration with
  | declareClass className base =>
      simp [register, registered, declareClass]
  | parameter index p =>
      simp [register, registered, registerParameter]
  | method className methodName arity traits =>
      simp [register, registered, queue_registerMethod]
  | proxyClass className traits =>
      rw [register, registerClass_eq, registered]
      cases session.resolveClass className traits with
      | error fault => simp [Except.toOption]
      | ok proxyClass => rfl

end Session

------------------------------------------------------------
-- Descriptions
------------------------------------------------------------

namespace Description

/-
  The classes that a description registers with success, in
  the order of their registrations.
-/
def registered : Description → Session → List ProxyClass
| .finish _, _ => []
| .register registration next, session =>
    let (after, outcome) := session.register registration
    session.registered registration ++
      (next outcome).registered after

/- The queue after a description. -/
theorem queue_run
    (description : Description)
    (session : Session) :
    (description.run session).1.queue =
      session.queue ++ description.registered session := by
  induction description generalizing session with
  | finish outcome =>
      simp [run, registered]
  | register registration next ih =>
      rw [run, registered, ih, Session.queue_register,
        List.append_assoc]

end Description

end HostBindings
