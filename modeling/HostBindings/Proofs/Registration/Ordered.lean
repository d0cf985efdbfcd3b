import HostBindings.Proofs.Elaboration.Stages
import HostBindings.Proofs.Registration.History

/-
  The order of the parameters of emitted methods.

  What a description registers keeps the methods of a session
  in order, and so are those of the classes that it queues.
  So every method that a run can come to has well-ordered
  parameters, whether it is inherited, replaced or neither.

  Main declarations:
    * `Session.Ordered.registered`
    * `Description.ordered_run`
    * `Description.ordered_registered`
    * `Run.wellOrdered_of_mem_idealStages`
-/

------------------------------------------------------------
-- Sessions
------------------------------------------------------------

namespace HostBindings

/- All methods of a class have well-ordered parameters. -/
def ProxyClass.Ordered (proxyClass : ProxyClass) : Prop :=
  ∀ method ∈ proxyClass.methods,
    Parameter.WellOrdered method.parameters

variable {session : Session}

/- A class that is queued is in order if the session is. -/
theorem Session.Ordered.registered
    {registration : Registration}
    {proxyClass : ProxyClass}
    (hOrdered : session.Ordered)
    (hMem : proxyClass ∈ session.registered registration) :
    proxyClass.Ordered := by
  cases registration with
  | proxyClass className traits =>
      rw [Session.registered, Option.mem_toList] at hMem
      cases hResolved :
          session.resolveClass className traits with
      | error fault =>
          rw [hResolved] at hMem
          cases hMem
      | ok resolved =>
          rw [hResolved] at hMem
          cases hMem
          exact
            Session.wellOrdered_of_resolveClass hOrdered
              hResolved
  | _ => cases hMem

------------------------------------------------------------
-- Descriptions
------------------------------------------------------------

namespace Description

/- A description keeps a session in order. -/
theorem ordered_run
    (description : Description)
    (hOrdered : session.Ordered) :
    (description.run session).1.Ordered := by
  induction description generalizing session with
  | finish outcome => exact hOrdered
  | register registration next ih =>
      exact ih _ (hOrdered.register registration)

/- The classes that it queues are in order. -/
theorem ordered_registered
    {description : Description}
    {proxyClass : ProxyClass}
    (hOrdered : session.Ordered)
    (hMem : proxyClass ∈ description.registered session) :
    proxyClass.Ordered := by
  induction description generalizing session with
  | finish outcome => cases hMem
  | register registration next ih =>
      rw [registered, List.mem_append] at hMem
      rcases hMem with hNow | hLater
      · exact hOrdered.registered hNow
      · exact ih _ (hOrdered.register registration) hLater

end Description

------------------------------------------------------------
-- Stages
------------------------------------------------------------

namespace Run

/- The methods at the stages of a class are its own. -/
theorem mem_classStages
    {proxyClass emitted : ProxyClass}
    {method : Method}
    (hMem :
      Stage.function emitted method ∈
        classStages proxyClass) :
    emitted = proxyClass ∧ method ∈ proxyClass.methods := by
  simpa [classStages, and_comm, eq_comm] using hMem

/- Methods are in order if the session is in the beginning. -/
theorem wellOrdered_of_mem_stagesFrom
    {modules : List ProxyModule}
    {proxyClass : ProxyClass}
    {method : Method}
    (hOrdered : session.Ordered)
    (hMem :
      Stage.function proxyClass method ∈
        stagesFrom session modules) :
    Parameter.WellOrdered method.parameters := by
  induction modules generalizing session with
  | nil => cases hMem
  | cons module modules ih =>
      rw [stagesFrom, List.mem_append] at hMem
      rcases hMem with hNow | hLater
      · rcases List.mem_cons.mp hNow with hNot | hStage
        · cases hNot
        · rcases List.mem_flatMap.mp hStage with
            ⟨registered, hRegistered, hMethod⟩
          exact
            Description.ordered_registered hOrdered hRegistered
              method (mem_classStages hMethod).2
      · have hAfter : (module.sessionAfter session).Ordered :=
          module.description.ordered_run hOrdered
        exact ih hAfter hLater

/- So are all methods that a run can come to. -/
theorem wellOrdered_of_mem_idealStages
    {modules : List ProxyModule}
    {proxyClass : ProxyClass}
    {method : Method}
    (hMem :
      Stage.function proxyClass method ∈
        idealStages modules) :
    Parameter.WellOrdered method.parameters :=
  wellOrdered_of_mem_stagesFrom Session.ordered_start hMem

end Run

end HostBindings
