import HostBindings.Proofs.Registration.Waiting

/-
  What becomes of a parameter that waits for a method.

  Registrations are made one after the other.  If all of them
  are accepted and nothing waits in the end, then a parameter
  that has been waiting, and has not been overwritten, meets
  a method.  The method takes it if its arity covers the
  index of the parameter.  Otherwise the parameter is gone.

  Main declarations:
    * `Session.registerAll`
    * `Session.Accepts`
    * `Session.overwritten`
    * `Session.nextMethod?`
    * `Session.exists_nextMethod_of_waiting`
    * `Description.registrations`
    * `Description.session_run`
-/

------------------------------------------------------------
-- Several Registrations
------------------------------------------------------------

namespace HostBindings

namespace Session

/- Make registrations, whether or not they are accepted. -/
def registerAll
    (session : Session)
    (registrations : List Registration) : Session :=
  registrations.foldl
    (fun session registration =>
      (session.register registration).1)
    session

/- Registrations that are all accepted in their turn. -/
def Accepts : Session → List Registration → Prop
| _, [] => True
| session, registration :: rest =>
    (session.register registration).2 = .ok () ∧
      Accepts (session.register registration).1 rest

/-
  Whether a parameter is registered at an index before the
  next method is.
-/
def overwritten
    (index : Nat)
    (registrations : List Registration) : Bool :=
  (registrations.takeWhile (!·.isMethod)).any fun other =>
    (other.parameterAt? index).isSome

/-
  The next method that is registered, with its class and the
  arity that is given for it, if it is accepted.
-/
def nextMethod? :
    Session → List Registration → Option (String × Nat × Method)
| _, [] => none
| session, .method className methodName arity traits :: _ =>
    (session.declared?
        (.method className methodName arity traits)).map
      fun declared => (declared.1, arity, declared.2)
| session, registration :: rest =>
    nextMethod? (session.register registration).1 rest

variable {session : Session}
variable {registration : Registration}
variable {registrations first second : List Registration}
variable {index : Nat}
variable {p : Parameter}

@[simp]
theorem registerAll_nil : session.registerAll [] = session :=
  rfl

@[simp]
theorem registerAll_cons :
    session.registerAll (registration :: registrations) =
      (session.register registration).1.registerAll
        registrations := rfl

/- Registrations may be made in two parts. -/
theorem registerAll_append :
    session.registerAll (first ++ second) =
      (session.registerAll first).registerAll second :=
  List.foldl_append

/- They are accepted if both parts are. -/
theorem accepts_append :
    session.Accepts (first ++ second) ↔
      session.Accepts first ∧
        (session.registerAll first).Accepts second := by
  induction first generalizing session with
  | nil => simp [Accepts]
  | cons registration first ih =>
      simp [Accepts, ih, and_assoc]

/- Methods are only ever added. -/
theorem methodsOf_prefix_registerAll
    (session : Session)
    (registrations : List Registration)
    (className : String) :
    session.methodsOf className <+:
      (session.registerAll registrations).methodsOf
        className := by
  induction registrations generalizing session with
  | nil => exact List.prefix_rfl
  | cons registration rest ih =>
      rw [registerAll_cons]
      refine List.IsPrefix.trans ?_ (ih _)
      rw [methodsOf_register]
      exact List.prefix_append _ _

------------------------------------------------------------
-- Waiting for a Method
------------------------------------------------------------

/- A registration that is no method overwrites or does not. -/
theorem overwritten_cons
    (hOther : registration.isMethod = false) :
    overwritten index (registration :: registrations) =
      ((registration.parameterAt? index).isSome ||
        overwritten index registrations) := by
  rw [overwritten,
    List.takeWhile_cons_of_pos (by simp [hOther])]
  rfl

/- The next method is not one of the other registrations. -/
theorem nextMethod?_cons
    (hOther : registration.isMethod = false) :
    session.nextMethod? (registration :: registrations) =
      (session.register registration).1.nextMethod?
        registrations := by
  cases registration with
  | method className methodName arity traits => cases hOther
  | _ => rfl

/-
  A method takes what waits at the indices below its arity,
  each parameter at its index, and no more.
-/
theorem getElem?_of_map_eq
    {arity : Nat}
    {parameters : List Parameter}
    (hTaken :
      (List.range arity).map
          (Keyed.find? · session.waiting) =
        parameters.map some)
    (hWaiting : Keyed.find? index session.waiting = some p) :
    parameters[index]? =
      if index < arity then some p else none := by
  have hAt := congrArg (·[index]?) hTaken
  simp only [List.getElem?_map] at hAt
  by_cases hIndex : index < arity
  · rw [List.getElem?_range hIndex, Option.map_some, hWaiting]
      at hAt
    rw [if_pos hIndex]
    simpa [eq_comm] using hAt
  · rw [if_neg hIndex]
    have hOutside : (List.range arity)[index]? = none := by
      simpa using hIndex
    rw [hOutside] at hAt
    simpa [eq_comm] using hAt

/-
  A parameter that waits meets the next method, if everything
  is accepted until nothing waits and it is not overwritten.
-/
theorem exists_nextMethod_of_waiting
    (hWaiting : Keyed.find? index session.waiting = some p)
    (hAccepts : session.Accepts registrations)
    (hKept : overwritten index registrations = false)
    (hSettled :
      (session.registerAll registrations).waitingCount = 0) :
    ∃ className arity method,
      session.nextMethod? registrations =
          some (className, arity, method) ∧
        method ∈
          (session.registerAll registrations).methodsOf
            className ∧
        method.parameters[index]? =
          if index < arity then some p else none := by
  induction registrations generalizing session with
  | nil =>
      -- the parameter would still be waiting
      have hNone : session.waiting = [] :=
        List.length_eq_zero_iff.mp hSettled
      rw [hNone] at hWaiting
      cases hWaiting
  | cons registration rest ih =>
      cases hMethod : registration.isMethod with
      | false =>
          rw [overwritten_cons hMethod, Bool.or_eq_false_iff]
            at hKept
          rw [nextMethod?_cons hMethod]
          apply ih ?_ hAccepts.2 hKept.2 hSettled
          rw [find?_waiting_register, hMethod]
          rw [Option.isSome_eq_false_iff] at hKept
          simpa [Option.isNone_iff_eq_none.mp hKept.1] using
            hWaiting
      | true =>
          cases registration with
          | method className methodName arity traits =>
              have hOk := hAccepts.1
              rw [register] at hOk
              rcases exists_of_registerMethod_ok hOk with
                ⟨parameters, hTaken, _⟩
              have hDeclared :
                  session.declared?
                      (.method className methodName arity
                        traits) =
                    some
                      (className,
                        { traits with
                          name := methodName
                          parameters := parameters }) := by
                rw [declared?, hOk,
                  waitingBelow_of_map_eq hTaken]
              refine
                ⟨className, arity, _,
                  by rw [nextMethod?, hDeclared]; rfl, ?_,
                  getElem?_of_map_eq hTaken hWaiting⟩
              rw [registerAll_cons]
              apply
                (methodsOf_prefix_registerAll _ rest
                  className).subset
              rw [methodsOf_register, hDeclared]
              simp [methodsFor]
          | _ => cases hMethod

end Session

------------------------------------------------------------
-- Descriptions
------------------------------------------------------------

namespace Description

/- The registrations that a description makes in a session. -/
def registrations :
    Description → Session → List Registration
| .finish _, _ => []
| .register registration next, session =>
    let (after, outcome) := session.register registration
    registration :: (next outcome).registrations after

/- A description comes to what it registers. -/
theorem session_run
    (description : Description)
    (session : Session) :
    (description.run session).1 =
      session.registerAll
        (description.registrations session) := by
  induction description generalizing session with
  | finish outcome => rfl
  | register registration next ih =>
      exact ih _ _

end Description

end HostBindings
