import HostBindings.Proofs.Registration.History

/-
  The parameters that wait for a method.

  A parameter waits at its index until the next method is
  registered, or until it is overwritten.  Whatever becomes
  of that method, nothing waits afterwards.

  Main declarations:
    * `Session.latestParameter?`
    * `Session.find?_waiting_register`
    * `Session.find?_waiting_run`
    * `Session.method_takes_latest_parameters`
-/

------------------------------------------------------------
-- Waiting Parameters
------------------------------------------------------------

namespace HostBindings

namespace Registration

/- Whether a method is registered. -/
def isMethod : Registration → Bool
| .method _ _ _ _ => true
| _ => false

/- The parameter that is registered at an index, if any. -/
def parameterAt? (index : Nat) : Registration → Option Parameter
| .parameter other p => if other = index then some p else none
| _ => none

end Registration

namespace Session

/-
  The last parameter that is registered at an index since the
  last method.
-/
def latestParameter?
    (index : Nat)
    (registrations : List Registration) : Option Parameter :=
  (registrations.reverse.takeWhile (!·.isMethod)).findSome?
    (·.parameterAt? index)

/- The registration that an operation makes, if any. -/
def Operation.registration? : Operation → Option Registration
| .register registration => some registration
| .takeClasses => none

open Parameter

variable {index : Nat}
variable {registration : Registration}

/- One more registration is the first to be looked at. -/
theorem latestParameter?_concat
    (registrations : List Registration) :
    latestParameter? index (registrations ++ [registration]) =
      if registration.isMethod then none
      else
        (registration.parameterAt? index).or
          (latestParameter? index registrations) := by
  unfold latestParameter?
  rw [List.reverse_concat]
  cases hMethod : registration.isMethod with
  | true => simp [hMethod]
  | false =>
      rw [List.takeWhile_cons_of_pos (by simp [hMethod]),
        List.findSome?_cons]
      cases registration.parameterAt? index <;> simp

/- What was registered before a method does not matter. -/
theorem latestParameter?_append
    (earlier later : List Registration)
    (hMethod : registration.isMethod = true) :
    latestParameter? index (earlier ++ registration :: later) =
      latestParameter? index later := by
  unfold latestParameter?
  congr 1
  rw [List.reverse_append, List.reverse_cons,
    List.append_assoc, List.takeWhile_append]
  split
  · rename_i hAll
    rw [List.singleton_append,
      List.takeWhile_cons_of_neg (by simp [hMethod]),
      List.append_nil]
    exact ((List.takeWhile_prefix _).eq_of_length hAll).symm
  · rfl

/- After a method nothing waits, whether or not it is stored. -/
theorem waiting_registerMethod
    (session : Session)
    (className methodName : String)
    (arity : Nat)
    (traits : MethodTraits) :
    (session.registerMethod className methodName arity
      traits).1.waiting = [] := by
  rcases session.registerMethod_cases className methodName
      arity traits with
    ⟨fault, hRefused⟩ | ⟨_, hAccepted⟩
  · rw [hRefused]
  · rw [hAccepted]

/- What waits at an index after a registration. -/
theorem find?_waiting_register
    (session : Session)
    (registration : Registration)
    (index : Nat) :
    Keyed.find? index
        (session.register registration).1.waiting =
      if registration.isMethod then none
      else
        (registration.parameterAt? index).or
          (Keyed.find? index session.waiting) := by
  cases registration with
  | declareClass className base => rfl
  | parameter other p =>
      by_cases hIndex : other = index
      · subst hIndex
        simp [register, registerParameter,
          Registration.isMethod, Registration.parameterAt?]
      · simp [register, registerParameter,
          Registration.isMethod, Registration.parameterAt?,
          hIndex, Keyed.find?_put_of_ne (Ne.symm hIndex)]
  | method className methodName arity traits =>
      rw [register, waiting_registerMethod]
      rfl
  | proxyClass className traits =>
      rw [register, registerClass_eq]
      cases session.resolveClass className traits <;> rfl

/-
  Whatever is done with a session, what waits at an index is
  the last parameter that was registered there since the last
  method.
-/
theorem find?_waiting_run
    (operations : List Operation)
    (index : Nat) :
    Keyed.find? index (History.run operations).session.waiting =
      latestParameter? index
        (operations.filterMap Operation.registration?) := by
  induction operations using List.reverseRecOn with
  | nil => rfl
  | append_singleton operations operation ih =>
      rw [History.run_concat, List.filterMap_append]
      cases operation with
      | takeClasses =>
          have hNone :
              List.filterMap Operation.registration?
                  [.takeClasses] =
                [] := rfl
          rw [hNone, List.append_nil, ← ih]
          rfl
      | register registration =>
          have hLast :
              List.filterMap Operation.registration?
                  [.register registration] =
                [registration] := rfl
          rw [hLast, latestParameter?_concat, ← ih]
          exact
            find?_waiting_register _ registration index

------------------------------------------------------------
-- Accepted Methods
------------------------------------------------------------

/- A method that is accepted comes last in its class. -/
theorem methodsOf_of_wellOrdered
    {session : Session}
    {className methodName : String}
    {arity : Nat}
    {traits : MethodTraits}
    {parameters : List Parameter}
    (hTaken :
      (List.range arity).map
          (Keyed.find? · session.waiting) =
        parameters.map some)
    (hOrdered : WellOrdered parameters)
    (name : String) :
    (session.registerMethod className methodName arity
        traits).1.methodsOf name =
      session.methodsOf name ++
        if name = className then
          [{ traits with
              name := methodName
              parameters := parameters }]
        else [] := by
  rw [registerMethod_of_wellOrdered hTaken hOrdered]
  by_cases hName : name = className
  · subst hName
    simp [methodsOf]
  · simp [methodsOf, hName, Keyed.find?_put_of_ne hName]

/-
  Whatever has been registered before, a method is accepted
  exactly when the last parameters registered since the method
  before are there at all indices below its arity and are
  well ordered.  It is then stored with these behind the
  methods of its class.  Otherwise nothing stored is changed,
  and the fault names the first missing index, or else the
  first offence.  Afterwards nothing waits, so that whatever
  waits later has been registered after the method.
-/
theorem method_takes_latest_parameters
    (operations : List Operation)
    (className methodName : String)
    (arity : Nat)
    (traits : MethodTraits) :
    let session := (History.run operations).session
    let latest? := fun index =>
      latestParameter? index
        (operations.filterMap Operation.registration?)
    let outcome :=
      session.registerMethod className methodName arity traits
    (outcome.2 = .ok () ↔
      ∃ parameters,
        (List.range arity).map latest? =
            parameters.map some ∧
          WellOrdered parameters) ∧
    (∀ parameters,
      (List.range arity).map latest? = parameters.map some →
        WellOrdered parameters →
          outcome.1.graph = session.graph ∧
          outcome.1.queue = session.queue ∧
          ∀ name,
            outcome.1.methodsOf name =
              session.methodsOf name ++
                if name = className then
                  [{ traits with
                      name := methodName
                      parameters := parameters }]
                else []) ∧
    (∀ fault,
      outcome.2 = .error fault →
        outcome.1 = { session with waiting := [] } ∧
        ((∃ index < arity,
            latest? index = none ∧
            (∀ other < index, latest? other ≠ none) ∧
            fault =
              .missingDescriptor className methodName
                index) ∨
          ∃ parameters,
            (List.range arity).map latest? =
              parameters.map some ∧
            FirstOffence className methodName parameters
              fault)) ∧
    outcome.1.waitingCount = 0 ∧
    (∀ later index,
      Keyed.find? index
          (History.run
            (operations ++
              .register
                  (.method className methodName arity
                    traits) ::
                later)).session.waiting =
        latestParameter? index
          (later.filterMap Operation.registration?)) := by
  intro session latest? outcome
  have hLatest :
      latest? = fun index =>
        Keyed.find? index session.waiting := by
    funext index
    exact (find?_waiting_run operations index).symm
  rw [hLatest]
  have hStored
      (parameters : List Parameter)
      (hTaken :
        (List.range arity).map
            (Keyed.find? · session.waiting) =
          parameters.map some)
      (hOrdered : WellOrdered parameters) :
      outcome = _ :=
    registerMethod_of_wellOrdered hTaken hOrdered
  refine
    ⟨⟨exists_of_registerMethod_ok, ?_⟩, ?_,
      fun fault hError => fault_of_registerMethod hError, ?_,
      ?_⟩
  · rintro ⟨parameters, hTaken, hOrdered⟩
    rw [hStored parameters hTaken hOrdered]
  · intro parameters hTaken hOrdered
    have hKept := hStored parameters hTaken hOrdered
    exact
      ⟨by rw [hKept], by rw [hKept],
        methodsOf_of_wellOrdered hTaken hOrdered⟩
  · rw [waitingCount]
    simp only [outcome, waiting_registerMethod]
    rfl
  · intro later index
    rw [find?_waiting_run, List.filterMap_append]
    exact latestParameter?_append _ _ rfl

/-
  Of the parameters at an index the last one counts, and those
  from before another method do not.  So a method of one
  parameter is accepted here, while the second parameter
  repeats a name and the third one is missing.
-/
theorem method_takes_latest_parameters_twice :
    let text := Parameter.new "text" .string .matrix true
    let digits := Parameter.new "digits" .number .matrix true
    let repeated := Parameter.new "text" .any .matrix false
    let traits := MethodTraits.returns .string .matrix
    let operations : List Operation :=
      [.register (.parameter 2 digits),
        .register (.method "Check" "first" 0 traits),
        .register (.parameter 1 digits),
        .register (.parameter 0 text),
        .register (.parameter 1 repeated)]
    let session := (History.run operations).session
    let second (arity : Nat) :=
      session.registerMethod "Check" "second" arity traits
    (second 1).2 = .ok () ∧
      (second 1).1.methodsOf "Check" =
        session.methodsOf "Check" ++
          [{ traits with
              name := "second"
              parameters := [text] }] ∧
      (second 2).2 =
        .error (.duplicateParameter "Check" "second" "text") ∧
      (second 2).1 = { session with waiting := [] } ∧
      (second 3).2 =
        .error (.missingDescriptor "Check" "second" 2) ∧
      (second 3).1.waitingCount = 0 := by
  intro text digits repeated traits operations session second
  have hTaken :
      ((List.range 1).map fun index =>
          latestParameter? index
            (operations.filterMap Operation.registration?)) =
        [text].map some := by
    decide +kernel
  have hOrdered : WellOrdered [text] := by decide +kernel
  have hRepeated :
      (second 2).2 =
        .error (.duplicateParameter "Check" "second" "text") := by
    decide +kernel
  have hMissing :
      (second 3).2 =
        .error (.missingDescriptor "Check" "second" 2) := by
    decide +kernel
  rcases method_takes_latest_parameters operations "Check"
      "second" 1 traits with
    ⟨hOk, hStored, _⟩
  rcases method_takes_latest_parameters operations "Check"
      "second" 2 traits with
    ⟨_, _, hRefused, _⟩
  rcases method_takes_latest_parameters operations "Check"
      "second" 3 traits with
    ⟨_, _, _, hNone, _⟩
  exact
    ⟨hOk.mpr ⟨[text], hTaken, hOrdered⟩,
      (hStored [text] hTaken hOrdered).2.2 "Check", hRepeated,
      (hRefused _ hRepeated).1, hMissing, hNone⟩

end Session

end HostBindings
