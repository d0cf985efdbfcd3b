import HostBindings.Proofs.Registration.Parameters

/-
  When a method is accepted.

  A method is stored with the parameters that wait at the
  indices below its arity, if they are all there and well
  ordered.  Otherwise the fault names the first index or the
  first parameter in the way.

  Main declarations:
    * `Session.gather_ok_iff`
    * `Session.missing_of_gather`
    * `Session.registerMethod_of_wellOrdered`
    * `Session.exists_of_registerMethod_ok`
    * `Session.fault_of_registerMethod`
-/

------------------------------------------------------------
-- Gathering
------------------------------------------------------------

namespace HostBindings

namespace Session

open Parameter

variable {waiting : Keyed Nat Parameter}
variable {index count missing : Nat}
variable {parameters : List Parameter}

/- Parameters are gathered when there is one at every index. -/
theorem gather_ok_iff :
    gather waiting index count = .ok parameters ↔
      (List.range' index count).map
          (Keyed.find? · waiting) =
        parameters.map some := by
  induction count generalizing index parameters with
  | zero =>
      rw [gather]
      cases parameters <;> simp
  | succ count ih =>
      rw [gather, List.range'_succ, List.map_cons]
      cases hFirst : Keyed.find? index waiting with
      | none => cases parameters <;> simp
      | some p =>
          cases hRest : gather waiting (index + 1) count with
          | error missing =>
              simp only [reduceCtorEq, false_iff]
              intro hAll
              cases parameters with
              | nil => cases hAll
              | cons first rest =>
                  have hOk := ih.mpr (List.cons.inj hAll).2
                  rw [hRest] at hOk
                  cases hOk
          | ok rest =>
              have hAll := ih.mp hRest
              rw [hAll]
              cases parameters with
              | nil => simp
              | cons first others =>
                  simp [List.map_inj_right]

/- Otherwise the first index without one is missing. -/
theorem missing_of_gather
    (hError : gather waiting index count = .error missing) :
    missing < index + count ∧
      Keyed.find? missing waiting = none ∧
      ∀ other, index ≤ other → other < missing →
        Keyed.find? other waiting ≠ none := by
  induction count generalizing index with
  | zero => cases hError
  | succ count ih =>
      rw [gather] at hError
      cases hFirst : Keyed.find? index waiting with
      | none =>
          rw [hFirst] at hError
          cases hError
          refine ⟨by omega, hFirst, ?_⟩
          intro other hFrom hBelow
          omega
      | some p =>
          rw [hFirst] at hError
          cases hRest : gather waiting (index + 1) count with
          | ok rest =>
              rw [hRest] at hError
              cases hError
          | error found =>
              rw [hRest] at hError
              cases hError
              rcases ih hRest with ⟨hBelow, hNone, hBefore⟩
              refine ⟨by omega, hNone, ?_⟩
              intro other hFrom hMissing
              rcases Nat.eq_or_lt_of_le hFrom with
                rfl | hLater
              · simp [hFirst]
              · exact hBefore other hLater hMissing

------------------------------------------------------------
-- Methods
------------------------------------------------------------

variable {session : Session}
variable {className methodName : String}
variable {arity : Nat}
variable {traits : MethodTraits}
variable {fault : Fault}

/-
  A method is stored with the parameters that wait for it, if
  they are there and well ordered.
-/
theorem registerMethod_of_wellOrdered
    (hTaken :
      (List.range arity).map
          (Keyed.find? · session.waiting) =
        parameters.map some)
    (hOrdered : WellOrdered parameters) :
    session.registerMethod className methodName arity traits =
      ({ session with
          waiting := []
          declared :=
            Keyed.put className
              (session.methodsOf className ++
                [{ traits with
                    name := methodName
                    parameters := parameters }])
              session.declared }, .ok ()) := by
  rw [List.range_eq_range', ← gather_ok_iff] at hTaken
  unfold registerMethod
  simp only [hTaken, checkParameters_ok_iff.mpr hOrdered]

/- A method that is not refused has such parameters. -/
theorem exists_of_registerMethod_ok
    (hOk :
      (session.registerMethod className methodName arity
        traits).2 = .ok ()) :
    ∃ parameters,
      (List.range arity).map
          (Keyed.find? · session.waiting) =
        parameters.map some ∧
      WellOrdered parameters := by
  unfold registerMethod at hOk
  cases hGather : gather session.waiting 0 arity with
  | error index =>
      rw [hGather] at hOk
      cases hOk
  | ok parameters =>
      cases hCheck :
          checkParameters className methodName parameters with
      | error fault =>
          simp only [hGather, hCheck] at hOk
          cases hOk
      | ok =>
          refine
            ⟨parameters, ?_, checkParameters_ok_iff.mp hCheck⟩
          rw [List.range_eq_range']
          exact gather_ok_iff.mp hGather

/-
  A method that is refused leaves nothing but the waiting
  parameters changed.  It lacks a parameter, the first of them
  being named, or it has all of them, and the fault is their
  first offence.
-/
theorem fault_of_registerMethod
    (hError :
      (session.registerMethod className methodName arity
        traits).2 = .error fault) :
    (session.registerMethod className methodName arity
        traits).1 =
      { session with waiting := [] } ∧
    ((∃ index < arity,
        Keyed.find? index session.waiting = none ∧
        (∀ other < index,
          Keyed.find? other session.waiting ≠ none) ∧
        fault =
          .missingDescriptor className methodName index) ∨
      ∃ parameters,
        (List.range arity).map
            (Keyed.find? · session.waiting) =
          parameters.map some ∧
        FirstOffence className methodName parameters
          fault) := by
  unfold registerMethod at hError ⊢
  cases hGather : gather session.waiting 0 arity with
  | error index =>
      rw [hGather] at hError
      cases hError
      rcases missing_of_gather hGather with
        ⟨hBelow, hNone, hBefore⟩
      refine
        ⟨rfl, .inl ⟨index, by omega, hNone, ?_, rfl⟩⟩
      intro other hOther
      exact hBefore other (Nat.zero_le other) hOther
  | ok parameters =>
      cases hCheck :
          checkParameters className methodName parameters with
      | error first =>
          simp only [hGather, hCheck] at hError ⊢
          cases hError
          refine ⟨trivial, .inr ⟨parameters, ?_, ?_⟩⟩
          · rw [List.range_eq_range']
            exact gather_ok_iff.mp hGather
          · exact firstOffence_of_checkParameters hCheck
      | ok =>
          simp only [hGather, hCheck] at hError
          cases hError

end Session

end HostBindings
