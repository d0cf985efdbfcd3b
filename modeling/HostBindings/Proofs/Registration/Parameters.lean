import Mathlib
import HostBindings.Proofs.Proxy.Chains
import HostBindings.Registration.Session

/-
  What the checks of parameters accept.

  A list of parameters passes when it is well ordered, and
  otherwise the check finds the first offence.  Methods pass
  their replacements when the replaced lists are well ordered,
  all of them.

  Main declarations:
    * `Parameter.wellOrdered_concat_iff`
    * `wellOrdered_reverse_cons_iff`
    * `checkParameters_ok_iff`
    * `FirstOffence`
    * `firstOffence_of_checkParameters`
    * `Session.replaceAll_ok_iff`
    * `Session.substitute_ok_iff`
-/

------------------------------------------------------------
-- Well-Ordered Lists
------------------------------------------------------------

namespace HostBindings

namespace Parameter

/- No parameters are well ordered. -/
theorem wellOrdered_nil : WellOrdered [] :=
  ⟨List.nodup_nil, List.Pairwise.nil⟩

/- The parameters in front of others are well ordered too. -/
theorem WellOrdered.of_append
    {earlier later : List Parameter}
    (hOrdered : WellOrdered (earlier ++ later)) :
    WellOrdered earlier := by
  rcases hOrdered with ⟨hNames, hOrder⟩
  rw [List.map_append] at hNames
  exact
    ⟨hNames.of_append_left,
      (List.pairwise_append.mp hOrder).1⟩

/-
  One more parameter is well ordered behind others when its
  name is new, and when it is required only if they are.
-/
theorem wellOrdered_concat_iff
    {earlier : List Parameter}
    {p : Parameter} :
    WellOrdered (earlier ++ [p]) ↔
      WellOrdered earlier ∧
        p.name ∉ earlier.map name ∧
          (p.isRequired = true →
            ∀ other ∈ earlier, other.isRequired = true) := by
  unfold WellOrdered
  rw [List.map_append, List.map_singleton,
    List.nodup_append, List.pairwise_append]
  constructor
  · rintro ⟨⟨hNames, _, hNew⟩, hOrder, _, hLast⟩
    refine ⟨⟨hNames, hOrder⟩, ?_, ?_⟩
    · intro hMem
      exact hNew p.name hMem p.name (by simp) rfl
    · intro hRequired other hOther
      exact hLast other hOther p (by simp) hRequired
  · rintro ⟨⟨hNames, hOrder⟩, hNew, hLast⟩
    refine ⟨⟨hNames, by simp, ?_⟩, hOrder, by simp, ?_⟩
    · intro old hOld new hIsNew hEq
      rw [List.mem_singleton] at hIsNew
      subst hIsNew hEq
      exact hNew hOld
    · intro other hOther new hIsNew hRequired
      rw [List.mem_singleton] at hIsNew
      subst hIsNew
      exact hLast hRequired other hOther

end Parameter

------------------------------------------------------------
-- Checks
------------------------------------------------------------

open Parameter

/- There is a predecessor to complain about, or there is none. -/
theorem predecessor?_eq_none_iff
    {earlier : List Parameter}
    {p : Parameter} :
    predecessor? earlier p = none ↔
      (p.isRequired = true →
        ∀ other ∈ earlier, other.isRequired = true) := by
  unfold predecessor?
  cases earlier with
  | nil => simp
  | cons first rest =>
      simp only [List.head?_cons, ite_eq_right_iff,
        Bool.and_eq_true, List.any_eq_true,
        Bool.not_eq_true', reduceCtorEq, imp_false]
      constructor
      · intro hNone hRequired other hOther
        by_contra hOptional
        apply hNone
        exact
          ⟨hRequired, other, hOther,
            Bool.eq_false_of_not_eq_true hOptional⟩
      · rintro hAll ⟨hRequired, other, hOther, hOptional⟩
        rw [hAll hRequired other hOther] at hOptional
        cases hOptional

/-
  One more parameter passes behind those that have passed
  when its name is new and there is nothing to complain about.
-/
theorem wellOrdered_reverse_cons_iff
    {earlier : List Parameter}
    {p : Parameter} :
    WellOrdered (p :: earlier).reverse ↔
      WellOrdered earlier.reverse ∧
        p.name ∉ earlier.map name ∧
          predecessor? earlier p = none := by
  rw [List.reverse_cons, wellOrdered_concat_iff,
    predecessor?_eq_none_iff]
  simp

/-
  The rest of a list passes when it is well ordered behind
  the parameters that have passed.
-/
theorem checkAfter_ok_iff
    {className methodName : String}
    {earlier rest : List Parameter}
    (hEarlier : WellOrdered earlier.reverse) :
    checkAfter className methodName earlier rest = .ok () ↔
      WellOrdered (earlier.reverse ++ rest) := by
  induction rest generalizing earlier with
  | nil =>
      rw [checkAfter, List.append_nil]
      exact ⟨fun _ => hEarlier, fun _ => rfl⟩
  | cons p rest ih =>
      have hShift :
          earlier.reverse ++ p :: rest =
            (p :: earlier).reverse ++ rest := by
        simp
      rw [checkAfter, hShift]
      by_cases hName : p.name ∈ earlier.map name
      · rw [if_pos hName]
        constructor
        · intro hOk
          cases hOk
        · intro hOrdered
          have hNext :=
            wellOrdered_reverse_cons_iff.mp hOrdered.of_append
          exact absurd hName hNext.2.1
      · rw [if_neg hName]
        cases hBefore : predecessor? earlier p with
        | some before =>
            constructor
            · intro hOk
              cases hOk
            · intro hOrdered
              have hNext :=
                wellOrdered_reverse_cons_iff.mp
                  hOrdered.of_append
              rw [hBefore] at hNext
              cases hNext.2.2
        | none =>
            exact
              ih
                (wellOrdered_reverse_cons_iff.mpr
                  ⟨hEarlier, hName, hBefore⟩)

/- A list of parameters passes when it is well ordered. -/
theorem checkParameters_ok_iff
    {className methodName : String}
    {parameters : List Parameter} :
    checkParameters className methodName parameters =
        .ok () ↔
      WellOrdered parameters :=
  checkAfter_ok_iff wellOrdered_nil

------------------------------------------------------------
-- First Offences
------------------------------------------------------------

/-
  The fault at the first place where a list of parameters is
  not well ordered: a name is there already, or a required
  parameter comes right after an optional one.
-/
inductive FirstOffence
    (className methodName : String) :
    List Parameter → Fault → Prop
| duplicate
    {earlier : List Parameter}
    {p : Parameter}
    (later : List Parameter)
    (hEarlier : WellOrdered earlier)
    (hName : p.name ∈ earlier.map name) :
    FirstOffence className methodName
      (earlier ++ p :: later)
      (.duplicateParameter className methodName p.name)
| disorder
    {earlier : List Parameter}
    {before p : Parameter}
    (later : List Parameter)
    (hEarlier : WellOrdered (earlier ++ [before]))
    (hName : p.name ∉ (earlier ++ [before]).map name)
    (hBefore : before.isRequired = false)
    (hRequired : p.isRequired = true) :
    FirstOffence className methodName
      (earlier ++ before :: p :: later)
      (.orderingViolation className methodName p.name
        before.name)

variable {className methodName : String}
variable {parameters earlier rest : List Parameter}
variable {fault : Fault}

/-
  The predecessor to complain about is the parameter right
  before, and it is optional if those before are well ordered.
-/
theorem eq_cons_of_predecessor?
    {p before : Parameter}
    (hEarlier : WellOrdered earlier.reverse)
    (hBefore : predecessor? earlier p = some before) :
    ∃ others,
      earlier = before :: others ∧
        before.isRequired = false ∧ p.isRequired = true := by
  unfold predecessor? at hBefore
  split at hBefore
  · rename_i hDisorder
    rw [Bool.and_eq_true, List.any_eq_true] at hDisorder
    rcases hDisorder with ⟨hRequired, other, hMem, hOptional⟩
    rcases List.head?_eq_some_iff.mp hBefore with
      ⟨others, rfl⟩
    refine ⟨others, rfl, ?_, hRequired⟩
    rcases List.mem_cons.mp hMem with rfl | hOther
    · simpa using hOptional
    · -- all those before a required parameter are required
      by_contra hNot
      rw [List.reverse_cons, wellOrdered_concat_iff]
        at hEarlier
      have hAll :=
        hEarlier.2.2 (by simpa using hNot) other
          (List.mem_reverse.mpr hOther)
      rw [hAll] at hOptional
      cases hOptional
  · cases hBefore

/- A check that fails has come to the first offence. -/
theorem firstOffence_of_checkAfter
    (hEarlier : WellOrdered earlier.reverse)
    (hError :
      checkAfter className methodName earlier rest =
        .error fault) :
    FirstOffence className methodName
      (earlier.reverse ++ rest) fault := by
  induction rest generalizing earlier with
  | nil => cases hError
  | cons p rest ih =>
      rw [checkAfter] at hError
      by_cases hName : p.name ∈ earlier.map name
      · rw [if_pos hName] at hError
        cases hError
        exact .duplicate rest hEarlier (by simpa using hName)
      · rw [if_neg hName] at hError
        cases hBefore : predecessor? earlier p with
        | some before =>
            rw [hBefore] at hError
            cases hError
            rcases eq_cons_of_predecessor? hEarlier hBefore
              with ⟨others, rfl, hOptional, hRequired⟩
            rw [List.reverse_cons] at hEarlier
            rw [List.reverse_cons, List.append_assoc]
            exact
              .disorder rest hEarlier
                (by simpa [and_comm] using hName) hOptional
                hRequired
        | none =>
            rw [hBefore] at hError
            have hNext : WellOrdered (p :: earlier).reverse :=
              wellOrdered_reverse_cons_iff.mpr
                ⟨hEarlier, hName, hBefore⟩
            simpa using ih hNext hError

/- So has the check of a whole list. -/
theorem firstOffence_of_checkParameters
    (hError :
      checkParameters className methodName parameters =
        .error fault) :
    FirstOffence className methodName parameters fault := by
  have hNone : WellOrdered (List.reverse []) :=
    wellOrdered_nil
  exact firstOffence_of_checkAfter hNone hError

------------------------------------------------------------
-- Replacements
------------------------------------------------------------

/- A replacement that is not there replaces nothing. -/
theorem Method.replace_nil : Method.replace [] = id := by
  funext method
  have hParameters : replaceParameter [] = id := by
    funext p
    rfl
  rw [Method.replace, hParameters, List.map_id]
  rfl

namespace Session

/-
  Methods pass their replacements when the parameters of each
  are well ordered afterwards.
-/
theorem replaceAll_ok_iff
    {className : String}
    {replacements : List Replacement}
    {methods replaced : List Method} :
    replaceAll className replacements methods =
        .ok replaced ↔
      replaced = methods.map (Method.replace replacements) ∧
        ∀ method ∈ replaced,
          WellOrdered method.parameters := by
  induction methods generalizing replaced with
  | nil =>
      rw [replaceAll, Except.ok.injEq, List.map_nil]
      constructor
      · rintro rfl
        simp
      · rintro ⟨rfl, _⟩
        rfl
  | cons method rest ih =>
      rw [replaceAll]
      cases hCheck :
          checkParameters className
            (method.replace replacements).name
            (method.replace replacements).parameters with
      | error fault =>
          simp only [reduceCtorEq, false_iff, not_and]
          rintro rfl hAll
          have hFirst := hAll _ List.mem_cons_self
          rw [← checkParameters_ok_iff, hCheck] at hFirst
          cases hFirst
      | ok =>
          have hFirst := checkParameters_ok_iff.mp hCheck
          cases hRest :
              replaceAll className replacements rest with
          | error fault =>
              simp only [reduceCtorEq, false_iff, not_and]
              rintro rfl hAll
              have hOk :
                  replaceAll className replacements rest =
                    .ok (rest.map
                      (Method.replace replacements)) :=
                ih.mpr
                  ⟨rfl, fun other hOther =>
                    hAll other (List.mem_cons_of_mem _ hOther)⟩
              rw [hRest] at hOk
              cases hOk
          | ok more =>
              rcases ih.mp hRest with ⟨rfl, hMore⟩
              simp only [Except.ok.injEq]
              constructor
              · rintro rfl
                refine ⟨rfl, ?_⟩
                exact List.forall_mem_cons.mpr ⟨hFirst, hMore⟩
              · rintro ⟨rfl, _⟩
                rfl

/-
  Substitution gives the replaced methods; where there is
  nothing to replace they are not looked at again.
-/
theorem substitute_ok_iff
    {className : String}
    {replacements : List Replacement}
    {methods substituted : List Method} :
    substitute className replacements methods =
        .ok substituted ↔
      substituted =
          methods.map (Method.replace replacements) ∧
        (replacements ≠ [] →
          ∀ method ∈ substituted,
            WellOrdered method.parameters) := by
  unfold substitute
  by_cases hNone : replacements = []
  · subst hNone
    simp [Method.replace_nil, eq_comm]
  · rw [if_neg hNone, replaceAll_ok_iff]
    simp [hNone]

end Session

end HostBindings
