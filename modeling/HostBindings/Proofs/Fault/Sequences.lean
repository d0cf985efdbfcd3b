import Mathlib
import HostBindings.Fault

/-
  Computations that may fail, one after the other.

  Main declarations:
    * `Fault.bind_ok_iff`
    * `Fault.map_ok_iff`
    * `Fault.map_error_iff`
    * `Fault.mapM_ok_iff`
    * `Fault.eq_map_of_mapM_ok`
    * `Fault.of?`
    * `Fault.of?_bind`
    * `Fault.of?_mapM`
-/

------------------------------------------------------------
-- Sequences
------------------------------------------------------------

namespace HostBindings

namespace Fault

variable {α β : Type}

/- A sequence goes well when both of its parts do. -/
theorem bind_ok_iff
    {first : Except Fault α}
    {second : α → Except Fault β}
    {result : β} :
    (first >>= second) = .ok result ↔
      ∃ a, first = .ok a ∧ second a = .ok result := by
  cases first with
  | error fault =>
      constructor
      · intro hOk
        cases hOk
      · rintro ⟨a, hFirst, _⟩
        cases hFirst
  | ok a =>
      constructor
      · intro hOk
        exact ⟨a, rfl, hOk⟩
      · rintro ⟨a', hFirst, hSecond⟩
        cases hFirst
        exact hSecond

/- A changed value is there when the value is. -/
theorem map_ok_iff
    {change : α → β}
    {first : Except Fault α}
    {result : β} :
    first.map change = .ok result ↔
      ∃ a, first = .ok a ∧ change a = result := by
  cases first <;> simp [Except.map]

/- A fault stays a fault when the value is changed. -/
theorem map_error_iff
    {change : α → β}
    {first : Except Fault α}
    {fault : Fault} :
    first.map change = .error fault ↔ first = .error fault := by
  cases first <;> simp [Except.map]

/- A list is worked through well when every item is. -/
theorem mapM_ok_iff
    {work : α → Except Fault β}
    {items : List α}
    {results : List β} :
    items.mapM work = .ok results ↔
      List.Forall₂ (fun item result => work item = .ok result)
        items results := by
  induction items generalizing results with
  | nil =>
      rw [List.forall₂_nil_left_iff, List.mapM_nil]
      constructor
      · intro hOk
        cases hOk
        rfl
      · rintro rfl
        rfl
  | cons item items ih =>
      rw [List.mapM_cons, bind_ok_iff,
        List.forall₂_cons_left_iff]
      constructor
      · rintro ⟨result, hItem, hRest⟩
        rcases bind_ok_iff.mp hRest with ⟨rest, hItems, hList⟩
        cases hList
        exact ⟨result, rest, hItem, ih.mp hItems, rfl⟩
      · rintro ⟨result, rest, hItem, hItems, rfl⟩
        exact
          ⟨result, hItem,
            bind_ok_iff.mpr ⟨rest, ih.mpr hItems, rfl⟩⟩

/-
  When every result is known from its item, so is the list of
  results.
-/
theorem eq_map_of_mapM_ok
    {work : α → Except Fault β}
    {value : α → β}
    {items : List α}
    {results : List β}
    (hWork :
      ∀ item result,
        work item = .ok result → result = value item)
    (hOk : items.mapM work = .ok results) :
    results = items.map value := by
  induction mapM_ok_iff.mp hOk with
  | nil => rfl
  | cons hItem hRest ih =>
      rw [List.map_cons, hWork _ _ hItem,
        ih (mapM_ok_iff.mpr hRest)]

------------------------------------------------------------
-- First Faults
------------------------------------------------------------

/- The fault of a computation that fails. -/
def of? : Except Fault α → Option Fault
| .ok _ => none
| .error fault => some fault

/- It is there exactly when the computation fails with it. -/
theorem of?_eq_some_iff
    {result : Except Fault α}
    {fault : Fault} :
    of? result = some fault ↔ result = .error fault := by
  cases result <;> simp [of?]

/- A computation without a fault has a result. -/
theorem of?_eq_none_iff
    {result : Except Fault α} :
    of? result = none ↔ ∃ a, result = .ok a := by
  cases result <;> simp [of?]

/-
  The first fault of two computations, when that of the
  second does not depend on the result of the first.
-/
theorem of?_bind
    {first : Except Fault α}
    {second : α → Except Fault β}
    {rest : Option Fault}
    (hSecond : ∀ a, of? (second a) = rest) :
    of? (first >>= second) = (of? first).or rest := by
  cases first with
  | error fault => rfl
  | ok a => exact hSecond a

/- Working on a result does not change the fault. -/
theorem of?_bind_pure
    (first : Except Fault α)
    (work : α → β) :
    of? (first >>= fun a => pure (work a)) = of? first := by
  cases first <;> rfl

/- The first fault of a list of items. -/
theorem of?_mapM
    (work : α → Except Fault β)
    (items : List α) :
    of? (items.mapM work) =
      items.findSome? fun item => of? (work item) := by
  induction items with
  | nil => rfl
  | cons item items ih =>
      rw [List.mapM_cons,
        of?_bind fun _ => of?_bind_pure (items.mapM work) _, ih,
        List.findSome?_cons]
      cases of? (work item) <;> rfl

end Fault

end HostBindings
