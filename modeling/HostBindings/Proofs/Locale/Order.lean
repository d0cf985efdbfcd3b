import Mathlib
import HostBindings.Locale.Catalog

/-
  The order of locales.

  Locales are ordered by language and then by region, where
  the absent region comes first.  This is a linear order, and
  the trees of a catalog stand in it, each locale once, in
  whatever order they have been loaded.

  Main declarations:
    * `Locale.le_iff_rank_le`
    * `Locale.Ascending`
    * `Catalog.ofTrees`
    * `Catalog.ascending_ofTrees`
    * `Catalog.mem_locales_ofTrees_iff`
-/

------------------------------------------------------------
-- Ranks
------------------------------------------------------------

namespace HostBindings

namespace Locale

/- The language first, and then the region if there is one. -/
def rank (locale : Locale) : String ×ₗ WithBot String :=
  toLex (locale.language, locale.region)

/- Regions are ordered with the absent one at the bottom. -/
theorem regionLe_iff
    {r s : Option String} :
    regionLe r s = true ↔
      (show WithBot String from r) ≤ s := by
  cases r with
  | none => exact iff_of_true rfl bot_le
  | some r =>
      cases s with
      | none =>
          refine iff_of_false Bool.false_ne_true ?_
          exact WithBot.not_coe_le_bot r
      | some s =>
          rw [regionLe, decide_eq_true_iff]
          exact WithBot.coe_le_coe.symm

/- The order of locales is the order of their ranks. -/
theorem le_iff_rank_le
    {a b : Locale} :
    a.le b = true ↔ a.rank ≤ b.rank := by
  rw [rank, rank, Prod.Lex.toLex_le_toLex, le,
    Bool.or_eq_true, Bool.and_eq_true, decide_eq_true_iff,
    beq_iff_eq, regionLe_iff]

/- Different locales have different ranks. -/
theorem rank_injective : Function.Injective rank := by
  rintro ⟨_, _, _, _⟩ ⟨_, _, _, _⟩ hSame
  cases hSame
  rfl

/- Of two locales one comes first. -/
protected theorem le_total (a b : Locale) :
    a.le b = true ∨ b.le a = true := by
  rw [le_iff_rank_le, le_iff_rank_le]
  exact LinearOrder.le_total a.rank b.rank

/- What comes before an earlier locale comes before a later. -/
protected theorem le_trans
    {a b c : Locale}
    (hFirst : a.le b = true)
    (hSecond : b.le c = true) :
    a.le c = true := by
  rw [le_iff_rank_le] at hFirst hSecond ⊢
  exact hFirst.trans hSecond

/- Locales that come before each other are the same. -/
protected theorem le_antisymm
    {a b : Locale}
    (hFirst : a.le b = true)
    (hSecond : b.le a = true) :
    a = b := by
  rw [le_iff_rank_le] at hFirst hSecond
  exact rank_injective (hFirst.antisymm hSecond)

/- Locales in their order, none of them twice. -/
def Ascending (locales : List Locale) : Prop :=
  locales.Pairwise fun a b => a.le b = true ∧ a ≠ b

end Locale

------------------------------------------------------------
-- Loaded Trees
------------------------------------------------------------

namespace Catalog

/- Load trees one after the other. -/
def ofTrees
    (policy : LookupPolicy)
    (trees : List (Locale × Json)) : Catalog :=
  trees.foldl
    (fun catalog entry => catalog.insert entry.1 entry.2)
    (empty policy)

/- Loading a tree adds its locale to the loaded ones. -/
theorem mem_insertTree_iff
    {locale other : Locale}
    {tree : Json}
    {trees : List (Locale × Json)} :
    other ∈ (insertTree locale tree trees).map Prod.fst ↔
      other = locale ∨ other ∈ trees.map Prod.fst := by
  induction trees with
  | nil => simp [insertTree]
  | cons entry rest ih =>
      rw [insertTree]
      split_ifs with hSame hBefore
      · simp [← hSame]
      · simp
      · rw [List.map_cons, List.mem_cons, ih, List.map_cons,
          List.mem_cons]
        exact or_left_comm

/- Loading a tree keeps the locales in their order. -/
theorem ascending_insertTree
    {locale : Locale}
    {tree : Json}
    {trees : List (Locale × Json)}
    (hTrees : Locale.Ascending (trees.map Prod.fst)) :
    Locale.Ascending
      ((insertTree locale tree trees).map Prod.fst) := by
  induction trees with
  | nil => simp [insertTree, Locale.Ascending]
  | cons entry rest ih =>
      rw [Locale.Ascending, List.map_cons, List.pairwise_cons]
        at hTrees
      rcases hTrees with ⟨hFirst, hRest⟩
      rw [insertTree]
      split_ifs with hSame hBefore
      · rw [Locale.Ascending, List.map_cons, List.pairwise_cons,
          ← hSame]
        exact ⟨hFirst, hRest⟩
      · rw [Locale.Ascending, List.map_cons, List.pairwise_cons,
          List.map_cons, List.pairwise_cons,
          List.forall_mem_cons]
        refine
          ⟨⟨⟨hBefore, Ne.symm hSame⟩, ?_⟩, hFirst, hRest⟩
        intro later hLater
        rcases hFirst later hLater with ⟨hLe, hNe⟩
        refine ⟨Locale.le_trans hBefore hLe, ?_⟩
        rintro rfl
        exact hNe (Locale.le_antisymm hLe hBefore)
      · rw [Locale.Ascending, List.map_cons, List.pairwise_cons]
        refine ⟨?_, ih hRest⟩
        intro later hLater
        rcases mem_insertTree_iff.mp hLater with rfl | hOld
        · have hAfter :=
            (Locale.le_total entry.1 later).resolve_right
              hBefore
          exact ⟨hAfter, hSame⟩
        · exact hFirst later hOld

variable {policy : LookupPolicy}
variable {trees : List (Locale × Json)}

/- Loading one more tree inserts it among the others. -/
theorem ofTrees_concat
    (policy : LookupPolicy)
    (trees : List (Locale × Json))
    (entry : Locale × Json) :
    ofTrees policy (trees ++ [entry]) =
      (ofTrees policy trees).insert entry.1 entry.2 := by
  rw [ofTrees, List.foldl_append]
  rfl

/- Loading trees does not change the policy. -/
@[simp]
theorem policy_ofTrees :
    (ofTrees policy trees).policy = policy := by
  induction trees using List.reverseRecOn with
  | nil => rfl
  | append_singleton trees entry ih =>
      rw [ofTrees_concat]
      exact ih

/- The policy does not matter for the trees. -/
theorem trees_ofTrees
    (policy other : LookupPolicy)
    (trees : List (Locale × Json)) :
    (ofTrees policy trees).trees =
      (ofTrees other trees).trees := by
  induction trees using List.reverseRecOn with
  | nil => rfl
  | append_singleton trees entry ih =>
      rw [ofTrees_concat, ofTrees_concat, insert, insert, ih]

/- The loaded locales are in their order. -/
theorem ascending_ofTrees
    (policy : LookupPolicy)
    (trees : List (Locale × Json)) :
    Locale.Ascending (ofTrees policy trees).locales := by
  induction trees using List.reverseRecOn with
  | nil => exact List.Pairwise.nil
  | append_singleton trees entry ih =>
      rw [ofTrees_concat]
      exact ascending_insertTree ih

/- They are those of the trees. -/
theorem mem_locales_ofTrees_iff
    {locale : Locale} :
    locale ∈ (ofTrees policy trees).locales ↔
      locale ∈ trees.map Prod.fst := by
  induction trees using List.reverseRecOn with
  | nil => rfl
  | append_singleton trees entry ih =>
      rw [ofTrees_concat, locales, insert, mem_insertTree_iff,
        List.map_append, List.mem_append, or_comm]
      exact or_congr ih (by simp)

end Catalog

end HostBindings
