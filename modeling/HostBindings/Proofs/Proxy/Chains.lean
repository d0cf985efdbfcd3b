import Mathlib.Data.List.Chain
import HostBindings.Proxy.Parameter

/-
  The fields of a parameter along its chain of extensions.

  A field that is looked for in an extension first and then in
  its base has the value of the nearest level that sets it.
  The effective fields, the name and the requirement are all
  looked for in this way, each by a recursion of its own, and
  so they agree.

  Main declarations:
    * `Parameter.ownFields`
    * `Parameter.SetNearest`
    * `Parameter.Inherits`
    * `Parameter.Inherits.setNearest`
    * `Parameter.name_effective`
    * `Parameter.isRequired_effective`
    * `Parameter.IsChainOf`
    * `Parameter.isChainOf_iff`
    * `Parameter.effective_along_chain`
-/

------------------------------------------------------------
-- Fields of a Level
------------------------------------------------------------

namespace HostBindings

namespace Parameter

variable {α : Type}

/- The fields that a level itself sets; a root sets them all. -/
def ownFields : Parameter → Overlay
| .root fields =>
    { name := some fields.name
      valueType := some fields.valueType
      multiplicity := some fields.multiplicity
      isRequired := some fields.isRequired
      sortOrder := none }
| .extension _ overlay => overlay

/-
  Among levels listed root first, the last one that sets a
  field sets it to a value.
-/
def SetNearest
    (field : Overlay → Option α)
    (levels : List Parameter)
    (value : α) : Prop :=
  ∃ farther level nearer,
    levels = farther ++ level :: nearer ∧
      field level.ownFields = some value ∧
      ∀ other ∈ nearer, field other.ownFields = none

/- A level that sets a field comes before all others. -/
theorem setNearest_concat_of_some
    {field : Overlay → Option α}
    {level : Parameter}
    {value : α}
    (levels : List Parameter)
    (hSet : field level.ownFields = some value) :
    SetNearest field (levels ++ [level]) value :=
  ⟨levels, level, [], rfl, hSet, by simp⟩

/- A level that does not set a field leaves it to the rest. -/
theorem SetNearest.concat_of_none
    {field : Overlay → Option α}
    {levels : List Parameter}
    {level : Parameter}
    {value : α}
    (hNearest : SetNearest field levels value)
    (hUnset : field level.ownFields = none) :
    SetNearest field (levels ++ [level]) value := by
  rcases hNearest with
    ⟨farther, setter, nearer, rfl, hSet, hNearer⟩
  refine ⟨farther, setter, nearer ++ [level], ?_, hSet, ?_⟩
  · rw [List.append_assoc, List.cons_append]
  · intro other hOther
    rcases List.mem_append.mp hOther with hOld | hNew
    · exact hNearer other hOld
    · rw [List.mem_singleton.mp hNew]
      exact hUnset

------------------------------------------------------------
-- Inherited Fields
------------------------------------------------------------

/-
  A field is found at the root, or else in an extension if it
  sets the field, and in the base if it does not.
-/
structure Inherits
    (field : Overlay → Option α)
    (find : Parameter → α) : Prop where
  root :
    ∀ fields,
      field (ownFields (.root fields)) =
        some (find (.root fields))
  extension :
    ∀ base overlay,
      find (.extension base overlay) =
        (field overlay).getD (find base)

/- Such a field is the one that the nearest level sets. -/
theorem Inherits.setNearest
    {field : Overlay → Option α}
    {find : Parameter → α}
    (hInherits : Inherits field find)
    (p : Parameter) :
    SetNearest field p.chain (find p) := by
  induction p with
  | root fields =>
      exact
        setNearest_concat_of_some [] (hInherits.root fields)
  | extension base overlay ih =>
      rw [hInherits.extension, chain]
      cases hSet : field overlay with
      | none => exact ih.concat_of_none hSet
      | some value =>
          exact setNearest_concat_of_some base.chain hSet

/- Two ways to find the same field come to the same value. -/
theorem Inherits.unique
    {field : Overlay → Option α}
    {find other : Parameter → α}
    (hFind : Inherits field find)
    (hOther : Inherits field other)
    (p : Parameter) :
    find p = other p := by
  induction p with
  | root fields =>
      exact
        Option.some.inj
          ((hFind.root fields).symm.trans (hOther.root fields))
  | extension base overlay ih =>
      rw [hFind.extension, hOther.extension, ih]

/- The effective name is inherited. -/
theorem inherits_effective_name :
    Inherits Overlay.name fun p => p.effective.name :=
  ⟨fun _ => rfl, fun _ _ => rfl⟩

/- The effective type is inherited. -/
theorem inherits_effective_valueType :
    Inherits Overlay.valueType fun p => p.effective.valueType :=
  ⟨fun _ => rfl, fun _ _ => rfl⟩

/- The effective shape is inherited. -/
theorem inherits_effective_multiplicity :
    Inherits Overlay.multiplicity
      fun p => p.effective.multiplicity :=
  ⟨fun _ => rfl, fun _ _ => rfl⟩

/- The effective requirement is inherited. -/
theorem inherits_effective_isRequired :
    Inherits Overlay.isRequired
      fun p => p.effective.isRequired :=
  ⟨fun _ => rfl, fun _ _ => rfl⟩

/- The name is inherited. -/
theorem inherits_name : Inherits Overlay.name name where
  root _ := rfl
  extension base overlay := by
    rw [name]
    cases overlay.name <;> rfl

/- The requirement is inherited. -/
theorem inherits_isRequired :
    Inherits Overlay.isRequired isRequired where
  root _ := rfl
  extension base overlay := by
    rw [isRequired]
    cases overlay.isRequired <;> rfl

/- What is effective has the name of the parameter. -/
@[simp]
theorem name_effective (p : Parameter) :
    p.effective.name = p.name :=
  inherits_effective_name.unique inherits_name p

/- What is effective is required when the parameter is. -/
@[simp]
theorem isRequired_effective (p : Parameter) :
    p.effective.isRequired = p.isRequired :=
  inherits_effective_isRequired.unique inherits_isRequired p

------------------------------------------------------------
-- Chains
------------------------------------------------------------

/-
  Levels that lead from a root to a parameter, where each is
  the base of the next.
-/
structure IsChainOf
    (levels : List Parameter)
    (p : Parameter) : Prop where
  root : ∃ fields, levels.head? = some (.root fields)
  last : levels.getLast? = some p
  steps :
    levels.IsChain fun base level => level.base? = some base

/- A root is a chain by itself. -/
theorem isChainOf_root (fields : EffectiveParameter) :
    IsChainOf [.root fields] (.root fields) :=
  ⟨⟨fields, rfl⟩, rfl, List.isChain_singleton _⟩

/- A chain goes on with an extension of its last level. -/
theorem IsChainOf.extension
    {levels : List Parameter}
    {base : Parameter}
    (hChain : IsChainOf levels base)
    (overlay : Overlay) :
    IsChainOf (levels ++ [.extension base overlay])
      (.extension base overlay) := by
  rcases hChain.root with ⟨fields, hHead⟩
  refine ⟨⟨fields, ?_⟩, List.getLast?_concat, ?_⟩
  · rw [List.head?_append, hHead]
    rfl
  · refine
      List.isChain_append.mpr
        ⟨hChain.steps, List.isChain_singleton _, ?_⟩
    intro last hLast next hNext
    cases hNext
    cases hChain.last.symm.trans hLast
    rfl

/- The levels of a parameter are a chain. -/
theorem isChainOf_chain (p : Parameter) :
    IsChainOf p.chain p := by
  induction p with
  | root fields => exact isChainOf_root fields
  | extension base overlay ih => exact ih.extension overlay

/- The level before the last one is its base. -/
theorem IsChainOf.base?_eq
    {levels : List Parameter}
    {last p : Parameter}
    (hChain : IsChainOf (levels ++ [last]) p) :
    last.base? = levels.getLast? := by
  rcases List.isChain_append.mp hChain.steps with
    ⟨-, -, hStep⟩
  cases hLast : levels.getLast? with
  | none =>
      rcases hChain.root with ⟨fields, hRoot⟩
      rw [List.getLast?_eq_none_iff.mp hLast] at hRoot
      cases hRoot
      rfl
  | some before => exact hStep before hLast last rfl

/- Without its last level a chain leads to the base. -/
theorem IsChainOf.of_concat
    {levels : List Parameter}
    {last p base : Parameter}
    (hChain : IsChainOf (levels ++ [last]) p)
    (hBase : last.base? = some base) :
    IsChainOf levels base := by
  have hLast : levels.getLast? = some base :=
    hChain.base?_eq.symm.trans hBase
  have hNe : levels ≠ [] := by
    rintro rfl
    cases hLast
  have hRoot := hChain.root
  rw [List.head?_append_of_ne_nil _ hNe] at hRoot
  exact
    ⟨hRoot, hLast, (List.isChain_append.mp hChain.steps).1⟩

/- There is one chain to a parameter. -/
theorem isChainOf_iff
    {levels : List Parameter}
    {p : Parameter} :
    IsChainOf levels p ↔ levels = p.chain := by
  refine ⟨fun hChain => ?_, fun h => h ▸ isChainOf_chain p⟩
  rcases List.getLast?_eq_some_iff.mp hChain.last with
    ⟨before, rfl⟩
  induction p generalizing before with
  | root fields =>
      have hNone : none = before.getLast? := hChain.base?_eq
      rw [List.getLast?_eq_none_iff.mp hNone.symm]
      rfl
  | extension base overlay ih =>
      -- what stands before the extension is a chain to its base
      have hBefore : IsChainOf before base :=
        hChain.of_concat rfl
      rcases List.getLast?_eq_some_iff.mp hBefore.last with
        ⟨others, rfl⟩
      rw [ih others hBefore, chain]

/-
  Gather the levels below a level, from base to base, after
  those that have been gathered.
-/
def gatherBases (levels : List Parameter) :
    Parameter → List Parameter
| .root _ => levels
| .extension base _ => gatherBases (levels ++ [base]) base

/- What has been gathered, turned round, is the chain. -/
theorem reverse_gatherBases
    (levels : List Parameter)
    (p : Parameter) :
    (gatherBases (levels ++ [p]) p).reverse =
      p.chain ++ levels.reverse := by
  induction p generalizing levels with
  | root fields =>
      rw [gatherBases, List.reverse_concat]
      rfl
  | extension base overlay ih =>
      rw [gatherBases, ih, List.reverse_concat, chain,
        List.append_assoc]
      rfl

/-
  Every effective field is the one that the nearest level of
  the chain sets.  The name and the requirement are found by
  themselves and are the effective ones.  The chain is the
  one list of levels from a root to the parameter in which
  each level is the base of the next, and it is gathered from
  the parameter down to the root.
-/
theorem effective_along_chain (p : Parameter) :
    SetNearest Overlay.name p.chain p.effective.name ∧
      SetNearest Overlay.valueType p.chain
        p.effective.valueType ∧
      SetNearest Overlay.multiplicity p.chain
        p.effective.multiplicity ∧
      SetNearest Overlay.isRequired p.chain
        p.effective.isRequired ∧
      p.name = p.effective.name ∧
      p.isRequired = p.effective.isRequired ∧
      (∀ levels, IsChainOf levels p ↔ levels = p.chain) ∧
      p.chain = (gatherBases [p] p).reverse := by
  have hGathered := reverse_gatherBases [] p
  rw [List.nil_append, List.reverse_nil, List.append_nil]
    at hGathered
  exact
    ⟨inherits_effective_name.setNearest p,
      inherits_effective_valueType.setNearest p,
      inherits_effective_multiplicity.setNearest p,
      inherits_effective_isRequired.setNearest p,
      (name_effective p).symm, (isRequired_effective p).symm,
      fun _ => isChainOf_iff, hGathered.symm⟩

end Parameter

end HostBindings
