import HostBindings.Proofs.Text.Bytes
import HostBindings.Text.Occurrence

/-
  The first place of one text in another.

  A text is split in front of the first place at which the
  sought text occurs, if it occurs at all.  No earlier byte
  is the start of an occurrence either.

  Main declarations:
    * `Text.FirstPlace`
    * `Text.splitAtFirst_eq_none_iff`
    * `Text.splitAtFirst_eq_some_iff`
    * `Text.FirstPlace.not_encode_prefix`
-/

------------------------------------------------------------
-- First Places
------------------------------------------------------------

namespace HostBindings

namespace Text

variable {sought cs before after : List Char}

/-
  The sought text occurs between both parts of a text, and at
  no place further in front, whether it overlaps or not.
-/
structure FirstPlace
    (sought cs before after : List Char) : Prop where
  parts : before ++ after = cs
  here : sought <+: after
  first : ∀ n < before.length, ¬ sought <+: cs.drop n

/- There is at most one first place. -/
theorem FirstPlace.unique
    {front rest : List Char}
    (hFirst : FirstPlace sought cs before after)
    (hSecond : FirstPlace sought cs front rest) :
    before = front ∧ after = rest := by
  have hNotEarlier :
      ∀ {front rest before after : List Char},
        FirstPlace sought cs front rest →
          FirstPlace sought cs before after →
            before.length ≤ front.length := by
    intro front rest before after hHere hFirst
    by_contra hEarlier
    refine hFirst.first _ (Nat.lt_of_not_le hEarlier) ?_
    rw [← hHere.parts, List.drop_left]
    exact hHere.here
  refine
    List.append_inj (hFirst.parts.trans hSecond.parts.symm) ?_
  exact
    Nat.le_antisymm (hNotEarlier hSecond hFirst)
      (hNotEarlier hFirst hSecond)

/- A text that starts with the sought one has it in front. -/
theorem firstPlace_nil
    (hHere : sought <+: cs) :
    FirstPlace sought cs [] cs :=
  ⟨rfl, hHere, fun _ hLess => absurd hLess (Nat.not_lt_zero _)⟩

/- Else the first place is one character further. -/
theorem FirstPlace.cons
    {c : Char}
    (hPlace : FirstPlace sought cs before after)
    (hNot : ¬ sought <+: c :: cs) :
    FirstPlace sought (c :: cs) (c :: before) after := by
  refine ⟨congrArg (c :: ·) hPlace.parts, hPlace.here, ?_⟩
  rintro (_ | n) hLess
  · exact hNot
  · exact hPlace.first n (Nat.lt_of_succ_lt_succ hLess)

/- A text is not split if the sought one does not occur. -/
theorem splitAtFirst_eq_none_iff :
    splitAtFirst sought cs = none ↔ ¬ sought <:+: cs := by
  induction cs with
  | nil =>
      by_cases hEmpty : sought = [] <;>
        simp [splitAtFirst, hEmpty]
  | cons c rest ih =>
      rw [List.infix_cons_iff, not_or, ← ih,
        ← List.isPrefixOf_iff_prefix]
      by_cases hHere :
          sought.isPrefixOf (c :: rest) = true <;>
        simp [splitAtFirst, hHere]

/- If it is split, then at the first place. -/
theorem firstPlace_of_splitAtFirst
    (hSplit : splitAtFirst sought cs = some (before, after)) :
    FirstPlace sought cs before after := by
  induction cs generalizing before with
  | nil =>
      by_cases hEmpty : sought = []
      · simp only [splitAtFirst, hEmpty, if_true,
          Option.some.injEq, Prod.mk.injEq] at hSplit
        rcases hSplit with ⟨rfl, rfl⟩
        rw [hEmpty]
        exact firstPlace_nil List.nil_prefix
      · simp [splitAtFirst, hEmpty] at hSplit
  | cons c rest ih =>
      by_cases hHere : sought.isPrefixOf (c :: rest) = true
      · simp only [splitAtFirst, hHere, if_true,
          Option.some.injEq, Prod.mk.injEq] at hSplit
        rcases hSplit with ⟨rfl, rfl⟩
        exact
          firstPlace_nil (List.isPrefixOf_iff_prefix.mp hHere)
      · simp only [splitAtFirst, hHere, Bool.false_eq_true,
          if_false, Option.map_eq_some_iff,
          Prod.mk.injEq] at hSplit
        rcases hSplit with ⟨⟨front, _⟩, hRest, rfl, rfl⟩
        rw [List.isPrefixOf_iff_prefix] at hHere
        exact (ih hRest).cons hHere

/- The parts are those at the first place. -/
theorem splitAtFirst_eq_some_iff :
    splitAtFirst sought cs = some (before, after) ↔
      FirstPlace sought cs before after := by
  refine ⟨firstPlace_of_splitAtFirst, fun hPlace => ?_⟩
  cases hSplit : splitAtFirst sought cs with
  | none =>
      refine absurd ?_ (splitAtFirst_eq_none_iff.mp hSplit)
      rw [← hPlace.parts]
      exact
        hPlace.here.isInfix.trans
          (List.suffix_append before after).isInfix
  | some parts =>
      rcases parts with ⟨front, rest⟩
      rcases (firstPlace_of_splitAtFirst hSplit).unique hPlace
        with ⟨rfl, rfl⟩
      rfl

------------------------------------------------------------
-- First Places among Bytes
------------------------------------------------------------

/- The bytes of the sought text do not occur earlier. -/
theorem FirstPlace.not_encode_prefix
    (hPlace : FirstPlace sought cs before after)
    {n : Nat}
    (hEarlier : n < (encode before).length) :
    ¬ encode sought <+: (encode cs).drop n := by
  intro hBytes
  cases sought with
  | nil =>
      cases before with
      | nil => cases hEarlier
      | cons c before =>
          exact
            hPlace.first 0 (Nat.zero_lt_succ _)
              List.nil_prefix
  | cons c more =>
      rcases exists_split_of_encode_prefix hBytes with
        ⟨front, rest, hParts, hLength, hPrefix⟩
      by_cases hFront : front.length < before.length
      · refine hPlace.first _ hFront ?_
        rw [← hParts, List.drop_left]
        exact hPrefix
      · have hBefore : before <+: front :=
          List.prefix_of_prefix_length_le
            ⟨after, hPlace.parts⟩ ⟨rest, hParts⟩
            (Nat.le_of_not_lt hFront)
        rcases hBefore with ⟨between, rfl⟩
        rw [encode_append, List.length_append] at hLength
        omega

end Text

end HostBindings
