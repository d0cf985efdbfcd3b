import HostBindings.Proofs.Registration.Climbs

/-
  Lineages that resolve.

  The climb from a class finds its lineage exactly when there
  is one, that is when the declared bases lead from the class
  to one without a base.  No class occurs twice on the way.

  Main declarations:
    * `ClassGraph.IsLineage.nodup`
    * `ClassGraph.isLineage_concat_iff`
    * `ClassGraph.lineage_ok_iff`
    * `ClassGraph.base_of_lineage`
-/

------------------------------------------------------------
-- Lineages
------------------------------------------------------------

namespace HostBindings

namespace ClassGraph

variable {graph : ClassGraph}

/- The ancestors of a class have a lineage of their own. -/
theorem IsLineage.of_append
    {derived ancestors : List String}
    (hLineage : IsLineage graph (derived ++ ancestors))
    (hAncestors : ancestors ≠ []) :
    IsLineage graph ancestors := by
  induction derived with
  | nil =>
      exact hLineage
  | cons className derived ih =>
      apply ih
      cases derived with
      | nil =>
          cases ancestors with
          | nil => exact absurd rfl hAncestors
          | cons base rest => exact hLineage.2
      | cons base rest => exact hLineage.2

/- A class is declared with the next class as its base. -/
theorem IsLineage.base
    {className : String}
    {rest : List String}
    (hLineage : IsLineage graph (className :: rest)) :
    Keyed.find? className graph = some rest.head? := by
  cases rest with
  | nil => exact hLineage
  | cons base rest => exact hLineage.1

/- A class has at most one lineage. -/
theorem IsLineage.unique
    {className : String}
    {first second : List String}
    (hFirst : IsLineage graph (className :: first))
    (hSecond : IsLineage graph (className :: second)) :
    first = second := by
  induction first generalizing className second with
  | nil =>
      have hBase := hFirst.base.symm.trans hSecond.base
      cases second with
      | nil => rfl
      | cons base rest => cases hBase
  | cons base first ih =>
      have hBase := hFirst.base.symm.trans hSecond.base
      cases second with
      | nil => cases hBase
      | cons other second =>
          cases hBase
          rw [ih hFirst.2 hSecond.2]

/- No class is among its own ancestors. -/
theorem IsLineage.nodup
    {classes : List String}
    (hLineage : IsLineage graph classes) :
    classes.Nodup := by
  induction classes with
  | nil =>
      exact List.nodup_nil
  | cons className ancestors ih =>
      rw [List.nodup_cons]
      constructor
      · intro hMem
        rcases List.append_of_mem hMem with
          ⟨between, beyond, hSplit⟩
        -- from the second place on there is another lineage
        have hAgain :
            IsLineage graph (className :: beyond) := by
          apply IsLineage.of_append _ (List.cons_ne_nil _ _)
          · exact className :: between
          · rw [List.cons_append, ← hSplit]
            exact hLineage
        have hSame := hLineage.unique hAgain
        have hLength := congrArg List.length hSplit
        rw [hSame] at hLength
        simp only [List.length_append, List.length_cons]
          at hLength
        omega
      · cases ancestors with
        | nil => exact List.nodup_nil
        | cons base rest => exact ih hLineage.2

------------------------------------------------------------
-- Resolution
------------------------------------------------------------

/- A lineage is a walk to a class without a base. -/
theorem isLineage_concat_iff
    {walk : List String}
    {last : String} :
    IsLineage graph (walk ++ [last]) ↔
      IsWalk graph (walk ++ [last]) ∧
        Keyed.find? last graph = some none := by
  induction walk with
  | nil =>
      exact
        ⟨fun hLast => ⟨List.isChain_singleton last, hLast⟩,
          fun hBoth => hBoth.2⟩
  | cons className walk ih =>
      rcases hTail : walk ++ [last] with _ | ⟨base, tail⟩
      · simp at hTail
      · rw [hTail] at ih
        rw [List.cons_append, hTail, IsLineage, ih,
          isWalk_cons_cons, and_assoc]

/-
  A class resolves to the lineage that starts with it, if the
  declared classes have one.
-/
theorem lineage_ok_iff
    {className : String}
    {classes : List String} :
    graph.lineage className = .ok classes ↔
      IsLineage graph classes ∧
        classes.head? = some className := by
  rw [lineage_eq_iff]
  constructor
  · intro hEnding
    cases hEnding with
    | resolved hClimbs hLast hDistinct =>
        exact
          ⟨isLineage_concat_iff.mpr ⟨hClimbs.isWalk, hLast⟩,
            hClimbs.starts⟩
  · rintro ⟨hLineage, hHead⟩
    rcases List.eq_nil_or_concat classes with
      rfl | ⟨walk, last, rfl⟩
    · cases hHead
    · rw [List.concat_eq_append] at hLineage hHead ⊢
      have hDistinct := hLineage.nodup
      rcases isLineage_concat_iff.mp hLineage with
        ⟨hWalk, hLast⟩
      exact
        .resolved
          ⟨hWalk, hHead, hDistinct.of_append_left⟩ hLast
          hDistinct

/- The second class of a lineage is the declared base. -/
theorem base_of_lineage
    {className : String}
    {classes : List String}
    (hOk : graph.lineage className = .ok classes) :
    Keyed.find? className graph = some classes[1]? := by
  rcases lineage_ok_iff.mp hOk with ⟨hLineage, hHead⟩
  cases classes with
  | nil => cases hHead
  | cons first ancestors =>
      cases hHead
      rw [hLineage.base, List.head?_eq_getElem?]
      rfl

end ClassGraph

end HostBindings
