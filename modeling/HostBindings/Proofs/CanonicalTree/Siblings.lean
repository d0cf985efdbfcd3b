import HostBindings.Proofs.CanonicalTree.Arrival
import HostBindings.Proofs.CanonicalTree.Places

/-
  The order of parameters in the value of a canonical tree.

  An entry lists its texts and then its variants, those with
  a sort order in front.  Sorting is stable, so variants that
  are equal in this respect stay in order of arrival, and
  what arrives later is listed among them without moving any.

  Main declarations:
    * `CanonicalTree.ComesBefore`
    * `CanonicalTree.Arranged`
    * `CanonicalTree.Arranged.unique`
    * `CanonicalTree.Outlines.arranged`
    * `CanonicalTree.parameters_in_order`
-/

------------------------------------------------------------
-- Arrangements
------------------------------------------------------------

namespace HostBindings

namespace CanonicalTree

/- The sort order that the name at the end of a path has. -/
def sortOrderAt
    (path : List String)
    (parameters : List Parameter) : Option Int :=
  (introducer? path parameters).bind Parameter.sortOrder

/-
  Names with a sort order come first, in ascending order.
  Those with equal sort orders and those without one come in
  the order of their arrival.
-/
def ComesBefore
    (parameters : List Parameter)
    (path other : List String) : Prop :=
  match sortOrderAt path parameters,
    sortOrderAt other parameters with
  | some m, some n =>
      m < n ∨
        (m = n ∧
          arrival path parameters < arrival other parameters)
  | some _, none => True
  | none, some _ => False
  | none, none =>
      arrival path parameters < arrival other parameters

instance
    (parameters : List Parameter)
    (path other : List String) :
    Decidable (ComesBefore parameters path other) := by
  unfold ComesBefore
  split <;> infer_instance

/- The names below a path, each of them once and in order. -/
structure Arranged
    (parameters : List Parameter)
    (path : List String)
    (names : List String) : Prop where
  distinct : names.Nodup
  mem_iff :
    ∀ name,
      name ∈ names ↔
        ∃ p ∈ parameters, LeadsTo (path ++ [name]) p
  ordered :
    names.Pairwise fun name other =>
      ComesBefore parameters (path ++ [name])
        (path ++ [other])

variable {parameters : List Parameter}
variable {path : List String}
variable {names others : List String}

/- Of two paths only one comes before the other. -/
theorem ComesBefore.asymm
    {path other : List String}
    (hBefore : ComesBefore parameters path other) :
    ¬ ComesBefore parameters other path := by
  unfold ComesBefore at hBefore ⊢
  cases hFirst : sortOrderAt path parameters <;>
    cases hSecond : sortOrderAt other parameters <;>
    simp only [hFirst, hSecond, not_false_eq_true]
      at hBefore ⊢ <;>
    omega

/- There is only one such list of names. -/
theorem Arranged.unique
    (hNames : Arranged parameters path names)
    (hOthers : Arranged parameters path others) :
    names = others := by
  refine
    List.Perm.eq_of_pairwise ?_ hNames.ordered
      hOthers.ordered ?_
  · intro name other _ _ hBefore hAfter
    exact absurd hAfter hBefore.asymm
  · rw [List.perm_ext_iff_of_nodup hNames.distinct
      hOthers.distinct]
    intro name
    rw [hNames.mem_iff, hOthers.mem_iff]

/- Later parameters do not change the sort order of a name. -/
theorem sortOrderAt_append
    {name : String}
    (hLeads : ∃ p ∈ parameters, LeadsTo (path ++ [name]) p)
    (later : List Parameter) :
    sortOrderAt (path ++ [name]) (parameters ++ later) =
      sortOrderAt (path ++ [name]) parameters := by
  rcases exists_introducer?_iff.mpr hLeads with
    ⟨level, hLevel⟩
  unfold sortOrderAt
  rw [introducer?_append, hLevel]
  rfl

/- What is arranged stays so when parameters come later. -/
theorem Arranged.sublist
    {later : List Parameter}
    (hNames : Arranged parameters path names)
    (hOthers : Arranged (parameters ++ later) path others) :
    names.Sublist others := by
  -- the names that were there are arranged as they were
  have hKept :
      Arranged parameters path
        (others.filter fun name => name ∈ names) := by
    refine ⟨hOthers.distinct.filter _, ?_, ?_⟩
    · intro name
      rw [List.mem_filter, decide_eq_true_eq, hOthers.mem_iff,
        hNames.mem_iff]
      constructor
      · exact And.right
      · rintro ⟨p, hMem, hLeads⟩
        exact
          ⟨⟨p, List.mem_append_left _ hMem, hLeads⟩,
            p, hMem, hLeads⟩
    · refine (hOthers.ordered.filter _).imp_of_mem ?_
      intro name other hName hOther hBefore
      rw [List.mem_filter, decide_eq_true_eq, hNames.mem_iff]
        at hName hOther
      unfold ComesBefore at hBefore ⊢
      rw [sortOrderAt_append hName.2,
        sortOrderAt_append hOther.2,
        arrival_append hName.2, arrival_append hOther.2]
        at hBefore
      exact hBefore
  rw [hNames.unique hKept]
  exact List.filter_sublist

------------------------------------------------------------
-- Stable Sorting
------------------------------------------------------------

/- The order of siblings can be followed along. -/
theorem orderLe_trans
    (k m n : Option Int)
    (hFirst : orderLe k m = true)
    (hSecond : orderLe m n = true) :
    orderLe k n = true := by
  cases k <;> cases m <;> cases n <;>
    simp [orderLe] at hFirst hSecond ⊢
  exact hFirst.trans hSecond

/- Any two siblings can be ordered. -/
theorem orderLe_total (m n : Option Int) :
    (orderLe m n || orderLe n m) = true := by
  cases m <;> cases n <;> simp [orderLe]
  exact Int.le_total _ _

/-
  Sorting keeps what holds between earlier and later elements
  between those that are equal in the order.
-/
theorem pairwise_mergeSort_of_pairwise
    {α : Type}
    {le : α → α → Bool}
    {related : α → α → Prop}
    {items : List α}
    (hTrans :
      ∀ a b c, le a b = true → le b c = true → le a c = true)
    (hTotal : ∀ a b, (le a b || le b a) = true)
    (hRelated : items.Pairwise related) :
    (items.mergeSort le).Pairwise fun a b =>
      le a b = true ∧ (le b a = true → related a b) := by
  -- sort the elements together with their positions
  have hSorted :=
    List.pairwise_mergeSort (List.zipIdxLE_trans hTrans)
      (List.zipIdxLE_total hTotal) items.zipIdx
  have hPerm :=
    List.mergeSort_perm items.zipIdx (List.zipIdxLE le)
  have hPositions :
      (items.zipIdx.mergeSort
        (List.zipIdxLE le)).Pairwise
          fun a b => a.2 ≠ b.2 := by
    rw [← List.pairwise_map]
    refine (hPerm.map Prod.snd).nodup_iff.mpr ?_
    rw [List.zipIdx_map_snd]
    exact List.nodup_range'
  rw [← List.mergeSort_zipIdx, List.pairwise_map]
  refine (hSorted.and hPositions).imp_of_mem ?_
  rintro ⟨a, m⟩ ⟨b, n⟩ hFirst hSecond ⟨hLe, hNe⟩
  rw [hPerm.mem_iff, List.mk_mem_zipIdx_iff_getElem?,
    List.getElem?_eq_some_iff] at hFirst hSecond
  rcases hFirst with ⟨hM, rfl⟩
  rcases hSecond with ⟨hN, rfl⟩
  simp only [List.zipIdxLE] at hLe
  split at hLe
  · rename_i hForward
    refine ⟨hForward, ?_⟩
    intro hBackward
    rw [if_pos hBackward] at hLe
    have hBefore : m < n :=
      lt_of_le_of_ne (of_decide_eq_true hLe) hNe
    exact
      List.pairwise_iff_getElem.mp hRelated m n hM hN hBefore
  · cases hLe

/- The names of an outline in the order of siblings. -/
def sortedNames
    (table : Keyed String (Option Int)) : List String :=
  Keyed.keys
    (table.mergeSort fun entry other =>
      orderLe entry.2 other.2)

/- Siblings are sorted by their names and sort orders. -/
theorem keys_sortSiblings
    (level : Keyed String ParameterNode) :
    Keyed.keys (sortSiblings (siblings level)) =
      sortedNames (outline level) := by
  have hOutline :
      outline level =
        (siblings level).map fun sibling =>
          (sibling.name, sibling.sortOrder) := by
    rw [siblings_eq, List.map_map]
    rfl
  rw [sortedNames, hOutline, ← List.map_mergeSort, sortSiblings,
    Keyed.keys, Keyed.keys, List.map_map, List.map_map]
  · rfl
  · intro entry _ other _
    rfl

/- An outlined level is listed as it should be. -/
theorem Outlines.arranged
    {table : Keyed String (Option Int)}
    (hOutlines : Outlines parameters path table) :
    Arranged parameters path (sortedNames table) := by
  have hPerm :=
    (List.mergeSort_perm table fun entry other =>
      orderLe entry.2 other.2).map Prod.fst
  have hDistinct : Keyed.Distinct table :=
    hOutlines.arrivals.imp fun hBefore hSame => by
      rw [hSame] at hBefore
      exact lt_irrefl _ hBefore
  constructor
  · exact hPerm.nodup_iff.mpr hDistinct
  · intro name
    exact hPerm.mem_iff.trans (hOutlines.mem_keys_iff name)
  · have hArrivals := List.pairwise_map.mp hOutlines.arrivals
    have hSorted :=
      pairwise_mergeSort_of_pairwise
        (fun a b c : String × Option Int =>
          orderLe_trans a.2 b.2 c.2)
        (fun a b => orderLe_total a.2 b.2) hArrivals
    rw [sortedNames, Keyed.keys, List.pairwise_map]
    refine hSorted.imp_of_mem ?_
    rintro ⟨name, m⟩ ⟨other, n⟩ hName hOther ⟨hLe, hEqual⟩
    have hSortOrder :
        ∀ name sortOrder,
          (name, sortOrder) ∈ table →
            sortOrderAt (path ++ [name]) parameters =
              sortOrder := by
      intro name sortOrder hMem
      have hFound := Keyed.find?_of_mem hDistinct hMem
      rw [hOutlines.sortOrders, Option.map_eq_some_iff]
        at hFound
      rcases hFound with ⟨level, hLevel, hOrder⟩
      rw [sortOrderAt, hLevel]
      exact hOrder
    rw [List.mem_mergeSort] at hName hOther
    rw [ComesBefore, hSortOrder name m hName,
      hSortOrder other n hOther]
    cases m with
    | none =>
        cases n with
        | none => exact hEqual rfl
        | some n => cases hLe
    | some m =>
        cases n with
        | none => trivial
        | some n =>
            rcases Int.lt_or_eq_of_le (of_decide_eq_true hLe)
              with hLess | rfl
            · exact .inl hLess
            · exact .inr ⟨rfl, hEqual (decide_eq_true le_rfl)⟩

------------------------------------------------------------
-- Parameters in Order
------------------------------------------------------------

/- The keys in front of the variants of an entry. -/
def ownKeys (path : List String) : List String :=
  if path = [] then []
  else [LocaleKey.name, LocaleKey.description]

variable {tree : CanonicalTree}

/- A level of the tree is listed in its value. -/
theorem Tidy.object_of_levelAt?
    {level : Keyed String ParameterNode}
    (hTidy : tree.Tidy)
    (hLevel : levelAt? path tree.parameters = some level) :
    ∃ members,
      tree.toJson.at? (LocaleKey.parameters :: path) =
          some (.object members) ∧
        Keyed.keys members =
          ownKeys path ++ sortedNames (outline level) := by
  cases path with
  | nil =>
      cases hLevel
      exact ⟨_, rfl, keys_sortSiblings _⟩
  | cons name path =>
      have hNames := hTidy.unreserved ⟨level, hLevel⟩
      refine
        ⟨_, at?_toJson_of_levelAt? hTidy.parameters.orderly
          hNames hLevel, ?_⟩
      rw [Keyed.keys_append, keys_sortSiblings]
      rfl

variable {documentationBase : Option String}
variable {entries : List Entry}

/- Accepted entries outline every level. -/
theorem outlines_enterAll
    (path : List String)
    (hAccepts :
      (empty documentationBase).AcceptsAll entries) :
    Outlines (parametersOf entries) path
      (outlineAt path
        ((empty documentationBase).enterAll
          entries).parameters) := by
  have hEmpty :
      outlineAt path (empty documentationBase).parameters =
        [] := by
    cases path <;> rfl
  have hNil := outlines_nil path
  rw [← hEmpty] at hNil
  exact hNil.enterAll hAccepts

/- They reach what their parameters lead to. -/
theorem reaches_enterAll_iff
    (hAccepts :
      (empty documentationBase).AcceptsAll entries) :
    Reaches path
        ((empty documentationBase).enterAll
          entries).parameters ↔
      path = [] ∨
        ∃ p ∈ parametersOf entries, LeadsTo path p := by
  have hHolds :=
    (holds_empty documentationBase).enterAll hAccepts
  rw [hHolds.reaches]
  simp only [mem_parametersOf_iff]
  rfl

/- A level that is reached is listed and in order. -/
theorem exists_arranged
    (hAccepts :
      (empty documentationBase).AcceptsAll entries)
    (hPath :
      path = [] ∨
        ∃ p ∈ parametersOf entries, LeadsTo path p) :
    ∃ members names,
      ((empty documentationBase).enterAll entries).toJson.at?
          (LocaleKey.parameters :: path) =
        some (.object members) ∧
      Keyed.keys members = ownKeys path ++ names ∧
      Arranged (parametersOf entries) path names := by
  have hTidy :=
    (tidy_empty documentationBase).enterAll entries
  rcases (reaches_enterAll_iff hAccepts).mpr hPath with
    ⟨level, hLevel⟩
  rcases hTidy.object_of_levelAt? hLevel with
    ⟨members, hAt, hKeys⟩
  have hOutlines := outlines_enterAll path hAccepts
  rw [outlineAt, hLevel] at hOutlines
  exact ⟨members, _, hAt, hKeys, hOutlines.arranged⟩

/-
  The value of a tree has an object for every path that a
  parameter leads to and for no other.  The object lists the
  texts of its entry and then the variants, which are in
  order, and later entries leave this order as it is.
-/
theorem parameters_in_order
    (documentationBase : Option String)
    (entries : List Entry)
    (path : List String)
    (hAccepts :
      (empty documentationBase).AcceptsAll entries) :
    ((∃ members,
        ((empty documentationBase).enterAll entries).toJson.at?
            (LocaleKey.parameters :: path) =
          some (.object members)) ↔
      path = [] ∨
        ∃ p ∈ parametersOf entries, LeadsTo path p) ∧
    ∀ members,
      ((empty documentationBase).enterAll entries).toJson.at?
          (LocaleKey.parameters :: path) =
        some (.object members) →
      ∃ names,
        Keyed.keys members = ownKeys path ++ names ∧
        Arranged (parametersOf entries) path names ∧
        ∀ later,
          (empty documentationBase).AcceptsAll
              (entries ++ later) →
            ∃ others more,
              ((empty documentationBase).enterAll
                    (entries ++ later)).toJson.at?
                  (LocaleKey.parameters :: path) =
                some (.object others) ∧
              Keyed.keys others = ownKeys path ++ more ∧
              names.Sublist more := by
  have hLevel :
      (∃ members,
          ((empty documentationBase).enterAll
                entries).toJson.at?
              (LocaleKey.parameters :: path) =
            some (.object members)) ↔
        path = [] ∨
          ∃ p ∈ parametersOf entries, LeadsTo path p := by
    constructor
    · rintro ⟨members, hAt⟩
      by_cases hNil : path = []
      · exact .inl hNil
      · have hHolds :=
          (holds_empty documentationBase).enterAll hAccepts
        rcases hHolds.parameter_of_object hNil hAt with
          ⟨p, hEntry, hPrefix⟩
        exact
          .inr
            ⟨p, mem_parametersOf_iff.mpr hEntry,
              (List.cons_prefix_cons.mp hPrefix).2⟩
    · intro hPath
      rcases exists_arranged hAccepts hPath with
        ⟨members, names, hAt, _⟩
      exact ⟨members, hAt⟩
  refine ⟨hLevel, ?_⟩
  intro members hAt
  have hPath := hLevel.mp ⟨members, hAt⟩
  rcases exists_arranged hAccepts hPath with
    ⟨_, names, hSame, hKeys, hArranged⟩
  rw [hAt] at hSame
  cases hSame
  refine ⟨names, hKeys, hArranged, ?_⟩
  intro later hLater
  have hAppend :
      parametersOf (entries ++ later) =
        parametersOf entries ++ parametersOf later :=
    List.filterMap_append
  have hStill :
      path = [] ∨
        ∃ p ∈ parametersOf (entries ++ later),
          LeadsTo path p := by
    rw [hAppend]
    refine hPath.imp_right ?_
    rintro ⟨p, hMem, hLeads⟩
    exact ⟨p, List.mem_append_left _ hMem, hLeads⟩
  rcases exists_arranged hLater hStill with
    ⟨others, more, hOthers, hOtherKeys, hMore⟩
  rw [hAppend] at hMore
  exact
    ⟨others, more, hOthers, hOtherKeys,
      hArranged.sublist hMore⟩

/-
  Among variants one without a sort order is the first to
  arrive and still the last to be listed, even though it
  arrives a second time with one.
-/
theorem parameters_in_order_variants :
    let identifier : Parameter :=
      .new "identifier" .string .matrix true
    let variant
        (name : String)
        (sortOrder : Option Int) : Entry :=
      .parameter
        (.extension identifier
          ⟨some name, none, none, none, sortOrder⟩)
    let entries : List Entry :=
      [variant "sscc" none, variant "gln" (some 2),
        variant "gtin" (some (-1)), variant "sscc" (some 0)]
    (empty none).AcceptsAll entries ∧
      ∃ members,
        ((empty none).enterAll entries).toJson.at?
            ["Parameters", "identifier"] =
          some (.object members) ∧
        Keyed.keys members =
          ["name", "description", "gtin", "gln", "sscc"] := by
  intro identifier variant entries
  have hAccepts : (empty none).AcceptsAll entries :=
    ⟨rfl, rfl, rfl, rfl, trivial⟩
  refine ⟨hAccepts, ?_⟩
  rcases parameters_in_order none entries ["identifier"]
      hAccepts with
    ⟨hLevel, hListed⟩
  rcases hLevel.mpr (.inr ⟨_, .head _, by decide⟩) with
    ⟨members, hAt⟩
  rcases hListed members hAt with ⟨names, hKeys, hNames, _⟩
  have hExpected :
      Arranged (parametersOf entries) ["identifier"]
        ["gtin", "gln", "sscc"] := by
    refine ⟨by decide, ?_, by decide⟩
    intro name
    have hLeads :
        (∃ p ∈ parametersOf entries,
            LeadsTo (["identifier"] ++ [name]) p) ↔
          name ∈ ["sscc", "gln", "gtin", "sscc"] := by
      simp [entries, variant, identifier, parametersOf, LeadsTo,
        Parameter.identityPath, Parameter.chain,
        Parameter.extendPath, Parameter.new, Parameter.name,
        List.cons_prefix_cons]
    rw [hLeads]
    simp only [List.mem_cons, List.not_mem_nil, or_false]
    tauto
  refine ⟨members, hAt, ?_⟩
  rw [hKeys, hNames.unique hExpected]
  rfl

end CanonicalTree

end HostBindings
