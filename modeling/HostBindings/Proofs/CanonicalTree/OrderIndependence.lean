import HostBindings.Proofs.CanonicalTree.Places
import HostBindings.Proofs.CanonicalTree.Refusals
import HostBindings.Proofs.Json.Rearranged

/-
  Canonical trees do not depend on the order of entries.

  A tree only grows: whatever is entered, and whether or not
  it is refused, every place of the value stays, an object as
  an object and a text as the same text.  What the places are
  depends on the accepted entries alone, so entries that are
  accepted in one order are accepted in any other, and the
  values of the two trees differ only in the order of keys.

  Main declarations:
    * `CanonicalTree.Within`
    * `CanonicalTree.Within.toJson_keptBy`
    * `CanonicalTree.Faithful`
    * `CanonicalTree.faithful_in_any_order`
-/

------------------------------------------------------------
-- Trees within Trees
------------------------------------------------------------

namespace HostBindings

namespace CanonicalTree

variable {tree after : CanonicalTree}

/- What one tree has is in another one, under one address. -/
structure Within (tree after : CanonicalTree) : Prop where
  address : after.address = tree.address
  functions :
    ∀ nameSpace functionName,
      tree.HasFunction nameSpace functionName →
        after.HasFunction nameSpace functionName
  nameSpaces :
    ∀ nameSpace,
      tree.HasNameSpace nameSpace →
        after.HasNameSpace nameSpace
  parameters :
    ∀ path,
      Reaches path tree.parameters →
        Reaches path after.parameters

/- The functions of such a tree are kept. -/
theorem Within.functionsJson_keptBy
    (hWithin : Within tree after)
    (hTree : tree.Coherent)
    (hAfter : after.Coherent) :
    tree.functionsJson.KeptBy after.functionsJson := by
  intro path v hAt
  rcases hTree.place_of_functionsJson hAt with
    rfl | ⟨name, rfl, hSpace⟩ |
    ⟨nameSpace, functionName, rest, hFunction, rfl, hEntry⟩
  · cases hAt
    exact ⟨_, rfl, Json.persists_objects _ _⟩
  · rcases hSpace with ⟨group, hGroup⟩
    rcases hWithin.nameSpaces name ⟨group, hGroup⟩ with
      ⟨others, hOthers⟩
    refine ⟨slotJson (.group others), ?_, ?_⟩
    · rw [Json.at?_cons, member?_functionsJson, hOthers]
      rfl
    · rw [Json.at?_cons, member?_functionsJson, hGroup] at hAt
      cases hAt
      exact Json.persists_objects _ _
  · refine ⟨v, ?_, .inl rfl⟩
    rw [hAfter.at?_functionsJson
      (hWithin.functions _ _ hFunction), hWithin.address]
    exact hEntry

variable {name : String}
variable {path : List String}
variable {node : ParameterNode}

/- A level below a name is below the same name. -/
theorem Within.exists_node
    (hWithin : Within tree after)
    (hAfter : after.Tidy)
    (hFound : Keyed.find? name tree.parameters = some node)
    (hReaches : Reaches path node.variants) :
    ∃ other,
      Keyed.find? name after.parameters = some other ∧
        TidyNode other ∧
        Reaches path other.variants := by
  have hPath :=
    hWithin.parameters (name :: path)
      (reaches_cons_iff.mpr ⟨node, hFound, hReaches⟩)
  rcases reaches_cons_iff.mp hPath with
    ⟨other, hOther, hOthers⟩
  have hTidy :=
    hAfter.parameters.nodes _ (Keyed.mem_of_find? hOther)
  exact ⟨other, hOther, hTidy, hOthers⟩

/- So the parameters are kept. -/
theorem Within.parametersJson_keptBy
    (hWithin : Within tree after)
    (hTree : tree.Tidy)
    (hAfter : after.Tidy)
    {path : List String}
    {v : Json}
    (hAt :
      tree.toJson.at? (LocaleKey.parameters :: path) =
        some v) :
    ∃ w,
      after.toJson.at? (LocaleKey.parameters :: path) =
          some w ∧
        v.Persists w := by
  cases path with
  | nil =>
      cases hAt
      exact ⟨_, rfl, Json.persists_objects _ _⟩
  | cons name path =>
      rw [at?_toJson_parameters hTree.parameters.orderly,
        Option.bind_eq_some_iff] at hAt
      rcases hAt with ⟨node, hFound, hBelow⟩
      have hNode :=
        hTree.parameters.nodes _ (Keyed.mem_of_find? hFound)
      rw [at?_toJson_parameters hAfter.parameters.orderly]
      rcases hNode.place_of_levelJson hBelow with
        hReaches | ⟨above, word, rfl, hAbove, hWord⟩
      · rcases hWithin.exists_node hAfter hFound hReaches with
          ⟨other, hOther, hTidy, hOthers⟩
        rcases hNode.at?_levelJson hReaches with
          ⟨level, hLevel⟩
        rcases hTidy.at?_levelJson hOthers with
          ⟨otherLevel, hOtherLevel⟩
        rw [hLevel] at hBelow
        cases hBelow
        rw [hOther]
        exact
          ⟨_, hOtherLevel, Json.persists_objects _ _⟩
      · rcases hWithin.exists_node hAfter hFound hAbove with
          ⟨other, hOther, hTidy, hOthers⟩
        rw [hNode.at?_text hAbove hWord] at hBelow
        cases hBelow
        rw [hOther]
        exact
          ⟨_, hTidy.at?_text hOthers hWord, .inl rfl⟩

/- The value of a tree keeps those of the trees within it. -/
theorem Within.toJson_keptBy
    (hWithin : Within tree after)
    (hTree : tree.Coherent)
    (hAfter : after.Coherent) :
    tree.toJson.KeptBy after.toJson := by
  intro path v hAt
  cases path with
  | nil =>
      cases hAt
      exact ⟨_, rfl, Json.persists_objects _ _⟩
  | cons key path =>
      have hKey :
          key = LocaleKey.parameters ∨
            key = LocaleKey.functions := by
        rcases Json.at?_cons_eq_some_iff.mp hAt with
          ⟨u, hMember, _⟩
        have hMem := Keyed.mem_keys_of_find? hMember
        simpa using hMem
      rcases hKey with rfl | rfl
      · exact
          hWithin.parametersJson_keptBy hTree.tidy hAfter.tidy
            hAt
      · rw [at?_toJson_functions] at hAt ⊢
        exact
          hWithin.functionsJson_keptBy hTree hAfter path v hAt

------------------------------------------------------------
-- Growth
------------------------------------------------------------

/- The documentation stays where it is. -/
theorem documentationBase_enterAll
    (tree : CanonicalTree)
    (entries : List Entry) :
    (tree.enterAll entries).documentationBase =
      tree.documentationBase := by
  induction entries generalizing tree with
  | nil => rfl
  | cons entry rest ih =>
      rw [enterAll_cons, ih]
      cases entry with
      | parameter p => rw [enter, addParameter_fst]
      | function nameSpace functionName =>
          rw [enter]
          rcases addFunction_cases tree nameSpace functionName
            with hSame | hEntering
          · rw [hSame]
          · exact hEntering.documentationBase

/- No level of the parameters is lost. -/
theorem reaches_enterAll
    {path : List String}
    (hReaches : Reaches path tree.parameters)
    (entries : List Entry) :
    Reaches path (tree.enterAll entries).parameters := by
  induction entries generalizing tree with
  | nil => exact hReaches
  | cons entry rest ih =>
      rw [enterAll_cons]
      apply ih
      cases entry with
      | parameter p =>
          rw [enter, addParameter_fst]
          exact reaches_enterLevels.mpr (.inl hReaches)
      | function nameSpace functionName =>
          rw [enter]
          rcases addFunction_cases tree nameSpace functionName
            with hSame | hEntering
          · rw [hSame]
            exact hReaches
          · rw [hEntering.parameters]
            exact hReaches

/- The levels of an accepted parameter are there. -/
theorem reaches_of_mem_accepted
    {p : Parameter}
    {entries : List Entry}
    (hAccepted :
      Entry.parameter p ∈ tree.accepted entries) :
    Reaches (p.identityPath.map Prod.fst)
      (tree.enterAll entries).parameters := by
  induction entries generalizing tree with
  | nil => cases hAccepted
  | cons entry rest ih =>
      rw [accepted] at hAccepted
      rw [enterAll_cons]
      cases hResult : (tree.enter entry).2 with
      | error fault =>
          rw [hResult] at hAccepted
          exact ih hAccepted
      | ok done =>
          rw [hResult] at hAccepted
          rcases List.mem_cons.mp hAccepted with rfl | hRest
          · rw [enter] at hResult ⊢
            rw [(addParameter_ok hResult).1]
            apply reaches_enterAll
            exact
              reaches_enterLevels.mpr (.inr List.prefix_rfl)
          · exact ih hRest

/- A tree is within what it becomes. -/
theorem within_enterAll
    {earlier : List Entry}
    (hRecords : tree.Records earlier)
    (entries : List Entry) :
    Within tree (tree.enterAll entries) := by
  have hAfter := hRecords.enterAll entries
  constructor
  · unfold address
    rw [documentationBase_enterAll]
  · intro nameSpace functionName
    rw [hRecords.hasFunction, hAfter.hasFunction]
    exact List.mem_append_left _
  · intro nameSpace
    rw [hRecords.hasNameSpace, hAfter.hasNameSpace]
    rintro ⟨functionName, hEntry⟩
    exact ⟨functionName, List.mem_append_left _ hEntry⟩
  · intro path hReaches
    exact reaches_enterAll hReaches entries

/- Trees that hold the same entries are within each other. -/
theorem within_of_holds
    {entries others : List Entry}
    (hAddress : after.address = tree.address)
    (hTree : tree.Holds entries)
    (hAfter : after.Holds others)
    (hSubset : entries ⊆ others) :
    Within tree after := by
  constructor
  · exact hAddress
  · intro nameSpace functionName
    rw [hTree.hasFunction, hAfter.hasFunction]
    exact fun hEntry => hSubset hEntry
  · intro nameSpace
    rw [hTree.hasNameSpace, hAfter.hasNameSpace]
    rintro ⟨functionName, hEntry⟩
    exact ⟨functionName, hSubset hEntry⟩
  · intro path
    rw [hTree.reaches, hAfter.reaches]
    rintro (hNil | ⟨p, hEntry, hPrefix⟩)
    · exact .inl hNil
    · exact .inr ⟨p, hSubset hEntry, hPrefix⟩

------------------------------------------------------------
-- Names among the Functions
------------------------------------------------------------

/- A name has the entry of a function without namespace. -/
structure FunctionAt
    (tree : CanonicalTree)
    (entries : List Entry)
    (name : String)
    (v : Json) : Prop where
  entered : Entry.function none name ∈ entries
  value : v = functionJson (tree.address none name)

/- A name has the entries of the functions in a namespace. -/
structure NameSpaceAt
    (tree : CanonicalTree)
    (entries : List Entry)
    (name : String)
    (v : Json) : Prop where
  entered :
    ∃ functionName,
      Entry.function (some name) functionName ∈ entries
  value :
    ∃ members,
      v = .object members ∧
        Keyed.Distinct members ∧
        ∀ functionName u,
          Keyed.find? functionName members = some u ↔
            Entry.function (some name) functionName ∈
                entries ∧
              u =
                functionJson
                  (tree.address (some name) functionName)

variable {entries : List Entry}

/- Every name has one of these, but no name has both. -/
theorem Records.xor_of_member
    {name : String}
    {v : Json}
    (hRecords : tree.Records entries)
    (hCoherent : tree.Coherent)
    (hMember : tree.functionsJson.member? name = some v) :
    Xor (tree.FunctionAt entries name v)
      (tree.NameSpaceAt entries name v) := by
  have hNever :
      ∀ v w,
        tree.FunctionAt entries name v →
          ¬ tree.NameSpaceAt entries name w :=
    fun v w hFunction hSpace =>
      hRecords.not_clashes
        ⟨name, hFunction.entered, hSpace.entered⟩
  rw [member?_functionsJson, Option.map_eq_some_iff] at hMember
  rcases hMember with ⟨slot, hSlot, rfl⟩
  have hAddresses := hCoherent.addresses name slot hSlot
  cases slot with
  | function address =>
      have hFunction :
          tree.FunctionAt entries name
            (slotJson (.function address)) := by
        refine
          ⟨(hRecords.hasFunction none name).mp
            ⟨address, hSlot⟩, ?_⟩
        rw [HasAddresses] at hAddresses
        rw [slotJson, hAddresses]
      exact .inl ⟨hFunction, hNever _ _ hFunction⟩
  | group functions =>
      have hSpace :
          tree.NameSpaceAt entries name
            (slotJson (.group functions)) := by
        refine
          ⟨(hRecords.hasNameSpace name).mp
            ⟨functions, hSlot⟩, _, rfl, ?_, ?_⟩
        · rw [Keyed.Distinct, Keyed.keys_map]
          exact
            hCoherent.tidy.groups name functions
              (Keyed.mem_of_find? hSlot)
        · intro functionName u
          rw [Keyed.find?_map, Option.map_eq_some_iff,
            ← hRecords.hasFunction]
          constructor
          · rintro ⟨address, hFound, rfl⟩
            refine
              ⟨⟨functions, hSlot,
                Keyed.mem_keys_of_find? hFound⟩, ?_⟩
            rw [hAddresses functionName address hFound]
          · rintro ⟨⟨others, hOthers, hMem⟩, rfl⟩
            rw [hSlot] at hOthers
            cases hOthers
            rcases Keyed.find?_of_mem_keys hMem with
              ⟨address, hFound⟩
            refine ⟨address, hFound, ?_⟩
            rw [hAddresses functionName address hFound]
      exact
        .inr ⟨hSpace, fun hFunction =>
          hNever _ _ hFunction hSpace⟩

------------------------------------------------------------
-- Faithful Trees
------------------------------------------------------------

/- The texts of an accepted parameter are at its key. -/
theorem textAt?_of_mem_accepted
    {p : Parameter}
    {word : String}
    (hTidy : tree.Tidy)
    (hAccepted :
      Entry.parameter p ∈ tree.accepted entries)
    (hWord : isReserved word = true) :
    (tree.enterAll entries).toJson.textAt?
        (parameterKey p ++ [word]) =
      some placeholder := by
  have hAfter := hTidy.enterAll entries
  have hReaches := reaches_of_mem_accepted hAccepted
  exact
    textAt?_parameter hAfter.parameters.orderly hReaches
      (hAfter.unreserved hReaches) hWord

/-
  A tree stands for the entries that it has accepted.
  Functions are refused for clashes with them only, and are
  refused without a trace.  A name among the functions has
  one of its two uses and never both.  What is accepted has
  its entry, and nothing that is entered later changes a
  place of the value, except for joining an object.
-/
structure Faithful
    (tree : CanonicalTree)
    (entries : List Entry) : Prop where
  refused :
    ∀ nameSpace functionName fault,
      (tree.addFunction nameSpace functionName).2 =
          .error fault ↔
        fault =
            .duplicateFunction
              (nameSpace.getD functionName) ∧
          Clashes
            (entries ++ [.function nameSpace functionName])
  unchanged :
    ∀ nameSpace functionName fault,
      (tree.addFunction nameSpace functionName).2 =
          .error fault →
        (tree.addFunction nameSpace functionName).1.toJson =
          tree.toJson
  names :
    ∀ name v,
      tree.toJson.at? [LocaleKey.functions, name] = some v →
        Xor (tree.FunctionAt entries name v)
          (tree.NameSpaceAt entries name v)
  functions :
    ∀ nameSpace functionName,
      Entry.function nameSpace functionName ∈ entries →
        tree.toJson.at? (functionKey nameSpace functionName) =
          some
            (functionJson
              (tree.address nameSpace functionName))
  parameters :
    ∀ p word,
      Entry.parameter p ∈ entries →
        isReserved word = true →
          tree.toJson.textAt? (parameterKey p ++ [word]) =
            some placeholder
  kept :
    ∀ later,
      tree.toJson.KeptBy (tree.enterAll later).toJson

/- After any entries a tree stands for the accepted ones. -/
theorem faithful_enterAll
    (documentationBase : Option String)
    (entries : List Entry) :
    ((empty documentationBase).enterAll entries).Faithful
      ((empty documentationBase).accepted entries) := by
  have hRecords :=
    (records_empty documentationBase).enterAll entries
  have hCoherent :=
    (coherent_empty documentationBase).enterAll entries
  rw [List.nil_append] at hRecords
  constructor
  · intro nameSpace functionName fault
    rw [addFunction_error_iff, hRecords.isTaken_iff]
  · intro nameSpace functionName fault hError
    rw [addFunction_of_error hError]
  · intro name v hAt
    apply hRecords.xor_of_member hCoherent
    rcases Json.at?_cons_eq_some_iff.mp hAt with
      ⟨functions, hSection, hRest⟩
    cases hSection
    rcases Json.at?_cons_eq_some_iff.mp hRest with
      ⟨u, hMember, hHere⟩
    cases hHere
    exact hMember
  · intro nameSpace functionName hEntry
    rw [functionKey, List.append_assoc, List.singleton_append,
      at?_toJson_functions]
    exact
      hCoherent.at?_functionsJson
        ((hRecords.hasFunction _ _).mpr hEntry) []
  · intro p word hEntry hWord
    exact
      textAt?_of_mem_accepted (tidy_empty documentationBase)
        hEntry hWord
  · intro later
    exact
      (within_enterAll hRecords later).toJson_keptBy hCoherent
        (hCoherent.enterAll later)

------------------------------------------------------------
-- Order of Entries
------------------------------------------------------------

/- Trees that hold the same entries have the same places. -/
theorem rearranged_of_holds
    {others : List Entry}
    (hAddress : after.address = tree.address)
    (hTree : tree.Coherent)
    (hAfter : after.Coherent)
    (hHolds : tree.Holds entries)
    (hOthers : after.Holds others)
    (hPerm : entries.Perm others) :
    tree.toJson.Rearranged after.toJson := by
  have hForward :=
    within_of_holds hAddress hHolds hOthers hPerm.subset
  have hBack :=
    within_of_holds hAddress.symm hOthers hHolds
      hPerm.symm.subset
  exact
    Json.rearranged_of_keptBy
      (plain_toJson hTree.tidy).keyed
      (plain_toJson hAfter.tidy).keyed
      (hForward.toJson_keptBy hTree hAfter)
      (hBack.toJson_keptBy hAfter hTree)

/-
  A tree stands for its accepted entries, whatever has been
  entered.  Entries of which none is refused may be entered
  in any order, which changes nothing but the order of keys.
-/
theorem faithful_in_any_order
    (documentationBase : Option String)
    (entries : List Entry) :
    ((empty documentationBase).enterAll entries).Faithful
        ((empty documentationBase).accepted entries) ∧
      ∀ others,
        entries.Perm others →
          ((empty documentationBase).AcceptsAll entries ↔
            (empty documentationBase).AcceptsAll others) ∧
          ((empty documentationBase).AcceptsAll entries →
            ((empty documentationBase).enterAll
                entries).toJson.Rearranged
              ((empty documentationBase).enterAll
                others).toJson) := by
  refine ⟨faithful_enterAll documentationBase entries, ?_⟩
  intro others hPerm
  have hSame :
      (empty documentationBase).AcceptsAll entries ↔
        (empty documentationBase).AcceptsAll others := by
    rw [acceptsAll_iff, acceptsAll_iff, clashes_of_perm hPerm]
    simp only [hPerm.mem_iff]
  refine ⟨hSame, ?_⟩
  intro hAccepts
  have hEmpty := holds_empty documentationBase
  have hAddress :
      ((empty documentationBase).enterAll others).address =
        ((empty documentationBase).enterAll
          entries).address := by
    unfold address
    rw [documentationBase_enterAll, documentationBase_enterAll]
  have hCoherent := coherent_empty documentationBase
  exact
    rearranged_of_holds hAddress (hCoherent.enterAll entries)
      (hCoherent.enterAll others) (hEmpty.enterAll hAccepts)
      (hEmpty.enterAll (hSame.mp hAccepts)) hPerm

end CanonicalTree

end HostBindings
