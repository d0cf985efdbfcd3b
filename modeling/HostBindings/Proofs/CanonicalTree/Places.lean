import HostBindings.Proofs.CanonicalTree.Shape
import HostBindings.Proofs.CanonicalTree.Values

/-
  The places in the value of a canonical tree.

  A place among the functions is that of a namespace or one
  in the entry of a function, which has the address of this
  function.  A place among the parameters is a level that a
  path of names reaches, or one of the texts of a level.

  Main declarations:
    * `CanonicalTree.Coherent`
    * `CanonicalTree.Coherent.enterAll`
    * `CanonicalTree.Coherent.place_of_functionsJson`
    * `CanonicalTree.TidyNode.place_of_levelJson`
-/

------------------------------------------------------------
-- Addresses
------------------------------------------------------------

namespace HostBindings

namespace CanonicalTree

/- What is entered for a name has the addresses of the name. -/
def HasAddresses
    (tree : CanonicalTree)
    (name : String) : FunctionSlot → Prop
| .function address => address = tree.address none name
| .group functions =>
    ∀ functionName address,
      Keyed.find? functionName functions = some address →
        address = tree.address (some name) functionName

/-
  No level, group or section repeats a name, and functions
  have their own addresses.
-/
structure Coherent (tree : CanonicalTree) : Prop where
  tidy : tree.Tidy
  addresses :
    ∀ name slot,
      Keyed.find? name tree.functions = some slot →
        tree.HasAddresses name slot

/- A tree without entries is coherent. -/
theorem coherent_empty (documentationBase : Option String) :
    (empty documentationBase).Coherent :=
  ⟨tidy_empty documentationBase, by simp [empty]⟩

variable {tree : CanonicalTree}
variable {nameSpace : Option String}
variable {functionName : String}

/- What is written for a name has to have its addresses. -/
theorem Coherent.addresses_put
    {name : String}
    {slot : FunctionSlot}
    (hCoherent : tree.Coherent)
    (hSlot : tree.HasAddresses name slot)
    {other : String}
    {found : FunctionSlot}
    (hFound :
      Keyed.find? other
        (Keyed.put name slot tree.functions) = some found) :
    tree.HasAddresses other found := by
  rw [Keyed.find?_put] at hFound
  split_ifs at hFound with hName
  · cases hFound
    rw [hName]
    exact hSlot
  · exact hCoherent.addresses other found hFound

/- A function is entered with its own address. -/
theorem Coherent.addFunction
    (hCoherent : tree.Coherent)
    (nameSpace : Option String)
    (functionName : String) :
    (tree.addFunction nameSpace functionName).1.Coherent := by
  refine ⟨hCoherent.tidy.addFunction _ _, ?_⟩
  unfold CanonicalTree.addFunction
  cases nameSpace with
  | some nameSpace =>
      cases hFound : Keyed.find? nameSpace tree.functions with
      | none =>
          simp only [hFound]
          intro name slot
          apply hCoherent.addresses_put
          intro otherName address hOther
          rw [Keyed.find?] at hOther
          split_ifs at hOther with hName
          · cases hOther
            rw [← hName]
          · cases hOther
      | some slot =>
          cases slot with
          | function address =>
              simp only [hFound]
              exact hCoherent.addresses
          | group functions =>
              have hOld :=
                hCoherent.addresses nameSpace _ hFound
              simp only [hFound]
              intro name slot
              apply hCoherent.addresses_put
              intro otherName address hOther
              rw [Keyed.find?_putIfNew,
                Option.or_eq_some_iff] at hOther
              rcases hOther with hSame | ⟨_, hNew⟩
              · exact hOld otherName address hSame
              · split_ifs at hNew with hName
                cases hNew
                rw [hName]
  | none =>
      cases Keyed.find? functionName tree.functions with
      | none =>
          intro name slot
          apply hCoherent.addresses_put
          exact rfl
      | some slot =>
          cases slot <;> exact hCoherent.addresses

/- Entries keep a tree coherent, even if they are refused. -/
theorem Coherent.enter
    (hCoherent : tree.Coherent)
    (entry : Entry) :
    (tree.enter entry).1.Coherent := by
  cases entry with
  | parameter p =>
      refine ⟨hCoherent.tidy.addParameter p, ?_⟩
      rw [CanonicalTree.enter, addParameter_fst]
      exact hCoherent.addresses
  | function nameSpace functionName =>
      exact hCoherent.addFunction nameSpace functionName

/- So do lists of entries. -/
theorem Coherent.enterAll
    (hCoherent : tree.Coherent)
    (entries : List Entry) :
    (tree.enterAll entries).Coherent := by
  induction entries generalizing tree with
  | nil => exact hCoherent
  | cons entry rest ih => exact ih (hCoherent.enter entry)

------------------------------------------------------------
-- Places of Functions
------------------------------------------------------------

/- An accepted function is found at its key. -/
theorem Coherent.at?_functionsJson
    (hCoherent : tree.Coherent)
    (hFunction : tree.HasFunction nameSpace functionName)
    (rest : List String) :
    tree.functionsJson.at?
        (nameSpace.toList ++ functionName :: rest) =
      (functionJson
        (tree.address nameSpace functionName)).at? rest := by
  cases nameSpace with
  | none =>
      rcases hFunction with ⟨address, hFound⟩
      have hAddress := hCoherent.addresses _ _ hFound
      rw [HasAddresses] at hAddress
      rw [Option.toList_none, List.nil_append, Json.at?_cons,
        member?_functionsJson, hFound, ← hAddress]
      rfl
  | some nameSpace =>
      rcases hFunction with ⟨functions, hGroup, hMem⟩
      rcases Keyed.find?_of_mem_keys hMem with
        ⟨address, hFound⟩
      have hAddress :=
        hCoherent.addresses _ _ hGroup functionName address
          hFound
      rw [Option.toList_some, List.singleton_append,
        Json.at?_cons, member?_functionsJson, hGroup,
        Option.map_some, Option.bind_some, Json.at?_cons,
        member?_group, hFound, ← hAddress]
      rfl

/-
  A place among the functions is the section itself, that of
  a namespace, or one in the entry of a function.
-/
theorem Coherent.place_of_functionsJson
    {path : List String}
    {v : Json}
    (hCoherent : tree.Coherent)
    (hAt : tree.functionsJson.at? path = some v) :
    path = [] ∨
    (∃ name, path = [name] ∧ tree.HasNameSpace name) ∨
    ∃ nameSpace functionName rest,
      tree.HasFunction nameSpace functionName ∧
        path = nameSpace.toList ++ functionName :: rest ∧
        (functionJson
          (tree.address nameSpace functionName)).at? rest =
            some v := by
  cases path with
  | nil => exact .inl rfl
  | cons name path =>
      have hPlace := hAt
      rcases Json.at?_cons_eq_some_iff.mp hAt with
        ⟨value, hMember, hRest⟩
      rw [member?_functionsJson, Option.map_eq_some_iff]
        at hMember
      rcases hMember with ⟨slot, hSlot, rfl⟩
      right
      cases slot with
      | function address =>
          have hFunction : tree.HasFunction none name :=
            ⟨address, hSlot⟩
          have hEntry :=
            hCoherent.at?_functionsJson hFunction path
          exact
            .inr
              ⟨none, name, path, hFunction, rfl,
                hEntry.symm.trans hPlace⟩
      | group functions =>
          cases path with
          | nil =>
              exact .inl ⟨name, rfl, functions, hSlot⟩
          | cons functionName path =>
              rcases Json.at?_cons_eq_some_iff.mp hRest with
                ⟨value, hInner, _⟩
              rw [member?_group, Option.map_eq_some_iff]
                at hInner
              rcases hInner with ⟨address, hFound, _⟩
              have hFunction :
                  tree.HasFunction (some name)
                    functionName :=
                ⟨functions, hSlot,
                  Keyed.mem_keys_of_find? hFound⟩
              have hEntry :=
                hCoherent.at?_functionsJson hFunction path
              exact
                .inr
                  ⟨some name, functionName, path, hFunction,
                    rfl, hEntry.symm.trans hPlace⟩

------------------------------------------------------------
-- Places of Parameters
------------------------------------------------------------

/- Below a tidy entry no level repeats a name. -/
theorem TidyNode.orderly
    {node : ParameterNode}
    (hTidy : TidyNode node) :
    Orderly node.variants := by
  induction hTidy with
  | node sortOrder variants hDistinct hNames hBelow ih =>
      rw [ParameterNode.variants_node, orderly_iff]
      refine ⟨hDistinct, ?_⟩
      intro name node hFound
      exact ih _ (Keyed.mem_of_find? hFound)

/- No level of a tidy tree does. -/
theorem TidyLevel.orderly
    {level : Keyed String ParameterNode}
    (hTidy : TidyLevel level) :
    Orderly level := by
  rw [orderly_iff]
  refine ⟨hTidy.distinct, ?_⟩
  intro name node hFound
  exact (hTidy.nodes _ (Keyed.mem_of_find? hFound)).orderly

variable {node : ParameterNode}
variable {path : List String}

/- Below a tidy entry no name is reserved. -/
theorem TidyNode.unreserved
    (hTidy : TidyNode node)
    (hReaches : Reaches path node.variants) :
    ∀ name ∈ path, isReserved name = false := by
  induction path generalizing node with
  | nil => simp
  | cons name path ih =>
      rcases reaches_cons_iff.mp hReaches with
        ⟨variant, hFound, hBelow⟩
      have hMem := Keyed.mem_of_find? hFound
      rw [List.forall_mem_cons]
      exact
        ⟨hTidy.level.2 _ hMem,
          ih (hTidy.level.1.nodes _ hMem) hBelow⟩

/- In a tidy tree only the first name may be reserved. -/
theorem Tidy.unreserved
    (hTidy : tree.Tidy)
    (hReaches : Reaches path tree.parameters) :
    ∀ name ∈ path.tail, isReserved name = false := by
  cases path with
  | nil => simp
  | cons name path =>
      rcases reaches_cons_iff.mp hReaches with
        ⟨node, hFound, hBelow⟩
      have hNode :=
        hTidy.parameters.nodes _ (Keyed.mem_of_find? hFound)
      exact hNode.unreserved hBelow

/- The value of a tidy entry has the levels of the entry. -/
theorem TidyNode.at?_levelJson
    (hTidy : TidyNode node)
    (hReaches : Reaches path node.variants) :
    ∃ level, (levelJson node.variants).at? path =
      some (levelJson level) := by
  have hNames := hTidy.unreserved hReaches
  rcases hReaches with ⟨level, hLevel⟩
  refine ⟨level, ?_⟩
  rw [CanonicalTree.at?_levelJson hTidy.orderly hNames, hLevel]
  rfl

/- It has a placeholder for every text of each of them. -/
theorem TidyNode.at?_text
    {word : String}
    (hTidy : TidyNode node)
    (hReaches : Reaches path node.variants)
    (hWord : isReserved word = true) :
    (levelJson node.variants).at? (path ++ [word]) =
      some (.string placeholder) := by
  rcases hTidy.at?_levelJson hReaches with ⟨level, hLevel⟩
  rw [Json.at?_append, hLevel]
  exact
    Json.textAt?_eq_some_iff.mp
      (textAt?_of_isReserved hWord _)

/- It has no other places. -/
theorem TidyNode.place_of_levelJson
    {v : Json}
    (hTidy : TidyNode node)
    (hAt : (levelJson node.variants).at? path = some v) :
    Reaches path node.variants ∨
    ∃ above word,
      path = above ++ [word] ∧
        Reaches above node.variants ∧
        isReserved word = true := by
  induction path generalizing node with
  | nil => exact .inl (reaches_nil _)
  | cons name path ih =>
      have hDistinct := hTidy.level.1.distinct
      rcases Json.at?_cons_eq_some_iff.mp hAt with
        ⟨value, hMember, hRest⟩
      rw [member?_levelJson hDistinct] at hMember
      by_cases hReserved : isReserved name = true
      · rw [if_pos hReserved, Option.some.injEq] at hMember
        subst hMember
        -- there is nothing below a text
        cases path with
        | nil =>
            exact
              .inr ⟨[], name, rfl, reaches_nil _, hReserved⟩
        | cons other path => cases hRest
      · rw [if_neg hReserved, Option.map_eq_some_iff]
          at hMember
        rcases hMember with ⟨variant, hFound, rfl⟩
        rw [nodeJson_eq] at hRest
        have hVariant :=
          hTidy.level.1.nodes _ (Keyed.mem_of_find? hFound)
        rcases ih hVariant hRest with
          hBelow | ⟨above, word, rfl, hAbove, hWord⟩
        · exact
            .inl
              (reaches_cons_iff.mpr
                ⟨variant, hFound, hBelow⟩)
        · exact
            .inr
              ⟨name :: above, word, rfl,
                reaches_cons_iff.mpr
                  ⟨variant, hFound, hAbove⟩,
                hWord⟩

end CanonicalTree

end HostBindings
