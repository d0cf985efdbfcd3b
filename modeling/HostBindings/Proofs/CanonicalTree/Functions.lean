import HostBindings.Locale.CanonicalTree
import HostBindings.Proofs.Json.Paths

/-
  The functions in a canonical tree.

  A name among the functions is one of a function or one of a
  namespace.  Entering a function adds the function and, if
  need be, its namespace.

  Main declarations:
    * `CanonicalTree.HasFunction`
    * `CanonicalTree.HasNameSpace`
    * `CanonicalTree.Entering`
    * `CanonicalTree.entering_of_addFunction`
    * `CanonicalTree.Entering.hasFunction_iff`
    * `CanonicalTree.Entering.hasNameSpace_iff`
    * `CanonicalTree.at?_functionsJson`
    * `CanonicalTree.object_of_functionsJson`
-/

------------------------------------------------------------
-- Entries of Functions
------------------------------------------------------------

namespace HostBindings

namespace CanonicalTree

/- A function has an entry, in the group of its namespace. -/
def HasFunction
    (tree : CanonicalTree)
    (nameSpace : Option String)
    (functionName : String) : Prop :=
  match nameSpace with
  | none =>
      ∃ address,
        Keyed.find? functionName tree.functions =
          some (.function address)
  | some nameSpace =>
      ∃ functions,
        Keyed.find? nameSpace tree.functions =
            some (.group functions) ∧
          functionName ∈ Keyed.keys functions

/- A namespace has a group. -/
def HasNameSpace
    (tree : CanonicalTree)
    (nameSpace : String) : Prop :=
  ∃ functions,
    Keyed.find? nameSpace tree.functions =
      some (.group functions)

/-
  What entering a function amounts to: it joins its group,
  which may be a new one, or stands alone, which it may have
  done before.
-/
inductive Entering
    (tree : CanonicalTree) :
    Option String → String → CanonicalTree → Prop
| grouped
    {nameSpace functionName : String}
    (group : Keyed String (Option String))
    (address : Option String)
    (hGroup :
      Keyed.find? nameSpace tree.functions =
          some (.group group) ∨
        Keyed.find? nameSpace tree.functions = none ∧
          group = []) :
    Entering tree (some nameSpace) functionName
      { tree with
        functions :=
          Keyed.put nameSpace
            (.group
              (Keyed.putIfNew functionName address group))
            tree.functions }
| again
    {functionName : String}
    (address : Option String)
    (hFound :
      Keyed.find? functionName tree.functions =
        some (.function address)) :
    Entering tree none functionName tree
| alone
    {functionName : String}
    (address : Option String)
    (hFresh :
      Keyed.find? functionName tree.functions = none) :
    Entering tree none functionName
      { tree with
        functions :=
          Keyed.put functionName (.function address)
            tree.functions }

variable {tree after : CanonicalTree}
variable {nameSpace : Option String}
variable {functionName : String}

/- A function that is not refused is entered. -/
theorem entering_of_addFunction
    (hOk :
      tree.addFunction nameSpace functionName =
        (after, .ok ())) :
    Entering tree nameSpace functionName after := by
  unfold addFunction at hOk
  cases nameSpace with
  | some nameSpace =>
      simp only at hOk
      cases hFound : Keyed.find? nameSpace tree.functions with
      | none =>
          rw [hFound] at hOk
          cases hOk
          exact .grouped [] _ (.inr ⟨hFound, rfl⟩)
      | some slot =>
          rw [hFound] at hOk
          cases slot with
          | function address => cases hOk
          | group functions =>
              cases hOk
              exact .grouped functions _ (.inl hFound)
  | none =>
      simp only at hOk
      cases hFound : Keyed.find? functionName tree.functions
        with
      | none =>
          rw [hFound] at hOk
          cases hOk
          exact .alone _ hFound
      | some slot =>
          rw [hFound] at hOk
          cases slot with
          | function address =>
              cases hOk
              exact .again address hFound
          | group functions => cases hOk

/- Entering a function leaves the parameters alone. -/
theorem Entering.parameters
    (hEntering :
      Entering tree nameSpace functionName after) :
    after.parameters = tree.parameters := by
  cases hEntering <;> rfl

/- Nor does the documentation move. -/
theorem Entering.documentationBase
    (hEntering :
      Entering tree nameSpace functionName after) :
    after.documentationBase = tree.documentationBase := by
  cases hEntering <;> rfl

/- What a group holds once a function has joined it. -/
theorem mem_group_iff
    {nameSpace functionName otherName : String}
    {group : Keyed String (Option String)}
    (address : Option String)
    (hGroup :
      Keyed.find? nameSpace tree.functions =
          some (.group group) ∨
        Keyed.find? nameSpace tree.functions = none ∧
          group = []) :
    otherName ∈
        Keyed.keys
          (Keyed.putIfNew functionName address group) ↔
      tree.HasFunction (some nameSpace) otherName ∨
        otherName = functionName := by
  rw [Keyed.mem_keys_putIfNew]
  apply or_congr_left
  unfold HasFunction
  rcases hGroup with hFound | ⟨hFresh, rfl⟩
  · simp [hFound]
  · simp [hFresh]

/- Entering a function adds this function and no other. -/
theorem Entering.hasFunction_iff
    {otherSpace : Option String}
    {otherName : String}
    (hEntering :
      Entering tree nameSpace functionName after) :
    after.HasFunction otherSpace otherName ↔
      tree.HasFunction otherSpace otherName ∨
        otherSpace = nameSpace ∧ otherName = functionName := by
  cases hEntering with
  | @grouped nameSpace functionName group address hGroup =>
      cases otherSpace with
      | none =>
          have hNe :
              ∀ other,
                Keyed.find? otherName tree.functions =
                    some (.function other) →
                  otherName ≠ nameSpace := by
            rintro other hFound rfl
            rw [hFound] at hGroup
            rcases hGroup with hOther | ⟨hOther, _⟩ <;>
              cases hOther
          constructor
          · rintro ⟨other, hFound⟩
            rw [Keyed.find?_put] at hFound
            split_ifs at hFound
            · cases hFound
            · exact .inl ⟨other, hFound⟩
          · rintro (⟨other, hFound⟩ | ⟨⟨⟩, _⟩)
            refine ⟨other, ?_⟩
            rw [Keyed.find?_put_of_ne (hNe other hFound)]
            exact hFound
      | some otherSpace =>
          by_cases hKey : otherSpace = nameSpace
          · subst hKey
            simp only [true_and]
            rw [← mem_group_iff address hGroup]
            simp [HasFunction]
          · simp [HasFunction, Keyed.find?_put, hKey]
  | again address hFound =>
      constructor
      · exact .inl
      · rintro (hOld | ⟨rfl, rfl⟩)
        · exact hOld
        · exact ⟨address, hFound⟩
  | alone address hFresh =>
      cases otherSpace with
      | none =>
          by_cases hKey : otherName = functionName
          · simp [HasFunction, hKey]
          · simp [HasFunction, Keyed.find?_put, hKey]
      | some otherSpace =>
          by_cases hKey : otherSpace = functionName
          · subst hKey
            simp [HasFunction, hFresh]
          · simp [HasFunction, Keyed.find?_put, hKey]

/- Entering a function adds at most its own namespace. -/
theorem Entering.hasNameSpace_iff
    {otherSpace : String}
    (hEntering :
      Entering tree nameSpace functionName after) :
    after.HasNameSpace otherSpace ↔
      tree.HasNameSpace otherSpace ∨
        nameSpace = some otherSpace := by
  cases hEntering with
  | @grouped nameSpace functionName group address hGroup =>
      by_cases hKey : otherSpace = nameSpace
      · simp [HasNameSpace, hKey]
      · have hNe : ¬ nameSpace = otherSpace :=
          fun hEq => hKey hEq.symm
        simp [HasNameSpace, Keyed.find?_put, hKey, hNe]
  | again address hFound =>
      simp
  | alone address hFresh =>
      by_cases hKey : otherSpace = functionName
      · subst hKey
        simp [HasNameSpace, hFresh]
      · simp [HasNameSpace, Keyed.find?_put, hKey]

------------------------------------------------------------
-- Functions as Values
------------------------------------------------------------

/- The functions of a tree as a value. -/
def functionsJson (tree : CanonicalTree) : Json :=
  .object
    (tree.functions.map fun entry =>
      (entry.1, slotJson entry.2))

theorem member?_functionsJson
    (tree : CanonicalTree)
    (name : String) :
    tree.functionsJson.member? name =
      (Keyed.find? name tree.functions).map slotJson :=
  Keyed.find?_map name slotJson tree.functions

theorem member?_group
    (functions : Keyed String (Option String))
    (name : String) :
    (slotJson (.group functions)).member? name =
      (Keyed.find? name functions).map functionJson :=
  Keyed.find?_map name functionJson functions

/- A function that has an entry is found at its key. -/
theorem at?_functionsJson
    (hFunction : tree.HasFunction nameSpace functionName) :
    ∃ address,
      tree.functionsJson.at?
          (nameSpace.toList ++ [functionName]) =
        some (functionJson address) := by
  cases nameSpace with
  | none =>
      rcases hFunction with ⟨address, hFound⟩
      refine ⟨address, ?_⟩
      simp only [Option.toList_none, List.nil_append,
        Json.at?_cons, member?_functionsJson, hFound]
      rfl
  | some nameSpace =>
      rcases hFunction with ⟨functions, hGroup, hMem⟩
      rcases Keyed.find?_of_mem_keys hMem with
        ⟨address, hFound⟩
      refine ⟨address, ?_⟩
      simp only [Option.toList_some, List.cons_append,
        List.nil_append, Json.at?_cons,
        member?_functionsJson, hGroup, Option.map_some,
        Option.bind_some, member?_group, hFound]
      rfl

/- The entry of a function holds nothing but texts. -/
theorem text_of_member?_functionJson
    {address : Option String}
    {key : String}
    {value : Json}
    (hMember : (functionJson address).member? key = some value) :
    ∃ text, value = .string text := by
  rcases List.mem_append.mp (Keyed.mem_of_find? hMember) with
    hText | hAddress
  · simp only [untranslated, List.mem_cons, Prod.mk.injEq,
      List.not_mem_nil, or_false] at hText
    rcases hText with ⟨_, rfl⟩ | ⟨_, rfl⟩
    · exact ⟨_, rfl⟩
    · exact ⟨_, rfl⟩
  · rcases List.mem_map.mp hAddress with ⟨text, _, hEntry⟩
    cases hEntry
    exact ⟨text, rfl⟩

/- The only object in the entry of a function is the entry. -/
theorem eq_nil_of_at?_functionJson
    {address : Option String}
    {path : List String}
    {members : List (String × Json)}
    (hAt :
      (functionJson address).at? path =
        some (.object members)) :
    path = [] := by
  cases path with
  | nil =>
      rfl
  | cons key path =>
      rcases Json.at?_cons_eq_some_iff.mp hAt with
        ⟨value, hMember, hRest⟩
      rcases text_of_member?_functionJson hMember with
        ⟨text, rfl⟩
      cases path <;> cases hRest

/-
  Every object among the functions is the entry of a function
  at its key or a namespace, which holds nothing but objects.
-/
theorem object_of_functionsJson
    {key : String}
    {path : List String}
    {members : List (String × Json)}
    (hAt :
      tree.functionsJson.at? (key :: path) =
        some (.object members)) :
    (∃ nameSpace functionName,
      tree.HasFunction nameSpace functionName ∧
        key :: path = nameSpace.toList ++ [functionName]) ∨
    (tree.HasNameSpace key ∧ path = [] ∧
      ∀ entry ∈ members, ∃ inner, entry.2 = .object inner) := by
  rcases Json.at?_cons_eq_some_iff.mp hAt with
    ⟨value, hMember, hRest⟩
  rw [member?_functionsJson, Option.map_eq_some_iff] at hMember
  rcases hMember with ⟨slot, hSlot, rfl⟩
  cases slot with
  | function address =>
      have hNil := eq_nil_of_at?_functionJson hRest
      subst hNil
      exact .inl ⟨none, key, ⟨address, hSlot⟩, rfl⟩
  | group functions =>
      cases path with
      | nil =>
          cases hRest
          refine .inr ⟨⟨functions, hSlot⟩, rfl, ?_⟩
          intro entry hEntry
          rcases List.mem_map.mp hEntry with ⟨_, _, rfl⟩
          exact ⟨_, rfl⟩
      | cons name path =>
          rcases Json.at?_cons_eq_some_iff.mp hRest with
            ⟨value, hInner, hBelow⟩
          rw [member?_group, Option.map_eq_some_iff] at hInner
          rcases hInner with ⟨address, hFound, rfl⟩
          have hNil := eq_nil_of_at?_functionJson hBelow
          subst hNil
          exact
            .inl
              ⟨some key, name,
                ⟨functions, hSlot,
                  Keyed.mem_keys_of_find? hFound⟩, rfl⟩

end CanonicalTree

end HostBindings
