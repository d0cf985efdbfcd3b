import HostBindings.Proofs.CanonicalTree.Entries
import HostBindings.Proofs.Proxy.Identity

/-
  The value of a canonical tree that holds some entries.

  The value has a placeholder for every text of every entry,
  and no objects besides those of the entries and the levels
  and namespaces above them.

  Main declarations:
    * `CanonicalTree.at?_toJson_functions`
    * `CanonicalTree.at?_toJson_parameters`
    * `CanonicalTree.at?_toJson_of_levelAt?`
    * `CanonicalTree.Holds.textAt?_function`
    * `CanonicalTree.Holds.textAt?_parameter`
    * `CanonicalTree.Holds.function_of_object`
    * `CanonicalTree.Holds.parameter_of_object`
-/

------------------------------------------------------------
-- Sections
------------------------------------------------------------

namespace HostBindings

namespace CanonicalTree

/- The functions are one section of a tree. -/
theorem at?_toJson_functions
    (tree : CanonicalTree)
    (path : List String) :
    tree.toJson.at? (LocaleKey.functions :: path) =
      tree.functionsJson.at? path := rfl

variable {tree : CanonicalTree}

/- The parameters are the other section. -/
theorem at?_toJson_parameters
    (hOrderly : Orderly tree.parameters)
    (name : String)
    (path : List String) :
    tree.toJson.at? (LocaleKey.parameters :: name :: path) =
      (Keyed.find? name tree.parameters).bind fun node =>
        (levelJson node.variants).at? path := by
  have hSection :
      tree.toJson.at? (LocaleKey.parameters :: name :: path) =
        (Json.object
          (sortSiblings (siblings tree.parameters))).at?
            (name :: path) := rfl
  rw [hSection, Json.at?_cons, Json.member?_object,
    find?_sortSiblings (orderly_iff.mp hOrderly).1]
  cases Keyed.find? name tree.parameters with
  | none =>
      rfl
  | some node =>
      simp only [Option.map_some, Option.bind_some, nodeJson_eq]

/-
  Along names that are not reserved there are the levels of
  the tree; only the first name may be reserved.
-/
theorem at?_toJson_of_levelAt?
    {name : String}
    {path : List String}
    {level : Keyed String ParameterNode}
    (hOrderly : Orderly tree.parameters)
    (hNames : ∀ name ∈ path, isReserved name = false)
    (hLevel :
      levelAt? (name :: path) tree.parameters = some level) :
    tree.toJson.at? (LocaleKey.parameters :: name :: path) =
      some (levelJson level) := by
  rw [levelAt?_cons, Option.bind_eq_some_iff] at hLevel
  rcases hLevel with ⟨node, hNode, hBelow⟩
  have hVariants := (orderly_iff.mp hOrderly).2 name node hNode
  rw [at?_toJson_parameters hOrderly, hNode, Option.bind_some,
    at?_levelJson hVariants hNames, hBelow]
  rfl

------------------------------------------------------------
-- Texts
------------------------------------------------------------

/- Every entry starts with its texts. -/
theorem textAt?_of_isReserved
    {word : String}
    (hWord : isReserved word = true)
    (others : List (String × Json)) :
    (Json.object (untranslated ++ others)).textAt? [word] =
      some placeholder := by
  rw [Json.textAt?_eq_some_iff, Json.at?_cons,
    Json.member?_object, find?_untranslated, if_pos hWord]
  rfl

variable {entries : List Entry}

/- The texts of a function are found at its key. -/
theorem Holds.textAt?_function
    {nameSpace : Option String}
    {functionName word : String}
    (hHolds : tree.Holds entries)
    (hEntry :
      Entry.function nameSpace functionName ∈ entries)
    (hWord : isReserved word = true) :
    tree.toJson.textAt?
        (functionKey nameSpace functionName ++ [word]) =
      some placeholder := by
  rcases at?_functionsJson
      ((hHolds.hasFunction _ _).mpr hEntry) with
    ⟨address, hAt⟩
  rw [Json.textAt?_append]
  have hKey :
      tree.toJson.at? (functionKey nameSpace functionName) =
        some (functionJson address) := by
    rw [functionKey, List.append_assoc, List.singleton_append,
      at?_toJson_functions]
    exact hAt
  rw [hKey]
  exact textAt?_of_isReserved hWord _

/-
  The texts of a parameter whose levels are there are found
  at its key.
-/
theorem textAt?_parameter
    {p : Parameter}
    {word : String}
    (hOrderly : Orderly tree.parameters)
    (hReaches :
      Reaches (p.identityPath.map Prod.fst) tree.parameters)
    (hNames :
      ∀ name ∈ (p.identityPath.map Prod.fst).tail,
        isReserved name = false)
    (hWord : isReserved word = true) :
    tree.toJson.textAt? (parameterKey p ++ [word]) =
      some placeholder := by
  have hNe := p.identityPath_ne_nil
  rw [parameterKey]
  cases hPath : p.identityPath with
  | nil =>
      exact absurd hPath hNe
  | cons step rest =>
      rw [hPath, List.map_cons] at hReaches hNames
      rw [List.tail_cons] at hNames
      rcases hReaches with ⟨variants, hVariants⟩
      rw [Json.textAt?_append, List.map_cons,
        at?_toJson_of_levelAt? hOrderly hNames hVariants]
      exact textAt?_of_isReserved hWord _

/- So are those of a parameter that has been entered. -/
theorem Holds.textAt?_parameter
    {p : Parameter}
    {word : String}
    (hHolds : tree.Holds entries)
    (hEntry : Entry.parameter p ∈ entries)
    (hWord : isReserved word = true) :
    tree.toJson.textAt? (parameterKey p ++ [word]) =
      some placeholder := by
  have hReaches :
      Reaches (p.identityPath.map Prod.fst)
        tree.parameters :=
    (hHolds.reaches _).mpr
      (.inr ⟨p, hEntry, List.prefix_rfl⟩)
  exact
    CanonicalTree.textAt?_parameter hHolds.orderly hReaches
      (hHolds.unreserved p hEntry) hWord

------------------------------------------------------------
-- Objects
------------------------------------------------------------

/-
  An object among the functions is at the key of one that has
  been entered, or it is the namespace of one.
-/
theorem Holds.function_of_object
    {path : List String}
    {members : List (String × Json)}
    (hHolds : tree.Holds entries)
    (hPath : path ≠ [])
    (hAt :
      tree.toJson.at? (LocaleKey.functions :: path) =
        some (.object members)) :
    (∃ nameSpace functionName,
      Entry.function nameSpace functionName ∈ entries ∧
        LocaleKey.functions :: path =
          functionKey nameSpace functionName) ∨
    (∃ nameSpace functionName,
      Entry.function (some nameSpace) functionName ∈ entries ∧
        path = [nameSpace] ∧
        ∀ entry ∈ members,
          ∃ inner, entry.2 = .object inner) := by
  cases path with
  | nil =>
      exact absurd rfl hPath
  | cons key path =>
      rw [at?_toJson_functions] at hAt
      rcases object_of_functionsJson hAt with
        ⟨nameSpace, functionName, hFunction, hKey⟩ |
        ⟨hNameSpace, rfl, hMembers⟩
      · refine
          .inl
            ⟨nameSpace, functionName,
              (hHolds.hasFunction _ _).mp hFunction, ?_⟩
        rw [hKey, functionKey, List.append_assoc,
          List.singleton_append]
      · rcases (hHolds.hasNameSpace key).mp hNameSpace with
          ⟨functionName, hEntry⟩
        exact .inr ⟨key, functionName, hEntry, rfl, hMembers⟩

/-
  An object among the parameters is on the way to one that
  has been entered.
-/
theorem Holds.parameter_of_object
    {path : List String}
    {members : List (String × Json)}
    (hHolds : tree.Holds entries)
    (hPath : path ≠ [])
    (hAt :
      tree.toJson.at? (LocaleKey.parameters :: path) =
        some (.object members)) :
    ∃ p, Entry.parameter p ∈ entries ∧
      LocaleKey.parameters :: path <+: parameterKey p := by
  cases path with
  | nil =>
      exact absurd rfl hPath
  | cons name path =>
      rw [at?_toJson_parameters hHolds.orderly] at hAt
      rcases Option.bind_eq_some_iff.mp hAt with
        ⟨node, hNode, hRest⟩
      have hBelow :=
        (orderly_iff.mp hHolds.orderly).2 name node hNode
      have hReaches : Reaches (name :: path) tree.parameters :=
        reaches_cons_iff.mpr
          ⟨node, hNode, reaches_of_at?_levelJson hBelow hRest⟩
      rcases (hHolds.reaches _).mp hReaches with
        hNil | ⟨p, hEntry, hPrefix⟩
      · cases hNil
      · refine ⟨p, hEntry, ?_⟩
        exact List.cons_prefix_cons.mpr ⟨rfl, hPrefix⟩

end CanonicalTree

end HostBindings
