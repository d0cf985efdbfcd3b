import HostBindings.Locale.CanonicalTree
import HostBindings.Proofs.Json.Paths

/-
  The levels of the parameters in a canonical tree.

  A level is the table of variants that a path of names leads
  to.  Entering an identity adds the levels along it and none
  besides, and the value of an entry has the same levels.

  Main declarations:
    * `CanonicalTree.levelAt?`
    * `CanonicalTree.reaches_enterLevels`
    * `CanonicalTree.Orderly`
    * `CanonicalTree.orderly_enterLevels`
    * `CanonicalTree.at?_levelJson`
    * `CanonicalTree.reaches_of_at?_levelJson`
-/

------------------------------------------------------------
-- Levels
------------------------------------------------------------

namespace HostBindings

@[simp]
theorem ParameterNode.variants_node
    (sortOrder : Option Int)
    (variants : List (String × ParameterNode)) :
    (ParameterNode.node sortOrder variants).variants =
      variants := rfl

namespace CanonicalTree

/- The variants at the end of a path of names. -/
def levelAt? :
    List String →
      Keyed String ParameterNode →
        Option (Keyed String ParameterNode)
| [], level => some level
| name :: path, level =>
    match Keyed.find? name level with
    | none => none
    | some node => levelAt? path node.variants

/- There is an entry at the end of a path of names. -/
def Reaches
    (path : List String)
    (level : Keyed String ParameterNode) : Prop :=
  ∃ variants, levelAt? path level = some variants

/- No level holds two entries with one name. -/
def Orderly (level : Keyed String ParameterNode) : Prop :=
  ∀ path variants,
    levelAt? path level = some variants →
      Keyed.Distinct variants

/- One name and then the rest of a path. -/
theorem levelAt?_cons
    (name : String)
    (path : List String)
    (level : Keyed String ParameterNode) :
    levelAt? (name :: path) level =
      (Keyed.find? name level).bind fun node =>
        levelAt? path node.variants := by
  rw [levelAt?]
  cases Keyed.find? name level <;> rfl

/- Every level reaches itself. -/
theorem reaches_nil
    (level : Keyed String ParameterNode) :
    Reaches [] level :=
  ⟨level, rfl⟩

/- What is reached below a name is reached from its entry. -/
theorem reaches_cons_iff
    {name : String}
    {path : List String}
    {level : Keyed String ParameterNode} :
    Reaches (name :: path) level ↔
      ∃ node, Keyed.find? name level = some node ∧
        Reaches path node.variants := by
  unfold Reaches
  simp only [levelAt?_cons, Option.bind_eq_some_iff]
  constructor
  · rintro ⟨variants, node, hNode, hVariants⟩
    exact ⟨node, hNode, variants, hVariants⟩
  · rintro ⟨node, hNode, variants, hVariants⟩
    exact ⟨variants, node, hNode, hVariants⟩

/- Below a level without entries there is nothing. -/
theorem reaches_empty_iff
    {path : List String} :
    Reaches path [] ↔ path = [] := by
  cases path with
  | nil =>
      simp [reaches_nil]
  | cons name path =>
      simp [reaches_cons_iff]

/- A level is orderly when it and those below it are. -/
theorem orderly_iff
    {level : Keyed String ParameterNode} :
    Orderly level ↔
      Keyed.Distinct level ∧
        ∀ name node,
          Keyed.find? name level = some node →
            Orderly node.variants := by
  constructor
  · intro hOrderly
    refine ⟨hOrderly [] level rfl, ?_⟩
    intro name node hNode path variants hVariants
    apply hOrderly (name :: path) variants
    rw [levelAt?_cons, hNode]
    exact hVariants
  · rintro ⟨hDistinct, hBelow⟩ path variants hVariants
    cases path with
    | nil =>
        cases hVariants
        exact hDistinct
    | cons name path =>
        rw [levelAt?_cons] at hVariants
        rcases Option.bind_eq_some_iff.mp hVariants with
          ⟨node, hNode, hRest⟩
        exact hBelow name node hNode path variants hRest

/- A level without entries is orderly. -/
theorem orderly_empty : Orderly [] := by
  rw [orderly_iff]
  exact ⟨List.nodup_nil, by simp⟩

------------------------------------------------------------
-- Entering Levels
------------------------------------------------------------

/-
  Entering an identity rewrites the entry of its first name,
  whether or not there is one.
-/
theorem enterLevels_cons
    (name : String)
    (sortOrder : Option Int)
    (rest : List IdentityStep)
    (level : Keyed String ParameterNode) :
    enterLevels ((name, sortOrder) :: rest) level =
      Keyed.put name
        (.node
          ((Keyed.find? name level).elim sortOrder
            ParameterNode.sortOrder)
          (enterLevels rest
            ((Keyed.find? name level).elim []
              ParameterNode.variants)))
        level := by
  rw [enterLevels]
  cases Keyed.find? name level <;> rfl

/- Entering an identity adds its prefixes and nothing else. -/
theorem reaches_enterLevels
    {identity : List IdentityStep}
    {level : Keyed String ParameterNode}
    {path : List String} :
    Reaches path (enterLevels identity level) ↔
      Reaches path level ∨
        path <+: identity.map Prod.fst := by
  induction identity generalizing level path with
  | nil =>
      rw [enterLevels, List.map_nil, List.prefix_nil]
      constructor
      · exact .inl
      · rintro (hReaches | rfl)
        · exact hReaches
        · exact reaches_nil level
  | cons step rest ih =>
      rcases step with ⟨name, sortOrder⟩
      cases path with
      | nil =>
          simp [reaches_nil]
      | cons key path =>
          rw [enterLevels_cons, reaches_cons_iff,
            reaches_cons_iff, Keyed.find?_put, List.map_cons,
            List.cons_prefix_cons]
          by_cases hKey : key = name
          · subst hKey
            simp only [if_true, Option.some.injEq,
              exists_eq_left', true_and,
              ParameterNode.variants_node]
            rw [ih]
            -- the entry may be there already or not
            cases Keyed.find? key level with
            | some node =>
                simp
            | none =>
                simp only [Option.elim_none,
                  reaches_empty_iff]
                constructor
                · rintro (rfl | hPrefix)
                  · exact .inr List.nil_prefix
                  · exact .inr hPrefix
                · rintro (⟨node, hNone, _⟩ | hPrefix)
                  · cases hNone
                  · exact .inr hPrefix
          · simp [hKey]

/- Entering an identity keeps every level orderly. -/
theorem orderly_enterLevels
    {identity : List IdentityStep}
    {level : Keyed String ParameterNode}
    (hOrderly : Orderly level) :
    Orderly (enterLevels identity level) := by
  induction identity generalizing level with
  | nil =>
      exact hOrderly
  | cons step rest ih =>
      rcases step with ⟨name, sortOrder⟩
      rw [enterLevels_cons]
      rcases orderly_iff.mp hOrderly with ⟨hDistinct, hBelow⟩
      have hOld :
          Orderly
            ((Keyed.find? name level).elim []
              ParameterNode.variants) := by
        cases hFound : Keyed.find? name level with
        | none => exact orderly_empty
        | some node => exact hBelow name node hFound
      rw [orderly_iff]
      refine ⟨Keyed.distinct_put hDistinct _ _, ?_⟩
      intro key node hNode
      rw [Keyed.find?_put] at hNode
      by_cases hKey : key = name
      · rw [if_pos hKey, Option.some.injEq] at hNode
        subst hNode
        exact ih hOld
      · rw [if_neg hKey] at hNode
        exact hBelow key node hNode

------------------------------------------------------------
-- Levels as Values
------------------------------------------------------------

/- The value of an entry with the given variants. -/
def levelJson (level : Keyed String ParameterNode) : Json :=
  .object (untranslated ++ sortSiblings (siblings level))

theorem nodeJson_eq
    (node : ParameterNode) :
    nodeJson node = levelJson node.variants := by
  cases node with
  | node sortOrder variants =>
      rw [nodeJson]
      rfl

/- The siblings of a level are its entries, one by one. -/
theorem siblings_eq
    (level : Keyed String ParameterNode) :
    siblings level =
      level.map fun entry =>
        ⟨entry.1, entry.2.sortOrder, nodeJson entry.2⟩ := by
  induction level with
  | nil =>
      rw [siblings]
      rfl
  | cons entry level ih =>
      rcases entry with ⟨name, node⟩
      rw [siblings, ih]
      rfl

/- The sorted siblings are the entries with their values. -/
theorem sortSiblings_perm
    (level : Keyed String ParameterNode) :
    (sortSiblings (siblings level)).Perm
      (level.map fun entry => (entry.1, nodeJson entry.2)) := by
  have hEntries :
      (level.map fun entry => (entry.1, nodeJson entry.2)) =
        (siblings level).map fun sibling =>
          (sibling.name, sibling.value) := by
    simp [siblings_eq, Function.comp_def]
  rw [hEntries]
  exact (List.mergeSort_perm _ _).map _

/- Sorting siblings does not change what is found. -/
theorem find?_sortSiblings
    {level : Keyed String ParameterNode}
    (hDistinct : Keyed.Distinct level)
    (name : String) :
    Keyed.find? name (sortSiblings (siblings level)) =
      (Keyed.find? name level).map nodeJson := by
  have hKeys :
      Keyed.Distinct
        (level.map fun entry => (entry.1, nodeJson entry.2)) := by
    unfold Keyed.Distinct
    rw [Keyed.keys_map]
    exact hDistinct
  rw [← Keyed.find?_of_perm hKeys
    (sortSiblings_perm level).symm]
  exact Keyed.find?_map name nodeJson level

/- The texts of an entry come first in its value. -/
theorem find?_untranslated
    (name : String)
    (others : List (String × Json)) :
    Keyed.find? name (untranslated ++ others) =
      if isReserved name then some (.string placeholder)
      else Keyed.find? name others := by
  rw [Keyed.find?_append]
  unfold isReserved untranslated
  by_cases hName : LocaleKey.name = name
  · simp [Keyed.find?, hName]
  · by_cases hDescription : LocaleKey.description = name
    · simp [Keyed.find?, hDescription]
    · simp [Keyed.find?, hName, hDescription, Ne.symm hName,
        Ne.symm hDescription]

/- The texts of an entry come before its variants. -/
theorem member?_levelJson
    {level : Keyed String ParameterNode}
    (hDistinct : Keyed.Distinct level)
    (name : String) :
    (levelJson level).member? name =
      if isReserved name then some (.string placeholder)
      else (Keyed.find? name level).map nodeJson := by
  rw [levelJson, Json.member?_object, find?_untranslated,
    find?_sortSiblings hDistinct]

/-
  Along names that are not reserved the value of an entry has
  the levels of the entry.
-/
theorem at?_levelJson
    {path : List String}
    {level : Keyed String ParameterNode}
    (hOrderly : Orderly level)
    (hNames : ∀ name ∈ path, isReserved name = false) :
    (levelJson level).at? path =
      (levelAt? path level).map levelJson := by
  induction path generalizing level with
  | nil =>
      rfl
  | cons name path ih =>
      rcases orderly_iff.mp hOrderly with ⟨hDistinct, hBelow⟩
      rw [List.forall_mem_cons] at hNames
      rw [Json.at?_cons, member?_levelJson hDistinct,
        levelAt?_cons, hNames.1]
      cases hFound : Keyed.find? name level with
      | none =>
          rfl
      | some node =>
          simp only [Bool.false_eq_true, if_false,
            Option.map_some, Option.bind_some, nodeJson_eq]
          exact ih (hBelow name node hFound) hNames.2

/- Every object in the value of an entry is an entry. -/
theorem reaches_of_at?_levelJson
    {path : List String}
    {level : Keyed String ParameterNode}
    {members : List (String × Json)}
    (hOrderly : Orderly level)
    (hAt : (levelJson level).at? path = some (.object members)) :
    Reaches path level := by
  induction path generalizing level with
  | nil =>
      exact reaches_nil level
  | cons name path ih =>
      rcases orderly_iff.mp hOrderly with ⟨hDistinct, hBelow⟩
      rcases Json.at?_cons_eq_some_iff.mp hAt with
        ⟨value, hMember, hRest⟩
      rw [member?_levelJson hDistinct] at hMember
      by_cases hReserved : isReserved name = true
      · -- the texts of an entry are no objects
        rw [if_pos hReserved, Option.some.injEq] at hMember
        subst hMember
        cases path <;> cases hRest
      · rw [if_neg hReserved, Option.map_eq_some_iff] at hMember
        rcases hMember with ⟨node, hNode, rfl⟩
        rw [nodeJson_eq] at hRest
        exact
          reaches_cons_iff.mpr
            ⟨node, hNode, ih (hBelow name node hNode) hRest⟩

end CanonicalTree

end HostBindings
