import HostBindings.Proofs.CanonicalTree.Entries
import HostBindings.Proofs.Json.Shapes

/-
  The shape of canonical trees.

  Whatever is entered, and whether or not it is refused, the
  value of the tree is built of objects and strings, and none
  of its objects repeats a key.

  Main declarations:
    * `CanonicalTree.TidyNode`
    * `CanonicalTree.Tidy`
    * `CanonicalTree.Tidy.enterAll`
    * `CanonicalTree.Plain`
    * `CanonicalTree.IsBuilt`
    * `CanonicalTree.plain_of_isBuilt`
-/

------------------------------------------------------------
-- Tidy Levels
------------------------------------------------------------

namespace HostBindings

namespace CanonicalTree

/-
  An entry with distinct variants, none of which has a name
  that the entry uses for its own texts.
-/
inductive TidyNode : ParameterNode → Prop
| node
    (sortOrder : Option Int)
    (variants : List (String × ParameterNode))
    (hDistinct : Keyed.Distinct variants)
    (hNames :
      ∀ entry ∈ variants, isReserved entry.1 = false)
    (hBelow : ∀ entry ∈ variants, TidyNode entry.2) :
    TidyNode (.node sortOrder variants)

/- An entry without variants is tidy. -/
theorem tidyNode_leaf (sortOrder : Option Int) :
    TidyNode (.node sortOrder []) :=
  .node sortOrder [] List.nodup_nil (by simp) (by simp)

/- The sort order does not matter. -/
theorem TidyNode.reordered
    {node : ParameterNode}
    (hTidy : TidyNode node)
    (sortOrder : Option Int) :
    TidyNode (.node sortOrder node.variants) := by
  cases hTidy with
  | node _ variants hDistinct hNames hBelow =>
      exact .node sortOrder variants hDistinct hNames hBelow

/- The entries of a level are tidy and their names distinct. -/
structure TidyLevel
    (level : Keyed String ParameterNode) : Prop where
  distinct : Keyed.Distinct level
  nodes : ∀ entry ∈ level, TidyNode entry.2

/- The variants of a tidy entry are a tidy level. -/
theorem TidyNode.level
    {node : ParameterNode}
    (hTidy : TidyNode node) :
    TidyLevel node.variants ∧
      ∀ entry ∈ node.variants, isReserved entry.1 = false := by
  cases hTidy with
  | node sortOrder variants hDistinct hNames hBelow =>
      exact ⟨⟨hDistinct, hBelow⟩, hNames⟩

/- A tidy entry is written into a tidy level. -/
theorem TidyLevel.put
    {level : Keyed String ParameterNode}
    {node : ParameterNode}
    (hLevel : TidyLevel level)
    (hNode : TidyNode node)
    (name : String) :
    TidyLevel (Keyed.put name node level) := by
  refine ⟨Keyed.distinct_put hLevel.distinct name node, ?_⟩
  intro entry hEntry
  rcases Keyed.eq_or_mem_of_mem_put hEntry with rfl | hOld
  · exact hNode
  · exact hLevel.nodes entry hOld

/- What is found in a tidy level, or a new entry, is tidy. -/
theorem TidyLevel.found
    {level : Keyed String ParameterNode}
    (hLevel : TidyLevel level)
    (name : String)
    (sortOrder : Option Int) :
    TidyNode
      (.node sortOrder
        ((Keyed.find? name level).elim []
          ParameterNode.variants)) := by
  cases hFound : Keyed.find? name level with
  | none =>
      exact tidyNode_leaf sortOrder
  | some node =>
      have hNode :=
        hLevel.nodes _ (Keyed.mem_of_find? hFound)
      exact hNode.reordered sortOrder

/- Entering names that are not reserved keeps entries tidy. -/
theorem tidyNode_enterLevels
    {identity : List IdentityStep}
    {variants : Keyed String ParameterNode}
    {sortOrder : Option Int}
    (hTidy : TidyNode (.node sortOrder variants))
    (hNames :
      ∀ step ∈ identity, isReserved step.1 = false) :
    TidyNode
      (.node sortOrder (enterLevels identity variants)) := by
  induction identity generalizing variants sortOrder with
  | nil =>
      exact hTidy
  | cons step rest ih =>
      rcases step with ⟨name, order⟩
      rw [List.forall_mem_cons] at hNames
      rcases hTidy.level with ⟨hLevel, hUnreserved⟩
      rw [ParameterNode.variants_node] at hLevel hUnreserved
      have hBelow :=
        ih
          (hLevel.found name
            ((Keyed.find? name variants).elim order
              ParameterNode.sortOrder))
          hNames.2
      rw [enterLevels_cons]
      have hPut := hLevel.put hBelow name
      refine
        .node sortOrder _ hPut.distinct ?_ hPut.nodes
      intro entry hEntry
      rcases Keyed.eq_or_mem_of_mem_put hEntry with
        rfl | hOld
      · exact hNames.1
      · exact hUnreserved entry hOld

/-
  Entering an identity keeps a level tidy; only its first name
  may be reserved.
-/
theorem tidyLevel_enterLevels
    {identity : List IdentityStep}
    {level : Keyed String ParameterNode}
    (hTidy : TidyLevel level)
    (hNames :
      ∀ step ∈ identity.tail, isReserved step.1 = false) :
    TidyLevel (enterLevels identity level) := by
  cases identity with
  | nil =>
      exact hTidy
  | cons step rest =>
      rcases step with ⟨name, order⟩
      rw [enterLevels_cons]
      exact
        hTidy.put
          (tidyNode_enterLevels (hTidy.found name _) hNames)
          name

/- Only the first name that is entered may be reserved. -/
theorem unreserved_splitReserved (path : List IdentityStep) :
    ∀ step ∈ (splitReserved path).1.tail,
      isReserved step.1 = false := by
  cases path with
  | nil =>
      simp [splitReserved]
  | cons root variants =>
      intro step hStep
      have hTaken := List.mem_takeWhile_imp hStep
      simpa using hTaken

------------------------------------------------------------
-- Tidy Trees
------------------------------------------------------------

/- No level, group or section of a tree repeats a name. -/
structure Tidy (tree : CanonicalTree) : Prop where
  parameters : TidyLevel tree.parameters
  functions : Keyed.Distinct tree.functions
  groups :
    ∀ name group,
      (name, FunctionSlot.group group) ∈ tree.functions →
        Keyed.Distinct group

/- A tree without entries is tidy. -/
theorem tidy_empty (documentationBase : Option String) :
    (empty documentationBase).Tidy where
  parameters := ⟨List.nodup_nil, by simp [empty]⟩
  functions := List.nodup_nil
  groups := by simp [empty]

/- A parameter is entered up to its first reserved name. -/
theorem addParameter_fst
    (tree : CanonicalTree)
    (p : Parameter) :
    (tree.addParameter p).1 =
      { tree with
        parameters :=
          enterLevels (splitReserved p.identityPath).1
            tree.parameters } := by
  unfold CanonicalTree.addParameter
  simp only
  split <;> rfl

/- A parameter keeps a tree tidy, even if it is refused. -/
theorem Tidy.addParameter
    {tree : CanonicalTree}
    (hTidy : tree.Tidy)
    (p : Parameter) :
    (tree.addParameter p).1.Tidy := by
  rw [addParameter_fst]
  exact
    ⟨tidyLevel_enterLevels hTidy.parameters
        (unreserved_splitReserved _),
      hTidy.functions, hTidy.groups⟩

/- A function that is refused leaves the tree as it is. -/
theorem addFunction_of_error
    {tree : CanonicalTree}
    {nameSpace : Option String}
    {functionName : String}
    {fault : Fault}
    (hError :
      (tree.addFunction nameSpace functionName).2 =
        .error fault) :
    (tree.addFunction nameSpace functionName).1 = tree := by
  unfold addFunction at hError ⊢
  cases nameSpace with
  | some nameSpace =>
      cases hFound : Keyed.find? nameSpace tree.functions with
      | none => simp [hFound] at hError
      | some slot => cases slot <;> simp_all
  | none =>
      cases hFound :
          Keyed.find? functionName tree.functions with
      | none => simp [hFound] at hError
      | some slot => cases slot <;> simp_all

/- A function is entered, or the tree stays as it is. -/
theorem addFunction_cases
    (tree : CanonicalTree)
    (nameSpace : Option String)
    (functionName : String) :
    (tree.addFunction nameSpace functionName).1 = tree ∨
      Entering tree nameSpace functionName
        (tree.addFunction nameSpace functionName).1 := by
  cases hResult :
      (tree.addFunction nameSpace functionName).2 with
  | ok done =>
      exact
        .inr (entering_of_addFunction (Prod.ext rfl hResult))
  | error fault =>
      exact .inl (addFunction_of_error hResult)

/- A function keeps a tree tidy, even if it is refused. -/
theorem Tidy.addFunction
    {tree : CanonicalTree}
    (hTidy : tree.Tidy)
    (nameSpace : Option String)
    (functionName : String) :
    (tree.addFunction nameSpace functionName).1.Tidy := by
  rcases addFunction_cases tree nameSpace functionName with
    hSame | hEntering
  · rw [hSame]
    exact hTidy
  · revert hEntering
    generalize
      (tree.addFunction nameSpace functionName).1 = after
    intro hEntering
    cases hEntering with
    | @grouped nameSpace functionName group address hGroup =>
        have hDistinct : Keyed.Distinct group := by
          rcases hGroup with hFound | ⟨_, rfl⟩
          · exact hTidy.groups _ _ (Keyed.mem_of_find? hFound)
          · exact List.nodup_nil
        refine
          ⟨hTidy.parameters,
            Keyed.distinct_put hTidy.functions _ _, ?_⟩
        intro name other hMem
        rcases Keyed.eq_or_mem_of_mem_put hMem with
          hNew | hOld
        · cases hNew
          exact Keyed.distinct_putIfNew hDistinct _ _
        · exact hTidy.groups name other hOld
    | again address hFound =>
        exact hTidy
    | alone address hFresh =>
        refine
          ⟨hTidy.parameters,
            Keyed.distinct_put hTidy.functions _ _, ?_⟩
        intro name other hMem
        rcases Keyed.eq_or_mem_of_mem_put hMem with
          hNew | hOld
        · cases hNew
        · exact hTidy.groups name other hOld

/- Entries keep a tree tidy. -/
theorem Tidy.enterAll
    {tree : CanonicalTree}
    (hTidy : tree.Tidy)
    (entries : List Entry) :
    (tree.enterAll entries).Tidy := by
  induction entries generalizing tree with
  | nil =>
      exact hTidy
  | cons entry rest ih =>
      rw [enterAll_cons]
      apply ih
      cases entry with
      | parameter p => exact hTidy.addParameter p
      | function nameSpace functionName =>
          exact hTidy.addFunction nameSpace functionName

------------------------------------------------------------
-- Tidy Values
------------------------------------------------------------

/- A value of objects and strings without repeated keys. -/
structure Plain (v : Json) : Prop where
  textual : v.Textual
  keyed : v.WellKeyed

/- A string is such a value. -/
theorem plain_string (s : String) : Plain (.string s) :=
  ⟨trivial, trivial⟩

/- So is an object of such values with distinct keys. -/
theorem plain_object
    {members : List (String × Json)}
    (hDistinct : Keyed.Distinct members)
    (hMembers : ∀ entry ∈ members, Plain entry.2) :
    Plain (.object members) :=
  ⟨Json.textual_object_iff.mpr fun entry hEntry =>
      (hMembers entry hEntry).textual,
    Json.wellKeyed_object_iff.mpr
      ⟨hDistinct, fun entry hEntry =>
        (hMembers entry hEntry).keyed⟩⟩

/- Sorting siblings keeps their names. -/
theorem keys_sortSiblings_perm
    (level : Keyed String ParameterNode) :
    (Keyed.keys (sortSiblings (siblings level))).Perm
      (Keyed.keys level) := by
  have hPerm := (sortSiblings_perm level).map Prod.fst
  simpa [Keyed.keys, Function.comp_def] using hPerm

/- The values of a level are those of its entries. -/
theorem forall_mem_sortSiblings
    {level : Keyed String ParameterNode}
    {holds : Json → Prop}
    (hNodes : ∀ entry ∈ level, holds (nodeJson entry.2)) :
    ∀ entry ∈ sortSiblings (siblings level),
      holds entry.2 := by
  intro entry hEntry
  rw [(sortSiblings_perm level).mem_iff] at hEntry
  rcases List.mem_map.mp hEntry with ⟨node, hNode, rfl⟩
  exact hNodes node hNode

/- The value of a tidy entry is plain. -/
theorem plain_nodeJson
    {node : ParameterNode}
    (hTidy : TidyNode node) :
    Plain (nodeJson node) := by
  induction hTidy with
  | node sortOrder variants hDistinct hNames hBelow ih =>
      rw [nodeJson]
      apply plain_object
      · rw [Keyed.Distinct, Keyed.keys_append]
        refine List.nodup_append.mpr ⟨by decide, ?_, ?_⟩
        · exact
            (keys_sortSiblings_perm variants).nodup_iff.mpr
              hDistinct
        · intro key hOwn other hVariant
          rintro rfl
          rw [(keys_sortSiblings_perm variants).mem_iff]
            at hVariant
          rcases List.mem_map.mp hVariant with
            ⟨entry, hEntry, rfl⟩
          have hUnreserved := hNames entry hEntry
          simp only [untranslated, Keyed.keys_cons,
            Keyed.keys_nil, List.mem_cons,
            List.not_mem_nil, or_false] at hOwn
          simp [isReserved] at hUnreserved
          exact hOwn.elim hUnreserved.1 hUnreserved.2
      · intro entry hEntry
        rcases List.mem_append.mp hEntry with hOwn | hVariant
        · simp only [untranslated, List.mem_cons,
            List.not_mem_nil, or_false] at hOwn
          rcases hOwn with rfl | rfl <;>
            exact plain_string _
        · exact forall_mem_sortSiblings ih entry hVariant

/- The value of a function is plain. -/
theorem plain_functionJson (address : Option String) :
    Plain (functionJson address) := by
  cases address with
  | none =>
      refine plain_object (by decide) ?_
      simp [untranslated, plain_string]
  | some address =>
      have hKeys :
          [LocaleKey.name, LocaleKey.description,
            LocaleKey.documentation].Nodup := by
        decide
      refine plain_object hKeys ?_
      simp [untranslated, plain_string]

/- The value of a section with plain entries is plain. -/
theorem plain_map
    {α : Type}
    {table : Keyed String α}
    {toJson : α → Json}
    (hDistinct : table.Distinct)
    (hEntries : ∀ entry ∈ table, Plain (toJson entry.2)) :
    Plain
      (.object
        (table.map fun entry => (entry.1, toJson entry.2))) := by
  apply plain_object
  · rw [Keyed.Distinct, Keyed.keys_map]
    exact hDistinct
  · intro entry hEntry
    rcases List.mem_map.mp hEntry with ⟨old, hOld, rfl⟩
    exact hEntries old hOld

/- The value of a tidy tree is plain. -/
theorem plain_toJson
    {tree : CanonicalTree}
    (hTidy : tree.Tidy) :
    Plain tree.toJson := by
  have hParameters :
      Plain
        (.object
          (sortSiblings (siblings tree.parameters))) := by
    apply plain_object
    · exact
        (keys_sortSiblings_perm _).nodup_iff.mpr
          hTidy.parameters.distinct
    · exact
        forall_mem_sortSiblings fun entry hEntry =>
          plain_nodeJson (hTidy.parameters.nodes entry hEntry)
  have hFunctions :
      Plain
        (.object
          (tree.functions.map fun entry =>
            (entry.1, slotJson entry.2))) := by
    apply plain_map hTidy.functions
    rintro ⟨name, slot⟩ hEntry
    cases slot with
    | function address => exact plain_functionJson address
    | group functions =>
        exact
          plain_map (hTidy.groups name functions hEntry)
            fun entry _ => plain_functionJson entry.2
  apply plain_object
  · simp only [Keyed.Distinct, Keyed.keys_cons,
      Keyed.keys_nil]
    decide
  · simp [hParameters, hFunctions]

/- A value of a tree that has been built from entries. -/
def IsBuilt (v : Json) : Prop :=
  ∃ documentationBase entries,
    v = ((empty documentationBase).enterAll entries).toJson

/- Such a value is plain. -/
theorem plain_of_isBuilt
    {v : Json}
    (hBuilt : IsBuilt v) :
    Plain v := by
  rcases hBuilt with ⟨documentationBase, entries, rfl⟩
  exact
    plain_toJson
      ((tidy_empty documentationBase).enterAll entries)

end CanonicalTree

end HostBindings
