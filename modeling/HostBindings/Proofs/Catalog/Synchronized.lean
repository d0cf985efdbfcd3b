import HostBindings.Locale.Catalog
import HostBindings.Proofs.Fault.Sequences
import HostBindings.Proofs.Locale.Codes
import HostBindings.Proofs.Merge.Paths

/-
  Catalogs before and after synchronization.

  Merging a canonical tree into the trees of a catalog adds
  placeholders and removes what is stale.  At the paths where
  the canonical tree asks for a translation, neither can be
  seen by a lookup.

  Main declarations:
    * `Json.translation?`
    * `Merge.translation?_of_merge`
    * `Catalog.synchronized`
    * `Catalog.find?_eq_or`
    * `Catalog.lookup_of_synchronized`
-/

------------------------------------------------------------
-- Translations
------------------------------------------------------------

namespace HostBindings

namespace Json

/- The text at a key, unless it is still a placeholder. -/
def translation?
    (key : List String)
    (tree : Json) : Option String :=
  (tree.textAt? key).filter (· != placeholder)

end Json

namespace Merge

variable {addMissing : Bool}
variable {source destination merged : Json}

/-
  At the place of a placeholder of the source, the result has
  the text of the destination, or else nothing or the
  placeholder.
-/
theorem textAt?_of_merge
    {key : List String}
    (hOk :
      (mergeValues addMissing [] source
        destination).result = .ok merged)
    (hKey : source.textAt? key = some placeholder) :
    merged.textAt? key = destination.textAt? key ∨
      (destination.textAt? key = none ∧
        merged.textAt? key = some placeholder) := by
  rw [Json.textAt?_eq_some_iff] at hKey
  cases hDestination : destination.at? key with
  | some d =>
      left
      rcases at?_of_shared hOk hKey hDestination with
        ⟨v, hAt, hValue⟩
      rcases mergeValues_ok_iff.mp hValue with
        ⟨text, kept, hText, rfl, rfl⟩ |
        ⟨members, others, kept, hObject, _⟩
      · rw [Json.textAt?, Json.textAt?, hAt, hDestination]
      · cases hObject
  | none =>
      have hNone : destination.textAt? key = none := by
        rw [Json.textAt?, hDestination]
        rfl
      rw [hNone]
      cases hMerged : merged.at? key with
      | none =>
          left
          rw [Json.textAt?, hMerged]
          rfl
      | some v =>
          -- only an added value has no counterpart
          cases origin_of_at? hOk hMerged with
          | level _ hS hD => simp [hDestination] at hD
          | text hS hD => simp [hDestination] at hD
          | kept hS hD => simp [hDestination] at hD
          | added _ hAdd hS hD hMissing hValue =>
              rw [hKey] at hValue
              cases hValue
              exact
                .inr
                  ⟨rfl, Json.textAt?_eq_some_iff.mpr hMerged⟩

/- No merge changes what has been translated. -/
theorem translation?_of_merge
    {key : List String}
    (hOk :
      (mergeRoots addMissing source
        destination).result = .ok merged)
    (hKey : source.textAt? key = some placeholder) :
    merged.translation? key = destination.translation? key := by
  unfold Json.translation?
  rcases textAt?_of_merge (mergeRoots_ok_iff.mp hOk).2
      hKey with
    hSame | ⟨hNone, hPlaceholder⟩
  · rw [hSame]
  · rw [hNone, hPlaceholder]
    simp

end Merge

------------------------------------------------------------
-- Synchronized Catalogs
------------------------------------------------------------

namespace Catalog

variable {canonical : Json}
variable {before after : Catalog}

/-
  Merge a canonical tree into every tree of a catalog.  Only
  the trees of base locales are given what they lack.
-/
def synchronized
    (canonical : Json)
    (catalog : Catalog) : Except Fault Catalog := do
  let trees ←
    catalog.trees.mapM fun entry => do
      let tree ←
        (Merge.mergeRoots entry.1.isBase canonical
          entry.2).result
      return (entry.1, tree)
  return { catalog with trees := trees }

/- Synchronization keeps the policy and merges every tree. -/
theorem synchronized_ok_iff :
    before.synchronized canonical = .ok after ↔
      after.policy = before.policy ∧
        List.Forall₂
          (fun entry result =>
            result.1 = entry.1 ∧
              (Merge.mergeRoots entry.1.isBase canonical
                entry.2).result = .ok result.2)
          before.trees after.trees := by
  have hEntry :
      ∀ entry result : Locale × Json,
        (do
          let tree ←
            (Merge.mergeRoots entry.1.isBase canonical
              entry.2).result
          return (entry.1, tree)) =
            (.ok result : Except Fault (Locale × Json)) ↔
          result.1 = entry.1 ∧
            (Merge.mergeRoots entry.1.isBase canonical
              entry.2).result = .ok result.2 := by
    intro entry result
    rw [Fault.bind_ok_iff]
    constructor
    · rintro ⟨tree, hTree, hResult⟩
      cases hResult
      exact ⟨rfl, hTree⟩
    · rintro ⟨hLocale, hTree⟩
      refine ⟨result.2, hTree, ?_⟩
      rw [← hLocale]
      rfl
  unfold synchronized
  rw [Fault.bind_ok_iff]
  simp only [Fault.mapM_ok_iff, hEntry]
  constructor
  · rintro ⟨trees, hTrees, hAfter⟩
    cases hAfter
    exact ⟨rfl, hTrees⟩
  · rintro ⟨hPolicy, hTrees⟩
    refine ⟨after.trees, hTrees, ?_⟩
    rw [← hPolicy]
    rfl

/- The merged tree of a locale stands where its tree was. -/
theorem find?_of_synchronized
    (hSync : before.synchronized canonical = .ok after)
    (locale : Locale) :
    Option.Rel
      (fun tree merged =>
        (Merge.mergeRoots locale.isBase canonical
          tree).result = .ok merged)
      (Keyed.find? locale before.trees)
      (Keyed.find? locale after.trees) := by
  exact
    Keyed.find?_of_forall₂
      (fun locale tree merged =>
        (Merge.mergeRoots locale.isBase canonical
          tree).result = .ok merged)
      (synchronized_ok_iff.mp hSync).2 locale

/- The text of a locale's own is a translation in its tree. -/
theorem own?_eq
    (catalog : Catalog)
    (locale : Locale)
    (key : List String) :
    catalog.own? locale key =
      (Keyed.find? locale catalog.trees).bind
        (Json.translation? key) := by
  unfold own?
  cases Keyed.find? locale catalog.trees with
  | none => rfl
  | some tree =>
      simp only [Option.bind_some, Json.translation?]
      cases tree.textAt? key with
      | none => rfl
      | some text =>
          by_cases hText : text = placeholder <;>
            simp [Option.filter, hText]

/- A text is a locale's own, or else that of its base. -/
theorem find?_eq_or
    (catalog : Catalog)
    (locale : Locale)
    (key : List String) :
    catalog.find? locale key =
      (catalog.own? locale key).or
        (catalog.own? locale.base key) := by
  unfold find?
  cases hOwn : catalog.own? locale key with
  | some text => rfl
  | none =>
      by_cases hBase : locale.isBase = true
      · rw [Locale.base_of_isBase hBase, hOwn]
        simp only [if_pos hBase]
        rfl
      · simp only [if_neg hBase]
        rfl

variable {key : List String}

/- No locale gains or loses a translation of its own. -/
theorem own?_of_synchronized
    (hSync : before.synchronized canonical = .ok after)
    (hKey : canonical.textAt? key = some placeholder)
    (locale : Locale) :
    after.own? locale key = before.own? locale key := by
  have hFound := find?_of_synchronized hSync locale
  rw [own?_eq, own?_eq]
  generalize Keyed.find? locale before.trees = tree,
    Keyed.find? locale after.trees = merged at hFound
  cases hFound with
  | none => rfl
  | some hMerge =>
      exact Merge.translation?_of_merge hMerge hKey

/-
  Synchronization does not change what a lookup sees where
  the canonical tree asks for a translation: no text and no
  fault, in no locale, under either policy.
-/
theorem lookup_of_synchronized
    (hSync : before.synchronized canonical = .ok after)
    (hKey : canonical.textAt? key = some placeholder)
    (locale : Locale) :
    after.lookup locale key = before.lookup locale key ∧
      after.find? locale key = before.find? locale key := by
  have hFind :
      after.find? locale key = before.find? locale key := by
    unfold find?
    rw [own?_of_synchronized hSync hKey locale,
      own?_of_synchronized hSync hKey locale.base]
  have hPolicy : after.policy = before.policy :=
    (synchronized_ok_iff.mp hSync).1
  refine ⟨?_, hFind⟩
  unfold lookup
  rw [hFind, hPolicy]

/-
  The base locale is given the entry that it lacks, and the
  region goes on with its own name.
-/
theorem lookup_of_synchronized_region :
    let fr : Locale := ⟨"fr", none, by decide, rfl⟩
    let frCA : Locale :=
      ⟨"fr", some "CA", by decide, by decide⟩
    let canonical : Json :=
      .object [("s", .object [("name", .string placeholder)])]
    let regional : Json :=
      .object [("s", .object [("name", .string "chaîne")])]
    let before : Catalog :=
      ⟨.strict, [(fr, .object []), (frCA, regional)]⟩
    let after : Catalog :=
      ⟨.strict, [(fr, canonical), (frCA, regional)]⟩
    before.synchronized canonical = .ok after ∧
      canonical.textAt? ["s", "name"] = some placeholder ∧
      after.lookup frCA ["s", "name"] =
        before.lookup frCA ["s", "name"] := by
  intro fr frCA canonical regional before after
  have hSync :
      before.synchronized canonical = .ok after := by
    rfl
  have hKey :
      canonical.textAt? ["s", "name"] = some placeholder := by
    rfl
  exact
    ⟨hSync, hKey, (lookup_of_synchronized hSync hKey frCA).1⟩

end Catalog

end HostBindings
