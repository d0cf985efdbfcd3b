import HostBindings.Proofs.Catalog.Texts
import HostBindings.Proofs.Locale.Order

/-
  The two policies of catalogs.

  With a best effort there are texts about every function,
  with a placeholder in every gap.  The strict policy gives
  the same texts when there are no gaps, and else the fault
  of the first gap: locale by locale, parameters before the
  function, names before descriptions.

  Main declarations:
    * `requiredTexts`
    * `FirstGap`
    * `Catalog.fault?_localize_of_strict`
    * `Catalog.strict_agrees_with_bestEffort`
-/

------------------------------------------------------------
-- Required Texts
------------------------------------------------------------

namespace HostBindings

/- A text about a function, with its locale and its key. -/
structure KeyedText where
  code : String
  key : List String
  text : String

/- The texts of an entry, the name before the description. -/
def Translation.texts
    (key : List String)
    (found : Translation) : List (List String × String) :=
  [(key ++ [LocaleKey.name], found.name),
    (key ++ [LocaleKey.description], found.description)]

/- The texts in one locale, those of parameters first. -/
def FunctionLocalization.texts
    (nameSpace : Option String)
    (functionName : String)
    (parameters : List Parameter)
    (found : FunctionLocalization) :
    List (List String × String) :=
  (parameters.zip found.parameters).flatMap (fun pair =>
    pair.2.texts (parameterKey pair.1)) ++
  Translation.texts (functionKey nameSpace functionName)
    ⟨found.name, found.description⟩

/-
  The names and descriptions about a function, locale by
  locale.  An address of documentation is not required.
-/
def requiredTexts
    (nameSpace : Option String)
    (functionName : String)
    (parameters : List Parameter)
    (texts : Localizations) : List KeyedText :=
  texts.flatMap fun entry =>
    (entry.2.texts nameSpace functionName parameters).map
      fun found => ⟨entry.1, found.1, found.2⟩

/- No name or description is left to be translated. -/
structure FunctionLocalization.IsTranslated
    (found : FunctionLocalization) : Prop where
  name : found.name ≠ placeholder
  description : found.description ≠ placeholder
  parameters :
    ∀ p ∈ found.parameters,
      p.name ≠ placeholder ∧ p.description ≠ placeholder

/- The first text that is left to be translated. -/
def FirstGap
    (texts : List KeyedText)
    (gap : KeyedText) : Prop :=
  gap.text = placeholder ∧
    ∃ before after,
      texts = before ++ gap :: after ∧
        ∀ earlier ∈ before, earlier.text ≠ placeholder

/- The fault of a text that is left to be translated. -/
def KeyedText.fault? (found : KeyedText) : Option Fault :=
  if found.text = placeholder then
    some (.missingLocalization found.code (dotted found.key))
  else
    none

/- There is none when the text is translated. -/
theorem KeyedText.fault?_eq_none_iff
    {found : KeyedText} :
    found.fault? = none ↔ found.text ≠ placeholder := by
  unfold fault?
  split_ifs with hGap <;> simp [hGap]

/- The first fault is that of the first gap. -/
theorem findSome?_fault?_eq_some_iff
    {texts : List KeyedText}
    {fault : Fault} :
    texts.findSome? KeyedText.fault? = some fault ↔
      ∃ gap, FirstGap texts gap ∧
        fault =
          .missingLocalization gap.code (dotted gap.key) := by
  rw [List.findSome?_eq_some_iff]
  simp only [KeyedText.fault?_eq_none_iff]
  constructor
  · rintro ⟨before, gap, after, hTexts, hFault, hBefore⟩
    unfold KeyedText.fault? at hFault
    split_ifs at hFault with hGap
    cases hFault
    exact ⟨gap, ⟨hGap, before, after, hTexts, hBefore⟩, rfl⟩
  · rintro ⟨gap, ⟨hGap, before, after, hTexts, hBefore⟩, rfl⟩
    refine ⟨before, gap, after, hTexts, ?_, hBefore⟩
    rw [KeyedText.fault?, if_pos hGap]

variable {nameSpace : Option String}
variable {functionName : String}
variable {parameters : List Parameter}

/- A localization is translated when all its texts are. -/
theorem FunctionLocalization.isTranslated_iff
    {found : FunctionLocalization}
    (hLength : found.parameters.length = parameters.length) :
    found.IsTranslated ↔
      ∀ text ∈ found.texts nameSpace functionName parameters,
        text.2 ≠ placeholder := by
  have hPairs :
      (parameters.zip found.parameters).map Prod.snd =
        found.parameters :=
    List.map_snd_zip (Nat.le_of_eq hLength)
  have hTexts :
      (∀ text ∈ found.texts nameSpace functionName parameters,
        text.2 ≠ placeholder) ↔
        (∀ p ∈
            (parameters.zip found.parameters).map Prod.snd,
          p.name ≠ placeholder ∧
            p.description ≠ placeholder) ∧
          found.name ≠ placeholder ∧
            found.description ≠ placeholder := by
    rw [FunctionLocalization.texts, List.forall_mem_append,
      List.forall_mem_flatMap, List.forall_mem_map]
    simp [Translation.texts]
  rw [hTexts, hPairs]
  constructor
  · intro hFound
    exact ⟨hFound.parameters, hFound.name, hFound.description⟩
  · rintro ⟨hParameters, hName, hDescription⟩
    exact ⟨hName, hDescription, hParameters⟩

/- The texts are those that are there for required keys. -/
theorem FunctionLocalization.texts_ofTexts
    (text? : List String → Option String) :
    (FunctionLocalization.ofTexts text? nameSpace functionName
      parameters).texts nameSpace functionName parameters =
      (requiredKeys nameSpace functionName parameters).map
        fun key => (key, (text? key).getD placeholder) := by
  simp only [FunctionLocalization.texts,
    FunctionLocalization.ofTexts,
    ← List.map_prod_left_eq_zip, requiredKeys,
    List.map_append, List.map_flatMap, List.flatMap_map]
  rfl

------------------------------------------------------------
-- Faults of Catalogs
------------------------------------------------------------

namespace Catalog

variable {catalog strict best : Catalog}
variable {locale : Locale}

/-
  A strict lookup has a fault where a best effort leaves a
  gap.
-/
theorem fault?_lookup
    (hStrict : strict.policy = .strict)
    (key : List String) :
    Fault.of? (strict.lookup locale key) =
      KeyedText.fault?
        ⟨locale.code, key,
          (strict.translated? locale key).getD
            placeholder⟩ := by
  rw [lookup, find?_eq_translated?, hStrict,
    KeyedText.fault?]
  have hTranslated :
      strict.translated? locale key ≠ some placeholder :=
    translated?_ne_placeholder
  cases hText : strict.translated? locale key with
  | none => simp [Fault.of?]
  | some text =>
      rw [hText, Ne, Option.some.injEq] at hTranslated
      simp [Fault.of?, hTranslated]

/-
  The strict policy fails with the fault of the first gap.
-/
theorem fault?_localize_of_strict
    (hStrict : strict.policy = .strict)
    (nameSpace : Option String)
    (functionName : String)
    (parameters : List Parameter) :
    Fault.of?
        (strict.localize nameSpace functionName parameters) =
      (requiredTexts nameSpace functionName parameters
        (strict.allTexts nameSpace functionName
          parameters)).findSome? KeyedText.fault? := by
  rw [fault?_localize, requiredTexts, findSome?_flatMap,
    allTexts, List.findSome?_map]
  congr 1
  funext locale
  rw [fault?_localizeIn, Function.comp_apply,
    FunctionLocalization.texts_ofTexts, List.map_map,
    List.findSome?_map]
  congr 1
  funext key
  exact fault?_lookup hStrict key

------------------------------------------------------------
-- Agreement
------------------------------------------------------------

/- A best effort gives all texts. -/
theorem localize_eq_allTexts
    (hBest : best.policy = .bestEffort) :
    best.localize nameSpace functionName parameters =
      .ok
        (best.allTexts nameSpace functionName parameters) := by
  rcases localize_of_bestEffort hBest nameSpace functionName
      parameters with
    ⟨texts, hTexts⟩
  rw [hTexts, localize_ok hTexts]

/- Each text of a parameter is the one at its key. -/
theorem forall₂_allTexts
    (hBest : best.policy = .bestEffort) :
    List.Forall₂
      (fun locale entry =>
        entry.1 = locale.code ∧
          List.Forall₂
            (fun p found =>
              best.translation locale (parameterKey p) =
                .ok found)
            parameters entry.2.parameters)
      best.locales
      (best.allTexts nameSpace functionName parameters) := by
  rw [allTexts, List.forall₂_map_right_iff,
    List.forall₂_same]
  intro locale _
  refine ⟨rfl, ?_⟩
  rw [FunctionLocalization.ofTexts,
    List.forall₂_map_right_iff, List.forall₂_same]
  intro p _
  have hLookups :
      ∀ textKey ∈ textKeys (parameterKey p),
        ∃ text, best.lookup locale textKey = .ok text :=
    fun textKey _ =>
      exists_lookup_of_bestEffort hBest locale textKey
  rcases translation_ok_iff.mpr hLookups with ⟨found, hFound⟩
  rw [hFound, translation_ok hFound]

/- All texts are translated when none is left in a gap. -/
theorem forall_isTranslated_iff :
    (∀ entry ∈
        catalog.allTexts nameSpace functionName parameters,
      entry.2.IsTranslated) ↔
      (requiredTexts nameSpace functionName parameters
        (catalog.allTexts nameSpace functionName
          parameters)).findSome? KeyedText.fault? = none := by
  have hLength :
      ∀ entry ∈
          catalog.allTexts nameSpace functionName parameters,
        entry.2.parameters.length = parameters.length := by
    intro entry hEntry
    rcases List.mem_map.mp hEntry with ⟨locale, _, rfl⟩
    exact List.length_map _
  rw [List.findSome?_eq_none_iff, requiredTexts,
    List.forall_mem_flatMap]
  refine forall₂_congr fun entry hEntry => ?_
  simp only [List.forall_mem_map,
    KeyedText.fault?_eq_none_iff]
  exact
    FunctionLocalization.isTranslated_iff
      (hLength entry hEntry)

/-
  For any trees, a best effort gives texts in every loaded
  locale, and a text for every parameter.  The strict policy
  gives the same texts if no name and no description among
  them is a placeholder, and else the fault of the first
  placeholder.
-/
theorem strict_agrees_with_bestEffort
    (trees : List (Locale × Json))
    (nameSpace : Option String)
    (functionName : String)
    (parameters : List Parameter) :
    let best := ofTrees .bestEffort trees
    let strict := ofTrees .strict trees
    ∃ texts : Localizations,
      best.localize nameSpace functionName parameters =
          .ok texts ∧
        Locale.Ascending best.locales ∧
        (∀ locale,
          locale ∈ best.locales ↔
            locale ∈ trees.map Prod.fst) ∧
        List.Forall₂
          (fun locale entry =>
            entry.1 = locale.code ∧
              List.Forall₂
                (fun p found =>
                  best.translation locale (parameterKey p) =
                    .ok found)
                parameters entry.2.parameters)
          best.locales texts ∧
        ((∃ found,
            strict.localize nameSpace functionName parameters =
              .ok found) ↔
          ∀ entry ∈ texts, entry.2.IsTranslated) ∧
        (∀ found,
          strict.localize nameSpace functionName parameters =
              .ok found →
            found = texts) ∧
        ∀ fault,
          strict.localize nameSpace functionName parameters =
              .error fault ↔
            ∃ gap,
              FirstGap
                  (requiredTexts nameSpace functionName
                    parameters texts)
                  gap ∧
                fault =
                  .missingLocalization gap.code
                    (dotted gap.key) := by
  intro best strict
  have hBest : best.policy = .bestEffort := policy_ofTrees
  have hStrict : strict.policy = .strict := policy_ofTrees
  have hTexts :
      strict.allTexts nameSpace functionName parameters =
        best.allTexts nameSpace functionName parameters := by
    unfold allTexts locales translated?
    rw [trees_ofTrees .strict .bestEffort]
  have hFault :=
    fault?_localize_of_strict hStrict nameSpace functionName
      parameters
  rw [hTexts] at hFault
  refine
    ⟨_, localize_eq_allTexts hBest,
      ascending_ofTrees _ trees,
      fun _ => mem_locales_ofTrees_iff,
      forall₂_allTexts hBest, ?_, ?_, ?_⟩
  · rw [← Fault.of?_eq_none_iff, hFault,
      forall_isTranslated_iff]
  · intro found hFound
    rw [localize_ok hFound, hTexts]
  · intro fault
    rw [← Fault.of?_eq_some_iff, hFault,
      findSome?_fault?_eq_some_iff]

end Catalog

end HostBindings
