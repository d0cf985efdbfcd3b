import HostBindings.Locale.Catalog
import HostBindings.Proofs.Fault.Sequences

/-
  The keys that the texts of a function are looked up at.

  The localization of a function is there exactly when every
  required key has a text, and it fails with the fault of one
  of these lookups.

  Main declarations:
    * `requiredKeys`
    * `mem_requiredKeys_iff`
    * `Catalog.lookup_error_iff`
    * `Catalog.fault?_localizeIn`
    * `Catalog.fault?_localize`
    * `Catalog.localizeIn_ok_iff`
    * `Catalog.localize_ok_iff`
    * `Catalog.exists_of_localizeIn_error`
    * `Catalog.exists_of_localize_error`
    * `Catalog.localize_of_lookups`
    * `Catalog.localize_of_bestEffort`
-/

------------------------------------------------------------
-- Required Keys
------------------------------------------------------------

namespace HostBindings

/- The keys of the texts of an entry. -/
def textKeys (key : List String) : List (List String) :=
  [key ++ [LocaleKey.name], key ++ [LocaleKey.description]]

/- The keys of the texts of a function and its parameters. -/
def requiredKeys
    (nameSpace : Option String)
    (functionName : String)
    (parameters : List Parameter) : List (List String) :=
  parameters.flatMap (fun p => textKeys (parameterKey p)) ++
    textKeys (functionKey nameSpace functionName)

/- A required key ends in the word for one of two texts. -/
theorem mem_requiredKeys_iff
    {nameSpace : Option String}
    {functionName : String}
    {parameters : List Parameter}
    {key : List String} :
    key ∈ requiredKeys nameSpace functionName parameters ↔
      (∃ p ∈ parameters,
        ∃ word ∈ [LocaleKey.name, LocaleKey.description],
          key = parameterKey p ++ [word]) ∨
      (∃ word ∈ [LocaleKey.name, LocaleKey.description],
        key = functionKey nameSpace functionName ++ [word]) := by
  simp [requiredKeys, textKeys]

/- The first result of lists that are put together. -/
theorem findSome?_flatMap
    {α β γ : Type}
    (result? : β → Option γ)
    (part : α → List β)
    (items : List α) :
    (items.flatMap part).findSome? result? =
      items.findSome? fun item =>
        (part item).findSome? result? := by
  induction items with
  | nil => rfl
  | cons item items ih =>
      rw [List.flatMap_cons, List.findSome?_append, ih,
        List.findSome?_cons]
      cases (part item).findSome? result? <;> rfl

namespace Catalog

variable {catalog : Catalog}
variable {locale : Locale}

/- A lookup fails only for want of a text. -/
theorem lookup_error_iff
    {key : List String}
    {fault : Fault} :
    catalog.lookup locale key = .error fault ↔
      catalog.policy = .strict ∧
        catalog.find? locale key = none ∧
        fault =
          .missingLocalization locale.code (dotted key) := by
  unfold lookup
  cases catalog.find? locale key <;>
    cases catalog.policy <;> simp [eq_comm]

/- A translation fails where the first of two lookups does. -/
theorem fault?_translation (key : List String) :
    Fault.of? (catalog.translation locale key) =
      (textKeys key).findSome? fun textKey =>
        Fault.of? (catalog.lookup locale textKey) := by
  refine
    (Fault.of?_bind fun _ => Fault.of?_bind_pure _ _).trans ?_
  simp only [textKeys, List.findSome?_cons, List.findSome?_nil]
  cases Fault.of?
      (catalog.lookup locale (key ++ [LocaleKey.name])) with
  | some fault => rfl
  | none =>
      cases Fault.of?
          (catalog.lookup locale
            (key ++ [LocaleKey.description])) <;> rfl

variable {nameSpace : Option String}
variable {functionName : String}
variable {parameters : List Parameter}

/-
  A localization fails where the first lookup of a required
  key does.
-/
theorem fault?_localizeIn :
    Fault.of?
        (catalog.localizeIn nameSpace functionName parameters
          locale) =
      (requiredKeys nameSpace functionName
        parameters).findSome? fun key =>
          Fault.of? (catalog.lookup locale key) := by
  refine
    (Fault.of?_bind fun _ => Fault.of?_bind_pure _ _).trans ?_
  rw [Fault.of?_mapM, requiredKeys, List.findSome?_append,
    findSome?_flatMap, fault?_translation]
  simp only [fault?_translation]

/- All localizations fail where that of the first locale does. -/
theorem fault?_localize :
    Fault.of?
        (catalog.localize nameSpace functionName parameters) =
      catalog.locales.findSome? fun locale =>
        Fault.of?
          (catalog.localizeIn nameSpace functionName parameters
            locale) := by
  rw [localize, Fault.of?_mapM]
  simp only [Fault.of?_bind_pure]

/- A translation takes two lookups. -/
theorem translation_ok_iff {key : List String} :
    (∃ found, catalog.translation locale key = .ok found) ↔
      ∀ textKey ∈ textKeys key,
        ∃ text, catalog.lookup locale textKey = .ok text := by
  simp only [← Fault.of?_eq_none_iff, fault?_translation,
    List.findSome?_eq_none_iff]

/- A localization takes a text for every required key. -/
theorem localizeIn_ok_iff :
    (∃ found,
      catalog.localizeIn nameSpace functionName parameters
        locale = .ok found) ↔
      ∀ key ∈ requiredKeys nameSpace functionName parameters,
        ∃ text, catalog.lookup locale key = .ok text := by
  simp only [← Fault.of?_eq_none_iff, fault?_localizeIn,
    List.findSome?_eq_none_iff]

/- There are texts when there are some in every locale. -/
theorem localize_ok_iff :
    (∃ texts,
      catalog.localize nameSpace functionName parameters =
        .ok texts) ↔
      ∀ locale ∈ catalog.locales,
        ∃ found,
          catalog.localizeIn nameSpace functionName parameters
            locale = .ok found := by
  simp only [← Fault.of?_eq_none_iff, fault?_localize,
    List.findSome?_eq_none_iff]

/- A localization fails with the fault of one lookup. -/
theorem exists_of_localizeIn_error
    {fault : Fault}
    (hError :
      catalog.localizeIn nameSpace functionName parameters
        locale = .error fault) :
    ∃ key ∈ requiredKeys nameSpace functionName parameters,
      catalog.lookup locale key = .error fault := by
  rw [← Fault.of?_eq_some_iff, fault?_localizeIn] at hError
  rcases List.exists_of_findSome?_eq_some hError with
    ⟨key, hKey, hLookup⟩
  exact ⟨key, hKey, Fault.of?_eq_some_iff.mp hLookup⟩

/- All localizations fail with the fault of one lookup. -/
theorem exists_of_localize_error
    {fault : Fault}
    (hError :
      catalog.localize nameSpace functionName parameters =
        .error fault) :
    ∃ locale ∈ catalog.locales,
      ∃ key ∈ requiredKeys nameSpace functionName parameters,
        catalog.lookup locale key = .error fault := by
  rw [← Fault.of?_eq_some_iff, fault?_localize] at hError
  rcases List.exists_of_findSome?_eq_some hError with
    ⟨locale, hLoaded, hLocale⟩
  exact
    ⟨locale, hLoaded,
      exists_of_localizeIn_error
        (Fault.of?_eq_some_iff.mp hLocale)⟩

/- When every required key is found, so are all texts. -/
theorem localize_of_lookups
    (hLookups :
      ∀ locale ∈ catalog.locales,
        ∀ key ∈ requiredKeys nameSpace functionName parameters,
          ∃ text, catalog.lookup locale key = .ok text) :
    ∃ texts,
      catalog.localize nameSpace functionName parameters =
        .ok texts :=
  localize_ok_iff.mpr fun locale hLoaded =>
    localizeIn_ok_iff.mpr (hLookups locale hLoaded)

------------------------------------------------------------
-- Best Effort
------------------------------------------------------------

/- With a best effort, there is some text at every key. -/
theorem exists_lookup_of_bestEffort
    (hPolicy : catalog.policy = .bestEffort)
    (locale : Locale)
    (key : List String) :
    ∃ text, catalog.lookup locale key = .ok text := by
  unfold lookup
  cases catalog.find? locale key with
  | some text => exact ⟨text, rfl⟩
  | none => exact ⟨placeholder, by rw [hPolicy]⟩

/- So there are texts about every function. -/
theorem localize_of_bestEffort
    (hPolicy : catalog.policy = .bestEffort)
    (nameSpace : Option String)
    (functionName : String)
    (parameters : List Parameter) :
    ∃ texts,
      catalog.localize nameSpace functionName parameters =
        .ok texts :=
  localize_of_lookups fun locale _ key _ =>
    exists_lookup_of_bestEffort hPolicy locale key

end Catalog

end HostBindings
