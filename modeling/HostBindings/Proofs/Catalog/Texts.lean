import HostBindings.Proofs.Catalog.Required
import HostBindings.Proofs.Catalog.Synchronized

/-
  The texts that a catalog gives about a function.

  A text is the translation that a locale, or else its base
  locale, has at a key, or a placeholder where a best effort
  finds none.  The texts of all loaded locales are kept by
  their codes, and no two locales share a code, so that those
  of a locale are found again.

  Main declarations:
    * `FunctionLocalization.ofTexts`
    * `Catalog.translated?`
    * `Catalog.find?_eq_translated?`
    * `Catalog.localizeIn_ok`
    * `Catalog.allTexts`
    * `Catalog.find?_of_localize`
    * `Catalog.find?_of_localize_of_ne`
-/

------------------------------------------------------------
-- Texts about Functions
------------------------------------------------------------

namespace HostBindings

/- The name and the description at a key. -/
def Translation.ofTexts
    (text? : List String → Option String)
    (key : List String) : Translation where
  name :=
    (text? (key ++ [LocaleKey.name])).getD placeholder
  description :=
    (text? (key ++ [LocaleKey.description])).getD placeholder

/-
  The texts about a function.  An address of documentation
  is there only if it has a translation.
-/
def FunctionLocalization.ofTexts
    (text? : List String → Option String)
    (nameSpace : Option String)
    (functionName : String)
    (parameters : List Parameter) : FunctionLocalization :=
  let key := functionKey nameSpace functionName
  { name := (Translation.ofTexts text? key).name
    description := (Translation.ofTexts text? key).description
    documentation :=
      text? (key ++ [LocaleKey.documentation])
    parameters :=
      parameters.map fun p =>
        Translation.ofTexts text? (parameterKey p) }

------------------------------------------------------------
-- Translations
------------------------------------------------------------

namespace Catalog

/- The translation of a locale, or else of its base locale. -/
def translated?
    (catalog : Catalog)
    (locale : Locale)
    (key : List String) : Option String :=
  ((Keyed.find? locale catalog.trees).bind
      (Json.translation? key)).or
    ((Keyed.find? locale.base catalog.trees).bind
      (Json.translation? key))

variable {catalog : Catalog}
variable {locale : Locale}
variable {key : List String}

/- It is the text that is found. -/
theorem find?_eq_translated?
    (catalog : Catalog)
    (locale : Locale)
    (key : List String) :
    catalog.find? locale key =
      catalog.translated? locale key := by
  rw [find?_eq_or, own?_eq, own?_eq, translated?]

/- A placeholder is no translation. -/
theorem translated?_ne_placeholder :
    catalog.translated? locale key ≠ some placeholder := by
  have hTree (locale : Locale) :
      (Keyed.find? locale catalog.trees).bind
          (Json.translation? key) ≠
        some placeholder := by
    simp [Json.translation?, Option.bind_eq_some_iff,
      Option.filter_eq_some_iff]
  intro hFound
  rcases Option.or_eq_some_iff.mp hFound with
    hOwn | ⟨_, hBase⟩
  · exact hTree locale hOwn
  · exact hTree locale.base hBase

/- A lookup that goes well gives it, or else a placeholder. -/
theorem lookup_ok
    {text : String}
    (hOk : catalog.lookup locale key = .ok text) :
    text =
      (catalog.translated? locale key).getD placeholder := by
  rw [← find?_eq_translated?]
  unfold lookup at hOk
  cases hFound : catalog.find? locale key with
  | some found =>
      simp only [hFound, Except.ok.injEq] at hOk
      exact hOk.symm
  | none =>
      cases hPolicy : catalog.policy with
      | strict => simp [hFound, hPolicy] at hOk
      | bestEffort =>
          simp only [hFound, hPolicy, Except.ok.injEq] at hOk
          exact hOk.symm

------------------------------------------------------------
-- Texts of Loaded Locales
------------------------------------------------------------

/- An entry has the texts that are translated at its key. -/
theorem translation_ok
    {found : Translation}
    (hOk : catalog.translation locale key = .ok found) :
    found =
      Translation.ofTexts (catalog.translated? locale) key := by
  unfold translation at hOk
  rcases Fault.bind_ok_iff.mp hOk with ⟨name, hName, hRest⟩
  rcases Fault.bind_ok_iff.mp hRest with
    ⟨description, hDescription, hFound⟩
  cases hFound
  rw [Translation.ofTexts, ← lookup_ok hName,
    ← lookup_ok hDescription]

variable {nameSpace : Option String}
variable {functionName : String}
variable {parameters : List Parameter}

/- So do a function and its parameters. -/
theorem localizeIn_ok
    {found : FunctionLocalization}
    (hOk :
      catalog.localizeIn nameSpace functionName parameters
        locale = .ok found) :
    found =
      FunctionLocalization.ofTexts (catalog.translated? locale)
        nameSpace functionName parameters := by
  unfold localizeIn at hOk
  rcases Fault.bind_ok_iff.mp hOk with
    ⟨translations, hParameters, hRest⟩
  rcases Fault.bind_ok_iff.mp hRest with ⟨own, hOwn, hFound⟩
  cases hFound
  have hTranslations :=
    Fault.eq_map_of_mapM_ok (fun _ _ => translation_ok)
      hParameters
  rw [FunctionLocalization.ofTexts, ← translation_ok hOwn,
    ← hTranslations, ← find?_eq_translated?]

variable {texts : Localizations}

/- The texts about a function in every loaded locale. -/
def allTexts
    (catalog : Catalog)
    (nameSpace : Option String)
    (functionName : String)
    (parameters : List Parameter) : Localizations :=
  catalog.locales.map fun locale =>
    (locale.code,
      FunctionLocalization.ofTexts (catalog.translated? locale)
        nameSpace functionName parameters)

/- When all texts are given, they are these. -/
theorem localize_ok
    (hOk :
      catalog.localize nameSpace functionName parameters =
        .ok texts) :
    texts =
      catalog.allTexts nameSpace functionName parameters := by
  apply Fault.eq_map_of_mapM_ok _ hOk
  intro locale entry hEntry
  rcases Fault.bind_ok_iff.mp hEntry with
    ⟨found, hFound, hDone⟩
  cases hDone
  rw [localizeIn_ok hFound]

/- They are entered under the codes of the loaded locales. -/
theorem keys_of_localize
    (hOk :
      catalog.localize nameSpace functionName parameters =
        .ok texts) :
    texts.keys = catalog.locales.map Locale.code := by
  rw [localize_ok hOk, allTexts, Keyed.keys, List.map_map]
  rfl

/- Those of a loaded locale are found under its code. -/
theorem find?_of_localize
    (hOk :
      catalog.localize nameSpace functionName parameters =
        .ok texts)
    (hLoaded : locale ∈ catalog.locales) :
    Keyed.find? locale.code texts =
      some
        (FunctionLocalization.ofTexts
          (catalog.translated? locale) nameSpace functionName
          parameters) := by
  have hTexts := localize_ok hOk
  have hKey : locale.code ∈ texts.keys := by
    rw [keys_of_localize hOk]
    exact List.mem_map_of_mem hLoaded
  rcases Keyed.find?_of_mem_keys hKey with ⟨found, hFound⟩
  have hMem := Keyed.mem_of_find? hFound
  rw [hTexts] at hMem
  rcases List.mem_map.mp hMem with ⟨other, _, hEntry⟩
  rw [Prod.mk.injEq] at hEntry
  -- the locale that was entered under the code is this one
  rw [hFound, ← hEntry.2, Locale.code_injective hEntry.1]

/- They are the ones that the locale has by itself. -/
theorem exists_localizeIn_of_localize
    (hOk :
      catalog.localize nameSpace functionName parameters =
        .ok texts)
    (hLoaded : locale ∈ catalog.locales) :
    ∃ found,
      catalog.localizeIn nameSpace functionName parameters
          locale = .ok found ∧
        Keyed.find? locale.code texts = some found := by
  rcases localize_ok_iff.mp ⟨texts, hOk⟩ locale hLoaded with
    ⟨found, hFound⟩
  refine ⟨found, hFound, ?_⟩
  rw [find?_of_localize hOk hLoaded, localizeIn_ok hFound]

/- Nothing is found under the code of another locale. -/
theorem find?_of_localize_of_ne
    {code : String}
    (hOk :
      catalog.localize nameSpace functionName parameters =
        .ok texts)
    (hOther :
      ∀ locale ∈ catalog.locales, locale.code ≠ code) :
    Keyed.find? code texts = none := by
  rw [Keyed.find?_eq_none_iff, keys_of_localize hOk]
  intro hMem
  rcases List.mem_map.mp hMem with ⟨locale, hLoaded, hCode⟩
  exact hOther locale hLoaded hCode

end Catalog

end HostBindings
