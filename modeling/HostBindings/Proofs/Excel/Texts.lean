import HostBindings.Proofs.Catalog.Texts
import HostBindings.Proofs.Excel.Blocks
import HostBindings.Proofs.Excel.Names
import HostBindings.Proofs.Json.Paths

/-
  The texts of a catalog in the manifest.

  An item of the manifest shows what a catalog translates at
  the keys of its function and of each parameter, in the one
  locale that the manifest is in.  A name without translation
  is the one that the program uses.  If the locale is not
  loaded, then no text of the catalog is shown.

  Main declarations:
    * `Excel.Texts`
    * `Excel.ShowsParameter`
    * `Excel.ShowsFunction`
    * `Excel.showsFunction_toJson`
    * `Run.localize_of_emission`
    * `Excel.localization_reaches_manifest`
-/

------------------------------------------------------------
-- Shown Texts
------------------------------------------------------------

namespace HostBindings

namespace Excel

/- What is translated at each key, if there is a locale. -/
abbrev Texts :=
  Option (List String → Option String)

namespace Texts

/- The translated name at a key, or else another name. -/
def nameAt
    (texts : Texts)
    (key : List String)
    (own : String) : String :=
  (texts.bind (· (key ++ [LocaleKey.name]))).getD own

/- The description at a key; only a locale asks for one. -/
def descriptionAt
    (texts : Texts)
    (key : List String) : Option String :=
  texts.map fun text? =>
    (text? (key ++ [LocaleKey.description])).getD placeholder

/- The address of the documentation, if it is translated. -/
def documentationAt
    (texts : Texts)
    (key : List String) : Option String :=
  texts.bind (· (key ++ [LocaleKey.documentation]))

/- The texts at a key as the emitter is given them. -/
def translationAt
    (texts : Texts)
    (key : List String) : Option Translation :=
  texts.map fun text? => .ofTexts text? key

/- The texts about a function as the emitter is given them. -/
def localizationOf
    (texts : Texts)
    (nameSpace : Option String)
    (functionName : String)
    (parameters : List Parameter) :
    Option FunctionLocalization :=
  texts.map fun text? =>
    .ofTexts text? nameSpace functionName parameters

/- A placeholder is not among the texts. -/
def Translated (texts : Texts) : Prop :=
  ∀ text? ∈ texts, ∀ key, text? key ≠ some placeholder

end Texts

/- An item shows the texts at the key of its parameter. -/
structure ShowsParameter
    (texts : Texts)
    (p : Parameter)
    (item : Json) : Prop where
  name :
    item.member? "name" =
      some
        (.string
          (texts.nameAt (parameterKey p) p.effective.name))
  description :
    item.member? "description" =
      (texts.descriptionAt (parameterKey p)).map .string

/-
  An item shows the texts at the key of its function, and has
  an item for each parameter, in order.
-/
structure ShowsFunction
    (texts : Texts)
    (f : DocumentedFunction)
    (item : Json) : Prop where
  name :
    item.member? "name" =
      some
        (.string
          (Text.upper
            (texts.nameAt (functionKey f.nameSpace f.name)
              f.name)))
  description :
    item.member? "description" =
      (texts.descriptionAt
        (functionKey f.nameSpace f.name)).map .string
  helpUrl :
    item.member? "helpUrl" =
      (texts.documentationAt
        (functionKey f.nameSpace f.name)).map .string
  parameters :
    ∃ items,
      item.member? "parameters" = some (.array items) ∧
        List.Forall₂ (ShowsParameter texts) f.parameters items

------------------------------------------------------------
-- Members of Items
------------------------------------------------------------

/- A member that may be missing is found if it is there. -/
theorem find?_optionalMember
    (key name : String)
    (text : Option String) :
    Keyed.find? key (optionalMember name text) =
      if name = key then text.map Json.string else none := by
  cases text <;> simp [optionalMember, Keyed.find?]

/- The texts of a parameter's entry are members of its item. -/
theorem ParameterEntry.members_toJson
    (entry : ParameterEntry) :
    entry.toJson.member? "name" = some (.string entry.name) ∧
      entry.toJson.member? "description" =
        entry.description.map Json.string := by
  simp [ParameterEntry.toJson, typeMembers,
    Keyed.find?_append, find?_optionalMember, Keyed.find?]

/- There are no texts among the options. -/
theorem FunctionEntry.find?_options
    {key : String}
    (hKey : key ≠ "options")
    (entry : FunctionEntry) :
    Keyed.find? key entry.options = none := by
  unfold FunctionEntry.options
  split
  · rfl
  · simp [Keyed.find?, hKey.symm]

/- The texts of a function's entry are members of its item. -/
theorem FunctionEntry.members_toJson
    (entry : FunctionEntry) :
    entry.toJson.member? "name" = some (.string entry.name) ∧
      entry.toJson.member? "description" =
        entry.description.map Json.string ∧
      entry.toJson.member? "helpUrl" =
        entry.helpUrl.map Json.string ∧
      entry.toJson.member? "parameters" =
        some
          (.array
            (entry.parameters.map
              ParameterEntry.toJson)) := by
  simp [FunctionEntry.toJson, Keyed.find?_append,
    find?_optionalMember, Keyed.find?, find?_options]

------------------------------------------------------------
-- Items of Entries
------------------------------------------------------------

/- A name is shown as it is translated, or else as it is. -/
theorem translatedOr_getD
    {text : Option String}
    (hText : text ≠ some placeholder)
    (own : String) :
    translatedOr (some (text.getD placeholder)) own =
      text.getD own := by
  cases text with
  | none => simp [translatedOr]
  | some text =>
      have hNot : text ≠ placeholder := by
        rintro rfl
        exact hText rfl
      simp [translatedOr, hNot]

/- Each parameter has its own texts, or none of them has any. -/
theorem parameterEntries_ofTexts
    (texts : Texts)
    (nameSpace : Option String)
    (functionName : String)
    (parameters : List Parameter) :
    parameterEntries parameters
        (((texts.localizationOf nameSpace functionName
          parameters).map (·.parameters)).getD []) =
      parameters.map fun p =>
        parameterEntry p
          (texts.translationAt (parameterKey p)) := by
  cases texts with
  | none =>
      induction parameters with
      | nil => rfl
      | cons p parameters ih =>
          exact congrArg (parameterEntry p none :: ·) ih
  | some text? =>
      induction parameters with
      | nil => rfl
      | cons p parameters ih =>
          exact congrArg (parameterEntry p _ :: ·) ih

/- The texts for the manifest are those of its locale. -/
theorem localized_eq
    (options : Options)
    (function : ProxyFunction) :
    (localized options function).2 =
      Keyed.find? options.defaultLocale
        function.localizations := by
  unfold localized
  cases Keyed.find? options.defaultLocale
      function.localizations with
  | some localization => rfl
  | none =>
      by_cases hNone : function.localizations = []
      · simp [hNone]
      · simp [hNone]

/- An emission has some texts in the locale of the manifest. -/
def HasTexts
    (options : Options)
    (texts : Texts)
    (e : Emission) : Prop :=
  Keyed.find? options.defaultLocale e.function.localizations =
    texts.localizationOf e.function.nameSpace e.function.name
      e.method.parameters

section Items

variable {texts : Texts}
variable (hTexts : texts.Translated)
include hTexts

/- The entry of a parameter holds its texts. -/
theorem parameterEntry_ofTexts (p : Parameter) :
    let entry :=
      parameterEntry p (texts.translationAt (parameterKey p))
    entry.name =
        texts.nameAt (parameterKey p) p.effective.name ∧
      entry.description =
        texts.descriptionAt (parameterKey p) := by
  cases texts with
  | none => exact ⟨rfl, rfl⟩
  | some text? =>
      exact ⟨translatedOr_getD (hTexts _ rfl _) _, rfl⟩

/- The item of a parameter shows them. -/
theorem showsParameter_toJson (p : Parameter) :
    ShowsParameter texts p
      (parameterEntry p
        (texts.translationAt (parameterKey p))).toJson := by
  rcases parameterEntry_ofTexts hTexts p with
    ⟨hName, hDescription⟩
  rcases ParameterEntry.members_toJson
      (parameterEntry p
        (texts.translationAt (parameterKey p))) with
    ⟨hNameMember, hDescriptionMember⟩
  rw [hName] at hNameMember
  rw [hDescription] at hDescriptionMember
  exact ⟨hNameMember, hDescriptionMember⟩

variable {options : Options}
variable {e : Emission}

/- The entry of a function holds its texts. -/
theorem entryOf_ofTexts
    (hHas : HasTexts options texts e) :
    let entry := entryOf options e
    let key := functionKey e.function.nameSpace e.function.name
    entry.name =
        Text.upper (texts.nameAt key e.function.name) ∧
      entry.description = texts.descriptionAt key ∧
      entry.helpUrl = texts.documentationAt key ∧
      entry.parameters =
        e.method.parameters.map fun p =>
          parameterEntry p
            (texts.translationAt (parameterKey p)) := by
  intro entry key
  have hParameters :=
    parameterEntries_ofTexts texts e.function.nameSpace
      e.function.name e.method.parameters
  rw [HasTexts] at hHas
  simp only [entry, entryOf, localized_eq, hHas]
  cases texts with
  | none => exact ⟨rfl, rfl, rfl, hParameters⟩
  | some text? =>
      have hName :=
        translatedOr_getD
          (hTexts _ rfl (key ++ [LocaleKey.name]))
          e.function.name
      exact ⟨congrArg Text.upper hName, rfl, rfl, hParameters⟩

/- The item of a function shows them. -/
theorem showsFunction_toJson
    (hHas : HasTexts options texts e) :
    ShowsFunction texts e.documented
      (entryOf options e).toJson := by
  rcases entryOf_ofTexts hTexts hHas with
    ⟨hName, hDescription, hUrl, hParameters⟩
  rcases FunctionEntry.members_toJson (entryOf options e) with
    ⟨hNameMember, hDescriptionMember, hUrlMember,
      hParametersMember⟩
  rw [hName] at hNameMember
  rw [hDescription] at hDescriptionMember
  rw [hUrl] at hUrlMember
  refine
    ⟨hNameMember, hDescriptionMember, hUrlMember, _,
      hParametersMember, ?_⟩
  rw [hParameters, List.map_map, List.forall₂_map_right_iff]
  exact
    List.forall₂_same.mpr fun p _ =>
      showsParameter_toJson hTexts p

end Items

end Excel

------------------------------------------------------------
-- Runs
------------------------------------------------------------

/- A visible function is emitted with the catalog's texts. -/
theorem Run.localize_of_emission
    {σ : Type}
    {emitter : Emitter σ}
    {catalog : Catalog}
    {modules : List ProxyModule}
    {state : σ}
    {e : Emission}
    (hMem :
      e ∈ (run emitter (some catalog) modules
        state).calls.filterMap Call.visible?) :
    catalog.localize e.function.nameSpace e.function.name
        e.method.parameters =
      .ok e.function.localizations := by
  rcases stage_of_emission hMem with
    ⟨_, hShown, _, _, _, hSpace, hTexts⟩
  simpa [localizations, hShown, hSpace] using hTexts

namespace Excel

variable {options : Options}
variable {catalog : Catalog}
variable {modules : List ProxyModule}
variable {workspace : Workspace}
variable {summary : Summary}

/-
  When the functions of a run that goes well are emitted with
  some texts in the locale of the manifest, its items show
  these texts.
-/
theorem showsFunction_of_run_ok
    {texts : Texts}
    (hTexts : texts.Translated)
    (hOk :
      (run (emitter options) (some catalog) modules
        workspace).result = .ok summary)
    (hHave :
      ∀ e ∈ (run (emitter options) (some catalog) modules
          workspace).calls.filterMap Call.visible?,
        HasTexts options texts e) :
    List.Forall₂ (ShowsFunction texts)
      (Run.documentedFunctions modules)
      ((run (emitter options) (some catalog) modules
        workspace).state.bindings.entries.map
          FunctionEntry.toJson) := by
  rcases inStep_of_run options (some catalog) modules workspace
    with ⟨latest, classes, hInStep⟩
  rw [← Run.documented_emissions_of_run_ok hOk,
    hInStep.entries, List.map_map, List.forall₂_map_left_iff,
    List.forall₂_map_right_iff, List.forall₂_same]
  exact fun e hMem =>
    showsFunction_toJson hTexts (hHave e hMem)

/-
  After a run that goes well, the manifest has an item for
  each visible function of the modules.  If its locale is
  loaded, the item shows what this locale, or else its base
  locale, translates at the keys of the function and of its
  parameters.  If it is not, the item shows no translation.
-/
theorem localization_reaches_manifest
    (hOk :
      (run (emitter options) (some catalog) modules
        workspace).result = .ok summary) :
    ∃ items,
      (run (emitter options) (some catalog) modules
          workspace).state.bindings.manifest =
        .object [("functions", .array items)] ∧
      (∀ locale ∈ catalog.locales,
        locale.code = options.defaultLocale →
          List.Forall₂
            (ShowsFunction (some (catalog.translated? locale)))
            (Run.documentedFunctions modules) items) ∧
      ((∀ locale ∈ catalog.locales,
          locale.code ≠ options.defaultLocale) →
        List.Forall₂ (ShowsFunction none)
          (Run.documentedFunctions modules) items) := by
  refine ⟨_, rfl, ?_, ?_⟩
  · intro locale hLoaded hCode
    apply showsFunction_of_run_ok _ hOk
    · intro e hMem
      rw [HasTexts, ← hCode]
      exact
        Catalog.find?_of_localize
          (Run.localize_of_emission hMem) hLoaded
    · rintro _ ⟨⟩ key
      exact Catalog.translated?_ne_placeholder
  · intro hOther
    apply showsFunction_of_run_ok _ hOk
    · intro e hMem
      exact
        Catalog.find?_of_localize_of_ne
          (Run.localize_of_emission hMem) hOther
    · nofun

/-
  A region has its own name for a parameter that extends
  another one, and goes on with the texts of its base locale.
-/
theorem localization_reaches_manifest_region :
    let fr : Locale := ⟨"fr", none, by decide, rfl⟩
    let frCA : Locale :=
      ⟨"fr", some "CA", by decide, by decide⟩
    let value : Parameter :=
      .new "value" .number .singleton true
    let limit : Parameter :=
      .extension value
        { Overlay.none with name := some "limit" }
    let module : ProxyModule :=
      ⟨"checks",
        .sequence
          [.method "Checker" "check"
            (.returns .boolean .matrix) [value, limit],
          .concreteClass "Checker" none ⟨none, none, []⟩]⟩
    let shared : Json :=
      .object
        [("Parameters",
          .object
            [("value", .object [("name", .string "valeur")])]),
        ("Functions",
          .object
            [("check",
              .object [("name", .string "vérifier")])])]
    let regional : Json :=
      .object
        [("Parameters",
          .object
            [("value",
              .object
                [("limit",
                  .object [("name", .string "limite")])])])]
    let catalog : Catalog :=
      ⟨.bestEffort, [(fr, shared), (frCA, regional)]⟩
    let options : Options :=
      { plainOptions with defaultLocale := "fr-CA" }
    let report :=
      run (emitter options) (some catalog) [module]
        (.new (.empty []))
    report.result = .ok ⟨1, 1, 1⟩ ∧
      frCA ∈ catalog.locales ∧
      frCA.code = options.defaultLocale ∧
      catalog.translated? frCA
          (parameterKey value ++ [LocaleKey.name]) =
        some "valeur" ∧
      catalog.translated? frCA
          (parameterKey limit ++ [LocaleKey.name]) =
        some "limite" ∧
      ∃ items,
        report.state.bindings.manifest =
            .object [("functions", .array items)] ∧
          List.Forall₂
            (ShowsFunction (some (catalog.translated? frCA)))
            (Run.documentedFunctions [module]) items := by
  intro fr frCA value limit module shared regional catalog
    options report
  have hOk : report.result = .ok ⟨1, 1, 1⟩ := by
    decide +kernel
  have hLoaded : frCA ∈ catalog.locales := by
    simp [catalog, Catalog.locales]
  have hCode : frCA.code = options.defaultLocale := rfl
  rcases localization_reaches_manifest hOk with
    ⟨items, hManifest, hShows, _⟩
  exact
    ⟨hOk, hLoaded, hCode, by decide +kernel,
      by decide +kernel, items, hManifest,
      hShows frCA hLoaded hCode⟩

end Excel

end HostBindings
