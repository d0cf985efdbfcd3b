import HostBindings.Proofs.Catalog.Texts
import HostBindings.Proofs.Locale.Order

/-
  Loading one more region.

  A region has its own texts where its tree is translated and
  those of its base locale elsewhere.  No other locale falls
  back to it, so loading it changes nothing for the others,
  and it lacks no text that its base locale has.

  Main declarations:
    * `Translation.overlaid`
    * `FunctionLocalization.overlaid`
    * `Catalog.find?_insert_of_ne`
    * `Catalog.find?_insert_self`
    * `Catalog.localize_insert_region`
-/

------------------------------------------------------------
-- Overlaid Texts
------------------------------------------------------------

namespace HostBindings

/- What a tree translates is laid over other texts. -/
def Translation.overlaid
    (tree : Json)
    (key : List String)
    (based : Translation) : Translation where
  name :=
    (tree.translation? (key ++ [LocaleKey.name])).getD
      based.name
  description :=
    (tree.translation? (key ++ [LocaleKey.description])).getD
      based.description

/-
  The same for the texts about a function, each at its own
  key.
-/
def FunctionLocalization.overlaid
    (tree : Json)
    (nameSpace : Option String)
    (functionName : String)
    (parameters : List Parameter)
    (based : FunctionLocalization) : FunctionLocalization :=
  let key := functionKey nameSpace functionName
  let own :=
    Translation.overlaid tree key
      ⟨based.name, based.description⟩
  { name := own.name
    description := own.description
    documentation :=
      (tree.translation? (key ++ [LocaleKey.documentation])).or
        based.documentation
    parameters :=
      List.zipWith
        (fun p found =>
          Translation.overlaid tree (parameterKey p) found)
        parameters based.parameters }

variable {tree : Json}
variable {text? : List String → Option String}

/- Texts of a tree come before those that it is laid over. -/
theorem Translation.overlaid_ofTexts (key : List String) :
    Translation.overlaid tree key
        (Translation.ofTexts text? key) =
      Translation.ofTexts
        (fun key => (tree.translation? key).or (text? key))
        key := by
  simp [Translation.overlaid, Translation.ofTexts,
    Option.getD_or]

variable {nameSpace : Option String}
variable {functionName : String}
variable {parameters : List Parameter}

/- This holds for all texts about a function. -/
theorem FunctionLocalization.overlaid_ofTexts :
    FunctionLocalization.overlaid tree nameSpace functionName
        parameters
        (FunctionLocalization.ofTexts text? nameSpace
          functionName parameters) =
      FunctionLocalization.ofTexts
        (fun key => (tree.translation? key).or (text? key))
        nameSpace functionName parameters := by
  unfold overlaid ofTexts
  simp only [← Translation.overlaid_ofTexts,
    List.zipWith_map_right, List.zipWith_self]

------------------------------------------------------------
-- Lookups after Loading
------------------------------------------------------------

namespace Catalog

variable {catalog : Catalog}
variable {locale region : Locale}
variable {key : List String}

/- The loaded tree is found, and the others as before. -/
theorem find?_insertTree
    (region locale : Locale)
    (tree : Json)
    (trees : List (Locale × Json)) :
    Keyed.find? locale (insertTree region tree trees) =
      if locale = region then some tree
      else Keyed.find? locale trees := by
  induction trees with
  | nil => simp [insertTree, Keyed.find?, eq_comm]
  | cons entry rest ih =>
      rw [insertTree]
      by_cases hLocale : locale = region
      · rw [if_pos hLocale] at ih ⊢
        split_ifs with hSame hBefore
        · simp [Keyed.find?, hLocale]
        · simp [Keyed.find?, hLocale]
        · rw [Keyed.find?, ih, hLocale, if_neg hSame]
      · rw [if_neg hLocale] at ih ⊢
        split_ifs with hSame hBefore
        · simp [Keyed.find?, hSame, Ne.symm hLocale]
        · rw [Keyed.find?, if_neg (Ne.symm hLocale)]
        · rw [Keyed.find?, ih, Keyed.find?]

/- The texts of a locale's own after a tree is loaded. -/
theorem own?_insert
    (catalog : Catalog)
    (region locale : Locale)
    (tree : Json)
    (key : List String) :
    (catalog.insert region tree).own? locale key =
      if locale = region then tree.translation? key
      else catalog.own? locale key := by
  rw [own?_eq, insert, find?_insertTree]
  split_ifs
  · rfl
  · exact (own?_eq catalog locale key).symm

/- No base locale is a region. -/
theorem base_ne_of_region
    (hRegion : region.isBase = false)
    (locale : Locale) :
    locale.base ≠ region := by
  rintro rfl
  cases hRegion

/- No other locale sees the tree of a region. -/
theorem find?_insert_of_ne
    (hRegion : region.isBase = false)
    (hOther : locale ≠ region)
    (tree : Json)
    (key : List String) :
    (catalog.insert region tree).find? locale key =
      catalog.find? locale key := by
  rw [find?_eq_or, find?_eq_or, own?_insert, own?_insert,
    if_neg hOther, if_neg (base_ne_of_region hRegion locale)]

/- The region finds its own texts or those of its base. -/
theorem find?_insert_self
    (hRegion : region.isBase = false)
    (tree : Json)
    (key : List String) :
    (catalog.insert region tree).find? region key =
      (tree.translation? key).or
        (catalog.find? region.base key) := by
  rw [find?_eq_or, own?_insert, own?_insert, if_pos rfl,
    if_neg (base_ne_of_region hRegion region), find?_eq_or]
  congr 1
  exact Option.or_self.symm

------------------------------------------------------------
-- Localizations after Loading
------------------------------------------------------------

/- A localization depends on what is found in its locale. -/
theorem localizeIn_congr
    {before after : Catalog}
    (hPolicy : after.policy = before.policy)
    (hFind :
      ∀ key, after.find? locale key = before.find? locale key) :
    after.localizeIn nameSpace functionName parameters locale =
      before.localizeIn nameSpace functionName parameters
        locale := by
  simp only [localizeIn, translation, lookup, hFind, hPolicy]

/- What a base locale has, its region has too. -/
theorem lookup_insert_self
    {text : String}
    (hRegion : region.isBase = false)
    (tree : Json)
    (hBase : catalog.lookup region.base key = .ok text) :
    ∃ own,
      (catalog.insert region tree).lookup region key =
        .ok own := by
  unfold lookup at hBase ⊢
  rw [find?_insert_self hRegion]
  cases tree.translation? key with
  | some own => exact ⟨own, rfl⟩
  | none =>
      cases hFound : catalog.find? region.base key with
      | some found => exact ⟨found, rfl⟩
      | none =>
          rw [hFound] at hBase
          cases hPolicy : catalog.policy with
          | strict => simp [hPolicy] at hBase
          | bestEffort =>
              exact ⟨placeholder, by simp [insert, hPolicy]⟩

/- The region's tree is laid over the texts of the base. -/
theorem localizeIn_insert_self
    {based : FunctionLocalization}
    (hRegion : region.isBase = false)
    (tree : Json)
    (hBase :
      catalog.localizeIn nameSpace functionName parameters
        region.base = .ok based) :
    (catalog.insert region tree).localizeIn nameSpace
        functionName parameters region =
      .ok
        (based.overlaid tree nameSpace functionName
          parameters) := by
  have hLookups := localizeIn_ok_iff.mp ⟨based, hBase⟩
  have hRegional :
      ∀ key ∈ requiredKeys nameSpace functionName parameters,
        ∃ text,
          (catalog.insert region tree).lookup region key =
            .ok text := by
    intro key hKey
    rcases hLookups key hKey with ⟨text, hText⟩
    exact lookup_insert_self hRegion tree hText
  rcases localizeIn_ok_iff.mpr hRegional with ⟨own, hOwn⟩
  have hTexts :
      (catalog.insert region tree).translated? region =
        fun key =>
          (tree.translation? key).or
            (catalog.translated? region.base key) := by
    funext key
    rw [← find?_eq_translated?, find?_insert_self hRegion,
      find?_eq_translated?]
  rw [hOwn, localizeIn_ok hOwn, hTexts, localizeIn_ok hBase,
    FunctionLocalization.overlaid_ofTexts]

/- Other locales have the same texts or the same fault. -/
theorem localizeIn_insert_of_ne
    (hRegion : region.isBase = false)
    (hOther : locale ≠ region)
    (tree : Json) :
    (catalog.insert region tree).localizeIn nameSpace
        functionName parameters locale =
      catalog.localizeIn nameSpace functionName parameters
        locale :=
  localizeIn_congr rfl
    (find?_insert_of_ne hRegion hOther tree)

/- The loaded locales after one more tree is loaded. -/
theorem mem_locales_insert_iff
    {tree : Json} :
    locale ∈ (catalog.insert region tree).locales ↔
      locale = region ∨ locale ∈ catalog.locales :=
  mem_insertTree_iff

variable {texts found : Localizations}

/- Texts that were given are given again. -/
theorem exists_localize_insert
    (hRegion : region.isBase = false)
    (hBase : region.base ∈ catalog.locales)
    (tree : Json)
    (hTexts :
      catalog.localize nameSpace functionName parameters =
        .ok texts) :
    ∃ found,
      (catalog.insert region tree).localize nameSpace
          functionName parameters =
        .ok found := by
  rcases exists_localizeIn_of_localize hTexts hBase with
    ⟨based, hBased, _⟩
  rw [localize_ok_iff]
  intro locale hLoaded
  by_cases hOther : locale = region
  · rw [hOther]
    exact ⟨_, localizeIn_insert_self hRegion tree hBased⟩
  · rw [localizeIn_insert_of_ne hRegion hOther]
    have hOld :=
      (mem_locales_insert_iff.mp hLoaded).resolve_left hOther
    exact localize_ok_iff.mp ⟨texts, hTexts⟩ locale hOld

/- The texts of other locales are the same. -/
theorem find?_localize_insert_of_ne
    (hRegion : region.isBase = false)
    (hTexts :
      catalog.localize nameSpace functionName parameters =
        .ok texts)
    (hFound :
      (catalog.insert region tree).localize nameSpace
          functionName parameters =
        .ok found)
    {code : String}
    (hCode : code ≠ region.code) :
    Keyed.find? code found = Keyed.find? code texts := by
  by_cases hLoaded :
      ∃ locale ∈ catalog.locales, locale.code = code
  · rcases hLoaded with ⟨locale, hLocale, rfl⟩
    have hOther : locale ≠ region := by
      rintro rfl
      exact hCode rfl
    rcases exists_localizeIn_of_localize hTexts hLocale with
      ⟨text, hText, hBefore⟩
    rcases exists_localizeIn_of_localize hFound
        (mem_locales_insert_iff.mpr (.inr hLocale)) with
      ⟨same, hSame, hAfter⟩
    rw [localizeIn_insert_of_ne hRegion hOther, hText,
      Except.ok.injEq] at hSame
    rw [hAfter, hBefore, hSame]
  · simp only [not_exists, not_and] at hLoaded
    rw [find?_of_localize_of_ne hTexts hLoaded]
    apply find?_of_localize_of_ne hFound
    intro locale hLocale
    rcases mem_locales_insert_iff.mp hLocale with rfl | hOld
    · exact hCode.symm
    · exact hLoaded locale hOld

/-
  Load a tree, whatever it holds, for a region whose base
  locale is loaded.  Every other locale keeps its texts or
  its fault.  The region finds its own texts and else those
  of its base.  So texts that were given before are given
  again, together with those of the region, which are those
  of the base with the region's own laid over them.
-/
theorem localize_insert_region
    (catalog : Catalog)
    (region : Locale)
    (tree : Json)
    (nameSpace : Option String)
    (functionName : String)
    (parameters : List Parameter)
    (hRegion : region.isBase = false)
    (hBase : region.base ∈ catalog.locales) :
    let after := catalog.insert region tree
    (∀ locale, locale ≠ region →
      after.localizeIn nameSpace functionName parameters
          locale =
        catalog.localizeIn nameSpace functionName parameters
          locale) ∧
    (∀ key,
      after.find? region key =
        (tree.translation? key).or
          (catalog.find? region.base key)) ∧
    ∀ texts,
      catalog.localize nameSpace functionName parameters =
          .ok texts →
        ∃ based found,
          Keyed.find? region.base.code texts = some based ∧
            after.localize nameSpace functionName parameters =
              .ok found ∧
            Keyed.find? region.code found =
              some
                (based.overlaid tree nameSpace functionName
                  parameters) ∧
            ∀ code, code ≠ region.code →
              Keyed.find? code found =
                Keyed.find? code texts := by
  intro after
  refine
    ⟨fun locale hOther =>
        localizeIn_insert_of_ne hRegion hOther tree,
      find?_insert_self hRegion tree, ?_⟩
  intro texts hTexts
  rcases exists_localizeIn_of_localize hTexts hBase with
    ⟨based, hBased, hBaseText⟩
  rcases exists_localize_insert hRegion hBase tree hTexts with
    ⟨found, hFound⟩
  refine
    ⟨based, found, hBaseText, hFound, ?_, fun code hCode =>
      find?_localize_insert_of_ne hRegion hTexts hFound hCode⟩
  rcases exists_localizeIn_of_localize hFound
      (mem_locales_insert_iff.mpr (.inl rfl)) with
    ⟨own, hOwn, hOwnText⟩
  rw [localizeIn_insert_self hRegion tree hBased,
    Except.ok.injEq] at hOwn
  rw [hOwnText, hOwn]

/-
  The region has a name of its own, no description, and a
  placeholder for its parameter; it is as strict as before.
-/
theorem localize_insert_region_partial :
    let fr : Locale := ⟨"fr", none, by decide, rfl⟩
    let frCA : Locale :=
      ⟨"fr", some "CA", by decide, by decide⟩
    let p : Parameter := .new "s" .string .matrix true
    let texts (name description : String) : Json :=
      .object
        [("name", .string name),
          ("description", .string description)]
    let tree : Json :=
      .object
        [("Parameters",
          .object [("s", texts "chaîne" "La chaîne.")]),
          ("Functions",
            .object [("check", texts "vérifier" "Vérifie.")])]
    let regional : Json :=
      .object
        [("Parameters",
          .object [("s", texts placeholder "Le texte.")]),
          ("Functions",
            .object
              [("check",
                .object [("name", .string "contrôler")])])]
    let catalog : Catalog := ⟨.strict, [(fr, tree)]⟩
    let based : FunctionLocalization :=
      ⟨"vérifier", "Vérifie.", none,
        [⟨"chaîne", "La chaîne."⟩]⟩
    frCA.isBase = false ∧
      frCA.base ∈ catalog.locales ∧
      catalog.localize none "check" [p] = .ok [("fr", based)] ∧
      ∃ found,
        (catalog.insert frCA regional).localize none "check"
            [p] = .ok found ∧
          Keyed.find? "fr-CA" found =
            some
              ⟨"contrôler", "Vérifie.", none,
                [⟨"chaîne", "Le texte."⟩]⟩ := by
  intro fr frCA p texts tree regional catalog based
  have hBase : frCA.base ∈ catalog.locales :=
    List.mem_singleton.mpr rfl
  have hTexts :
      catalog.localize none "check" [p] =
        .ok [("fr", based)] := by
    decide +kernel
  have hInsert :=
    localize_insert_region catalog frCA regional none "check"
      [p] rfl hBase
  rcases hInsert.2.2 _ hTexts with
    ⟨other, found, hOther, hFound, hRegional, _⟩
  have hSame : other = based := by
    have hOwn :
        Keyed.find? frCA.base.code [("fr", based)] =
          some based := by
      decide +kernel
    rw [hOwn, Option.some.injEq] at hOther
    exact hOther.symm
  subst hSame
  exact ⟨rfl, hBase, hTexts, found, hFound, hRegional⟩

end Catalog

end HostBindings
