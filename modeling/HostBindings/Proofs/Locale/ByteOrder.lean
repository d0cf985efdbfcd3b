import Mathlib
import HostBindings.Proofs.Catalog.Texts
import HostBindings.Proofs.Synchronization.Discovery
import HostBindings.Proofs.Text.Bytes

/-
  The order of locales and the order of their codes.

  The hyphen comes before all letters and digits.  So codes
  are ordered by their languages and then by their regions,
  as locales are, and this is the order of their bytes.

  Main declarations:
    * `Locale.toList_code`
    * `Locale.append_ending_lt_iff`
    * `Locale.le_iff_code_le`
    * `Locale.bytes_code_le_iff`
    * `Locale.base_eq_of_between`
    * `Locale.codes_in_order`
-/

------------------------------------------------------------
-- Codes as Lists of Characters
------------------------------------------------------------

namespace HostBindings

namespace Locale

/- What stands behind the language in a code. -/
def ending : Option String → List Char
| none => []
| some region => '-' :: region.toList

/- A code is its language and what stands behind. -/
theorem toList_code (locale : Locale) :
    locale.code.toList =
      locale.language.toList ++ ending locale.region := by
  cases hRegion : locale.region with
  | none => simp [code, hRegion, ending]
  | some region => simp [code, hRegion, ending]

/- The letters of languages come after the hyphen. -/
theorem hyphen_lt_of_mem_language
    {locale : Locale}
    {c : Char}
    (hMem : c ∈ locale.language.toList) :
    '-' < c := by
  have hLower :=
    LocaleCode.isLower_iff.mp (isLower_of_mem_language hMem)
  exact lt_of_lt_of_le (by decide) hLower.1

/- Codes are texts of ASCII. -/
theorem isAscii_code (locale : Locale) :
    Text.IsAscii locale.code.toList := by
  intro c hMem
  rw [toList_code, List.mem_append] at hMem
  rcases hMem with hLanguage | hEnding
  · have hLower :=
      LocaleCode.isLower_iff.mp
        (isLower_of_mem_language hLanguage)
    exact Nat.lt_of_le_of_lt hLower.2 (by decide)
  · cases hRegion : locale.region with
    | none =>
        rw [hRegion] at hEnding
        cases hEnding
    | some region =>
        rw [hRegion, ending, List.mem_cons] at hEnding
        rcases hEnding with rfl | hRegional
        · decide
        · have hKind :=
            LocaleCode.isAlphanum_iff.mp
              (isAlphanum_of_mem_region hRegion hRegional)
          rcases hKind with hSmall | hCapital | hDigit
          · exact Nat.lt_of_le_of_lt hSmall.2 (by decide)
          · exact Nat.lt_of_le_of_lt hCapital.2 (by decide)
          · exact Nat.lt_of_le_of_lt hDigit.2 (by decide)

------------------------------------------------------------
-- The Order of Codes
------------------------------------------------------------

/-
  In front of a hyphen or of the end, a list that ends early
  comes before the lists that go on.
-/
theorem append_ending_lt_iff
    {first second : List Char}
    (hFirst : ∀ c ∈ first, '-' < c)
    (hSecond : ∀ c ∈ second, '-' < c)
    (region other : Option String) :
    first ++ ending region < second ++ ending other ↔
      first < second ∨
        first = second ∧ ending region < ending other := by
  induction first generalizing second with
  | nil =>
      cases second with
      | nil => simp
      | cons d second =>
          have hD := hSecond d List.mem_cons_self
          refine iff_of_true ?_ (.inl (List.nil_lt_cons d _))
          cases region with
          | none => exact List.nil_lt_cons d _
          | some region =>
              exact List.cons_lt_cons_iff.mpr (.inl hD)
  | cons c first ih =>
      have hC := hFirst c List.mem_cons_self
      cases second with
      | nil =>
          refine iff_of_false ?_ (by simp)
          cases other with
          | none => exact List.not_lt_nil _
          | some other =>
              intro hLt
              rcases List.cons_lt_cons_iff.mp hLt with
                hBefore | ⟨hSame, _⟩
              · exact hC.not_gt hBefore
              · exact hC.ne' hSame
      | cons d second =>
          rw [List.forall_mem_cons] at hFirst hSecond
          simp only [List.cons_append, List.cons_lt_cons_iff,
            ih hFirst.2 hSecond.2, List.cons.injEq]
          tauto

/- Endings are in the order of regions, none of them first. -/
theorem ending_lt_ending_iff
    {region other : Option String} :
    ending region < ending other ↔
      (show WithBot String from region) < other := by
  cases region with
  | none =>
      cases other with
      | none =>
          exact
            iff_of_false (List.not_lt_nil _)
              (lt_irrefl (⊥ : WithBot String))
      | some other =>
          exact
            iff_of_true (List.nil_lt_cons _ _)
              (WithBot.bot_lt_coe other)
  | some region =>
      cases other with
      | none =>
          exact
            iff_of_false (List.not_lt_nil _)
              (WithBot.not_lt_bot _)
      | some other =>
          have hBehind :
              ending (some region) < ending (some other) ↔
                region < other := by
            rw [ending, ending, List.cons_lt_cons_iff,
              ← String.lt_iff_toList_lt]
            simp
          rw [hBehind]
          exact WithBot.coe_lt_coe.symm

/- Codes are in the order of the ranks of their locales. -/
theorem code_lt_code_iff {a b : Locale} :
    a.code < b.code ↔ a.rank < b.rank := by
  rw [String.lt_iff_toList_lt, toList_code, toList_code,
    append_ending_lt_iff
      (fun _ => hyphen_lt_of_mem_language)
      (fun _ => hyphen_lt_of_mem_language),
    ending_lt_ending_iff, rank, rank,
    Prod.Lex.toLex_lt_toLex, ← String.lt_iff_toList_lt,
    String.toList_inj]

/- Locales are in the order of their codes. -/
theorem le_iff_code_le {a b : Locale} :
    a.le b = true ↔ a.code ≤ b.code := by
  rw [le_iff_rank_le, ← not_lt, ← code_lt_code_iff, not_lt]

/- This is the order of the bytes of the codes. -/
theorem bytes_code_le_iff {a b : Locale} :
    Text.bytes a.code ≤ Text.bytes b.code ↔
      a.le b = true := by
  rw [Text.bytes_le_bytes_iff (isAscii_code a)
    (isAscii_code b), le_iff_code_le]

/- Of different locales the earlier has the lesser code. -/
theorem bytes_code_lt_iff {a b : Locale} :
    Text.bytes a.code < Text.bytes b.code ↔
      a.le b = true ∧ a ≠ b := by
  have hNot :
      Text.bytes a.code < Text.bytes b.code ↔
        ¬ b.le a = true := by
    rw [← bytes_code_le_iff]
    exact not_not.symm
  rw [hNot]
  constructor
  · intro hAfter
    refine ⟨(Locale.le_total a b).resolve_right hAfter, ?_⟩
    rintro rfl
    exact hAfter ((Locale.le_total a a).elim id id)
  · rintro ⟨hBefore, hNe⟩ hAfter
    exact hNe (Locale.le_antisymm hBefore hAfter)

/- Codes in the order of their bytes, none of them twice. -/
def CodesAscend (codes : List String) : Prop :=
  codes.Pairwise fun first second =>
    Text.bytes first < Text.bytes second

/- The codes of ascending locales ascend. -/
theorem codesAscend_iff {locales : List Locale} :
    CodesAscend (locales.map code) ↔ Ascending locales := by
  simp only [CodesAscend, Ascending, List.pairwise_map,
    bytes_code_lt_iff]

------------------------------------------------------------
-- Base Locales in the Order
------------------------------------------------------------

/- The languages of locales are in their order. -/
theorem language_le_of_le
    {a b : Locale}
    (hLe : a.le b = true) :
    a.language ≤ b.language := by
  rw [le_iff_rank_le, rank, rank,
    Prod.Lex.toLex_le_toLex] at hLe
  rcases hLe with hBefore | ⟨hSame, _⟩
  · exact hBefore.le
  · exact hSame.le

/- A base locale comes before its regions. -/
theorem base_le (locale : Locale) :
    locale.base.le locale = true := by
  simp [le, base, regionLe]

/- Only regions of the same base come in between. -/
theorem base_eq_of_between
    {locale between : Locale}
    (hAfter : locale.base.le between = true)
    (hBefore : between.le locale = true) :
    between.base = locale.base := by
  have hFirst := language_le_of_le hAfter
  have hLast := language_le_of_le hBefore
  have hLanguage : between.language = locale.language :=
    hLast.antisymm hFirst
  simp only [base, hLanguage]

/- The code of the base ends at the hyphen. -/
theorem code_base_of_ofCode
    {code : String}
    {locale : Locale}
    (hCode : ofCode code = .ok locale) :
    locale.base.code =
      String.ofList (code.toList.takeWhile (· != '-')) := by
  have hFirst :
      (splitCode code).1 =
        String.ofList
          (code.toList.takeWhile (· != '-')) := by
    simp only [splitCode]
    split <;> rfl
  rw [← hFirst, splitCode_of_ofCode hCode]
  rfl

/-
  Exactly the texts of the grammar are codes.  A code is that
  of the locale that is read from it, and its beginning up to
  the hyphen is that of the base, which is its own base.
  Locales are in the order of the bytes of their codes.  So
  the codes of the loaded locales, which are those of the
  texts about a function, and those of the files in a
  directory ascend; and nothing but regions of the same base
  stands between a locale and its base.
-/
theorem codes_in_order :
    (∀ code : String,
      ((∃ locale, ofCode code = .ok locale) ↔
        LocaleCode.IsCode code) ∧
      (¬ LocaleCode.IsCode code →
        ofCode code = .error (.invalidLocale code))) ∧
    (∀ code locale,
      ofCode code = .ok locale →
        locale.code = code ∧
          ofCode locale.code = .ok locale ∧
          locale.base.code =
            String.ofList
              (code.toList.takeWhile (· != '-')) ∧
          ofCode locale.base.code = .ok locale.base ∧
          locale.base.base = locale.base) ∧
    (∀ a b : Locale,
      a.le b = true ↔
        Text.bytes a.code ≤ Text.bytes b.code) ∧
    (∀ policy trees,
      let catalog := Catalog.ofTrees policy trees
      CodesAscend (catalog.locales.map code) ∧
        ∀ nameSpace functionName parameters texts,
          catalog.localize nameSpace functionName
              parameters = .ok texts →
            texts.keys = catalog.locales.map code) ∧
    (∀ disk directory,
      disk.nodes.Distinct →
        CodesAscend
          ((Resource.discover disk directory).2.map
            fun resource => resource.locale.code)) ∧
    ∀ locale : Locale,
      locale.base.le locale = true ∧
        ∀ between,
          locale.base.le between = true →
            between.le locale = true →
              between.base = locale.base := by
  refine
    ⟨?_, ?_, fun _ _ => bytes_code_le_iff.symm, ?_, ?_, ?_⟩
  · intro code
    refine ⟨ofCode_ok_iff, fun hNot => ofCode_of_not_ok ?_⟩
    rwa [ofCode_ok_iff]
  · intro code locale hCode
    exact
      ⟨code_of_ofCode hCode, ofCode_code locale,
        code_base_of_ofCode hCode, ofCode_code locale.base,
        rfl⟩
  · intro policy trees catalog
    refine ⟨?_, ?_⟩
    · rw [codesAscend_iff]
      exact Catalog.ascending_ofTrees policy trees
    · intro nameSpace functionName parameters texts hTexts
      exact Catalog.keys_of_localize hTexts
  · intro disk directory hDistinct
    have hAscending :=
      Resource.ascending_discover directory hDistinct
    rw [← codesAscend_iff, List.map_map] at hAscending
    exact hAscending
  · intro locale
    exact
      ⟨base_le locale, fun between hAfter hBefore =>
        base_eq_of_between hAfter hBefore⟩

end Locale

end HostBindings
