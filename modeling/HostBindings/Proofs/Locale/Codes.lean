import Mathlib.Data.List.TakeWhile
import HostBindings.Locale.Code

/-
  Locales and their codes.

  The language of a code ends at its first hyphen, since it
  consists of letters.  So a code is read back as the locale
  that it was written for, and different locales have
  different codes.  The codes of locales are the texts of a
  simple grammar.

  Main declarations:
    * `Locale.code_of_ofCode`
    * `Locale.noSlash_code`
    * `Locale.splitCode_code`
    * `Locale.code_injective`
    * `Locale.ofCode_code`
    * `LocaleCode.IsCode`
    * `Locale.ofCode_ok_iff`
    * `Locale.base_of_isBase`
-/

------------------------------------------------------------
-- Reading Codes
------------------------------------------------------------

namespace HostBindings

namespace Locale

/- Both parts of a code are well formed. -/
theorem splitCode_of_ofCode
    {code : String}
    {locale : Locale}
    (hCode : ofCode code = .ok locale) :
    splitCode code = (locale.language, locale.region) := by
  unfold ofCode ofParts? at hCode
  by_cases hLanguage :
      LocaleCode.isLanguage (splitCode code).1 = true
  · by_cases hRegion :
        (splitCode code).2.all LocaleCode.isRegion = true
    · simp only [dif_pos hLanguage, dif_pos hRegion,
        Except.ok.injEq] at hCode
      rw [← hCode]
    · simp [hLanguage, hRegion] at hCode
  · simp [hLanguage] at hCode

/- The code of a locale is the one that it was made of. -/
theorem code_of_ofCode
    {code : String}
    {locale : Locale}
    (hCode : ofCode code = .ok locale) :
    locale.code = code := by
  have hSplit := splitCode_of_ofCode hCode
  have hParts :
      code.toList.takeWhile (· != '-') ++
          code.toList.dropWhile (· != '-') =
        code.toList :=
    List.takeWhile_append_dropWhile
  have hHead :=
    List.head?_dropWhile_not (· != '-') code.toList
  unfold splitCode at hSplit
  apply String.toList_inj.mp
  cases hRest : code.toList.dropWhile (· != '-') with
  | nil =>
      simp only [hRest, Prod.mk.injEq] at hSplit
      rw [hRest, List.append_nil] at hParts
      rw [Locale.code, ← hSplit.2, ← hSplit.1,
        String.toList_ofList, hParts]
  | cons hyphen region =>
      rw [hRest] at hHead hParts
      have hHyphen : hyphen = '-' := by
        simpa using hHead
      simp only [hRest, Prod.mk.injEq] at hSplit
      rw [Locale.code, ← hSplit.2, ← hSplit.1]
      simpa [hHyphen] using hParts

------------------------------------------------------------
-- Characters of Codes
------------------------------------------------------------

/- A language consists of small letters. -/
theorem isLower_of_mem_language
    {locale : Locale}
    {c : Char}
    (hMem : c ∈ locale.language.toList) :
    c.isLower = true := by
  have hAll := locale.isLanguage
  simp only [LocaleCode.isLanguage, Bool.and_eq_true,
    List.all_eq_true] at hAll
  exact hAll.2 c hMem

/- A region consists of letters and digits. -/
theorem isAlphanum_of_mem_region
    {locale : Locale}
    {region : String}
    {c : Char}
    (hRegion : locale.region = some region)
    (hMem : c ∈ region.toList) :
    c.isAlphanum = true := by
  have hAll := locale.isRegion
  simp only [hRegion, Option.all_some, LocaleCode.isRegion,
    Bool.and_eq_true, List.all_eq_true] at hAll
  exact hAll.2 c hMem

/- A code is not empty, since it starts with a language. -/
theorem code_ne_empty (locale : Locale) :
    locale.code ≠ "" := by
  intro hEmpty
  have hLanguage := locale.isLanguage
  have hNone : locale.language = "" := by
    cases hRegion : locale.region <;>
      simp_all [code]
  rw [hNone] at hLanguage
  cases hLanguage

/- There is no slash in a code. -/
theorem noSlash_code (locale : Locale) :
    '/' ∉ locale.code.toList := by
  have hLanguage : '/' ∉ locale.language.toList :=
    fun hSlash =>
      absurd (isLower_of_mem_language hSlash) (by decide)
  cases hRegion : locale.region with
  | none =>
      rw [code, hRegion]
      exact hLanguage
  | some region =>
      have hNone : '/' ∉ region.toList :=
        fun hSlash =>
          absurd (isAlphanum_of_mem_region hRegion hSlash)
            (by decide)
      rw [code, hRegion]
      simpa using ⟨hLanguage, hNone⟩

------------------------------------------------------------
-- Writing Codes
------------------------------------------------------------

/- A code is split into the parts that it is made of. -/
theorem splitCode_code (locale : Locale) :
    splitCode locale.code =
      (locale.language, locale.region) := by
  have hLanguage :
      ∀ c ∈ locale.language.toList, (c != '-') = true := by
    intro c hMem
    have hLower := isLower_of_mem_language hMem
    rw [bne_iff_ne]
    rintro rfl
    cases hLower
  cases hRegion : locale.region with
  | none =>
      rw [splitCode, code, hRegion]
      simp only [List.takeWhile_eq_self_iff.mpr hLanguage,
        List.dropWhile_eq_nil_iff.mpr hLanguage,
        String.ofList_toList]
  | some region =>
      rw [splitCode, code, hRegion]
      have hCode :
          (locale.language ++ "-" ++ region).toList =
            locale.language.toList ++ '-' :: region.toList := by
        simp
      simp only [hCode,
        List.takeWhile_append_of_pos hLanguage,
        List.dropWhile_append_of_pos hLanguage]
      simp

/- Different locales have different codes. -/
theorem code_injective : Function.Injective code := by
  intro first second hSame
  have hParts := splitCode_code first
  rw [hSame, splitCode_code second] at hParts
  rcases first with ⟨language, region, _, _⟩
  rcases second with ⟨otherLanguage, otherRegion, _, _⟩
  cases hParts
  rfl

/- The code of a locale is read as this locale. -/
theorem ofCode_code (locale : Locale) :
    ofCode locale.code = .ok locale := by
  simp only [ofCode, splitCode_code, ofParts?,
    locale.isLanguage, locale.isRegion, dif_pos]

/- What is not the code of a locale is an invalid one. -/
theorem ofCode_of_not_ok
    {code : String}
    (hNone : ¬ ∃ locale, ofCode code = .ok locale) :
    ofCode code = .error (.invalidLocale code) := by
  simp only [ofCode] at hNone ⊢
  cases hParts :
      ofParts? (splitCode code).1 (splitCode code).2 with
  | some locale => exact absurd ⟨locale, by rw [hParts]⟩ hNone
  | none => rfl

end Locale

------------------------------------------------------------
-- The Grammar of Codes
------------------------------------------------------------

namespace LocaleCode

/- The letters from a to z. -/
def IsSmallLetter (c : Char) : Prop :=
  'a' ≤ c ∧ c ≤ 'z'

/- The letters and digits of ASCII. -/
def IsLetterOrDigit (c : Char) : Prop :=
  IsSmallLetter c ∨ ('A' ≤ c ∧ c ≤ 'Z') ∨
    ('0' ≤ c ∧ c ≤ '9')

/- A text of some kind of characters, within two lengths. -/
structure IsWord
    (kind : Char → Prop)
    (shortest longest : Nat)
    (s : String) : Prop where
  shortest_le : shortest ≤ s.length
  le_longest : s.length ≤ longest
  characters : ∀ c ∈ s.toList, kind c

/- Two or three small letters. -/
def IsLanguage (s : String) : Prop :=
  IsWord IsSmallLetter 2 3 s

/- Two to eight letters and digits. -/
def IsRegion (s : String) : Prop :=
  IsWord IsLetterOrDigit 2 8 s

/- A language, alone or with a hyphen and a region. -/
inductive IsCode : String → Prop
| base
    {language : String}
    (hLanguage : IsLanguage language) :
    IsCode language
| regional
    {language region : String}
    (hLanguage : IsLanguage language)
    (hRegion : IsRegion region) :
    IsCode (language ++ "-" ++ region)

/- Ranges of characters are recognized. -/
theorem isBetween_iff
    {c : Char}
    (first last : Char) :
    (decide (first.val ≤ c.val) &&
        decide (c.val ≤ last.val)) = true ↔
      first ≤ c ∧ c ≤ last := by
  rw [Bool.and_eq_true, decide_eq_true_iff,
    decide_eq_true_iff]
  rfl

/- Small letters are recognized. -/
theorem isLower_iff {c : Char} :
    c.isLower = true ↔ IsSmallLetter c :=
  isBetween_iff 'a' 'z'

/- Letters and digits are recognized. -/
theorem isAlphanum_iff {c : Char} :
    c.isAlphanum = true ↔ IsLetterOrDigit c := by
  have hKinds :
      c.isAlphanum = (c.isUpper || c.isLower || c.isDigit) :=
    rfl
  have hCapital : c.isUpper = true ↔ 'A' ≤ c ∧ c ≤ 'Z' :=
    decide_eq_true_iff
  have hDigit : c.isDigit = true ↔ '0' ≤ c ∧ c ≤ '9' :=
    isBetween_iff '0' '9'
  rw [hKinds, Bool.or_eq_true, Bool.or_eq_true, hCapital,
    isLower_iff, hDigit, IsLetterOrDigit, or_assoc,
    or_left_comm]

/- Words are recognized by their length and characters. -/
theorem isWord_iff
    {p : Char → Bool}
    {kind : Char → Prop}
    (hKind : ∀ {c}, p c = true ↔ kind c)
    {shortest longest : Nat}
    {s : String} :
    (decide (shortest ≤ s.toList.length) &&
        decide (s.toList.length ≤ longest) &&
          s.toList.all p) = true ↔
      IsWord kind shortest longest s := by
  simp only [Bool.and_eq_true, decide_eq_true_eq,
    List.all_eq_true, hKind, String.length_toList]
  constructor
  · rintro ⟨⟨hShortest, hLongest⟩, hAll⟩
    exact ⟨hShortest, hLongest, hAll⟩
  · rintro ⟨hShortest, hLongest, hAll⟩
    exact ⟨⟨hShortest, hLongest⟩, hAll⟩

/- Languages are recognized. -/
theorem isLanguage_iff {s : String} :
    isLanguage s = true ↔ IsLanguage s :=
  isWord_iff isLower_iff

/- Regions are recognized. -/
theorem isRegion_iff {s : String} :
    isRegion s = true ↔ IsRegion s :=
  isWord_iff isAlphanum_iff

end LocaleCode

namespace Locale

open LocaleCode

/- Locales have codes of the grammar. -/
theorem isCode_code (locale : Locale) :
    IsCode locale.code := by
  have hLanguage := isLanguage_iff.mp locale.isLanguage
  cases hRegion : locale.region with
  | none =>
      rw [code, hRegion]
      exact .base hLanguage
  | some region =>
      have hRegional := locale.isRegion
      rw [hRegion, Option.all_some] at hRegional
      rw [code, hRegion]
      exact .regional hLanguage (isRegion_iff.mp hRegional)

/- Exactly the codes of the grammar are those of locales. -/
theorem ofCode_ok_iff {code : String} :
    (∃ locale, ofCode code = .ok locale) ↔ IsCode code := by
  constructor
  · rintro ⟨locale, hCode⟩
    rw [← code_of_ofCode hCode]
    exact isCode_code locale
  · intro hCode
    cases hCode with
    | base hLanguage =>
        exact
          ⟨_, ofCode_code
            ⟨_, none, isLanguage_iff.mpr hLanguage, rfl⟩⟩
    | regional hLanguage hRegion =>
        exact
          ⟨_, ofCode_code
            ⟨_, some _, isLanguage_iff.mpr hLanguage,
              isRegion_iff.mpr hRegion⟩⟩

------------------------------------------------------------
-- Base Locales
------------------------------------------------------------

/- A locale without a region is its own base. -/
theorem base_of_isBase
    {locale : Locale}
    (hBase : locale.isBase = true) :
    locale.base = locale := by
  rcases locale with ⟨language, region, hLanguage, hRegion⟩
  cases region with
  | none => rfl
  | some region => cases hBase

end Locale

end HostBindings
