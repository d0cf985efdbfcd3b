import HostBindings.Json.Printer
import HostBindings.Json.Token
import Mathlib.Data.List.TakeWhile
import Mathlib.Tactic.IntervalCases

/-
  Numbers that are read back from their own text.

  An integer of 64 bits is written with its digits, of which
  the first is no zero unless it is the only one.  These
  digits make up the same integer when they are read.  All
  numbers that are read are such integers or doubles.

  Main declarations:
    * `Number.Fits`
    * `Number.ReadsBack`
    * `Numeral.fits_of_value?`
    * `Number.readsBack_of_fits`
    * `Json.isBareWord_numberText`
-/

------------------------------------------------------------
-- Digits
------------------------------------------------------------

namespace HostBindings

namespace Numeral

/- The digits of a number are digits. -/
theorem isDigit_of_mem
    {n : Nat}
    {c : Char}
    (hMem : c ∈ Nat.toDigits 10 n) :
    c.isDigit = true :=
  Nat.isDigit_of_mem_toDigits (by decide) (by decide) hMem

/- A digit that has the value zero is a zero. -/
theorem eq_zero_of_digitValue
    {c : Char}
    (hDigit : c.isDigit = true)
    (hZero : digitValue c = 0) :
    c = '0' := by
  simp only [Char.isDigit, Bool.and_eq_true,
    decide_eq_true_eq, ge_iff_le,
    UInt32.le_iff_toNat_le] at hDigit
  unfold digitValue at hZero
  apply Char.ext
  apply UInt32.toNat_inj.mp
  change c.toNat = 48
  change c.toNat - 48 = 0 at hZero
  change 48 ≤ c.toNat ∧ c.toNat ≤ 57 at hDigit
  omega

/- The first digit of a positive number is no zero. -/
theorem head?_toDigits
    {n : Nat}
    (hPositive : 0 < n) :
    (Nat.toDigits 10 n).head? ≠ some '0' := by
  induction n using Nat.strongRecOn with
  | ind n ih =>
      by_cases hSmall : n < 10
      · rw [Nat.toDigits_of_lt_base hSmall]
        interval_cases n <;> decide
      · have hShorter :=
          ih (n / 10) (by omega) (by omega)
        rw [Nat.toDigits_of_base_le (by decide) (by omega)]
        cases hDigits : Nat.toDigits 10 (n / 10) with
        | nil =>
            exact absurd hDigits Nat.toDigits_ne_nil
        | cons c rest =>
            rw [hDigits] at hShorter
            exact hShorter

/- The digits of a number spell it. -/
theorem ofDigits_toDigits (n : Nat) :
    ofDigits ((Nat.toDigits 10 n).map digitValue) = n := by
  have hDigits :
      Nat.ofDigitChars 10 (Nat.toDigits 10 n) 0 = n :=
    Nat.ofDigitChars_toDigits (by decide) (by decide)
  rw [Nat.ofDigitChars_eq_foldl] at hDigits
  rw [ofDigits, List.foldl_map]
  simpa only [digitValue, Nat.mul_comm] using hDigits

/- The digits of a number are all taken. -/
theorem takeDigits_toDigits (n : Nat) :
    takeDigits (Nat.toDigits 10 n) =
      ((Nat.toDigits 10 n).map digitValue, []) := by
  unfold takeDigits
  rw [List.takeWhile_eq_self_iff.mpr
      fun c hC => isDigit_of_mem hC,
    List.dropWhile_eq_nil_iff.mpr
      fun c hC => isDigit_of_mem hC]

/- The digits of a number are a whole part. -/
theorem takeWhole?_toDigits (n : Nat) :
    takeWhole? (Nat.toDigits 10 n) =
      some ((Nat.toDigits 10 n).map digitValue, []) := by
  have hTaken := takeDigits_toDigits n
  unfold takeWhole?
  rw [hTaken]
  rcases Nat.eq_zero_or_pos n with rfl | hPositive
  · rfl
  · have hHead := head?_toDigits hPositive
    cases hDigits : Nat.toDigits 10 n with
    | nil =>
        exact absurd hDigits Nat.toDigits_ne_nil
    | cons c rest =>
        rw [hDigits] at hHead
        have hDigit : c.isDigit = true := by
          apply isDigit_of_mem
          rw [hDigits]
          exact List.mem_cons_self
        have hNotZero : digitValue c ≠ 0 := fun hZero =>
          hHead
            (congrArg some (eq_zero_of_digitValue hDigit hZero))
        cases rest with
        | nil =>
            simp
        | cons d more =>
            simp only [List.map_cons]
            split
            · rename_i hNil
              simp at hNil
            · rename_i hZero
              simp at hZero
              exact absurd hZero.1.1 hNotZero
            · rfl

------------------------------------------------------------
-- Integers
------------------------------------------------------------

/- The digits of a number make up a numeral. -/
theorem ofChars?_toDigits (n : Nat) :
    ofChars? (Nat.toDigits 10 n) =
      some
        ⟨false, (Nat.toDigits 10 n).map digitValue, [],
          none⟩ := by
  unfold ofChars?
  split
  rename_i negative cs hParts
  split at hParts
  · rename_i rest hMinus
    have hDigit : '-'.isDigit = true := by
      apply isDigit_of_mem
      rw [hMinus]
      exact List.mem_cons_self
    exact absurd hDigit (by decide)
  · cases hParts
    simp [takeWhole?_toDigits, takeFraction?,
      takeExponent?]

/- So do the digits behind a minus. -/
theorem ofChars?_minus_toDigits (n : Nat) :
    ofChars? ('-' :: Nat.toDigits 10 n) =
      some
        ⟨true, (Nat.toDigits 10 n).map digitValue, [],
          none⟩ := by
  simp [ofChars?, takeWhole?_toDigits, takeFraction?,
    takeExponent?]

/- A numeral of digits alone that fits is an integer. -/
theorem value?_digits
    {n : Nat}
    (hFits : n ≤ maxSignificand) :
    value?
        ⟨false, (Nat.toDigits 10 n).map digitValue, [],
          none⟩ =
      some (.integer n) := by
  simp [value?, ofDigits_toDigits, hFits]

/- So is a negative one, unless it is zero. -/
theorem value?_minus_digits
    {n : Nat}
    (hPositive : 0 < n)
    (hFits : n ≤ maxNegative) :
    value?
        ⟨true, (Nat.toDigits 10 n).map digitValue, [],
          none⟩ =
      some (.integer (-n)) := by
  simp [value?, ofDigits_toDigits, hPositive, hFits]

end Numeral

------------------------------------------------------------
-- Reading Back
------------------------------------------------------------

namespace Number

/- An integer of 64 bits with or without a sign. -/
def Fits : Number → Prop
| .integer n =>
    -(Numeral.maxNegative : Int) ≤ n ∧
      n ≤ Numeral.maxSignificand
| .double _ => True

/- A number that is read from the text written for it. -/
def ReadsBack (n : Number) : Prop :=
  Token.ofWord? (Json.numberText n).toList =
    some (.scalar (.number n))

end Number

/- A word of digits and signs is read as a numeral. -/
theorem Token.ofWord?_numeral
    {word : List Char}
    (hWord : ∀ c ∈ word, c.isDigit = true ∨ c = '-') :
    ofWord? word =
      ((Numeral.ofChars? word).bind Numeral.value?).map
        fun n => .scalar (.number n) := by
  have hNe :
      ∀ c rest,
        ¬ (c.isDigit = true ∨ c = '-') →
          word ≠ c :: rest := by
    rintro c rest hNot rfl
    exact hNot (hWord c List.mem_cons_self)
  unfold ofWord?
  rw [if_neg (hNe _ _ (by decide)),
    if_neg (hNe _ _ (by decide)),
    if_neg (hNe _ _ (by decide))]
  cases Numeral.ofChars? word with
  | none => rfl
  | some numeral =>
      cases hValue : numeral.value? with
      | none => simp [hValue]
      | some n => simp [hValue]

namespace Number

/- An integer of 64 bits is read back. -/
theorem readsBack_of_fits
    {n : Int}
    (hFits : Fits (.integer n)) :
    ReadsBack (.integer n) := by
  rcases hFits with ⟨hLow, hHigh⟩
  have hText : Json.numberText (.integer n) = n.repr := rfl
  unfold ReadsBack
  rw [hText, Int.repr_eq_if]
  by_cases hSign : 0 ≤ n
  · rcases Int.eq_ofNat_of_zero_le hSign with ⟨m, rfl⟩
    rw [if_pos hSign, Int.toNat_natCast, Nat.toList_repr,
      Token.ofWord?_numeral
        fun c hC => .inl (Numeral.isDigit_of_mem hC),
      Numeral.ofChars?_toDigits]
    have hValue :=
      Numeral.value?_digits (Int.ofNat_le.mp hHigh)
    simp [hValue]
  · have hPositive : 0 < (-n).toNat := by
      omega
    have hFits : (-n).toNat ≤ Numeral.maxNegative := by
      omega
    have hList :
        ("-" ++ (-n).toNat.repr).toList =
          '-' :: Nat.toDigits 10 (-n).toNat := by
      rw [String.toList_append, Nat.toList_repr]
      rfl
    rw [if_neg hSign, hList,
      Token.ofWord?_numeral (by
        intro c hC
        rcases List.mem_cons.mp hC with rfl | hDigit
        · exact .inr rfl
        · exact .inl (Numeral.isDigit_of_mem hDigit)),
      Numeral.ofChars?_minus_toDigits]
    have hValue :=
      Numeral.value?_minus_digits hPositive hFits
    have hBack : -((-n).toNat : Int) = n := by
      omega
    rw [hBack] at hValue
    simp [hValue]

end Number

------------------------------------------------------------
-- Numbers That Are Read
------------------------------------------------------------

namespace Numeral

/- A numeral that is no integer of 64 bits is a double. -/
theorem exists_of_double?
    {x : Numeral}
    {n : Number}
    (hDouble : x.double? = some n) :
    ∃ bits, n = .double bits := by
  have hSigned :
      ∀ {scaled : Option Float},
        scaled.map (signed x.negative) = some n →
          ∃ bits, n = .double bits := by
    intro scaled hScaled
    rcases Option.map_eq_some_iff.mp hScaled with
      ⟨f, _, rfl⟩
    exact ⟨_, rfl⟩
  unfold double? at hDouble
  cases hExponent : x.exponent with
  | none =>
      simp only [hExponent] at hDouble
      exact hSigned hDouble
  | some parts =>
      rcases parts with ⟨down, digits⟩
      simp only [hExponent] at hDouble
      split at hDouble
      · split at hDouble
        · cases hDouble
        · cases hDouble
          exact ⟨_, rfl⟩
      · exact hSigned hDouble

/- Every number that is read fits. -/
theorem fits_of_value?
    {x : Numeral}
    {n : Number}
    (hValue : x.value? = some n) :
    n.Fits := by
  have hOther : x.double? = some n → n.Fits := by
    intro hDouble
    rcases exists_of_double? hDouble with ⟨bits, rfl⟩
    exact trivial
  unfold value? at hValue
  simp only at hValue
  split at hValue
  · split at hValue
    · rename_i hFits
      cases hValue
      exact ⟨by omega, Int.ofNat_le.mpr hFits.2⟩
    · split at hValue
      · rename_i hFits
        cases hValue
        exact ⟨by omega, by omega⟩
      · exact hOther hValue
  · exact hOther hValue

end Numeral

------------------------------------------------------------
-- Bare Words
------------------------------------------------------------

namespace Token

/- The text is made of characters of literals and numerals. -/
def IsBareWord (s : String) : Prop :=
  ∀ c ∈ s.toList, isBare c = true

/- A given text is a bare word if a look at it says so. -/
theorem isBareWord_of_all
    {s : String}
    (hAll : s.toList.all isBare = true) :
    IsBareWord s :=
  List.all_eq_true.mp hAll

/- Digits are characters of numerals. -/
theorem isBare_of_isDigit
    {c : Char}
    (hDigit : c.isDigit = true) :
    isBare c = true := by
  simp [isBare, Char.isAlphanum, hDigit]

/- Two bare words make up a bare word. -/
theorem IsBareWord.append
    {s t : String}
    (hFirst : IsBareWord s)
    (hSecond : IsBareWord t) :
    IsBareWord (s ++ t) := by
  intro c hC
  rw [String.toList_append, List.mem_append] at hC
  exact hC.elim (hFirst c) (hSecond c)

/- Digits in any number and order are a bare word. -/
theorem isBareWord_ofList
    {n : Nat}
    {cs : List Char}
    (hDigits : cs ⊆ Nat.toDigits 10 n) :
    IsBareWord (String.ofList cs) := by
  intro c hC
  rw [String.toList_ofList] at hC
  exact
    isBare_of_isDigit (Numeral.isDigit_of_mem (hDigits hC))

/- So are the digits of a number. -/
theorem isBareWord_repr (n : Nat) : IsBareWord n.repr := by
  rw [Nat.repr_eq_ofList_toDigits]
  exact isBareWord_ofList (List.Subset.refl _)

/- And a run of zeros. -/
theorem isBareWord_zeros (n : Nat) :
    IsBareWord (Double.zeros n) := by
  intro c hC
  rw [Double.zeros, String.toList_ofList] at hC
  rw [List.eq_of_mem_replicate hC]
  decide

end Token

namespace Double

open Token

/- A decimal is written as a bare word. -/
theorem isBareWord_render_decimal (d : Decimal) :
    IsBareWord d.render := by
  have hPoint : IsBareWord "." :=
    isBareWord_of_all (by decide)
  have hPointZero : IsBareWord ".0" :=
    isBareWord_of_all (by decide)
  have hZeroPoint : IsBareWord "0." :=
    isBareWord_of_all (by decide)
  have hExponent : IsBareWord "e" :=
    isBareWord_of_all (by decide)
  have hSign (negative : Prop) [Decidable negative] :
      IsBareWord (if negative then "-" else "+") := by
    split <;> exact isBareWord_of_all (by decide)
  have hAll :
      IsBareWord (String.ofList (Nat.toDigits 10 d.digits)) :=
    isBareWord_ofList (List.Subset.refl _)
  have hTake (n : Nat) :
      IsBareWord
        (String.ofList ((Nat.toDigits 10 d.digits).take n)) :=
    isBareWord_ofList (List.take_subset _ _)
  have hDrop (n : Nat) :
      IsBareWord
        (String.ofList ((Nat.toDigits 10 d.digits).drop n)) :=
    isBareWord_ofList (List.drop_subset _ _)
  have hEmpty : IsBareWord "" :=
    isBareWord_of_all (by decide)
  unfold Decimal.render
  simp only
  split
  · exact (hAll.append (isBareWord_zeros _)).append hPointZero
  · split
    · exact ((hTake _).append hPoint).append (hDrop _)
    · split
      · exact
          (hZeroPoint.append (isBareWord_zeros _)).append hAll
      · refine
          ((((hTake _).append ?_).append hExponent).append
            (hSign _)).append (isBareWord_repr _)
        split
        · exact hEmpty
        · exact hPoint.append (hDrop _)

/- So is a double. -/
theorem isBareWord_render (bits : UInt64) :
    IsBareWord (render bits) := by
  have hSign (negative : Bool) :
      IsBareWord (if negative then "-" else "") := by
    cases negative <;> exact isBareWord_of_all (by decide)
  unfold render
  simp only
  split
  · exact (hSign _).append (isBareWord_of_all (by decide))
  · exact
      (hSign _).append (isBareWord_render_decimal _)

end Double

/- Every number is written as a bare word. -/
theorem Json.isBareWord_numberText (n : Number) :
    Token.IsBareWord (numberText n) := by
  cases n with
  | integer n =>
      have hText : numberText (.integer n) = n.repr := rfl
      rw [hText, Int.repr_eq_if]
      split
      · exact Token.isBareWord_repr _
      · exact
          (Token.isBareWord_of_all (by decide)).append
            (Token.isBareWord_repr _)
  | double bits =>
      exact Double.isBareWord_render bits

end HostBindings
