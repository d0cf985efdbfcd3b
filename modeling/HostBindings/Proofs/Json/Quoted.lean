import HostBindings.Json.Printer
import HostBindings.Json.Token

/-
  Quoted texts that are read back.

  What is written for a character is undone by resolving
  escapes, and contains no quote that could end the text.

  Main declarations:
    * `Json.escapeChar_cases`
    * `Token.unescape_escape`
    * `Token.Cutter.foldlM_quote`
-/

------------------------------------------------------------
-- Escapes
------------------------------------------------------------

namespace HostBindings

namespace Json

/- The characters that are written with a letter. -/
def named : List Char :=
  ['"', '\\', '\x08', '\x0c', '\n', '\r', '\t']

/-
  A character is written by itself, behind a backslash with a
  letter that stands for it, or by its number.
-/
theorem escapeChar_cases (c : Char) :
    (escapeChar c = [c] ∧ c ≠ '"' ∧ c ≠ '\\' ∧
        ¬ c.toNat < 0x20) ∨
      (∃ letter, escapeChar c = ['\\', letter] ∧
        letter ≠ 'u' ∧ Token.escaped? letter = some c) ∨
      (∃ n, n < 0x20 ∧ c = Char.ofNat n ∧
        escapeChar c =
          ['\\', 'u', '0', '0', Nat.digitChar (n / 16),
            Nat.digitChar (n % 16)]) := by
  by_cases hNamed : c ∈ named
  · right
    left
    simp only [named, List.mem_cons, List.not_mem_nil,
      or_false] at hNamed
    rcases hNamed with
      rfl | rfl | rfl | rfl | rfl | rfl | rfl <;>
      exact ⟨_, rfl, by decide, by decide⟩
  · simp only [named, List.mem_cons, List.not_mem_nil,
      or_false, not_or] at hNamed
    rcases hNamed with ⟨hQuote, hSlash, hOthers⟩
    by_cases hControl : c.toNat < 0x20
    · right
      right
      refine ⟨c.toNat, hControl, ?_, ?_⟩
      · rw [Char.ofNat_toNat]
      · simp [escapeChar, hQuote, hSlash, hOthers, hControl]
    · left
      refine ⟨?_, hQuote, hSlash, hControl⟩
      simp [escapeChar, hQuote, hSlash, hOthers, hControl]

end Json

namespace Token

/- The digits of a control character are read back. -/
theorem hex4?_control :
    ∀ n < 0x20,
      hex4? '0' '0' (Nat.digitChar (n / 16))
          (Nat.digitChar (n % 16)) = some n := by
  decide

/- An escaped character is the character. -/
theorem unescape_escapeChar
    (c : Char)
    (rest : List Char) :
    unescape (Json.escapeChar c ++ rest) =
      (unescape rest).map (c :: ·) := by
  rcases Json.escapeChar_cases c with
    ⟨hPlain, _, hSlash, _⟩ | ⟨letter, hNamed, hNotU, hLetter⟩ |
    ⟨n, hControl, hChar, hDigits⟩
  · rw [hPlain, List.singleton_append, unescape.eq_def]
    simp [hSlash]
  · rw [hNamed, List.cons_append, List.singleton_append,
      unescape.eq_def]
    simp [hNotU, hLetter]
  · have hHigh : isHigh n = false := by
      simp [isHigh]
      omega
    have hLow : isLow n = false := by
      simp [isLow]
      omega
    rw [hDigits]
    simp only [List.cons_append, List.nil_append]
    rw [unescape.eq_def]
    simp [hex4?_control n hControl, hHigh, hLow, hChar]

/- Escaping is undone. -/
theorem unescape_escape (cs : List Char) :
    unescape (cs.flatMap Json.escapeChar) = some cs := by
  induction cs with
  | nil =>
      rfl
  | cons c rest ih =>
      rw [List.flatMap_cons, unescape_escapeChar, ih]
      rfl

------------------------------------------------------------
-- Quotes
------------------------------------------------------------

namespace Cutter

/- Inside quotes, characters are gathered. -/
theorem read_gathers
    {c : Char}
    (hQuote : c ≠ '"')
    (hSlash : c ≠ '\\')
    (hControl : ¬ c.toNat < 0x20)
    (gathered : List Char)
    (tokens : List Token) :
    read ⟨.quoted gathered, tokens⟩ c =
      some ⟨.quoted (c :: gathered), tokens⟩ := by
  simp [read, hQuote, hSlash, hControl]

/- The digits of an escape are gathered. -/
theorem gathers_digits :
    ∀ n < 0x20,
      ∀ c ∈ ['0', '0', Nat.digitChar (n / 16),
        Nat.digitChar (n % 16)],
        c ≠ '"' ∧ c ≠ '\\' ∧ ¬ c.toNat < 0x20 := by
  have hAll :
      ∀ n < 0x20,
        (['0', '0', Nat.digitChar (n / 16),
          Nat.digitChar (n % 16)].all fun c =>
            c ≠ '"' ∧ c ≠ '\\' ∧ ¬ c.toNat < 0x20) =
          true := by
    decide
  intro n hN c hC
  simpa using List.all_eq_true.mp (hAll n hN) c hC

/- Characters that are gathered one by one. -/
theorem foldlM_gathers
    {cs : List Char}
    (hPlain :
      ∀ c ∈ cs, c ≠ '"' ∧ c ≠ '\\' ∧ ¬ c.toNat < 0x20)
    (gathered : List Char)
    (tokens : List Token) :
    cs.foldlM read ⟨.quoted gathered, tokens⟩ =
      some ⟨.quoted (cs.reverse ++ gathered), tokens⟩ := by
  induction cs generalizing gathered with
  | nil =>
      rfl
  | cons c rest ih =>
      rcases hPlain c List.mem_cons_self with
        ⟨hQuote, hSlash, hControl⟩
      rw [List.foldlM_cons,
        read_gathers hQuote hSlash hControl]
      simp only [Option.bind_eq_bind, Option.bind_some]
      rw [ih fun d hD => hPlain d (List.mem_cons_of_mem _ hD)]
      simp

/- What is written for a character is gathered. -/
theorem foldlM_escapeChar
    (c : Char)
    (gathered : List Char)
    (tokens : List Token) :
    (Json.escapeChar c).foldlM read
        ⟨.quoted gathered, tokens⟩ =
      some
        ⟨.quoted ((Json.escapeChar c).reverse ++ gathered),
          tokens⟩ := by
  have hSlash (letter : Char) :
      ['\\', letter].foldlM read
          ⟨.quoted gathered, tokens⟩ =
        some
          ⟨.quoted (letter :: '\\' :: gathered),
            tokens⟩ := by
    rfl
  rcases Json.escapeChar_cases c with
    ⟨hPlain, hParts⟩ | ⟨letter, hNamed, _⟩ |
    ⟨n, hControl, _, hDigits⟩
  · rw [hPlain]
    exact foldlM_gathers (by simpa using hParts) _ _
  · rw [hNamed]
    exact hSlash letter
  · have hSplit :
        Json.escapeChar c =
          ['\\', 'u'] ++
            ['0', '0', Nat.digitChar (n / 16),
              Nat.digitChar (n % 16)] := hDigits
    rw [hSplit, List.foldlM_append, hSlash]
    simp only [Option.bind_eq_bind, Option.bind_some]
    rw [foldlM_gathers (gathers_digits n hControl)]
    simp

/- So is what is written for a text. -/
theorem foldlM_escape
    (cs gathered : List Char)
    (tokens : List Token) :
    (cs.flatMap Json.escapeChar).foldlM read
        ⟨.quoted gathered, tokens⟩ =
      some
        ⟨.quoted
            ((cs.flatMap Json.escapeChar).reverse ++ gathered),
          tokens⟩ := by
  induction cs generalizing gathered with
  | nil =>
      rfl
  | cons c rest ih =>
      rw [List.flatMap_cons, List.foldlM_append,
        foldlM_escapeChar]
      simp only [Option.bind_eq_bind, Option.bind_some]
      rw [ih]
      simp

/- A quoted text is cut as one token. -/
theorem foldlM_quote
    (s : String)
    (tokens : List Token) :
    (Json.quote s).toList.foldlM read ⟨.between, tokens⟩ =
      some ⟨.between, .scalar (.string s) :: tokens⟩ := by
  rw [Json.quote, String.toList_ofList, List.append_assoc,
    List.foldlM_append]
  have hOpen :
      ['"'].foldlM read ⟨.between, tokens⟩ =
        some ⟨.quoted [], tokens⟩ := by
    rfl
  rw [hOpen]
  simp only [Option.bind_eq_bind, Option.bind_some]
  rw [List.foldlM_append, foldlM_escape]
  simp only [Option.bind_eq_bind, Option.bind_some]
  simp [read, ofQuoted?, unescape_escape]

end Cutter

end Token

end HostBindings
