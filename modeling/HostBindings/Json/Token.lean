import HostBindings.Json.Value
import HostBindings.Json.Numeral

/-
  Tokens of JSON texts.

  A text is cut by a machine that reads one character at a
  time: it stands between tokens, in a bare word, or in a
  quoted text.  A bare word is a literal or a numeral.

  Key definitions include:
    * `Token`
    * `Token.unescape`
    * `Token.ofWord?`
    * `Token.Cutter`
    * `Token.cut`
-/

------------------------------------------------------------
-- Tokens
------------------------------------------------------------

namespace HostBindings

/- The pieces of a JSON text. -/
inductive Token where
| openArray
| closeArray
| openObject
| closeObject
| comma
| colon
| scalar (value : Json)
deriving DecidableEq

namespace Token

/- The token for a punctuation mark. -/
def ofMark? (c : Char) : Option Token :=
  if c = '[' then some .openArray
  else if c = ']' then some .closeArray
  else if c = '\x7b' then some .openObject
  else if c = '\x7d' then some .closeObject
  else if c = ',' then some .comma
  else if c = ':' then some .colon
  else none

/- The white space between tokens. -/
def isGap (c : Char) : Bool :=
  c == ' ' || c == '\t' || c == '\n' || c == '\r'

/- The characters of literals and numerals. -/
def isBare (c : Char) : Bool :=
  c.isAlphanum || c == '+' || c == '-' || c == '.'

------------------------------------------------------------
-- Escapes
------------------------------------------------------------

/- The value of a hexadecimal digit of either case. -/
def hexDigit? (c : Char) : Option Nat :=
  if '0' ≤ c ∧ c ≤ '9' then
    some (c.toNat - '0'.toNat)
  else if 'a' ≤ c ∧ c ≤ 'f' then
    some (c.toNat - 'a'.toNat + 10)
  else if 'A' ≤ c ∧ c ≤ 'F' then
    some (c.toNat - 'A'.toNat + 10)
  else
    none

/- The value of four hexadecimal digits. -/
def hex4? (a b c d : Char) : Option Nat := do
  let a ← hexDigit? a
  let b ← hexDigit? b
  let c ← hexDigit? c
  let d ← hexDigit? d
  return ((a * 16 + b) * 16 + c) * 16 + d

/- The character for an escape of one letter. -/
def escaped? (c : Char) : Option Char :=
  if c = '"' ∨ c = '\\' ∨ c = '/' then some c
  else if c = 'b' then some '\x08'
  else if c = 'f' then some '\x0c'
  else if c = 'n' then some '\n'
  else if c = 'r' then some '\r'
  else if c = 't' then some '\t'
  else none

/- The first unit of a surrogate pair. -/
def isHigh (n : Nat) : Bool :=
  0xD800 ≤ n && n < 0xDC00

/- The second unit of a surrogate pair. -/
def isLow (n : Nat) : Bool :=
  0xDC00 ≤ n && n < 0xE000

/- The character for a surrogate pair. -/
def ofPair (high low : Nat) : Char :=
  Char.ofNat
    (0x10000 + (high - 0xD800) * 0x400 + (low - 0xDC00))

/-
  Resolve the escapes of a quoted text.  A surrogate counts
  only as part of a pair.
-/
def unescape : List Char → Option (List Char)
| [] => some []
| c :: rest =>
    if c ≠ '\\' then
      (unescape rest).map (c :: ·)
    else
      match rest with
      | [] => none
      | e :: rest =>
          if e ≠ 'u' then
            match escaped? e with
            | some c => (unescape rest).map (c :: ·)
            | none => none
          else
            match rest with
            | h₁ :: h₂ :: h₃ :: h₄ :: rest =>
                match hex4? h₁ h₂ h₃ h₄ with
                | none => none
                | some n =>
                    if isHigh n then
                      match rest with
                      | b :: u :: l₁ :: l₂ :: l₃ :: l₄ ::
                          rest =>
                          match hex4? l₁ l₂ l₃ l₄ with
                          | none => none
                          | some m =>
                              if b = '\\' ∧ u = 'u' ∧
                                  isLow m then
                                (unescape rest).map
                                  (ofPair n m :: ·)
                              else
                                none
                      | _ => none
                    else if isLow n then
                      none
                    else
                      (unescape rest).map
                        (Char.ofNat n :: ·)
            | _ => none

------------------------------------------------------------
-- Cutting
------------------------------------------------------------

/- The token for a bare word. -/
def ofWord? (word : List Char) : Option Token :=
  if word = ['n', 'u', 'l', 'l'] then
    some (.scalar .null)
  else if word = ['t', 'r', 'u', 'e'] then
    some (.scalar (.bool true))
  else if word = ['f', 'a', 'l', 's', 'e'] then
    some (.scalar (.bool false))
  else do
    let numeral ← Numeral.ofChars? word
    let value ← numeral.value?
    return .scalar (.number value)

/- The token for the inside of a quoted text. -/
def ofQuoted? (inside : List Char) : Option Token :=
  (unescape inside).map fun cs =>
    .scalar (.string (String.ofList cs))

/-
  Where the machine stands.  Characters gathered so far are
  kept in reverse.
-/
inductive Place where
| between
| word (gathered : List Char)
| quoted (gathered : List Char)
| escaped (gathered : List Char)
deriving DecidableEq

/- The machine: its place and the tokens cut so far. -/
structure Cutter where
  place : Place
  tokens : List Token

namespace Cutter

/- Nothing has been read. -/
def start : Cutter :=
  ⟨.between, []⟩

/- Read a character between tokens. -/
def readBetween
    (tokens : List Token)
    (c : Char) : Option Cutter :=
  if isGap c then
    some ⟨.between, tokens⟩
  else if c = '"' then
    some ⟨.quoted [], tokens⟩
  else if isBare c then
    some ⟨.word [c], tokens⟩
  else
    (ofMark? c).map fun token => ⟨.between, token :: tokens⟩

/- Read one character. -/
def read (m : Cutter) (c : Char) : Option Cutter :=
  match m.place with
  | .between => readBetween m.tokens c
  | .word gathered =>
      if isBare c then
        some ⟨.word (c :: gathered), m.tokens⟩
      else
        match ofWord? gathered.reverse with
        | some token => readBetween (token :: m.tokens) c
        | none => none
  | .quoted gathered =>
      if c = '"' then
        (ofQuoted? gathered.reverse).map fun token =>
          ⟨.between, token :: m.tokens⟩
      else if c = '\\' then
        some ⟨.escaped (c :: gathered), m.tokens⟩
      else if c.toNat < 0x20 then
        none
      else
        some ⟨.quoted (c :: gathered), m.tokens⟩
  | .escaped gathered =>
      some ⟨.quoted (c :: gathered), m.tokens⟩

/- The tokens at the end of the text, in order. -/
def finish (m : Cutter) : Option (List Token) :=
  match m.place with
  | .between => some m.tokens.reverse
  | .word gathered =>
      (ofWord? gathered.reverse).map fun token =>
        (token :: m.tokens).reverse
  | _ => none

end Cutter

/- Cut a text into tokens. -/
def cut (cs : List Char) : Option (List Token) :=
  (cs.foldlM Cutter.read Cutter.start).bind Cutter.finish

end Token

end HostBindings
