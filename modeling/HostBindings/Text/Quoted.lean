import HostBindings.Text.Unprinted

/-
  Texts quoted for messages.

  A quoted text stands between double quotes.  Quotes and
  backslashes are written after a backslash, four controls
  have a letter of their own, and every other character that
  does not print by itself is written as its code point.

  Key definitions include:
    * `Text.codePoint`
    * `Text.quotedChar`
    * `Text.quoted`
-/

------------------------------------------------------------
-- Quoting
------------------------------------------------------------

namespace HostBindings

namespace Text

/- A code point in hexadecimal between braces. -/
def codePoint (c : Char) : List Char :=
  ['\\', 'u', '\x7b'] ++ Nat.toDigits 16 c.toNat ++ ['\x7d']

/- Whether a character is written as its code point. -/
def isUnprinted (c : Char) : Bool :=
  if c.toNat < 128 then
    c.toNat < 0x20 || c.toNat == 0x7F
  else
    unprinted.has c

/- A character inside a quoted text. -/
def quotedChar (c : Char) : List Char :=
  if c = '\x00' then ['\\', '0']
  else if c = '\t' then ['\\', 't']
  else if c = '\n' then ['\\', 'n']
  else if c = '\r' then ['\\', 'r']
  else if c = '"' then ['\\', '"']
  else if c = '\\' then ['\\', '\\']
  else if isUnprinted c then codePoint c
  else [c]

/- A text between double quotes. -/
def quoted (s : String) : String :=
  String.ofList (['"'] ++ s.toList.flatMap quotedChar ++ ['"'])

end Text

end HostBindings
