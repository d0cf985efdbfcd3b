import HostBindings.Json.Value
import HostBindings.Json.Double

/-
  Writing JSON texts.

  The compact form has no white space.  The pretty form puts
  every item and member on a line of its own, two spaces
  deeper than its container.

  Key definitions include:
    * `Json.escapeChar`
    * `Json.quote`
    * `Json.compact`
    * `Json.pretty`
-/

------------------------------------------------------------
-- Scalars
------------------------------------------------------------

namespace HostBindings

namespace Json

/- A character inside a quoted text. -/
def escapeChar (c : Char) : List Char :=
  if c = '"' then ['\\', '"']
  else if c = '\\' then ['\\', '\\']
  else if c = '\x08' then ['\\', 'b']
  else if c = '\x0c' then ['\\', 'f']
  else if c = '\n' then ['\\', 'n']
  else if c = '\r' then ['\\', 'r']
  else if c = '\t' then ['\\', 't']
  else if c.toNat < 0x20 then
    ['\\', 'u', '0', '0', Nat.digitChar (c.toNat / 16),
      Nat.digitChar (c.toNat % 16)]
  else [c]

/- A text between quotes. -/
def quote (s : String) : String :=
  String.ofList (['"'] ++ s.toList.flatMap escapeChar ++ ['"'])

/- A number. -/
def numberText : Number → String
| .integer n => toString n
| .double bits => Double.render bits

------------------------------------------------------------
-- Compact Form
------------------------------------------------------------

mutual

/- A value without white space. -/
def compact : Json → String
| .null => "null"
| .bool b => if b then "true" else "false"
| .number n => numberText n
| .string s => quote s
| .array items => "[" ++ compactItems items ++ "]"
| .object members =>
    "\x7b" ++ compactMembers members ++ "\x7d"

/- Items with commas between them. -/
def compactItems : List Json → String
| [] => ""
| [v] => compact v
| v :: rest => compact v ++ "," ++ compactItems rest

/- Members with commas between them. -/
def compactMembers : List (String × Json) → String
| [] => ""
| [(key, v)] => quote key ++ ":" ++ compact v
| (key, v) :: rest =>
    quote key ++ ":" ++ compact v ++ "," ++
      compactMembers rest

end

------------------------------------------------------------
-- Pretty Form
------------------------------------------------------------

/- The start of a new line at a depth. -/
def newline (depth : Nat) : String :=
  String.ofList ('\n' :: List.replicate (2 * depth) ' ')

mutual

/- A value whose first line starts at a depth. -/
def prettyAt (depth : Nat) : Json → String
| .array [] => "[]"
| .object [] => "\x7b\x7d"
| .array items =>
    "[" ++ prettyItems (depth + 1) items ++
      newline depth ++ "]"
| .object members =>
    "\x7b" ++ prettyMembers (depth + 1) members ++
      newline depth ++ "\x7d"
| v => compact v

/- Items on lines of their own. -/
def prettyItems (depth : Nat) : List Json → String
| [] => ""
| [v] => newline depth ++ prettyAt depth v
| v :: rest =>
    newline depth ++ prettyAt depth v ++ "," ++
      prettyItems depth rest

/- Members on lines of their own. -/
def prettyMembers
    (depth : Nat) :
    List (String × Json) → String
| [] => ""
| [(key, v)] =>
    newline depth ++ quote key ++ ": " ++ prettyAt depth v
| (key, v) :: rest =>
    newline depth ++ quote key ++ ": " ++
      prettyAt depth v ++ "," ++ prettyMembers depth rest

end

/- A value over several lines. -/
def pretty (v : Json) : String :=
  prettyAt 0 v

/- The text of a file that holds a value. -/
def fileText (v : Json) : String :=
  pretty v ++ "\n"

end Json

end HostBindings
