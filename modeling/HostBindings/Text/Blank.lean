/-
  White space of written text.

  A text is blank when nothing is left of it once the white
  space at both ends is gone.

  Key definitions include:
    * `Text.isSpace`
    * `Text.trim`
    * `Text.isBlank`
-/

------------------------------------------------------------
-- White Space
------------------------------------------------------------

namespace HostBindings

namespace Text

/-
  The characters with the `White_Space` property: the ASCII
  controls from tab to carriage return, the spaces, and the
  line and paragraph separators.
-/
def isSpace (c : Char) : Bool :=
  let n := c.toNat
  (9 ≤ n && n ≤ 13) || n == 0x20 || n == 0x85 || n == 0xA0 ||
    n == 0x1680 || (0x2000 ≤ n && n ≤ 0x200A) ||
    n == 0x2028 || n == 0x2029 || n == 0x202F ||
    n == 0x205F || n == 0x3000

------------------------------------------------------------
-- Trimming
------------------------------------------------------------

/- Drop the white space in front. -/
def dropSpace (cs : List Char) : List Char :=
  cs.dropWhile isSpace

/- Drop the white space at both ends. -/
def trim (s : String) : String :=
  String.ofList
    (dropSpace (dropSpace s.toList).reverse).reverse

/- Whether trimming leaves nothing of a text. -/
def isBlank (s : String) : Bool :=
  s.toList.all isSpace

end Text

end HostBindings
