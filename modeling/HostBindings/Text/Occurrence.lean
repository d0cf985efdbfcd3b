/-
  The first occurrence of one text in another.

  Key definitions include:
    * `Text.splitAtFirst`
-/

------------------------------------------------------------
-- First Occurrence
------------------------------------------------------------

namespace HostBindings

namespace Text

/-
  Split a text in front of the first place where the sought
  text occurs.  The empty text occurs at the very front.
-/
def splitAtFirst
    (sought : List Char) :
    List Char → Option (List Char × List Char)
| [] =>
    if sought = [] then some ([], []) else none
| c :: rest =>
    if sought.isPrefixOf (c :: rest) then
      some ([], c :: rest)
    else
      (splitAtFirst sought rest).map fun parts =>
        (c :: parts.1, parts.2)

end Text

end HostBindings
