import HostBindings.Json.Value
import HostBindings.Locale.Key
import HostBindings.Text.Blank

/-
  What a translated tree still lacks.

  Key definitions include:
    * `Completeness`
    * `Completeness.ofTree`
    * `Completeness.isComplete`
-/

------------------------------------------------------------
-- Gaps
------------------------------------------------------------

namespace HostBindings

/- The texts still to be translated, and the blank ones. -/
structure Completeness where
  untranslated : List String
  blank : List String
deriving DecidableEq, Repr

namespace Completeness

/- Nothing is lacking. -/
def complete : Completeness :=
  ⟨[], []⟩

/- What is lacking in one place and then in another. -/
def append (a b : Completeness) : Completeness where
  untranslated := a.untranslated ++ b.untranslated
  blank := a.blank ++ b.blank

/- Whether nothing is lacking. -/
def isComplete (c : Completeness) : Bool :=
  c.untranslated.isEmpty && c.blank.isEmpty

/- What a text at the end of a path lacks. -/
def ofText (path : List String) (text : String) : Completeness :=
  if text = placeholder then
    ⟨[dotted path], []⟩
  else if Text.isBlank text then
    ⟨[], [dotted path]⟩
  else
    complete

------------------------------------------------------------
-- The Walk
------------------------------------------------------------

mutual

/- What a value at the end of a path lacks. -/
def ofValue (path : List String) : Json → Completeness
| .object members => ofMembers path members
| .string text => ofText path text
| _ => complete

/- What the members of an object lack, in order. -/
def ofMembers
    (path : List String) :
    List (String × Json) → Completeness
| [] => complete
| (key, v) :: rest =>
    append (ofValue (path ++ [key]) v) (ofMembers path rest)

end

/- What a tree lacks. -/
def ofTree (tree : Json) : Completeness :=
  ofValue [] tree

end Completeness

end HostBindings
