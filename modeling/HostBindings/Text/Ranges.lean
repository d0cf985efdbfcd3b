/-
  Sets of characters given by ranges of code points.

  Key definitions include:
    * `Text.Ranges`
    * `Text.Ranges.has`
-/

------------------------------------------------------------
-- Ranges
------------------------------------------------------------

namespace HostBindings

namespace Text

/- First and last code points of consecutive runs. -/
abbrev Ranges :=
  List (Nat × Nat)

namespace Ranges

/- Whether a character lies in one of the runs. -/
def has (ranges : Ranges) (c : Char) : Bool :=
  ranges.any fun run => run.1 ≤ c.toNat && c.toNat ≤ run.2

end Ranges

end Text

end HostBindings
