import HostBindings.Definitions.Utility
import HostBindings.Definitions.CharacterSet
import HostBindings.Definitions.Check
import HostBindings.Definitions.Identifier

/-
  The proxy modules that the generator comes with.

  Abstract bases that modules share are declared in each of
  them.

  Key definitions include:
    * `Definitions.modules`
-/

------------------------------------------------------------
-- Modules
------------------------------------------------------------

namespace HostBindings

namespace Definitions

/- The modules in the order of their elaboration. -/
def modules : List ProxyModule :=
  [⟨"utility", utility⟩,
    ⟨"character-set", characterSet⟩,
    ⟨"check", check⟩,
    ⟨"identifier", identifier⟩]

end Definitions

end HostBindings
