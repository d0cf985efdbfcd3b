import HostBindings.Definitions.Parameters
import HostBindings.Registration.Description

/-
  Functions of the application itself.

  Key definitions include:
    * `Definitions.utility`
-/

------------------------------------------------------------
-- Utility
------------------------------------------------------------

namespace HostBindings

namespace Definitions

/- The class of the application functions. -/
def utilityClass : String :=
  "AppUtilityProxy"

/- A method that spreads a matrix over the sheet. -/
def spill (name : String) : Description :=
  .method utilityClass name
    { MethodTraits.returns .any .matrix with
      isAsync := true
      needsContext := true }
    [Parameters.matrix]

/- Versions, spills, and a diagnostic that is never listed. -/
def utility : Description :=
  .sequence
    [.method utilityClass "version"
      (.returns .string .singleton) [],
    .method utilityClass "watchVersion"
      { MethodTraits.returns .string .singleton with
        isStream := true }
      [Parameters.interval],
    spill "vSpill",
    spill "hSpill",
    .method utilityClass "diagnostics"
      { MethodTraits.returns .string .matrix with
        isHidden := true }
      [],
    .concreteClass utilityClass none ClassTraits.none]

end Definitions

end HostBindings
