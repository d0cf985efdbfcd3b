import HostBindings.Definitions.CharacterSet

/-
  Check digits and check character pairs.

  Key definitions include:
    * `Definitions.check`
-/

------------------------------------------------------------
-- Checks
------------------------------------------------------------

namespace HostBindings

namespace Definitions

/- The class of the check functions. -/
def checkClass : String :=
  "CheckProxy"

/- The namespace of functions on identification keys. -/
def keyNamespace : String :=
  "GS1"

/- The check functions and what they return. -/
def checkMethods : List (String × ValueType) :=
  [("checkDigit", .string),
    ("hasValidCheckDigit", .boolean),
    ("priceOrWeightCheckDigit", .string),
    ("checkCharacterPair", .string),
    ("hasValidCheckCharacterPair", .boolean)]

/- A check function of a text. -/
def checkMethod (entry : String × ValueType) : Description :=
  .method checkClass entry.1 (.returns entry.2 .matrix)
    [Parameters.text]

/- The check functions and their class. -/
def check : Description :=
  .sequence
    ([.abstractClass stringClass none] ++
      checkMethods.map checkMethod ++
      [.concreteClass checkClass (some stringClass)
        { ClassTraits.none with
          nameSpace := some keyNamespace }])

end Definitions

end HostBindings
