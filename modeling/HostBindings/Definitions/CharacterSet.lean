import HostBindings.Definitions.Parameters
import HostBindings.Registration.Description

/-
  Validation and creation of texts over a character set, with
  one concrete class for each set.

  Key definitions include:
    * `Definitions.characterSet`
-/

------------------------------------------------------------
-- Character Sets
------------------------------------------------------------

namespace HostBindings

namespace Definitions

/- The base of every proxy that deals with texts. -/
def stringClass : String :=
  "StringProxy"

/- The base of the character sets. -/
def characterSetClass : String :=
  "CharacterSetProxy"

/- The character sets, by the infix of their functions. -/
def characterSets : List String :=
  ["Numeric", "Hexadecimal", "Alphanumeric"]

/- The class of a character set. -/
def characterSetProxy (methodInfix : String) : Description :=
  .concreteClass (methodInfix ++ "Proxy")
    (some characterSetClass)
    { ClassTraits.none with methodInfix := some methodInfix }

/- The methods of every character set. -/
def characterSetMethods : List Description :=
  [.method characterSetClass "validate"
    (.returns .string .matrix)
    [Parameters.text, Parameters.exclusion],
  .method characterSetClass "isValid"
    (.returns .boolean .matrix)
    [Parameters.text, Parameters.exclusion],
  .method characterSetClass "create"
    (.returns .string .matrix)
    [Parameters.length, Parameters.value,
      Parameters.exclusion, Parameters.tweak],
  .method characterSetClass "createSequence"
    { MethodTraits.returns .string .matrix with
      anchor := some "Sequence" }
    [Parameters.length, Parameters.startValue,
      Parameters.count, Parameters.exclusion,
      Parameters.tweak],
  .method characterSetClass "valueFor"
    (.returns .number .matrix)
    [Parameters.text, Parameters.exclusion,
      Parameters.tweak]]

/- The bases, the methods, and a class for each set. -/
def characterSet : Description :=
  .sequence
    ([.abstractClass stringClass none,
      .abstractClass characterSetClass (some stringClass)] ++
      characterSetMethods ++
      characterSets.map characterSetProxy)

end Definitions

end HostBindings
