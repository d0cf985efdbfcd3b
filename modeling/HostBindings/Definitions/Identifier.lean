import HostBindings.Definitions.Check

/-
  Validation and creation of identification keys, and the
  length of company prefixes.

  Key definitions include:
    * `Definitions.identifier`
-/

------------------------------------------------------------
-- Validators
------------------------------------------------------------

namespace HostBindings

namespace Definitions

/- The base of the validators. -/
def validatorClass : String :=
  "IdentifierValidatorProxy"

/- The traits of a class for one kind of key. -/
def keyTraits
    (methodInfix replaced : String)
    (parameter : Parameter) : ClassTraits where
  nameSpace := some keyNamespace
  methodInfix := some methodInfix
  replacements := [⟨replaced, parameter⟩]

/- The validator of one kind of key. -/
def validator
    (kind : String)
    (parameter : Parameter) : Description :=
  .concreteClass (kind ++ "ValidatorProxy")
    (some validatorClass)
    (keyTraits kind "identifier" parameter)

/- The validators. -/
def validators : List Description :=
  [.abstractClass validatorClass none,
  .method validatorClass "validate"
    (.returns .string .matrix)
    [Parameters.identifier, Parameters.validation],
  .method validatorClass "isValid"
    (.returns .boolean .matrix)
    [Parameters.identifier],
  validator "GTIN13" Parameters.gtin,
  validator "GTIN12" Parameters.gtin,
  validator "GLN" Parameters.gln]

------------------------------------------------------------
-- Creators
------------------------------------------------------------

/- The base of the creators. -/
def creatorClass : String :=
  "IdentifierCreatorProxy"

/- The creator of trade item numbers. -/
def gtinCreatorClass : String :=
  "GTINCreatorProxy"

/- The creators. -/
def creators : List Description :=
  [.abstractClass creatorClass none,
  .method creatorClass "create"
    (.returns .string .matrix)
    [Parameters.companyPrefix, Parameters.value,
      Parameters.sparse],
  .method creatorClass "createSequence"
    { MethodTraits.returns .string .matrix with
      anchor := some "Sequence" }
    [Parameters.companyPrefix, Parameters.startValue,
      Parameters.count, Parameters.sparse],
  .method gtinCreatorClass "createGTIN14"
    { MethodTraits.returns .string .matrix with
      keepsName := true }
    [Parameters.indicatorDigit, Parameters.gtin],
  .concreteClass gtinCreatorClass (some creatorClass)
    (keyTraits "GTIN" "value" Parameters.itemReference),
  .concreteClass "GLNCreatorProxy" (some creatorClass)
    (keyTraits "GLN" "value" Parameters.locationReference)]

------------------------------------------------------------
-- Prefix Lengths
------------------------------------------------------------

/- The class of the prefix lengths. -/
def lengthClass : String :=
  "GCPLengthProxy"

/- Prefix lengths, and the age of their data, not listed. -/
def prefixLengths : List Description :=
  [.method lengthClass "gcpLength"
    { MethodTraits.returns .number .matrix with
      isAsync := true
      needsContext := true }
    [Parameters.companyPrefixes],
  .method lengthClass "gcpLengthDateTime"
    { MethodTraits.returns .string .singleton with
      isAsync := true
      isHidden := true }
    [],
  .concreteClass lengthClass none
    { ClassTraits.none with nameSpace := some keyNamespace }]

/- Validators, creators and prefix lengths. -/
def identifier : Description :=
  .sequence (validators ++ creators ++ prefixLengths)

end Definitions

end HostBindings
