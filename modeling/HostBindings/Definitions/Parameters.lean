import HostBindings.Proxy.Parameter

/-
  Parameters that several proxies share.

  Families are built by extension, so that every variant is
  localized under its root.

  Key definitions include:
    * `Definitions.Parameters`
-/

------------------------------------------------------------
-- Texts
------------------------------------------------------------

namespace HostBindings

namespace Definitions

namespace Parameters

/- A parameter of the same family under another name. -/
def variant
    (base : Parameter)
    (name : String)
    (sortOrder : Option Int) : Parameter :=
  .extension base
    { Overlay.none with
      name := some name
      sortOrder := sortOrder }

/- A text. -/
def text : Parameter :=
  .new "s" .string .matrix true

/- Characters to leave out. -/
def exclusion : Parameter :=
  .new "exclusion" .number .singleton false

/- A number that scrambles a sequence. -/
def tweak : Parameter :=
  .new "tweak" .number .singleton false

------------------------------------------------------------
-- Sequences
------------------------------------------------------------

/- The length of a text. -/
def length : Parameter :=
  .new "length" .number .singleton true

/- A number to be turned into a text. -/
def value : Parameter :=
  .new "value" .number .matrix true

/- The first number of a sequence. -/
def startValue : Parameter :=
  .extension value
    { Overlay.none with
      name := some "startValue"
      multiplicity := some .singleton }

/- The length of a sequence. -/
def count : Parameter :=
  .new "count" .number .singleton true

/- Whether numbers are spread out. -/
def sparse : Parameter :=
  .new "sparse" .boolean .singleton false

------------------------------------------------------------
-- Identifiers
------------------------------------------------------------

/- An identification key of any kind. -/
def identifier : Parameter :=
  .new "identifier" .string .matrix true

/- A trade item number. -/
def gtin : Parameter :=
  variant identifier "gtin" (some 1)

/- A location number. -/
def gln : Parameter :=
  variant identifier "gln" (some 2)

/- Which checks to make. -/
def validation : Parameter :=
  .new "validation" .number .singleton false

/- A company prefix. -/
def companyPrefix : Parameter :=
  .new "prefix" .string .singleton true

/- Several company prefixes. -/
def companyPrefixes : Parameter :=
  .extension companyPrefix
    { Overlay.none with multiplicity := some .matrix }

/- The reference of an item within a company. -/
def itemReference : Parameter :=
  variant value "itemReference" (some 1)

/- The reference of a location within a company. -/
def locationReference : Parameter :=
  variant value "locationReference" (some 2)

/- The digit for the packaging level. -/
def indicatorDigit : Parameter :=
  .new "indicatorDigit" .string .singleton true

------------------------------------------------------------
-- Application
------------------------------------------------------------

/- Any values in rows and columns. -/
def matrix : Parameter :=
  .new "matrix" .any .matrix true

/- The time between two updates. -/
def interval : Parameter :=
  .new "interval" .number .singleton false

end Parameters

end Definitions

end HostBindings
