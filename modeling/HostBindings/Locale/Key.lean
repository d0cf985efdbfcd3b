import HostBindings.Proxy.Parameter

/-
  Where translations are found in the tree of a locale.

  Key definitions include:
    * `placeholder`
    * `functionKey`
    * `parameterKey`
    * `dotted`
-/

------------------------------------------------------------
-- Words of the Tree
------------------------------------------------------------

namespace HostBindings

namespace LocaleKey

/- The section of the parameters. -/
def parameters : String :=
  "Parameters"

/- The section of the functions. -/
def functions : String :=
  "Functions"

/- The entry for a name. -/
def name : String :=
  "name"

/- The entry for a description. -/
def description : String :=
  "description"

/- The entry for the address of the documentation. -/
def documentation : String :=
  "documentationURL"

end LocaleKey

/- What stands wherever a translation is still needed. -/
def placeholder : String :=
  "*** LOCALIZATION REQUIRED ***"

------------------------------------------------------------
-- Keys
------------------------------------------------------------

/- The path of keys to the entry of a function. -/
def functionKey
    (nameSpace : Option String)
    (functionName : String) : List String :=
  [LocaleKey.functions] ++ nameSpace.toList ++ [functionName]

/- The path of keys to the entry of a parameter. -/
def parameterKey (p : Parameter) : List String :=
  LocaleKey.parameters :: p.identityPath.map Prod.fst

/- A path of keys as it is reported. -/
def dotted (path : List String) : String :=
  ".".intercalate path

end HostBindings
