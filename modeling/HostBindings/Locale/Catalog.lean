import HostBindings.Json.Value
import HostBindings.Locale.Code
import HostBindings.Locale.Key
import HostBindings.Log

/-
  Catalogs of translations.

  A catalog holds the trees of some locales in the order of
  the locales.  A text is looked up in the tree of its locale
  and then in that of the base locale; a placeholder counts
  as no text.  The policy says what becomes of a text that is
  found in neither.

  Key definitions include:
    * `LookupPolicy`
    * `FunctionLocalization`
    * `Localizations`
    * `Catalog`
    * `Catalog.insert`
    * `Catalog.find?`
    * `Catalog.lookup`
    * `Catalog.localize`
-/

------------------------------------------------------------
-- Translations
------------------------------------------------------------

namespace HostBindings

/- Whether a missing text is a fault or gets a placeholder. -/
inductive LookupPolicy where
| strict
| bestEffort
deriving DecidableEq, Repr

/- The translated name and description of a parameter. -/
structure Translation where
  name : String
  description : String
deriving DecidableEq, Repr

/- All texts about a function in one locale. -/
structure FunctionLocalization where
  name : String
  description : String
  documentation : Option String
  parameters : List Translation
deriving DecidableEq, Repr

/- The texts about a function, by the code of the locale. -/
abbrev Localizations :=
  Keyed String FunctionLocalization

/- The trees of the loaded locales, in ascending order. -/
structure Catalog where
  policy : LookupPolicy
  trees : List (Locale × Json)

namespace Catalog

------------------------------------------------------------
-- Contents
------------------------------------------------------------

/- A catalog without locales. -/
def empty (policy : LookupPolicy) : Catalog :=
  ⟨policy, []⟩

/- Put a tree in its place, instead of the one there. -/
def insertTree
    (locale : Locale)
    (tree : Json) :
    List (Locale × Json) → List (Locale × Json)
| [] => [(locale, tree)]
| entry :: rest =>
    if entry.1 = locale then
      (locale, tree) :: rest
    else if locale.le entry.1 then
      (locale, tree) :: entry :: rest
    else
      entry :: insertTree locale tree rest

/- Load the tree of a locale. -/
def insert
    (catalog : Catalog)
    (locale : Locale)
    (tree : Json) : Catalog :=
  { catalog with
    trees := insertTree locale tree catalog.trees }

/- The loaded locales in ascending order. -/
def locales (catalog : Catalog) : List Locale :=
  catalog.trees.map Prod.fst

------------------------------------------------------------
-- Looking Up
------------------------------------------------------------

/- The text in the tree of one locale, if it is translated. -/
def own?
    (catalog : Catalog)
    (locale : Locale)
    (key : List String) : Option String :=
  match Keyed.find? locale catalog.trees with
  | none => none
  | some tree =>
      match tree.textAt? key with
      | none => none
      | some text =>
          if text = placeholder then none else some text

/- The text in a locale or else in its base locale. -/
def find?
    (catalog : Catalog)
    (locale : Locale)
    (key : List String) : Option String :=
  match catalog.own? locale key with
  | some text => some text
  | none =>
      if locale.isBase then
        none
      else
        catalog.own? locale.base key

/- Look up a text as the policy says. -/
def lookup
    (catalog : Catalog)
    (locale : Locale)
    (key : List String) : Except Fault String :=
  match catalog.find? locale key with
  | some text => .ok text
  | none =>
      match catalog.policy with
      | .strict =>
          .error (.missingLocalization locale.code (dotted key))
      | .bestEffort => .ok placeholder

------------------------------------------------------------
-- Localizing Functions
------------------------------------------------------------

/- The name and the description at a key. -/
def translation
    (catalog : Catalog)
    (locale : Locale)
    (key : List String) : Except Fault Translation := do
  let name ← catalog.lookup locale (key ++ [LocaleKey.name])
  let description ←
    catalog.lookup locale (key ++ [LocaleKey.description])
  return ⟨name, description⟩

/-
  The texts about a function in one locale.  Parameters are
  looked up before the function itself.
-/
def localizeIn
    (catalog : Catalog)
    (nameSpace : Option String)
    (functionName : String)
    (parameters : List Parameter)
    (locale : Locale) :
    Except Fault FunctionLocalization := do
  let key := functionKey nameSpace functionName
  let translations ←
    parameters.mapM fun p =>
      catalog.translation locale (parameterKey p)
  let own ← catalog.translation locale key
  return {
    name := own.name
    description := own.description
    documentation :=
      catalog.find? locale (key ++ [LocaleKey.documentation])
    parameters := translations }

/- The texts about a function in every loaded locale. -/
def localize
    (catalog : Catalog)
    (nameSpace : Option String)
    (functionName : String)
    (parameters : List Parameter) :
    Except Fault Localizations :=
  catalog.locales.mapM fun locale => do
    let localization ←
      catalog.localizeIn nameSpace functionName parameters
        locale
    return (locale.code, localization)

/- The warnings about locales without a name. -/
def warnings
    (functionName : String)
    (localizations : Localizations) : List LogLine :=
  localizations.filterMap fun entry =>
    if entry.2.name = placeholder then
      some (.warn ("Function " ++ functionName ++
        " is not localized for " ++ entry.1))
    else
      none

end Catalog

end HostBindings
