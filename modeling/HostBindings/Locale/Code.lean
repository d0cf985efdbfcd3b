import HostBindings.Fault

/-
  Locale codes.

  A code is a language, such as `fr`, or a language and a
  region, such as `fr-CA`.  A locale without a region is a
  base locale, and every locale falls back to the base locale
  of its language.

  Key definitions include:
    * `Locale`
    * `Locale.ofCode`
    * `Locale.code`
    * `Locale.isBase`
    * `Locale.base`
    * `Locale.le`
-/

------------------------------------------------------------
-- Grammar
------------------------------------------------------------

namespace HostBindings

namespace LocaleCode

/- Two or three small letters. -/
def isLanguage (s : String) : Bool :=
  2 ≤ s.toList.length && s.toList.length ≤ 3 &&
    s.toList.all Char.isLower

/- Two to eight letters and digits. -/
def isRegion (s : String) : Bool :=
  2 ≤ s.toList.length && s.toList.length ≤ 8 &&
    s.toList.all Char.isAlphanum

end LocaleCode

------------------------------------------------------------
-- Locales
------------------------------------------------------------

/- A language with an optional region, both well formed. -/
structure Locale where
  language : String
  region : Option String
  isLanguage : LocaleCode.isLanguage language = true
  isRegion : region.all LocaleCode.isRegion = true
deriving DecidableEq

namespace Locale

/- The locale of a language and an optional region. -/
def ofParts?
    (language : String)
    (region : Option String) : Option Locale :=
  if hLanguage : LocaleCode.isLanguage language = true then
    if hRegion : region.all LocaleCode.isRegion = true then
      some ⟨language, region, hLanguage, hRegion⟩
    else
      none
  else
    none

/- Split a code at its first hyphen. -/
def splitCode (code : String) : String × Option String :=
  let cs := code.toList
  let language := String.ofList (cs.takeWhile (· != '-'))
  match cs.dropWhile (· != '-') with
  | [] => (language, none)
  | _ :: region => (language, some (String.ofList region))

/- The locale of a code. -/
def ofCode (code : String) : Except Fault Locale :=
  let parts := splitCode code
  match ofParts? parts.1 parts.2 with
  | some locale => .ok locale
  | none => .error (.invalidLocale code)

/- The code of a locale. -/
def code (locale : Locale) : String :=
  match locale.region with
  | some region => locale.language ++ "-" ++ region
  | none => locale.language

/- Whether the locale has no region. -/
def isBase (locale : Locale) : Bool :=
  locale.region.isNone

/- The locale of the language alone. -/
def base (locale : Locale) : Locale where
  language := locale.language
  region := none
  isLanguage := locale.isLanguage
  isRegion := rfl

------------------------------------------------------------
-- Order
------------------------------------------------------------

/- Regions in order; the absent one comes first. -/
def regionLe : Option String → Option String → Bool
| none, _ => true
| some _, none => false
| some r, some s => r ≤ s

/- Locales by language and then by region. -/
def le (a b : Locale) : Bool :=
  a.language < b.language ||
    (a.language == b.language && regionLe a.region b.region)

end Locale

end HostBindings
