import HostBindings.Keyed
import HostBindings.Text.Blank
import HostBindings.Text.Pieces
import HostBindings.Workflow.Failure

/-
  Settings of the program.

  Settings are taken from environment variables, and each has
  a value of its own if its variable is not set.

  Key definitions include:
    * `Environment`
    * `Settings`
    * `Settings.parseFlag`
    * `Settings.ofEnvironment`
-/

------------------------------------------------------------
-- Settings
------------------------------------------------------------

namespace HostBindings

/- The variables that are set. -/
abbrev Environment :=
  Keyed String String

/-
  Where the locale files are, how they are dealt with, and
  what the generated source imports.
-/
structure Settings where
  localesDirectory : String
  logLocaleChanges : Bool
  strictLocalization : Bool
  defaultLocale : String
  documentationBase : Option String
  proxyModule : String
  extensionClass : String
  extensionModule : String
deriving DecidableEq, Repr

namespace Settings

------------------------------------------------------------
-- Flags
------------------------------------------------------------

/- A text with its ASCII letters in lower case. -/
def asciiLower (s : String) : String :=
  String.ofList (s.toList.map Char.toLower)

/- The words for true. -/
def trueWords : List String :=
  ["1", "true", "yes", "on"]

/- The words for false. -/
def falseWords : List String :=
  ["0", "false", "no", "off"]

/- Read a flag, whatever its case and the space around it. -/
def parseFlag (text : String) : Except String Bool :=
  let word := asciiLower (Text.trim text)
  if word ∈ trueWords then
    .ok true
  else if word ∈ falseWords then
    .ok false
  else
    .error ("Invalid boolean value: '" ++ word ++ "'")

/- The flag in a variable, or a default if it is not set. -/
def flag
    (environment : Environment)
    (name : String)
    (default : Bool) : Except Failure Bool :=
  match Keyed.find? name environment with
  | none => .ok default
  | some text =>
      match parseFlag text with
      | .ok value => .ok value
      | .error message =>
          .error ⟨[name ++ " is not a boolean"], .other message⟩

------------------------------------------------------------
-- Environment
------------------------------------------------------------

/- The text in a variable, or a default if it is not set. -/
def text
    (environment : Environment)
    (name default : String) : String :=
  (Keyed.find? name environment).getD default

/- The text in a variable, unless it is blank. -/
def textIfAny
    (environment : Environment)
    (name : String) : Option String :=
  (Keyed.find? name environment).filter (!Text.isBlank ·)

/- The names of the variables that are looked at. -/
def variableNames : List String :=
  ["LOCALES_DIR", "LOG_LOCALE_CHANGES",
    "STRICT_LOCALIZATION", "DEFAULT_LOCALE",
    "DOCUMENTATION_BASE_URL", "PROXY_MODULE",
    "APP_EXTENSION_CLASS", "APP_EXTENSION_MODULE"]

/- The settings in an environment. -/
def ofEnvironment
    (environment : Environment) : Except Failure Settings := do
  let logChanges ← flag environment "LOG_LOCALE_CHANGES" true
  let strict ← flag environment "STRICT_LOCALIZATION" false
  return {
    localesDirectory :=
      text environment "LOCALES_DIR" "resources/locale"
    logLocaleChanges := logChanges
    strictLocalization := strict
    defaultLocale := text environment "DEFAULT_LOCALE" "en"
    documentationBase :=
      textIfAny environment "DOCUMENTATION_BASE_URL"
    proxyModule := text environment "PROXY_MODULE" "./proxies"
    extensionClass :=
      text environment "APP_EXTENSION_CLASS"
        "ExcelAppExtension"
    extensionModule :=
      text environment "APP_EXTENSION_MODULE"
        "./excel-app-extension" }

------------------------------------------------------------
-- Files of Variables
------------------------------------------------------------

/- Split a line at its first equals sign. -/
def assignment?
    (line : List Char) : Option (String × String) :=
  match line.dropWhile (· != '=') with
  | [] => none
  | _ :: value =>
      let name := line.takeWhile (· != '=')
      if name.head? = some '#' then
        none
      else
        some (Text.trim (String.ofList name),
          Text.trim (String.ofList value))

/-
  Take over the variables in a file; those that are set
  already keep their values.
-/
def addVariables
    (environment : Environment)
    (text : String) : Environment :=
  ((Text.pieces (· == '\n') text.toList).filterMap
    assignment?).foldl
      (fun environment entry =>
        Keyed.putIfNew entry.1 entry.2 environment)
      environment

end Settings

end HostBindings
