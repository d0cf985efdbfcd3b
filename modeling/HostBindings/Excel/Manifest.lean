import HostBindings.Elaboration.Emitter
import HostBindings.Json.Value
import HostBindings.Text.Case

/-
  The manifest of custom functions.

  The manifest tells the spreadsheet about every function:
  its id, its localized texts, its parameters and its result.

  Key definitions include:
    * `Excel.typeName`
    * `Excel.dimensionality`
    * `Excel.ParameterEntry`
    * `Excel.FunctionEntry`
    * `Excel.functionEntry`
    * `Excel.manifestJson`
-/

------------------------------------------------------------
-- Types
------------------------------------------------------------

namespace HostBindings

namespace Excel

/- The name of a type in the manifest. -/
def typeName : ValueType → String
| .string => "string"
| .number => "number"
| .boolean => "boolean"
| .any => "any"

/- The name of a shape in the manifest. -/
def dimensionality : Multiplicity → String
| .singleton => "scalar"
| .array => "matrix"
| .matrix => "matrix"

------------------------------------------------------------
-- Entries
------------------------------------------------------------

/- The entry of a parameter. -/
structure ParameterEntry where
  name : String
  description : Option String
  valueType : ValueType
  multiplicity : Multiplicity
  isOptional : Bool
deriving DecidableEq, Repr

/- The entry of a function. -/
structure FunctionEntry where
  id : String
  name : String
  description : Option String
  helpUrl : Option String
  parameters : List ParameterEntry
  valueType : ValueType
  multiplicity : Multiplicity
  needsContext : Bool
  isStream : Bool
deriving DecidableEq, Repr

/- A translated text, or another one instead of none. -/
def translatedOr (text : Option String) (other : String) : String :=
  match text with
  | none => other
  | some text => if text = placeholder then other else text

/- The id of a function. -/
def functionId (function : ProxyFunction) : String :=
  Text.upper function.qualifiedName

/- The entry of a parameter, with its texts if there are any. -/
def parameterEntry
    (p : Parameter)
    (localized : Option Translation) : ParameterEntry :=
  let effective := p.effective
  { name :=
      translatedOr (localized.map (·.name)) effective.name
    description := localized.map (·.description)
    valueType := effective.valueType
    multiplicity := effective.multiplicity
    isOptional := !effective.isRequired }

/-
  The entries of parameters, with texts as long as there are
  any.
-/
def parameterEntries :
    List Parameter → List Translation → List ParameterEntry
| [], _ => []
| p :: rest, [] =>
    parameterEntry p none :: parameterEntries rest []
| p :: rest, t :: more =>
    parameterEntry p (some t) :: parameterEntries rest more

/- The entry of a function, with its texts if there are any. -/
def functionEntry
    (method : Method)
    (function : ProxyFunction)
    (localized : Option FunctionLocalization) :
    FunctionEntry where
  id := functionId function
  name :=
    Text.upper
      (translatedOr (localized.map (·.name)) function.name)
  description := localized.map (·.description)
  helpUrl := localized.bind (·.documentation)
  parameters :=
    parameterEntries method.parameters
      ((localized.map (·.parameters)).getD [])
  valueType := method.valueType
  multiplicity := method.multiplicity
  needsContext := method.needsContext
  isStream := method.isStream

------------------------------------------------------------
-- Entries as Values
------------------------------------------------------------

/- A member that is there only with a text. -/
def optionalMember
    (key : String)
    (text : Option String) : List (String × Json) :=
  text.toList.map fun text => (key, .string text)

/- A member that is there only if it is true. -/
def flagMember
    (key : String)
    (flag : Bool) : List (String × Json) :=
  if flag then [(key, .bool true)] else []

/- The members for a type and a shape. -/
def typeMembers
    (valueType : ValueType)
    (multiplicity : Multiplicity) : List (String × Json) :=
  [("type", .string (typeName valueType)),
    ("dimensionality", .string (dimensionality multiplicity))]

namespace ParameterEntry

/- The entry as a value. -/
def toJson (entry : ParameterEntry) : Json :=
  .object
    ([("name", .string entry.name)] ++
      optionalMember "description" entry.description ++
      typeMembers entry.valueType entry.multiplicity ++
      [("optional", .bool entry.isOptional)])

end ParameterEntry

namespace FunctionEntry

/- The member for the options, if any of them is set. -/
def options (entry : FunctionEntry) : List (String × Json) :=
  match
    flagMember "requiresAddress" entry.needsContext ++
      flagMember "stream" entry.isStream ++
      flagMember "cancelable" entry.isStream with
  | [] => []
  | flags => [("options", .object flags)]

/- The entry as a value. -/
def toJson (entry : FunctionEntry) : Json :=
  .object
    ([("id", .string entry.id),
      ("name", .string entry.name)] ++
      optionalMember "description" entry.description ++
      optionalMember "helpUrl" entry.helpUrl ++
      [("parameters",
        .array (entry.parameters.map ParameterEntry.toJson)),
      ("result",
        .object
          (typeMembers entry.valueType entry.multiplicity))] ++
      entry.options)

end FunctionEntry

/- The manifest of functions as a value. -/
def manifestJson (entries : List FunctionEntry) : Json :=
  .object
    [("functions",
      .array (entries.map FunctionEntry.toJson))]

end Excel

end HostBindings
