import HostBindings.Excel.Manifest

/-
  TypeScript wrappers of proxy methods.

  A wrapper is a function that calls a method on the object
  of its class within an error handler, together with its
  association to the id of the custom function.

  Key definitions include:
    * `Excel.TypedName`
    * `Excel.Wrapper`
    * `Excel.wrapper`
    * `Excel.Wrapper.render`
-/

------------------------------------------------------------
-- Typed Names
------------------------------------------------------------

namespace HostBindings

namespace Excel

/- The TypeScript type of a value. -/
def scriptType
    (valueType : ValueType)
    (multiplicity : Multiplicity) : String :=
  let scalar :=
    match valueType with
    | .string => "string"
    | .number => "number"
    | .boolean => "boolean"
    | .any => "unknown"
  match multiplicity with
  | .singleton => scalar
  | .array => scalar ++ "[][]"
  | .matrix => scalar ++ "[][]"

/-
  How a parameter is written: it must be given, it can be
  left out, or it can be given as undefined.
-/
inductive Presence where
| required
| omittable
| maybeUndefined
deriving DecidableEq, Repr

/- A parameter with its type. -/
structure TypedName where
  name : String
  typeText : String
  presence : Presence
deriving DecidableEq, Repr

namespace TypedName

/- The text of a parameter. -/
def render (p : TypedName) : String :=
  match p.presence with
  | .required => p.name ++ ": " ++ p.typeText
  | .omittable => p.name ++ "?: " ++ p.typeText
  | .maybeUndefined =>
      p.name ++ ": " ++ p.typeText ++ " | undefined"

end TypedName

------------------------------------------------------------
-- Wrappers
------------------------------------------------------------

/- How a wrapped method is run. -/
inductive Style where
| plain
| async
| stream
deriving DecidableEq, Repr

/- Everything that the text of a wrapper shows. -/
structure Wrapper where
  identifier : String
  id : String
  object : String
  methodName : String
  parameters : List TypedName
  arguments : List String
  resultType : String
  style : Style
deriving DecidableEq, Repr

/- The name of the parameter for the context of a call. -/
def invocation : String :=
  "invocation"

/- The TypeScript name of a function. -/
def functionIdentifier (function : ProxyFunction) : String :=
  match function.nameSpace with
  | some nameSpace =>
      Text.lower nameSpace ++ "_" ++ function.name
  | none => function.name

/- How a method is run. -/
def methodStyle (method : Method) : Style :=
  if method.isStream then .stream
  else if method.isAsync then .async
  else .plain

/- Whether the context of a call is among the parameters. -/
def takesInvocation (method : Method) : Bool :=
  method.isStream || method.needsContext

/-
  A parameter of a wrapper.  One that is followed by the
  context of the call cannot be left out.
-/
def typedName
    (followed : Bool)
    (p : Parameter) : TypedName :=
  let effective := p.effective
  { name := effective.name
    typeText :=
      scriptType effective.valueType effective.multiplicity
    presence :=
      if effective.isRequired then .required
      else if followed then .maybeUndefined
      else .omittable }

/- The parameter for the context of a call, if there is one. -/
def invocationParameter
    (method : Method)
    (resultType : String) : List TypedName :=
  if method.isStream then
    [⟨invocation,
      "CustomFunctions.StreamingInvocation<" ++
        resultType ++ ">",
      .required⟩]
  else if method.needsContext then
    [⟨invocation, "CustomFunctions.Invocation", .required⟩]
  else
    []

/- The wrapper of a method as a function. -/
def wrapper
    (object : String)
    (method : Method)
    (function : ProxyFunction) : Wrapper :=
  let resultType :=
    scriptType method.valueType method.multiplicity
  { identifier := functionIdentifier function
    id := functionId function
    object := object
    methodName := method.name
    parameters :=
      method.parameters.map
        (typedName (takesInvocation method)) ++
        invocationParameter method resultType
    arguments :=
      method.parameters.map Parameter.name ++
        (if method.needsContext then [invocation] else [])
    resultType := resultType
    style := methodStyle method }

------------------------------------------------------------
-- Text
------------------------------------------------------------

/- Texts with commas between them. -/
def commas (texts : List String) : String :=
  ", ".intercalate texts

namespace Wrapper

/- The call of the method on its object. -/
def methodCall (w : Wrapper) : String :=
  w.object ++ "." ++ w.methodName ++ "(" ++
    commas w.arguments ++ ")"

/- The return type of the wrapper. -/
def returnType (w : Wrapper) : String :=
  match w.style with
  | .plain => w.resultType
  | .async => "Promise<" ++ w.resultType ++ ">"
  | .stream => "void"

/- The statement in the body of the wrapper. -/
def statement (w : Wrapper) : String :=
  match w.style with
  | .plain =>
      "return appExtension.wrap(() => " ++ w.methodCall ++ ");"
  | .async =>
      "return appExtension.wrapAsync(() => " ++
        w.methodCall ++ ");"
  | .stream =>
      "appExtension.wrapStream(invocation, () => " ++
        w.methodCall ++ ");"

/- The first line of the wrapper. -/
def header (w : Wrapper) : String :=
  "function " ++ w.identifier ++ "(" ++
    commas (w.parameters.map TypedName.render) ++ "): " ++
    w.returnType ++ " \x7b\n"

/- The association of the wrapper to its id. -/
def association (w : Wrapper) : String :=
  "CustomFunctions.associate(\"" ++ w.id ++ "\", " ++
    w.identifier ++ ");\n\n"

/- The text of the wrapper. -/
def render (w : Wrapper) : String :=
  w.header ++ "    " ++ w.statement ++ "\n\x7d\n" ++
    w.association

end Wrapper

end Excel

end HostBindings
