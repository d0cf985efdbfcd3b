import HostBindings.Disk.Store
import HostBindings.Json.Value
import HostBindings.Text.Quoted

/-
  What can go wrong, and how it is worded.

  Most faults are defects of the proxy definitions.  The
  others concern locale files and their contents.

  Key definitions include:
    * `Fault`
    * `Fault.message`
    * `Fault.isAuthoringDefect`
-/

------------------------------------------------------------
-- Faults
------------------------------------------------------------

namespace HostBindings

/- The causes of failure. -/
inductive Fault where
| missingDescriptor
    (className methodName : String)
    (index : Nat)
| orderingViolation
    (className methodName parameter predecessor : String)
| duplicateParameter
    (className methodName parameter : String)
| danglingParameters
    (moduleName : String)
    (count : Nat)
| invalidClassName (className : String)
| anchorNotFound (methodName anchor : String)
| duplicateFunction (functionName : String)
| unknownClass (className : String)
| unknownBaseClass (className baseName : String)
| hierarchyCycle (className : String)
| reservedParameter (parameter : String)
| schemaMismatch
    (path : String)
    (source destination : Json.Kind)
| missingLocalization (locale key : String)
| invalidLocale (code : String)
| file (fault : FileFault)
| malformedJson
deriving DecidableEq, Repr

namespace Fault

/- A method within its class. -/
def methodText (className methodName : String) : String :=
  className ++ "." ++ methodName

/- The wording of a fault. -/
def message : Fault → String
| .missingDescriptor className methodName index =>
    "parameter descriptor missing at index " ++
      toString index ++ " of method " ++
      methodText className methodName
| .orderingViolation className methodName parameter
    predecessor =>
    "required parameter " ++ parameter ++
      " follows optional parameter " ++ predecessor ++
      " in method " ++ methodText className methodName
| .duplicateParameter className methodName parameter =>
    "duplicate parameter " ++ parameter ++ " in method " ++
      methodText className methodName
| .danglingParameters moduleName count =>
    "module " ++ moduleName ++ " registered " ++
      toString count ++ " parameter(s) without a method"
| .invalidClassName className =>
    "invalid class name " ++ Text.quoted className
| .anchorNotFound methodName anchor =>
    "infix anchor " ++ Text.quoted anchor ++
      " not found in method name " ++ methodName
| .duplicateFunction functionName =>
    "duplicate function name " ++ functionName
| .unknownClass className =>
    "class " ++ className ++ " has not been declared"
| .unknownBaseClass className baseName =>
    "base class " ++ baseName ++ " of " ++ className ++
      " has not been declared"
| .hierarchyCycle className =>
    "class hierarchy of " ++ className ++ " is cyclic"
| .reservedParameter parameter =>
    "parameter variant name " ++ Text.quoted parameter ++
      " collides with a reserved localization key"
| .schemaMismatch path source destination =>
    "schema mismatch at " ++ path ++ ": source is " ++
      source.name ++ ", destination is " ++ destination.name
| .missingLocalization locale key =>
    "missing localization " ++ key ++ " for locale " ++ locale
| .invalidLocale code =>
    "invalid locale code " ++ Text.quoted code
| .file fault => fault.message
| .malformedJson => "malformed JSON text"

/- Whether the proxy definitions themselves are at fault. -/
def isAuthoringDefect : Fault → Bool
| .schemaMismatch _ _ _ => false
| .missingLocalization _ _ => false
| .invalidLocale _ => false
| .file _ => false
| .malformedJson => false
| _ => true

end Fault

end HostBindings
