import HostBindings.Definitions.Modules
import HostBindings.Workflow.Generation

/-
  The command line.

  Key definitions include:
    * `Command`
    * `Command.parse`
    * `Command.Exit`
    * `Command.execute`
-/

------------------------------------------------------------
-- Commands
------------------------------------------------------------

namespace HostBindings

/- What the bindings are generated for. -/
inductive Platform where
| microsoft
| google
deriving DecidableEq, Repr

/- A platform and the paths of the outputs. -/
structure Command where
  platform : Platform
  sourcePath : String
  manifestPath : String
deriving DecidableEq, Repr

namespace Platform

/- The word for a platform. -/
def name : Platform → String
| .microsoft => "microsoft"
| .google => "google"

/- The platform for a word. -/
def ofName? (word : String) : Option Platform :=
  if word = name .microsoft then
    some .microsoft
  else if word = name .google then
    some .google
  else
    none

end Platform

namespace Command

/- How the command is used. -/
def usage : String :=
  "Usage: generate microsoft <sourceFileName> " ++
    "<configFileName>\n" ++
    "       generate google <sourceFileName> " ++
    "<configFileName>"

/- The command for arguments. -/
def parse (arguments : List String) : Except Failure Command :=
  match arguments with
  | [word, sourcePath, manifestPath] =>
      match Platform.ofName? word with
      | some platform =>
          .ok ⟨platform, sourcePath, manifestPath⟩
      | none =>
          .error (.ofText
            ("Unknown platform '" ++ word ++ "'\n" ++ usage))
  | _ =>
      .error (.ofText
        ("Expected 3 arguments, got " ++
          toString arguments.length ++ "\n" ++ usage))

------------------------------------------------------------
-- Execution
------------------------------------------------------------

/- How the program ends. -/
structure Exit where
  code : Nat
  errorText : String
  log : List LogLine
  disk : Disk

namespace Exit

/- The end after a failure. -/
def failed
    (disk : Disk)
    (log : List LogLine)
    (failure : Failure) : Exit where
  code := 1
  errorText := "Error: " ++ failure.render ++ "\n"
  log := log
  disk := disk

end Exit

/- The file of variables in the working directory. -/
def variablesFile : String :=
  ".env"

/- The environment with the variables of the file. -/
def environmentOn
    (disk : Disk)
    (environment : Environment) : Environment :=
  match disk.readText (.ofString variablesFile) with
  | .ok text => Settings.addVariables environment text
  | .error _ => environment

/- The line of the log for a command that went well. -/
def completed (summary : Summary) : LogLine :=
  .info ("Generated " ++ toString summary.functions ++
    " functions for " ++ toString summary.classes ++ " classes")

/- Generate the bindings of the modules that are there. -/
def generateBindings
    (settings : Settings)
    (command : Command)
    (disk : Disk) : Exit :=
  let outcome :=
    generate
      { settings := settings
        modules := Definitions.modules
        sourcePath := command.sourcePath
        manifestPath := command.manifestPath }
      disk
  let log := .info "Generating Excel bindings" :: outcome.log
  match outcome.result with
  | .ok summary =>
      ⟨0, "", log ++ [completed summary], outcome.disk⟩
  | .error failure => .failed outcome.disk log failure

/- Execute a command line. -/
def execute
    (arguments : List String)
    (environment : Environment)
    (disk : Disk) : Exit :=
  match parse arguments with
  | .error failure => ⟨2, failure.render ++ "\n", [], disk⟩
  | .ok command =>
      match
        Settings.ofEnvironment
          (environmentOn disk environment) with
      | .error failure => .failed disk [] failure
      | .ok settings =>
          match command.platform with
          | .microsoft => generateBindings settings command disk
          | .google =>
              .failed disk []
                (.ofText
                  "Google Sheets generation is not implemented")

end Command

end HostBindings
