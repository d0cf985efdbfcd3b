import HostBindings.Workflow.Command

/-
  The program.

  It looks at the files that the command may need, executes
  the command on them, and puts the changed files back.

  Key definitions include:
    * `Program.look`
    * `Program.store`
    * `main`
-/

------------------------------------------------------------
-- Looking at the Disk
------------------------------------------------------------

namespace HostBindings

namespace Program

/- A location as an absolute path. -/
def absolute (place : Location) : String :=
  "/" ++ "/".intercalate
    (place.map fun name =>
      match name with
      | .text name => name
      | .bytes _ => "")

/- The locations on the way along a path. -/
def along (disk : Disk) (path : Path) : List Location :=
  path.steps.scanl
    (fun here step =>
      match step with
      | .up => here.dropLast
      | .enter name => here ++ [name])
    (disk.origin path)

/- Take over what is at a location. -/
def look (disk : Disk) (place : Location) : IO Disk := do
  let path := (← IO.currentDir) / absolute place
  if ← path.isDir then
    return disk.place place .directory
  else if ← path.pathExists then
    let bytes ← IO.FS.readBinFile path
    return disk.place place (.file (.ofBytes bytes.toList))
  else
    return disk

/- Take over everything on the way along a path. -/
def lookAlong (disk : Disk) (path : String) : IO Disk :=
  (along disk (.ofString path)).foldlM look disk

/- Take over everything in a directory. -/
def lookInside (disk : Disk) (path : String) : IO Disk := do
  let disk ← lookAlong disk path
  match disk.locate (.ofString path) with
  | .ok (place, .directory) =>
      let entries ←
        ((← IO.currentDir) / absolute place).readDir
      entries.toList.foldlM
        (fun disk entry =>
          look disk (place ++ [.text entry.fileName]))
        disk
  | _ => return disk

------------------------------------------------------------
-- Putting Files Back
------------------------------------------------------------

/- Put back what has changed at a location. -/
def store
    (before : Disk)
    (entry : Location × Node) : IO Unit := do
  if Keyed.find? entry.1 before.nodes ≠ some entry.2 then
    let path := (← IO.currentDir) / absolute entry.1
    match entry.2 with
    | .directory => IO.FS.createDirAll path
    | .file (.text text) => IO.FS.writeFile path text
    | .file (.bytes bytes) =>
        IO.FS.writeBinFile path ⟨bytes.toArray⟩

/- The variables that are set. -/
def environment : IO Environment :=
  Settings.variableNames.filterMapM fun name => do
    return (← IO.getEnv name).map fun value => (name, value)

/- The working directory. -/
def workingDirectory : IO Location := do
  let path := toString (← IO.currentDir)
  return (Path.ofString path).steps.filterMap fun step =>
    match step with
    | .up => none
    | .enter name => some name

/- The disk as far as a command may look at it. -/
def diskFor
    (arguments : List String)
    (environment : Environment) : IO Disk := do
  let disk ←
    lookAlong (.empty (← workingDirectory))
      Command.variablesFile
  let disk ←
    match
      Settings.ofEnvironment
        (Command.environmentOn disk environment) with
    | .ok settings => lookInside disk settings.localesDirectory
    | .error _ => pure disk
  arguments.drop 1 |>.foldlM lookAlong disk

end Program

end HostBindings

------------------------------------------------------------
-- The Program
------------------------------------------------------------

open HostBindings in
/- Execute the command line. -/
def main (arguments : List String) : IO UInt32 := do
  let environment ← Program.environment
  let disk ← Program.diskFor arguments environment
  let exit := Command.execute arguments environment disk
  for entry in exit.disk.nodes do
    Program.store disk entry
  for line in exit.log do
    IO.println line.render
  IO.eprint exit.errorText
  return exit.code.toUInt32
