import HostBindings.Disk.Store
import HostBindings.Excel.Bindings
import HostBindings.Json.Printer

/-
  The emitter of spreadsheet bindings.

  It gathers bindings over a run and writes the source and
  the manifest at its end, unless the run has failed.

  Key definitions include:
    * `Excel.Workspace`
    * `Excel.Workspace.writeOutputs`
    * `Excel.respond`
    * `Excel.emitter`
-/

------------------------------------------------------------
-- Workspaces
------------------------------------------------------------

namespace HostBindings

namespace Excel

/- The bindings so far and the disk they are written to. -/
structure Workspace where
  bindings : Bindings
  disk : Disk
deriving DecidableEq, Repr

namespace Workspace

/- A workspace without bindings. -/
def new (disk : Disk) : Workspace :=
  ⟨.empty, disk⟩

/- The line of the log for outputs that have been written. -/
def wrote (options : Options) (count : Nat) : LogLine :=
  .info ("Wrote " ++ options.sourcePath ++ " and " ++
    options.manifestPath ++ " (" ++ toString count ++
    " functions)")

/- Write a text to a path. -/
def writeText
    (workspace : Workspace)
    (path text : String) : Workspace × Except Fault Unit :=
  match workspace.disk.write (.ofString path) (.text text) with
  | (disk, .ok ()) => ({ workspace with disk := disk }, .ok ())
  | (disk, .error fault) =>
      ({ workspace with disk := disk }, .error (.file fault))

/- Write the source and then the manifest. -/
def writeOutputs
    (workspace : Workspace)
    (options : Options) : Response Workspace :=
  let bindings := workspace.bindings
  match
    workspace.writeText options.sourcePath
      (bindings.sourceText options) with
  | (workspace, .error fault) => .error workspace fault
  | (workspace, .ok ()) =>
      match
        workspace.writeText options.manifestPath
          (Json.fileText bindings.manifest) with
      | (workspace, .error fault) => .error workspace fault
      | (workspace, .ok ()) =>
          ⟨workspace,
            [wrote options bindings.entries.length], .ok ()⟩

end Workspace

------------------------------------------------------------
-- The Emitter
------------------------------------------------------------

/- The texts for the manifest, and whether they are missing. -/
def localized
    (options : Options)
    (function : ProxyFunction) :
    List LogLine × Option FunctionLocalization :=
  match
    Keyed.find? options.defaultLocale
      function.localizations with
  | some localization => ([], some localization)
  | none =>
      if function.localizations = [] then
        ([], none)
      else
        ([.warn (function.qualifiedName ++ " has no " ++
          options.defaultLocale ++ " localization")], none)

/- Add a function to the bindings unless it is hidden. -/
def emitFunction
    (options : Options)
    (workspace : Workspace)
    (proxyClass : ProxyClass)
    (method : Method)
    (function : ProxyFunction) : Response Workspace :=
  if method.isHidden then
    .ok workspace
  else
    let (log, localization) := localized options function
    match
      workspace.bindings.addFunction proxyClass method
        function localization with
    | .error fault => .error workspace fault
    | .ok bindings =>
        ⟨{ workspace with bindings := bindings }, log, .ok ()⟩

/- What a call leads to. -/
def respond
    (options : Options)
    (workspace : Workspace) : Call → Response Workspace
| .prepare => .ok { workspace with bindings := .empty }
| .object proxyClass =>
    match workspace.bindings.addObject proxyClass with
    | .error fault => .error workspace fault
    | .ok bindings => .ok { workspace with bindings := bindings }
| .function proxyClass method function =>
    emitFunction options workspace proxyClass method function
| .finish success =>
    if success then
      workspace.writeOutputs options
    else
      ⟨workspace,
        [.warn "Generation failed; Excel outputs not written"],
        .ok ()⟩

/- The emitter with the given options. -/
def emitter (options : Options) : Emitter Workspace :=
  ⟨respond options⟩

end Excel

end HostBindings
