import HostBindings.Elaboration.Run
import HostBindings.Excel.Emitter
import HostBindings.Locale.Collector
import HostBindings.Locale.Synchronization
import HostBindings.Workflow.Settings

/-
  Generation of the spreadsheet bindings from end to end.

  The modules are elaborated twice: first to bring the locale
  files in line with them, and then, with the translations in
  these files, to emit the bindings.

  Key definitions include:
    * `Generation.Outcome`
    * `Generation.collect`
    * `Generation.gapWarnings`
    * `Generation.bindLocalized`
    * `generate`
-/

------------------------------------------------------------
-- Outcomes
------------------------------------------------------------

namespace HostBindings

namespace Generation

/- The disk afterwards, the log, and the result. -/
structure Outcome where
  disk : Disk
  log : List LogLine
  result : Except Failure Summary

namespace Outcome

/- A failure. -/
def failed
    (disk : Disk)
    (log : List LogLine)
    (failure : Failure) : Outcome :=
  ⟨disk, log, .error failure⟩

/- Put lines in front of the log. -/
def after
    (log : List LogLine)
    (outcome : Outcome) : Outcome :=
  { outcome with log := log ++ outcome.log }

end Outcome

/- What a generation is about. -/
structure Request where
  settings : Settings
  modules : List ProxyModule
  sourcePath : String
  manifestPath : String

------------------------------------------------------------
-- Stages
------------------------------------------------------------

/- Collect the canonical tree of the modules. -/
def collect (request : Request) : Run.Report Collector :=
  run Collector.emitter none request.modules
    (Collector.new request.settings.documentationBase)

/- The warnings about what the file of a locale lacks. -/
def gapWarnings (entry : Synchronization.Entry) : List LogLine :=
  let label := "[" ++ entry.locale.code ++ "] "
  let untranslated := entry.completeness.untranslated
  entry.completeness.blank.map
    (fun path => .warn (label ++ "Empty translation: " ++ path)) ++
    (if untranslated = [] then
      []
    else
      [.warn (label ++ toString untranslated.length ++
        " entries still require localization")])

/- The lookup policy of the settings. -/
def policy (settings : Settings) : LookupPolicy :=
  if settings.strictLocalization then .strict else .bestEffort

/- The options for emitting the bindings. -/
def options
    (request : Request)
    (defaultLocale : Locale) : Excel.Options where
  sourcePath := request.sourcePath
  manifestPath := request.manifestPath
  defaultLocale := defaultLocale.code
  proxyModule := request.settings.proxyModule
  extensionClass := request.settings.extensionClass
  extensionModule := request.settings.extensionModule

/- Emit the bindings with the translations of a catalog. -/
def emitBindings
    (request : Request)
    (disk : Disk)
    (defaultLocale : Locale)
    (catalog : Catalog) : Outcome :=
  let report :=
    run (Excel.emitter (options request defaultLocale))
      (some catalog) request.modules (Excel.Workspace.new disk)
  ⟨report.state.disk, report.log,
    report.result.mapError
      (Failure.ofFault "Failed to generate Excel bindings")⟩

/- Load the translations and emit the bindings. -/
def bindLocalized
    (request : Request)
    (disk : Disk)
    (defaultLocale : Locale)
    (resources : List Resource) : Outcome :=
  match Catalog.load disk (policy request.settings) resources with
  | .error fault =>
      .failed disk []
        (.ofFault "Failed to load locale resources" fault)
  | .ok catalog =>
      emitBindings request disk defaultLocale catalog

/- Bring the locale files in line and emit the bindings. -/
def synchronizeAndBind
    (request : Request)
    (disk : Disk)
    (canonical : Json)
    (defaultLocale : Locale)
    (resources : List Resource) : Outcome :=
  let synchronized :=
    Synchronization.synchronize canonical
      request.settings.logLocaleChanges disk resources
  match synchronized.result with
  | .error fault =>
      .failed synchronized.disk synchronized.log
        (.ofFault "Failed to synchronize locale resources" fault)
  | .ok entries =>
      (bindLocalized request synchronized.disk defaultLocale
        resources).after
        (synchronized.log ++ entries.flatMap gapWarnings)

/- The warning about a directory without locale files. -/
def emptyWarning (resources : List Resource) : List LogLine :=
  if resources = [] then
    [.warn ("No locale resources found; " ++
      "functions will not be localized")]
  else
    []

/- Go on with the canonical tree of the modules. -/
def withCanonical
    (request : Request)
    (disk : Disk)
    (canonical : Json) : Outcome :=
  let settings := request.settings
  match Locale.ofCode settings.defaultLocale with
  | .error fault =>
      .failed disk []
        (.ofFault
          ("Invalid DEFAULT_LOCALE '" ++
            settings.defaultLocale ++ "'")
          fault)
  | .ok defaultLocale =>
      let (log, resources) :=
        Resource.discover disk settings.localesDirectory
      (synchronizeAndBind request disk canonical defaultLocale
        resources).after (log ++ emptyWarning resources)

end Generation

------------------------------------------------------------
-- Generation
------------------------------------------------------------

/- Generate the bindings of a request. -/
def generate
    (request : Generation.Request)
    (disk : Disk) : Generation.Outcome :=
  let collected := Generation.collect request
  let log :=
    .info ("Synchronizing locale resources in " ++
      request.settings.localesDirectory) :: collected.log
  match collected.result with
  | .error fault =>
      .failed disk log
        (.ofFault
          ("Failed to elaborate proxies for " ++
            "locale synchronization")
          fault)
  | .ok _ =>
      match collected.state.canonical with
      | none =>
          .failed disk log
            (.ofText
              ("Locale synchronization produced no " ++
                "canonical tree"))
      | some canonical =>
          (Generation.withCanonical request disk
            canonical).after log

end HostBindings
