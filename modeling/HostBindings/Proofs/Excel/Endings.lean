import HostBindings.Proofs.Disk.Kept
import HostBindings.Proofs.Elaboration.Protocol
import HostBindings.Proofs.Excel.Calls

/-
  How runs for bindings end.

  A run that has met a fault is told so and leaves the disk as
  it is.  Any other run reaches its outputs and ends as it
  goes with writing them.  Whatever comes of this, no file is
  changed but the two outputs.

  Main declarations:
    * `Excel.outputFiles`
    * `Excel.keepsFiles_writeOutputs`
    * `Excel.ReachesOutputs`
    * `Excel.reachesOutputs_of_reported`
    * `Excel.keepsFiles_run`
    * `Excel.disk_of_run_error`
-/

------------------------------------------------------------
-- Writing the Outputs
------------------------------------------------------------

namespace HostBindings

namespace Excel

/- The places where the paths of the two outputs end. -/
def outputFiles
    (sourcePath manifestPath : String)
    (disk : Disk) : List Location :=
  [disk.placeOf (.ofString sourcePath),
    disk.placeOf (.ofString manifestPath)]

/- Like all places of paths, they depend on the home alone. -/
theorem outputFiles_eq
    {disk after : Disk}
    (hHome : after.home = disk.home)
    (sourcePath manifestPath : String) :
    outputFiles sourcePath manifestPath after =
      outputFiles sourcePath manifestPath disk := by
  unfold outputFiles
  rw [Disk.placeOf_eq hHome, Disk.placeOf_eq hHome]

/- A text changes no file but its own. -/
theorem keepsFiles_writeText
    (workspace : Workspace)
    (path text : String) :
    Disk.KeepsFiles
      (· = workspace.disk.placeOf (.ofString path))
      workspace.disk
      (workspace.writeText path text).1.disk := by
  rw [disk_writeText]
  exact
    Disk.keepsFiles_write workspace.disk (.ofString path)
      (.text text)

/- The outputs change no files but theirs, even in vain. -/
theorem keepsFiles_writeOutputs
    (options : Options)
    (workspace : Workspace) :
    Disk.KeepsFiles
      (· ∈ outputFiles options.sourcePath
        options.manifestPath workspace.disk)
      workspace.disk
      (workspace.writeOutputs options).state.disk := by
  have hSource :
      Disk.KeepsFiles
        (· ∈ outputFiles options.sourcePath
          options.manifestPath workspace.disk)
        workspace.disk
        (workspace.writeText options.sourcePath
          (workspace.bindings.sourceText options)).1.disk :=
    (keepsFiles_writeText workspace _ _).of_mem
      (by simp [outputFiles])
  simp only [Workspace.writeOutputs]
  cases hFirst :
      workspace.writeText options.sourcePath
        (workspace.bindings.sourceText options) with
  | mk first result =>
      rw [hFirst] at hSource
      cases result with
      | error fault => exact hSource
      | ok =>
          have hManifest :=
            keepsFiles_writeText first options.manifestPath
              (Json.fileText workspace.bindings.manifest)
          rw [Disk.placeOf_eq hSource.home] at hManifest
          have hBoth :=
            hSource.trans
              (hManifest.of_mem (by simp [outputFiles]))
          simp only
          cases hSecond :
              first.writeText options.manifestPath
                (Json.fileText workspace.bindings.manifest)
            with
          | mk second result =>
              rw [hSecond] at hBoth
              cases result <;> exact hBoth

/- Only the disk can keep the outputs from being written. -/
theorem exists_of_writeOutputs_error
    {options : Options}
    {workspace : Workspace}
    {fault : Fault}
    (hError :
      (workspace.writeOutputs options).result =
        .error fault) :
    ∃ cause, fault = .file cause := by
  simp only [Workspace.writeOutputs, writeText_eq] at hError
  rcases hSource :
      workspace.disk.write (.ofString options.sourcePath)
        (.text (workspace.bindings.sourceText options)) with
    ⟨between, cause | ⟨⟩⟩
  · simp only [hSource, Except.mapError, Response.error,
      Except.error.injEq] at hError
    exact ⟨cause, hError.symm⟩
  · simp only [hSource, Except.mapError] at hError
    rcases hManifest :
        between.write (.ofString options.manifestPath)
          (.text (Json.fileText workspace.bindings.manifest))
      with ⟨final, cause | ⟨⟩⟩
    · simp only [hManifest, Response.error,
        Except.error.injEq] at hError
      exact ⟨cause, hError.symm⟩
    · simp [hManifest] at hError

------------------------------------------------------------
-- Ends of Runs
------------------------------------------------------------

/-
  A run is told its good end.  If the outputs can be written
  then, its result is a given summary.
-/
def ReachesOutputs
    (options : Options)
    (disk : Disk)
    (summary : Summary)
    (report : Run.Report Workspace) : Prop :=
  (∃ calls, report.calls = calls ++ [.finish true]) ∧
    report.result =
      (Workspace.writeOutputs ⟨report.state.bindings, disk⟩
        options).result.map fun _ => summary

variable {options : Options}
variable {catalog : Option Catalog}
variable {modules : List ProxyModule}
variable {workspace : Workspace}
variable {made : List Run.Stage}
variable {events : List Event}
variable {result : Except Fault Unit}
variable {report : Run.Report Workspace}

/- Up to the end of a run there are bindings, and no writes. -/
theorem replay_of_reported
    (hMade :
      List.Forall₂ (Run.Stage.IsMadeBy catalog) made events)
    (hReported :
      Run.Reported (emitter options) modules workspace events
        result report) :
    (emitter options).replay workspace
        (.call .prepare :: events) =
      ⟨report.state.bindings, workspace.disk⟩ := by
  have hDisk :
      ((emitter options).replay workspace
        (.call .prepare :: events)).disk = workspace.disk :=
    disk_replay fun _ hMem => Run.ne_finish_of_mem hMade hMem
  rw [hReported.lastState, bindings_finish, ← hDisk]

/- A run that has met a fault leaves the disk as it is. -/
theorem disk_of_reported_error
    {fault : Fault}
    (hMade :
      List.Forall₂ (Run.Stage.IsMadeBy catalog) made events)
    (hReported :
      Run.Reported (emitter options) modules workspace events
        (.error fault) report) :
    report.state.disk = workspace.disk := by
  rw [hReported.lastState, replay_of_reported hMade hReported]
  rfl

/- A run that is completed reaches its outputs. -/
theorem reachesOutputs_of_reported
    (hMade :
      List.Forall₂ (Run.Stage.IsMadeBy catalog) made events)
    (hReported :
      Run.Reported (emitter options) modules workspace events
        (.ok ()) report) :
    ReachesOutputs options workspace.disk
        (Run.tally (Run.idealStages modules)) report ∧
      report.state.disk =
        (Workspace.writeOutputs
          ⟨report.state.bindings, workspace.disk⟩
          options).state.disk := by
  have hReplay := replay_of_reported hMade hReported
  refine
    ⟨⟨⟨.prepare :: events.filterMap Event.call?,
      hReported.calls⟩, ?_⟩, ?_⟩
  · rw [hReported.outcome, hReplay, answer_finish]
  · have hLast := hReported.lastState
    change
      report.state =
        (emitter options).advance _
          (.call (.finish true)) at hLast
    rw [hReplay, advance_finish] at hLast
    exact congrArg Workspace.disk hLast

/- However a run ends, it changes no file but its outputs. -/
theorem keepsFiles_of_reported
    (hMade :
      List.Forall₂ (Run.Stage.IsMadeBy catalog) made events)
    (hReported :
      Run.Reported (emitter options) modules workspace events
        result report) :
    Disk.KeepsFiles
      (· ∈ outputFiles options.sourcePath
        options.manifestPath workspace.disk)
      workspace.disk report.state.disk := by
  cases result with
  | error fault =>
      rw [disk_of_reported_error hMade hReported]
      exact .refl _ _
  | ok =>
      have hKeeps :=
        keepsFiles_writeOutputs options
          ⟨report.state.bindings, workspace.disk⟩
      rw [← (reachesOutputs_of_reported hMade
        hReported).2] at hKeeps
      exact hKeeps

/- This is so for all modules and any catalog. -/
theorem keepsFiles_run
    (options : Options)
    (catalog : Option Catalog)
    (modules : List ProxyModule)
    (workspace : Workspace) :
    Disk.KeepsFiles
      (· ∈ outputFiles options.sourcePath
        options.manifestPath workspace.disk)
      workspace.disk
      (run (emitter options) catalog modules
        workspace).state.disk := by
  rcases Run.exists_reported (emitter options) catalog modules
      workspace with
    ⟨made, events, result, hMade, _, hReported⟩
  exact keepsFiles_of_reported hMade hReported

/-
  A run that fails leaves the disk as it is, unless the fault
  is one of the disk when the outputs are written.
-/
theorem disk_of_run_error
    {fault : Fault}
    (hError :
      (run (emitter options) catalog modules
        workspace).result = .error fault) :
    (run (emitter options) catalog modules
          workspace).state.disk = workspace.disk ∨
      (ReachesOutputs options workspace.disk
          (Run.tally (Run.idealStages modules))
          (run (emitter options) catalog modules
            workspace) ∧
        ∃ cause, fault = .file cause) := by
  rcases Run.exists_reported (emitter options) catalog modules
      workspace with
    ⟨made, events, early | ⟨⟩, hMade, _, hReported⟩
  · exact .inl (disk_of_reported_error hMade hReported)
  · right
    have hReaches :=
      (reachesOutputs_of_reported hMade hReported).1
    rw [hReaches.2] at hError
    exact
      ⟨hReaches,
        exists_of_writeOutputs_error
          (Fault.map_error_iff.mp hError)⟩

end Excel

end HostBindings
