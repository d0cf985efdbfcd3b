import HostBindings.Proofs.Disk.Written
import HostBindings.Proofs.Elaboration.Simulation
import HostBindings.Proofs.Excel.Gathered

/-
  Outputs that are written again.

  The disk plays no part in a run until the outputs are
  written, so that runs on different disks gather the same
  bindings.  On the disk that a run has left, another run
  writes the same outputs and changes nothing.

  Main declarations:
    * `Excel.WritesOutputs`
    * `Excel.writeOutputs_ok_iff`
    * `Excel.simulates_disk`
    * `Excel.writesOutputs_of_run_ok`
    * `Excel.run_again`
-/

------------------------------------------------------------
-- Writing the Outputs
------------------------------------------------------------

namespace HostBindings

namespace Excel

variable {options : Options}

/- The places that writing the two outputs may touch. -/
def outputPlaces
    (sourcePath manifestPath : String)
    (disk : Disk) : List Location :=
  disk.touched (.ofString sourcePath) ++
    disk.touched (.ofString manifestPath)

/- Both outputs are written one after the other. -/
def WritesOutputs
    (options : Options)
    (bindings : Bindings)
    (disk after : Disk) : Prop :=
  ∃ between,
    disk.write (.ofString options.sourcePath)
        (.text (bindings.sourceText options)) =
      (between, .ok ()) ∧
    between.write (.ofString options.manifestPath)
        (.text (Json.fileText bindings.manifest)) =
      (after, .ok ())

/- Writing the outputs goes well when both writes do. -/
theorem writeOutputs_ok_iff
    (workspace : Workspace)
    (after : Disk) :
    (workspace.writeOutputs options).result = .ok () ∧
        (workspace.writeOutputs options).state.disk = after ↔
      WritesOutputs options workspace.bindings workspace.disk
        after := by
  simp only [Workspace.writeOutputs, WritesOutputs,
    writeText_eq]
  rcases hSource :
      workspace.disk.write (.ofString options.sourcePath)
        (.text (workspace.bindings.sourceText options)) with
    ⟨between, fault | ⟨⟩⟩
  · simp [Except.mapError, Response.error]
  · simp only [Except.mapError]
    rcases hManifest :
        between.write (.ofString options.manifestPath)
          (.text (Json.fileText workspace.bindings.manifest))
      with ⟨final, fault | ⟨⟩⟩
    · simp [hManifest, Response.error]
    · simp [hManifest]

------------------------------------------------------------
-- Runs on Other Disks
------------------------------------------------------------

variable {catalog : Option Catalog}
variable {modules : List ProxyModule}
variable {disk : Disk}
variable {summary : Summary}

/- Workspaces with the same bindings, each with its disk. -/
structure SameBindings
    (disk other : Disk)
    (first second : Workspace) : Prop where
  bindings : first.bindings = second.bindings
  disk : first.disk = disk
  other : second.disk = other

/- Up to the end, the bindings do not depend on the disk. -/
theorem simulates_disk
    (options : Options)
    (disk other : Disk) :
    (emitter options).Simulates (emitter options)
      (SameBindings disk other) := by
  have hAlike :
      ∀ first second call,
        SameBindings disk other first second →
          (∀ success, call ≠ .finish success) →
            (respond options first call).result =
                (respond options second call).result ∧
              SameBindings disk other
                (respond options first call).state
                (respond options second call).state := by
    intro first second call hSame hCall
    have hAfter :
        first.bindings.after options call =
          second.bindings.after options call := by
      rw [hSame.bindings]
    rcases respond_cases options second hCall with
      ⟨next, hNext, hState, hResult⟩ |
      ⟨fault, hFault, hState, hResult⟩
    · rcases respond_cases options first hCall with
        ⟨_, hOther, hFirst, hOk⟩ | ⟨_, hOther, _, _⟩
      · rw [hAfter, hNext] at hOther
        cases hOther
        rw [hFirst, hState, hOk, hResult]
        exact ⟨rfl, rfl, hSame.disk, hSame.other⟩
      · rw [hAfter, hNext] at hOther
        cases hOther
    · rcases respond_cases options first hCall with
        ⟨_, hOther, _, _⟩ | ⟨_, hOther, hFirst, hError⟩
      · rw [hAfter, hFault] at hOther
        cases hOther
      · rw [hAfter, hFault] at hOther
        cases hOther
        rw [hFirst, hState, hError, hResult]
        exact ⟨rfl, hSame⟩
  constructor
  · exact fun first second call hSame hCall =>
      (hAlike first second call hSame hCall).1
  · exact fun first second call hSame hCall =>
      (hAlike first second call hSame hCall).2

/-
  A run that goes well writes the outputs of its bindings.
  It goes equally well on any other disk to which the same
  outputs can be written.
-/
theorem writesOutputs_of_run_ok
    (hOk :
      (run (emitter options) catalog modules
        (.new disk)).result = .ok summary)
    {other after : Disk}
    (hSame :
      ∀ bindings,
        WritesOutputs options bindings disk
            (run (emitter options) catalog modules
              (.new disk)).state.disk →
          WritesOutputs options bindings other after) :
    (∃ bindings,
      WritesOutputs options bindings disk
        (run (emitter options) catalog modules
          (.new disk)).state.disk) ∧
      (run (emitter options) catalog modules
          (.new other)).result = .ok summary ∧
      (run (emitter options) catalog modules
          (.new other)).state.disk = after := by
  have hStart :
      SameBindings disk other (.new disk) (.new other) :=
    ⟨rfl, rfl, rfl⟩
  rcases Run.run_simulated
      (simulates_disk options disk other) hStart hOk with
    ⟨last, final, hLast, hAnswer, hState, hOther, hResult⟩
  simp only [Emitter.answer, Emitter.advance, emitter,
    respond_finish] at hAnswer hState hOther hResult
  have hWrites :=
    (writeOutputs_ok_iff last _).mp ⟨hAnswer, rfl⟩
  rw [hLast.disk] at hWrites
  have hDisk :
      (run (emitter options) catalog modules
          (.new disk)).state.disk =
        (last.writeOutputs options).state.disk := by
    exact congrArg Workspace.disk hState
  rw [← hDisk] at hWrites
  have hAgain := hSame _ hWrites
  rw [hLast.bindings, ← hLast.other] at hAgain
  rcases (writeOutputs_ok_iff final _).mpr hAgain with
    ⟨hFinish, hFinal⟩
  refine ⟨⟨_, hWrites⟩, hResult hFinish, ?_⟩
  rw [← hFinal]
  exact congrArg Workspace.disk hOther

/- Outputs that were written are written again. -/
theorem WritesOutputs.again
    {bindings : Bindings}
    {after : Disk}
    (hWrites : WritesOutputs options bindings disk after) :
    WritesOutputs options bindings after after := by
  rcases hWrites with ⟨between, hSource, hManifest⟩
  exact Disk.write_both_again hSource hManifest

/- They touch no places but those of the outputs. -/
theorem WritesOutputs.writtenAt
    {bindings : Bindings}
    {after : Disk}
    (hWrites : WritesOutputs options bindings disk after) :
    Disk.WrittenAt
      (outputPlaces options.sourcePath options.manifestPath
        disk)
      disk after := by
  rcases hWrites with ⟨between, hSource, hManifest⟩
  have hFirst := Disk.writtenAt_write hSource
  have hSecond := Disk.writtenAt_write hManifest
  rw [Disk.touched_eq hFirst.home] at hSecond
  exact
    (hFirst.mono (List.subset_append_left _ _)).trans
      (hSecond.mono (List.subset_append_right _ _))

/-
  A run that goes well touches no places but those of its
  outputs, and a run on the disk that it leaves has the same
  result and changes nothing.
-/
theorem run_again
    (hOk :
      (run (emitter options) catalog modules
        (.new disk)).result = .ok summary) :
    let after :=
      (run (emitter options) catalog modules
        (.new disk)).state.disk
    Disk.WrittenAt
        (outputPlaces options.sourcePath options.manifestPath
          disk)
        disk after ∧
      (run (emitter options) catalog modules
          (.new after)).result = .ok summary ∧
      (run (emitter options) catalog modules
          (.new after)).state.disk = after := by
  intro after
  rcases writesOutputs_of_run_ok hOk
      fun bindings hWrites => hWrites.again with
    ⟨⟨bindings, hWrites⟩, hAgain⟩
  exact ⟨hWrites.writtenAt, hAgain⟩

end Excel

end HostBindings
