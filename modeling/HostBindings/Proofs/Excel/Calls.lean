import HostBindings.Excel.Emitter
import HostBindings.Proofs.Elaboration.Stages

/-
  What the calls of a run do to a workspace.

  Before the end, a call changes the bindings or nothing at
  all.  The end of a run leaves the bindings alone, and only
  its good end writes to the disk.

  Main declarations:
    * `Excel.Bindings.after`
    * `Excel.respond_cases`
    * `Excel.disk_replay`
    * `Excel.bindings_finish`
-/

------------------------------------------------------------
-- Calls before the End
------------------------------------------------------------

namespace HostBindings

namespace Excel

/- The bindings after a call; the disk does not matter. -/
def Bindings.after
    (options : Options)
    (bindings : Bindings) : Call → Except Fault Bindings
| .prepare => .ok .empty
| .object proxyClass => bindings.addObject proxyClass
| .function proxyClass method function =>
    if method.isHidden then
      .ok bindings
    else
      bindings.addFunction proxyClass method function
        (localized options function).2
| .finish _ => .ok bindings

variable {options : Options}
variable {workspace : Workspace}
variable {call : Call}

/-
  Before the end, a call changes nothing but the bindings,
  and nothing at all if it fails.
-/
theorem respond_cases
    (options : Options)
    (workspace : Workspace)
    (hCall : ∀ success, call ≠ .finish success) :
    (∃ next,
      workspace.bindings.after options call = .ok next ∧
        (respond options workspace call).state =
          { workspace with bindings := next } ∧
        (respond options workspace call).result = .ok ()) ∨
    (∃ fault,
      workspace.bindings.after options call = .error fault ∧
        (respond options workspace call).state = workspace ∧
        (respond options workspace call).result =
          .error fault) := by
  cases call with
  | prepare => exact .inl ⟨_, rfl, rfl, rfl⟩
  | object proxyClass =>
      simp only [Bindings.after, respond]
      cases workspace.bindings.addObject proxyClass with
      | error fault => exact .inr ⟨fault, rfl, rfl, rfl⟩
      | ok next => exact .inl ⟨next, rfl, rfl, rfl⟩
  | function proxyClass method function =>
      simp only [Bindings.after, respond, emitFunction]
      by_cases hHidden : method.isHidden = true
      · simp only [if_pos hHidden]
        exact .inl ⟨_, rfl, rfl, rfl⟩
      · simp only [if_neg hHidden]
        cases workspace.bindings.addFunction proxyClass method
            function (localized options function).2 with
        | error fault => exact .inr ⟨fault, rfl, rfl, rfl⟩
        | ok next => exact .inl ⟨next, rfl, rfl, rfl⟩
  | finish success => exact absurd rfl (hCall success)

/- So it does not touch the disk. -/
theorem disk_advance
    (hCall : ∀ success, call ≠ .finish success) :
    ((emitter options).advance workspace
        (.call call)).disk = workspace.disk := by
  rw [Emitter.advance, emitter]
  rcases respond_cases options workspace hCall with
    ⟨next, _, hState, _⟩ | ⟨fault, _, hState, _⟩
  · rw [hState]
  · rw [hState]

/- Nor do the events of a run before its end. -/
theorem disk_replay
    {events : List Event}
    (hCalls :
      ∀ call, .call call ∈ events →
        ∀ success, call ≠ .finish success) :
    ((emitter options).replay workspace events).disk =
      workspace.disk := by
  induction events generalizing workspace with
  | nil => rfl
  | cons event events ih =>
      have hRest :
          ((emitter options).replay
              ((emitter options).advance workspace event)
              events).disk =
            ((emitter options).advance workspace event).disk :=
        ih fun call hCall =>
          hCalls call (List.mem_cons_of_mem _ hCall)
      rw [Emitter.replay_cons, hRest]
      cases event with
      | describe moduleName => rfl
      | call call =>
          exact disk_advance (hCalls call List.mem_cons_self)

------------------------------------------------------------
-- The End of a Run
------------------------------------------------------------

/- The good end of a run is to write the outputs. -/
theorem respond_finish
    (options : Options)
    (workspace : Workspace) :
    respond options workspace (.finish true) =
      workspace.writeOutputs options := by
  simp only [respond, if_true]

/- So the emitter answers as it goes with writing them. -/
theorem answer_finish
    (options : Options)
    (workspace : Workspace) :
    (emitter options).answer workspace
        (.call (.finish true)) =
      (workspace.writeOutputs options).result := by
  simp only [Emitter.answer, emitter, respond_finish]

/- And it is in the state that this leaves. -/
theorem advance_finish
    (options : Options)
    (workspace : Workspace) :
    (emitter options).advance workspace
        (.call (.finish true)) =
      (workspace.writeOutputs options).state := by
  simp only [Emitter.advance, emitter, respond_finish]

/- A text is written as a file. -/
theorem writeText_eq
    (workspace : Workspace)
    (path text : String) :
    workspace.writeText path text =
      ({ workspace with
          disk :=
            (workspace.disk.write (.ofString path)
              (.text text)).1 },
        (workspace.disk.write (.ofString path)
          (.text text)).2.mapError Fault.file) := by
  unfold Workspace.writeText
  rcases workspace.disk.write (.ofString path) (.text text)
    with ⟨disk, fault | ⟨⟩⟩ <;> rfl

/- This leaves the bindings alone. -/
@[simp]
theorem bindings_writeText
    (workspace : Workspace)
    (path text : String) :
    (workspace.writeText path text).1.bindings =
      workspace.bindings := by
  rw [writeText_eq]

/- Its disk is the one that has been written to. -/
theorem disk_writeText
    (workspace : Workspace)
    (path text : String) :
    (workspace.writeText path text).1.disk =
      (workspace.disk.write (.ofString path)
        (.text text)).1 := by
  rw [writeText_eq]

/- Writing the outputs leaves the bindings alone too. -/
@[simp]
theorem bindings_writeOutputs
    (workspace : Workspace)
    (options : Options) :
    (workspace.writeOutputs options).state.bindings =
      workspace.bindings := by
  simp only [Workspace.writeOutputs]
  cases hFirst :
      workspace.writeText options.sourcePath
        (workspace.bindings.sourceText options) with
  | mk first result =>
      have hSource : first.bindings = workspace.bindings := by
        rw [← bindings_writeText workspace, hFirst]
      cases result with
      | error fault =>
          simpa only [Response.error] using hSource
      | ok =>
          cases hSecond :
              first.writeText options.manifestPath
                (Json.fileText workspace.bindings.manifest)
            with
          | mk second result =>
              have hManifest :
                  second.bindings = first.bindings := by
                rw [← bindings_writeText first, hSecond]
              cases result <;>
                simpa only [Response.error, hSecond] using
                  hManifest.trans hSource

/- So does the end of a run. -/
theorem bindings_finish
    (workspace : Workspace)
    (success : Bool) :
    ((emitter options).advance workspace
        (.call (.finish success))).bindings =
      workspace.bindings := by
  simp only [Emitter.advance, emitter, respond]
  split
  · exact bindings_writeOutputs workspace options
  · rfl

end Excel

end HostBindings
