import HostBindings.Proofs.Elaboration.Refinement

/-
  Whole runs in terms of their stages.

  A run prepares the emitter, works through the stages of its
  modules and tells the emitter the end.

  Main declarations:
    * `Run.playRun`
    * `Run.elaborate_eq_playRun`
    * `run_eq_playRun`
-/

------------------------------------------------------------
-- Everything up to the End
------------------------------------------------------------

namespace HostBindings

namespace Run

variable {σ : Type}
variable {emitter : Emitter σ}
variable {catalog : Option Catalog}
variable {modules : List ProxyModule}
variable {state : σ}

/- Prepare the emitter and work through the stages. -/
def playRun
    (emitter : Emitter σ)
    (catalog : Option Catalog)
    (modules : List ProxyModule)
    (state : σ) : Played σ :=
  (playCall emitter state .prepare).continue fun state =>
    play emitter catalog [] state (idealStages modules)

/- A run up to its end is work on the stages. -/
theorem elaborate_eq_playRun
    (emitter : Emitter σ)
    (catalog : Option Catalog)
    (modules : List ProxyModule)
    (state : σ) :
    ∃ p : Progress σ,
      elaborate emitter catalog modules
          (Progress.start state) =
        (p, (playRun emitter catalog modules state).result) ∧
      p.trace =
        (playRun emitter catalog modules state).made ∧
      p.state =
        (playRun emitter catalog modules state).state ∧
      ((playRun emitter catalog modules state).result =
          .ok () →
        p.summary = tally (idealStages modules)) := by
  unfold elaborate playRun Played.continue
  let called : Progress σ :=
    (callEmitter emitter .prepare (Progress.start state)).1
  have hCalled :
      callEmitter emitter .prepare (Progress.start state) =
        (called, (emitter.respond state .prepare).result) :=
    rfl
  simp only [playCall]
  cases hResult : (emitter.respond state .prepare).result with
  | error fault =>
      rw [hResult] at hCalled
      refine
        ⟨called, andThen_of_error hCalled, rfl, rfl, ?_⟩
      rintro ⟨⟩
  | ok =>
      rw [hResult] at hCalled
      rw [andThen_of_ok hCalled]
      let done :=
        inTurn
          (modules.map (elaborateModule emitter catalog))
          called
      have hConducts :
          Conducts emitter catalog [] called
            (idealStages modules) done :=
        conducts_modules modules rfl (fun name => Iff.rfl)
      refine
        ⟨done.1, Prod.ext rfl hConducts.result,
          hConducts.trace, hConducts.state, ?_⟩
      intro hOk
      have hSummary :=
        summary_of_modules (p := called) rfl
          (Prod.ext rfl (hConducts.result.trans hOk))
      rw [hSummary]
      simp [called, callEmitter, Progress.start, Summary.plus,
        idealStages]

/- Ending a run well tells the emitter so. -/
theorem finishWell_eq
    (emitter : Emitter σ)
    (p : Progress σ) :
    (finishWell emitter p).trace =
        p.trace ++ [Event.call (.finish true)] ∧
      (finishWell emitter p).state =
        emitter.advance p.state (.call (.finish true)) ∧
      (finishWell emitter p).result =
        (emitter.answer p.state (.call (.finish true))).map
          fun _ => p.summary := by
  unfold finishWell callEmitter Emitter.advance Emitter.answer
  cases hResult :
      (emitter.respond p.state (.finish true)).result with
  | error fault =>
      simp only [hResult]
      exact ⟨rfl, rfl, rfl⟩
  | ok =>
      simp only [hResult]
      exact ⟨rfl, rfl, rfl⟩

/- Ending a run after a fault keeps the fault. -/
theorem finishBadly_eq
    (emitter : Emitter σ)
    (fault : Fault)
    (p : Progress σ) :
    (finishBadly emitter fault p).trace =
        p.trace ++ [Event.call (.finish false)] ∧
      (finishBadly emitter fault p).state =
        emitter.advance p.state (.call (.finish false)) ∧
      (finishBadly emitter fault p).result =
        .error fault := by
  unfold finishBadly callEmitter Emitter.advance Progress.note
  cases hResult :
      (emitter.respond p.state (.finish false)).result with
  | error second =>
      simp only [hResult]
      exact ⟨rfl, rfl, rfl⟩
  | ok =>
      simp only [hResult]
      exact ⟨rfl, rfl, rfl⟩

end Run

------------------------------------------------------------
-- Whole Runs
------------------------------------------------------------

variable {σ : Type}
variable {emitter : Emitter σ}
variable {catalog : Option Catalog}
variable {modules : List ProxyModule}
variable {state : σ}

/-
  A run works through its stages and then tells the emitter
  whether they went well.  The first fault is the result.
-/
theorem run_eq_playRun
    (emitter : Emitter σ)
    (catalog : Option Catalog)
    (modules : List ProxyModule)
    (state : σ)
    (played : Run.Played σ)
    (hPlayed :
      Run.playRun emitter catalog modules state = played) :
    (run emitter catalog modules state).trace =
        played.made ++
          [Event.call (.finish played.result.isOk)] ∧
      (run emitter catalog modules state).state =
        emitter.advance played.state
          (.call (.finish played.result.isOk)) ∧
      (run emitter catalog modules state).result =
        match played.result with
        | .error fault => .error fault
        | .ok () =>
            (emitter.answer played.state
              (.call (.finish true))).map fun _ =>
                Run.tally (Run.idealStages modules) := by
  rcases Run.elaborate_eq_playRun emitter catalog modules
      state with
    ⟨p, hElaborate, hTrace, hState, hSummary⟩
  rw [hPlayed] at hElaborate hTrace hState hSummary
  unfold run
  rw [hElaborate]
  cases hResult : played.result with
  | error fault =>
      simp only
      rw [← hTrace, ← hState]
      exact Run.finishBadly_eq emitter fault p
  | ok =>
      simp only
      rw [← hTrace, ← hState, ← hSummary hResult]
      exact Run.finishWell_eq emitter p

end HostBindings
