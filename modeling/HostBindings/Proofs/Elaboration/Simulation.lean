import HostBindings.Proofs.Elaboration.Replay
import HostBindings.Proofs.Fault.Sequences

/-
  Runs of emitters that answer alike.

  If two emitters answer every call before the end alike, and
  their states stay related, then their runs go through the
  same events.  A run of the one that goes well is a run of
  the other that goes well, provided that the other accepts
  the good end.

  Main declarations:
    * `Emitter.Simulates`
    * `Run.play_simulated`
    * `Run.playRun_simulated`
    * `Run.run_simulated`
-/

------------------------------------------------------------
-- Simulations
------------------------------------------------------------

namespace HostBindings

variable {σ τ : Type}

/-
  Related states answer alike up to the end, and the states
  after the answer are related.
-/
structure Emitter.Simulates
    (first : Emitter σ)
    (second : Emitter τ)
    (related : σ → τ → Prop) : Prop where
  result :
    ∀ s t call,
      related s t → (∀ success, call ≠ .finish success) →
        (first.respond s call).result =
          (second.respond t call).result
  state :
    ∀ s t call,
      related s t → (∀ success, call ≠ .finish success) →
        related (first.respond s call).state
          (second.respond t call).state

namespace Run

variable {first : Emitter σ}
variable {second : Emitter τ}
variable {related : σ → τ → Prop}
variable {catalog : Option Catalog}
variable {earlier stages : List Stage}
variable {modules : List ProxyModule}
variable {s : σ}
variable {t : τ}

/- The same has been made, with one result, so far. -/
structure Alike
    (related : σ → τ → Prop)
    (played : Played σ)
    (other : Played τ) : Prop where
  made : played.made = other.made
  result : played.result = other.result
  state : related played.state other.state

/- A call leads to the same. -/
theorem playCall_simulated
    {call : Call}
    (hSimulates : first.Simulates second related)
    (hRelated : related s t)
    (hCall : ∀ success, call ≠ .finish success) :
    Alike related (playCall first s call)
      (playCall second t call) :=
  ⟨rfl, hSimulates.result s t call hRelated hCall,
    hSimulates.state s t call hRelated hCall⟩

/- So does a stage. -/
theorem playStage_simulated
    (hSimulates : first.Simulates second related)
    (hRelated : related s t)
    (stage : Stage) :
    Alike related (playStage first catalog earlier s stage)
      (playStage second catalog earlier t stage) := by
  cases stage with
  | describe moduleName outcome => exact ⟨rfl, rfl, hRelated⟩
  | object proxyClass =>
      apply playCall_simulated hSimulates hRelated
      rintro success ⟨⟩
  | function proxyClass method =>
      simp only [playStage]
      cases preparedFunction catalog earlier proxyClass method
        with
      | error fault => exact ⟨rfl, rfl, hRelated⟩
      | ok function =>
          apply playCall_simulated hSimulates hRelated
          rintro success ⟨⟩

/- And so do stages one after the other. -/
theorem play_simulated
    (hSimulates : first.Simulates second related)
    (hRelated : related s t) :
    Alike related (play first catalog earlier s stages)
      (play second catalog earlier t stages) := by
  induction stages generalizing earlier s t with
  | nil => exact ⟨rfl, rfl, hRelated⟩
  | cons stage stages ih =>
      have hStage :
          Alike related
            (playStage first catalog earlier s stage)
            (playStage second catalog earlier t stage) :=
        playStage_simulated hSimulates hRelated stage
      simp only [play, hStage.result]
      cases hResult :
          (playStage second catalog earlier t stage).result
        with
      | error fault => exact hStage
      | ok =>
          have hMore :
              Alike related
                (play first catalog (earlier ++ [stage])
                  (playStage first catalog earlier s
                    stage).state stages)
                (play second catalog (earlier ++ [stage])
                  (playStage second catalog earlier t
                    stage).state stages) :=
            ih hStage.state
          exact
            ⟨congrArg₂ _ hStage.made hMore.made,
              hMore.result, hMore.state⟩

------------------------------------------------------------
-- Whole Runs
------------------------------------------------------------

/- Everything up to the end leads to the same. -/
theorem playRun_simulated
    (hSimulates : first.Simulates second related)
    (hRelated : related s t) :
    Alike related (playRun first catalog modules s)
      (playRun second catalog modules t) := by
  have hPrepare :
      Alike related (playCall first s .prepare)
        (playCall second t .prepare) := by
    apply playCall_simulated hSimulates hRelated
    rintro success ⟨⟩
  simp only [playRun, Played.continue, hPrepare.result]
  cases (playCall second t .prepare).result with
  | error fault => exact hPrepare
  | ok =>
      have hPlay :
          Alike related
            (play first catalog []
              (playCall first s .prepare).state
              (idealStages modules))
            (play second catalog []
              (playCall second t .prepare).state
              (idealStages modules)) :=
        play_simulated hSimulates hPrepare.state
      exact
        ⟨congrArg (Event.call .prepare :: ·) hPlay.made,
          hPlay.result, hPlay.state⟩

/-
  A run that goes well ends in the good end of related
  states, and so does the run of the other emitter.
-/
theorem run_simulated
    {summary : Summary}
    (hSimulates : first.Simulates second related)
    (hRelated : related s t)
    (hOk :
      (run first catalog modules s).result = .ok summary) :
    ∃ last other,
      related last other ∧
        first.answer last (.call (.finish true)) = .ok () ∧
        (run first catalog modules s).state =
          first.advance last (.call (.finish true)) ∧
        (run second catalog modules t).state =
          second.advance other (.call (.finish true)) ∧
        (second.answer other (.call (.finish true)) = .ok () →
          (run second catalog modules t).result =
            .ok summary) := by
  have hAlike :
      Alike related (playRun first catalog modules s)
        (playRun second catalog modules t) :=
    playRun_simulated hSimulates hRelated
  rcases run_eq_playRun first catalog modules s _ rfl with
    ⟨_, hState, hResult⟩
  rcases run_eq_playRun second catalog modules t _ rfl with
    ⟨_, hOther, hOtherResult⟩
  rw [hAlike.result] at hState hResult
  rw [hResult] at hOk
  cases hPlayed : (playRun second catalog modules t).result with
  | error fault => simp [hPlayed] at hOk
  | ok =>
      rw [hPlayed] at hState hOther hOtherResult hOk
      rcases Fault.map_ok_iff.mp hOk with ⟨_, hAnswer, hSummary⟩
      refine
        ⟨_, _, hAlike.state, hAnswer, hState, hOther, ?_⟩
      intro hFinish
      rw [hOtherResult]
      exact Fault.map_ok_iff.mpr ⟨(), hFinish, hSummary⟩

end Run

end HostBindings
