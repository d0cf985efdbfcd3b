import HostBindings.Proofs.Elaboration.Stages

/-
  How working through stages ends.

  Either every stage is gone through, or a stage has a fault
  of its own, or the emitter refuses the call of a stage.  In
  each case the events are those of the stages up to there.

  Main declarations:
    * `Run.Clear`
    * `Run.not_clear_of_fault`
    * `Run.Ending`
    * `Run.ending_of_play`
    * `Run.play_append`
-/

------------------------------------------------------------
-- Stages Without Faults
------------------------------------------------------------

namespace HostBindings

namespace Run

/- No stage has a fault of its own. -/
def Clear
    (catalog : Option Catalog) :
    List Stage → List Stage → Prop
| _, [] => True
| earlier, stage :: rest =>
    stage.fault? catalog earlier = none ∧
      Clear catalog (earlier ++ [stage]) rest

variable {catalog : Option Catalog}

/- Stages are clear part by part. -/
theorem clear_append
    {earlier first second : List Stage} :
    Clear catalog earlier (first ++ second) ↔
      Clear catalog earlier first ∧
        Clear catalog (earlier ++ first) second := by
  induction first generalizing earlier with
  | nil =>
      simp [Clear]
  | cons stage first ih =>
      simp [Clear, ih, and_assoc]

/- Clear stages have no fault wherever one looks. -/
theorem clear_iff
    {earlier stages : List Stage} :
    Clear catalog earlier stages ↔
      ∀ (before : List Stage) (stage : Stage)
          (after : List Stage),
        stages = before ++ stage :: after →
          stage.fault? catalog (earlier ++ before) = none := by
  constructor
  · rintro hClear before stage after rfl
    exact (clear_append.mp hClear).2.1
  · intro hNone
    induction stages generalizing earlier with
    | nil =>
        trivial
    | cons stage stages ih =>
        refine ⟨by simpa using hNone [] stage stages rfl, ?_⟩
        apply ih
        intro before other after hStages
        have hFault :=
          hNone (stage :: before) other after
            (by rw [hStages]; rfl)
        simpa using hFault

/- Stages are not clear if one of them has a fault. -/
theorem not_clear_of_fault
    {before after : List Stage}
    {stage : Stage}
    {fault : Fault}
    (hFault : stage.fault? catalog before = some fault) :
    ¬ Clear catalog [] (before ++ stage :: after) := by
  intro hClear
  have hNone := clear_iff.mp hClear before stage after rfl
  rw [List.nil_append, hFault] at hNone
  cases hNone

------------------------------------------------------------
-- Endings
------------------------------------------------------------

variable {σ : Type}

/-
  The ways in which stages can end, given those before them
  and the state of the emitter.
-/
inductive Ending
    (emitter : Emitter σ)
    (catalog : Option Catalog)
    (earlier : List Stage)
    (state : σ)
    (stages : List Stage) : Played σ → Prop
| completed
    {made : List Event}
    (hClear : Clear catalog earlier stages)
    (hMade :
      List.Forall₂ (Stage.IsMadeBy catalog) stages made)
    (hAccepts : emitter.Accepts state made) :
    Ending emitter catalog earlier state stages
      ⟨made, emitter.replay state made, .ok ()⟩
| obstructed
    (before : List Stage)
    {after : List Stage}
    {stage : Stage}
    {fault : Fault}
    {made : List Event}
    (hStages : stages = before ++ stage :: after)
    (hClear : Clear catalog earlier before)
    (hFault :
      stage.fault? catalog (earlier ++ before) = some fault)
    (hMade :
      List.Forall₂ (Stage.IsMadeBy catalog)
        (before ++ stage.announced) made)
    (hAccepts : emitter.Accepts state made) :
    Ending emitter catalog earlier state stages
      ⟨made, emitter.replay state made, .error fault⟩
| refused
    (before : List Stage)
    (made : List Event)
    {after : List Stage}
    {stage : Stage}
    {fault : Fault}
    {event : Event}
    (hStages : stages = before ++ stage :: after)
    (hClear : Clear catalog earlier (before ++ [stage]))
    (hMade :
      List.Forall₂ (Stage.IsMadeBy catalog) before made)
    (hEvent : stage.IsMadeBy catalog event)
    (hAccepts : emitter.Accepts state made)
    (hAnswer :
      emitter.answer (emitter.replay state made) event =
        .error fault) :
    Ending emitter catalog earlier state stages
      ⟨made ++ [event],
        emitter.replay state (made ++ [event]),
        .error fault⟩

variable {emitter : Emitter σ}
variable {earlier stages : List Stage}
variable {state : σ}

/- A stage that goes well may stand in front of an ending. -/
theorem Ending.cons
    {stage : Stage}
    {event : Event}
    {played : Played σ}
    (hFault : stage.fault? catalog earlier = none)
    (hEvent : stage.IsMadeBy catalog event)
    (hAnswer : emitter.answer state event = .ok ())
    (hEnding :
      Ending emitter catalog (earlier ++ [stage])
        (emitter.advance state event) stages played) :
    Ending emitter catalog earlier state (stage :: stages)
      ⟨event :: played.made, played.state, played.result⟩ := by
  cases hEnding with
  | completed hClear hMade hAccepts =>
      exact
        .completed ⟨hFault, hClear⟩ (.cons hEvent hMade)
          ⟨hAnswer, hAccepts⟩
  | obstructed before hStages hClear hOther hMade hAccepts =>
      subst hStages
      rw [List.append_assoc] at hOther
      exact
        .obstructed (stage :: before) rfl ⟨hFault, hClear⟩
          hOther (.cons hEvent hMade) ⟨hAnswer, hAccepts⟩
  | refused before made hStages hClear hMade hLast hAccepts
      hRefused =>
      subst hStages
      exact
        .refused (stage :: before) (event :: made) rfl
          ⟨hFault, hClear⟩ (.cons hEvent hMade) hLast
          ⟨hAnswer, hAccepts⟩ hRefused

/- Working through stages ends in one of these ways. -/
theorem ending_of_play
    (emitter : Emitter σ)
    (catalog : Option Catalog)
    (earlier : List Stage)
    (state : σ)
    (stages : List Stage) :
    Ending emitter catalog earlier state stages
      (play emitter catalog earlier state stages) := by
  induction stages generalizing earlier state with
  | nil =>
      exact .completed trivial .nil trivial
  | cons stage stages ih =>
      rw [play]
      rcases playStage_cases emitter catalog earlier state
          stage with
        ⟨fault, made, hFault, hMade, hAccepts, hPlayed⟩ |
        ⟨event, hFault, hEvent, hPlayed⟩
      · rw [hPlayed]
        have hEarlier :
            stage.fault? catalog (earlier ++ []) =
              some fault := by
          simpa using hFault
        exact
          .obstructed [] rfl trivial hEarlier hMade hAccepts
      · rw [hPlayed]
        cases hAnswer : emitter.answer state event with
        | error fault =>
            simp only
            exact
              .refused [] [] rfl ⟨hFault, trivial⟩ .nil
                hEvent trivial hAnswer
        | ok =>
            exact
              (ih (earlier ++ [stage])
                (emitter.advance state event)).cons hFault
                  hEvent hAnswer

------------------------------------------------------------
-- Stages Put Together
------------------------------------------------------------

/- Go on with further stages where the first ones end well. -/
def Played.continue
    (first : Played σ)
    (next : σ → Played σ) : Played σ :=
  match first.result with
  | .error _ => first
  | .ok () =>
      ⟨first.made ++ (next first.state).made,
        (next first.state).state, (next first.state).result⟩

/- Working through stages part by part. -/
theorem play_append
    (emitter : Emitter σ)
    (catalog : Option Catalog)
    (earlier : List Stage)
    (state : σ)
    (first second : List Stage) :
    play emitter catalog earlier state (first ++ second) =
      (play emitter catalog earlier state first).continue
        fun state =>
          play emitter catalog (earlier ++ first) state
            second := by
  induction first generalizing earlier state with
  | nil =>
      simp [play, Played.continue]
  | cons stage first ih =>
      rw [List.cons_append, play, play]
      cases hStage :
          (playStage emitter catalog earlier state
            stage).result with
      | error fault =>
          simp [Played.continue, hStage]
      | ok =>
          simp only [ih]
          unfold Played.continue
          cases hFirst :
              (play emitter catalog (earlier ++ [stage])
                (playStage emitter catalog earlier state
                  stage).state first).result <;>
            simp [hFirst]

end Run

end HostBindings
