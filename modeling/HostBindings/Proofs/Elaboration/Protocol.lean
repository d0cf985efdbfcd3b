import HostBindings.Proofs.Elaboration.Replay
import HostBindings.Proofs.Fault.Sequences

/-
  The protocol that a run keeps with its emitter.

  The emitter is prepared once, then called for the stages of
  the modules up to the first fault, and told the end once.
  The first fault is the result of the run, and a run without
  one has counted what it has emitted.

  Main declarations:
    * `Run.Course`
    * `Run.exists_course`
    * `Run.Course.completed_of_clear`
    * `Run.exists_reported`
    * `Run.Protocol`
    * `exists_events_of_run_ok`
    * `run_keeps_protocol`
-/

------------------------------------------------------------
-- Courses
------------------------------------------------------------

namespace HostBindings

namespace Run

variable {σ : Type}
variable {emitter : Emitter σ}
variable {catalog : Option Catalog}
variable {modules : List ProxyModule}
variable {state : σ}

/-
  The course of a run up to its end: the stages that have
  been gone through, the events at them, and the result.
-/
inductive Course
    (emitter : Emitter σ)
    (catalog : Option Catalog)
    (modules : List ProxyModule)
    (state : σ)
    (made : List Stage)
    (events : List Event) : Except Fault Unit → Prop
| completed
    (hMade : made = idealStages modules)
    (hClear : Clear catalog [] made)
    (hAccepts :
      emitter.Accepts state (.call .prepare :: events)) :
    Course emitter catalog modules state made events (.ok ())
| obstructed
    (before after : List Stage)
    (stage : Stage)
    {fault : Fault}
    (hStages :
      idealStages modules = before ++ stage :: after)
    (hFault : stage.fault? catalog before = some fault)
    (hClear : Clear catalog [] before)
    (hMade : made = before ++ stage.announced)
    (hAccepts :
      emitter.Accepts state (.call .prepare :: events)) :
    Course emitter catalog modules state made events
      (.error fault)
| refused
    (before : List Event)
    (call : Call)
    {fault : Fault}
    (hEvents :
      Event.call .prepare :: events = before ++ [Event.call call])
    (hAnswer :
      emitter.answer (emitter.replay state before)
        (.call call) = .error fault)
    (hClear : Clear catalog [] made)
    (hPrefix : made <+: idealStages modules)
    (hAccepts : emitter.Accepts state before) :
    Course emitter catalog modules state made events
      (.error fault)

/- What is announced at a stage is at most the stage. -/
theorem Stage.announced_prefix (stage : Stage) :
    stage.announced <+: [stage] := by
  cases stage with
  | describe moduleName outcome => exact List.prefix_rfl
  | _ => exact List.nil_prefix

/- Only calls can be refused. -/
theorem exists_call_of_error
    {event : Event}
    {fault : Fault}
    (hAnswer : emitter.answer state event = .error fault) :
    ∃ call, event = .call call := by
  cases event with
  | describe moduleName => cases hAnswer
  | call made => exact ⟨made, rfl⟩

/- Every run takes one of the courses. -/
theorem exists_course
    (emitter : Emitter σ)
    (catalog : Option Catalog)
    (modules : List ProxyModule)
    (state : σ) :
    ∃ made events,
      (playRun emitter catalog modules state).made =
        .call .prepare :: events ∧
      (playRun emitter catalog modules state).state =
        emitter.replay state (.call .prepare :: events) ∧
      List.Forall₂ (Stage.IsMadeBy catalog) made events ∧
      Course emitter catalog modules state made events
        (playRun emitter catalog modules state).result := by
  unfold playRun Played.continue
  simp only [playCall]
  cases hResult : (emitter.respond state .prepare).result with
  | error fault =>
      exact
        ⟨[], [], rfl, rfl, .nil,
          .refused [] .prepare rfl hResult trivial
            List.nil_prefix trivial⟩
  | ok =>
      have hEnding :=
        ending_of_play emitter catalog []
          (emitter.respond state .prepare).state
          (idealStages modules)
      generalize
        play emitter catalog []
          (emitter.respond state .prepare).state
          (idealStages modules) = played at hEnding
      cases hEnding with
      | completed hClear hMade hAccepts =>
          exact
            ⟨_, _, rfl, rfl, hMade,
              .completed rfl hClear ⟨hResult, hAccepts⟩⟩
      | obstructed before hStages hClear hFault hMade
          hAccepts =>
          exact
            ⟨_, _, rfl, rfl, hMade,
              .obstructed before _ _ hStages hFault hClear
                rfl ⟨hResult, hAccepts⟩⟩
      | @refused before good after stage fault event hStages
          hClear hMade hEvent hAccepts hAnswer =>
          rcases exists_call_of_error hAnswer with
            ⟨call, rfl⟩
          refine
            ⟨before ++ [stage], good ++ [.call call], rfl,
              rfl, List.rel_append hMade (.cons hEvent .nil),
              ?_⟩
          refine
            .refused (.call .prepare :: good) call rfl hAnswer
              hClear ?_ ⟨hResult, hAccepts⟩
          exact ⟨after, by simp [hStages]⟩

------------------------------------------------------------
-- What Courses Have in Common
------------------------------------------------------------

/-
  Clear stages at the start of a list come before any stage
  of it that has a fault.
-/
theorem prefix_of_fault
    {stages good before after : List Stage}
    {stage : Stage}
    {fault : Fault}
    (hClear : Clear catalog [] good)
    (hPrefix : good <+: stages)
    (hStages : stages = before ++ stage :: after)
    (hFault : stage.fault? catalog before = some fault) :
    good <+: before := by
  have hBefore : before <+: stages :=
    ⟨stage :: after, hStages.symm⟩
  rcases List.prefix_or_prefix_of_prefix hPrefix hBefore with
    hGood | hShort
  · exact hGood
  · rcases hShort with ⟨rest, rfl⟩
    cases rest with
    | nil =>
        rw [List.append_nil]
    | cons other rest =>
        -- the stage with a fault would be a clear one
        rcases hPrefix with ⟨tail, hTail⟩
        rw [hStages, List.append_assoc] at hTail
        have hCons := List.append_cancel_left hTail
        have hOther : other = stage :=
          (List.cons.inj hCons).1
        rw [hOther] at hClear
        exact absurd hClear (not_clear_of_fault hFault)

/- The stages that have been made come first in any course. -/
theorem Course.made_prefix
    {made : List Stage}
    {events : List Event}
    {result : Except Fault Unit}
    (hCourse :
      Course emitter catalog modules state made events
        result) :
    made <+: idealStages modules := by
  cases hCourse with
  | completed hMade => rw [hMade]
  | obstructed before after stage hStages hFault hClear
      hMade =>
      rw [hMade, hStages]
      apply List.prefix_append_right_inj before |>.mpr
      exact
        stage.announced_prefix.trans ⟨after, rfl⟩
  | refused before call hEvents hAnswer hClear hPrefix =>
      exact hPrefix

/- No course goes on behind a stage with a fault. -/
theorem Course.made_prefix_of_fault
    {made before after : List Stage}
    {events : List Event}
    {result : Except Fault Unit}
    {stage : Stage}
    {fault : Fault}
    (hCourse :
      Course emitter catalog modules state made events result)
    (hStages : idealStages modules = before ++ stage :: after)
    (hFault : stage.fault? catalog before = some fault) :
    made <+: before ++ stage.announced := by
  have hShort :
      ∀ {good : List Stage}, good <+: before →
        good <+: before ++ stage.announced := by
    intro good hGood
    exact hGood.trans (List.prefix_append _ _)
  have hPrefix := hCourse.made_prefix
  cases hCourse with
  | completed hMade hClear =>
      exact
        hShort (prefix_of_fault hClear hPrefix hStages hFault)
  | obstructed good rest other hOther hOtherFault hClear
      hMade =>
      have hGood : good <+: before :=
        prefix_of_fault hClear ⟨other :: rest, hOther.symm⟩
          hStages hFault
      rcases hGood with ⟨between, rfl⟩
      rw [hOther, List.append_assoc] at hStages
      have hCons := List.append_cancel_left hStages
      cases between with
      | nil =>
          have hSame : other = stage :=
            (List.cons.inj hCons).1
          rw [hMade, hSame, List.append_nil]
      | cons first between =>
          have hSame : other = first :=
            (List.cons.inj hCons).1
          apply hShort
          rw [hMade, hSame]
          apply List.prefix_append_right_inj good |>.mpr
          exact
            first.announced_prefix.trans ⟨between, rfl⟩
  | refused good call hEvents hAnswer hClear =>
      exact
        hShort (prefix_of_fault hClear hPrefix hStages hFault)

/-
  A call that is refused before the end is the last one, and
  then the result is a fault.
-/
theorem Course.last_of_refused
    {made : List Stage}
    {events before after : List Event}
    {result : Except Fault Unit}
    {call : Call}
    {fault : Fault}
    (hCourse :
      Course emitter catalog modules state made events result)
    (hEvents :
      Event.call .prepare :: events =
        before ++ Event.call call :: after)
    (hAnswer :
      emitter.answer (emitter.replay state before)
        (.call call) = .error fault) :
    after = [] ∧ result.isOk = false := by
  have hNever (rest : List Event) :
      ¬ emitter.Accepts state
        (before ++ Event.call call :: rest) :=
    Emitter.not_accepts_of_error hAnswer
  cases hCourse with
  | completed hMade hClear hAccepts =>
      rw [hEvents] at hAccepts
      exact absurd hAccepts (hNever after)
  | obstructed good rest stage hStages hFault hClear hMade
      hAccepts =>
      rw [hEvents] at hAccepts
      exact absurd hAccepts (hNever after)
  | refused good other hGood hRefused hClear hPrefix
      hAccepts =>
      refine ⟨?_, rfl⟩
      rw [hEvents] at hGood
      rcases List.eq_nil_or_concat after with
        hNil | ⟨rest, last, hConcat⟩
      · exact hNil
      · -- the refused call would be among the accepted ones
        rw [hConcat, List.concat_eq_append,
          ← List.cons_append, ← List.append_assoc] at hGood
        have hSame := (List.append_inj' hGood rfl).1
        rw [← hSame] at hAccepts
        exact absurd hAccepts (hNever rest)

/- No stage tells the emitter the end. -/
theorem ne_finish_of_isMadeBy
    {stage : Stage}
    {call : Call}
    (hMade : stage.IsMadeBy catalog (.call call))
    (success : Bool) :
    call ≠ .finish success := by
  rintro rfl
  cases stage <;> exact hMade

/- No call before the end tells the emitter the end. -/
theorem ne_finish_of_mem
    {made : List Stage}
    {events : List Event}
    {call : Call}
    (hMade :
      List.Forall₂ (Stage.IsMadeBy catalog) made events)
    (hMem : .call call ∈ Event.call .prepare :: events)
    (success : Bool) :
    call ≠ .finish success := by
  rcases List.mem_cons.mp hMem with hPrepare | hEvents
  · cases hPrepare
    rintro ⟨⟩
  · rcases exists_stage_of_mem hMade hEvents with
      ⟨stage, _, hStage⟩
    exact ne_finish_of_isMadeBy hStage success

/-
  A course in which no stage has a fault and no call is
  refused is completed.
-/
theorem Course.completed_of_clear
    {made : List Stage}
    {events : List Event}
    {result : Except Fault Unit}
    (hCourse :
      Course emitter catalog modules state made events result)
    (hClear : Clear catalog [] (idealStages modules))
    (hAccepts :
      emitter.Accepts state (.call .prepare :: events)) :
    made = idealStages modules ∧ result = .ok () := by
  cases hCourse with
  | completed hMade => exact ⟨hMade, rfl⟩
  | obstructed before after stage hStages hFault =>
      rw [hStages] at hClear
      exact absurd hClear (not_clear_of_fault hFault)
  | refused before call hEvents hAnswer =>
      rw [hEvents] at hAccepts
      exact
        absurd hAccepts (Emitter.not_accepts_of_error hAnswer)

/- A course goes well exactly when nothing fails. -/
theorem Course.isOk_iff
    {made : List Stage}
    {events : List Event}
    {result : Except Fault Unit}
    (hCourse :
      Course emitter catalog modules state made events
        result) :
    result.isOk = true ↔
      made = idealStages modules ∧
        Clear catalog [] (idealStages modules) ∧
        emitter.Accepts state (.call .prepare :: events) := by
  constructor
  · intro hOk
    cases hCourse with
    | completed hMade hClear hAccepts =>
        exact ⟨hMade, hMade ▸ hClear, hAccepts⟩
    | _ => cases hOk
  · rintro ⟨_, hClear, hAccepts⟩
    rw [(hCourse.completed_of_clear hClear hAccepts).2]
    rfl

/- Nothing but the finish follows a refused call. -/
theorem Course.after_of_refused
    {made : List Stage}
    {events before after : List Event}
    {result : Except Fault Unit}
    {call : Call}
    {fault : Fault}
    (hCourse :
      Course emitter catalog modules state made events result)
    (hSplit :
      Event.call .prepare :: events ++
          [Event.call (.finish result.isOk)] =
        before ++ Event.call call :: after)
    (hAnswer :
      emitter.answer (emitter.replay state before)
        (.call call) = .error fault) :
    after = [] ∨ after = [.call (.finish false)] := by
  rcases List.eq_nil_or_concat after with
    hNil | ⟨rest, last, hConcat⟩
  · exact .inl hNil
  · rw [hConcat, List.concat_eq_append, ← List.cons_append,
      ← List.append_assoc] at hSplit
    rcases List.append_inj' hSplit rfl with ⟨hCalls, hLast⟩
    rcases hCourse.last_of_refused hCalls hAnswer with
      ⟨rfl, hFailed⟩
    rw [hFailed] at hLast
    rw [hConcat, List.concat_eq_append, List.nil_append,
      ← hLast]
    exact .inr rfl

/- A fault is the first one, of a call or of a stage. -/
theorem Course.first_fault
    {made : List Stage}
    {events : List Event}
    {fault : Fault}
    (hCourse :
      Course emitter catalog modules state made events
        (.error fault))
    (hMade :
      List.Forall₂ (Stage.IsMadeBy catalog) made events) :
    (∃ (before : List Event) (call : Call),
      Event.call .prepare :: events = before ++ [Event.call call] ∧
        call ≠ .finish false ∧
        emitter.Accepts state before ∧
        Clear catalog [] made ∧
        emitter.answer (emitter.replay state before)
          (.call call) = .error fault) ∨
    (∃ (before : List Stage) (stage : Stage)
          (after : List Stage),
      idealStages modules = before ++ stage :: after ∧
        made = before ++ stage.announced ∧
        emitter.Accepts state (.call .prepare :: events) ∧
        Clear catalog [] before ∧
        stage.fault? catalog before = some fault) := by
  cases hCourse with
  | obstructed before after stage hStages hFault hClear
      hAnnounced hAccepts =>
      exact
        .inr
          ⟨before, stage, after, hStages, hAnnounced, hAccepts,
            hClear, hFault⟩
  | refused before call hSplit hAnswer hClear hPrefix
      hAccepts =>
      have hCall : call ≠ .finish false := by
        apply ne_finish_of_mem hMade
        rw [hSplit]
        simp
      exact
        .inl
          ⟨before, call, hSplit, hCall, hAccepts, hClear,
            hAnswer⟩

------------------------------------------------------------
-- Counting Calls
------------------------------------------------------------

/- Whether a call emits a class. -/
def isObject : Call → Bool
| .object _ => true
| _ => false

/- Whether a call emits a function. -/
def isFunction : Call → Bool
| .function _ _ _ => true
| _ => false

/- The stages of modules count every module once. -/
theorem modules_of_tally
    (session : Session)
    (modules : List ProxyModule) :
    (tally (stagesFrom session modules)).modules =
      modules.length := by
  have hClasses :
      ∀ classes : List ProxyClass,
        (tally (classes.flatMap classStages)).modules = 0 := by
    intro classes
    induction classes with
    | nil => rfl
    | cons proxyClass classes ih =>
        simp [tally_append, tally_classStages, Summary.plus, ih]
  induction modules generalizing session with
  | nil => rfl
  | cons module modules ih =>
      simp [stagesFrom, moduleStages, tally, tally_append,
        Stage.count, Summary.plus, hClasses, ih, Nat.add_comm]

/- Stages count the calls that are made at them. -/
theorem calls_of_tally
    {made : List Stage}
    {events : List Event}
    (hMade :
      List.Forall₂ (Stage.IsMadeBy catalog) made events) :
    (tally made).classes =
        (events.filterMap Event.call?).countP isObject ∧
      (tally made).functions =
        (events.filterMap Event.call?).countP isFunction := by
  induction hMade with
  | nil => exact ⟨rfl, rfl⟩
  | @cons stage event made events hEvent hRest ih =>
      rcases Stage.isMadeBy_cases hEvent with
        ⟨_, _, rfl, rfl⟩ | ⟨_, rfl, rfl⟩ |
        ⟨_, _, _, rfl, rfl, _⟩
      all_goals
        simp [tally, Stage.count, Summary.plus, ih,
          Event.call?, List.filterMap_cons, List.countP_cons,
          isObject, isFunction, Nat.add_comm]

------------------------------------------------------------
-- Reports
------------------------------------------------------------

/-
  What a run reports once its events have led to a result:
  the emitter is told the result, and may still refuse a run
  in which nothing has failed.
-/
structure Reported
    (emitter : Emitter σ)
    (modules : List ProxyModule)
    (state : σ)
    (events : List Event)
    (result : Except Fault Unit)
    (report : Report σ) : Prop where
  outcome :
    report.result =
      match result with
      | .error fault => .error fault
      | .ok () =>
          (emitter.answer
            (emitter.replay state
              (Event.call .prepare :: events))
            (.call (.finish true))).map fun _ =>
              tally (idealStages modules)
  trace :
    report.trace =
      Event.call .prepare :: events ++
        [Event.call (.finish result.isOk)]
  lastState :
    report.state =
      emitter.advance
        (emitter.replay state (Event.call .prepare :: events))
        (.call (.finish result.isOk))

/- Every run takes a course and reports on it. -/
theorem exists_reported
    (emitter : Emitter σ)
    (catalog : Option Catalog)
    (modules : List ProxyModule)
    (state : σ) :
    ∃ made events result,
      List.Forall₂ (Stage.IsMadeBy catalog) made events ∧
        Course emitter catalog modules state made events
          result ∧
        Reported emitter modules state events result
          (run emitter catalog modules state) := by
  rcases exists_course emitter catalog modules state with
    ⟨made, events, hMade, hState, hEvents, hCourse⟩
  rcases run_eq_playRun emitter catalog modules state _ rfl
    with ⟨hTrace, hAfter, hResult⟩
  rw [hMade] at hTrace
  rw [hState] at hAfter hResult
  exact
    ⟨made, events, _, hEvents, hCourse,
      ⟨hResult, hTrace, hAfter⟩⟩

variable {made : List Stage}
variable {events : List Event}
variable {result : Except Fault Unit}
variable {report : Report σ}

/- A run goes well when the emitter accepts its good end. -/
theorem Reported.ok_iff
    (hReported :
      Reported emitter modules state events result report) :
    (∃ summary, report.result = .ok summary) ↔
      result.isOk = true ∧
        emitter.answer
            (emitter.replay state (Event.call .prepare :: events))
            (.call (.finish true)) = .ok () := by
  rw [hReported.outcome]
  cases result with
  | error fault => simp [Except.isOk, Except.toBool]
  | ok =>
      constructor
      · rintro ⟨summary, hSummary⟩
        rcases Fault.map_ok_iff.mp hSummary with
          ⟨_, hAnswer, _⟩
        exact ⟨rfl, hAnswer⟩
      · rintro ⟨_, hAnswer⟩
        exact ⟨_, Fault.map_ok_iff.mpr ⟨(), hAnswer, rfl⟩⟩

/- The fault of a run is the first one, of a call or a stage. -/
theorem Reported.first_fault
    {fault : Fault}
    (hReported :
      Reported emitter modules state events result report)
    (hCourse :
      Course emitter catalog modules state made events result)
    (hMade :
      List.Forall₂ (Stage.IsMadeBy catalog) made events)
    (hFault : report.result = .error fault) :
    (∃ (before : List Event) (call : Call)
        (after : List Event),
      report.trace = before ++ Event.call call :: after ∧
        call ≠ .finish false ∧
        emitter.Accepts state before ∧
        Clear catalog [] made ∧
        emitter.answer (emitter.replay state before)
          (.call call) = .error fault) ∨
    (∃ (before : List Stage) (stage : Stage)
        (after : List Stage),
      idealStages modules = before ++ stage :: after ∧
        made = before ++ stage.announced ∧
        emitter.Accepts state (Event.call .prepare :: events) ∧
        Clear catalog [] before ∧
        stage.fault? catalog before = some fault) := by
  rw [hReported.outcome] at hFault
  cases result with
  | error first =>
      cases hFault
      rcases hCourse.first_fault hMade with
        ⟨before, call, hSplit, hCall⟩ | hStage
      · refine
          .inl
            ⟨before, call, [.call (.finish false)], ?_, hCall⟩
        rw [hReported.trace, hSplit, List.append_assoc]
        rfl
      · exact .inr hStage
  | ok =>
      -- only the last call is left to be refused
      rcases hCourse.isOk_iff.mp rfl with
        ⟨hAll, hClear, hAccepts⟩
      exact
        .inl
          ⟨.call .prepare :: events, .finish true, [],
            hReported.trace, by simp, hAccepts, hAll ▸ hClear,
            Fault.map_error_iff.mp hFault⟩

/- The calls between the preparation and the finish. -/
theorem Reported.calls
    (hReported :
      Reported emitter modules state events result report) :
    report.calls =
      Call.prepare ::
        (events.filterMap Event.call? ++
          [Call.finish result.isOk]) := by
  rw [Report.calls, hReported.trace]
  simp [Event.call?]

/- What is read off the calls between them. -/
theorem Reported.filterMap_calls
    {α : Type}
    {read : Call → Option α}
    (hReported :
      Reported emitter modules state events result report)
    (hPrepare : read .prepare = none)
    (hFinish : ∀ success, read (.finish success) = none) :
    report.calls.filterMap read =
      events.filterMap fun event => event.call?.bind read := by
  rw [hReported.calls, List.filterMap_cons_none hPrepare,
    List.filterMap_append, List.filterMap_filterMap]
  simp [hFinish]

/- A run that goes well counts its modules and calls. -/
theorem Reported.counts
    {summary : Summary}
    (hReported :
      Reported emitter modules state events result report)
    (hCourse :
      Course emitter catalog modules state made events result)
    (hMade :
      List.Forall₂ (Stage.IsMadeBy catalog) made events)
    (hOk : report.result = .ok summary) :
    summary.modules = modules.length ∧
      summary.classes = report.calls.countP isObject ∧
      summary.functions = report.calls.countP isFunction := by
  have hCounts := calls_of_tally hMade
  rw [hReported.calls]
  rw [hReported.outcome] at hOk
  cases result with
  | error fault => cases hOk
  | ok =>
      rcases Fault.map_ok_iff.mp hOk with ⟨_, _, rfl⟩
      have hAll := (hCourse.isOk_iff.mp rfl).1
      rw [← hAll]
      refine ⟨?_, ?_, ?_⟩
      · rw [hAll]
        exact modules_of_tally Session.start modules
      · simp [hCounts.1, isObject]
      · simp [hCounts.2, isFunction]

------------------------------------------------------------
-- The Protocol
------------------------------------------------------------

/-
  What a run reports, given the stages it has gone through,
  the events at them, and whether they went well.  The calls
  start with the only preparation and end with the only
  finish; those between are the calls of stages in their
  order.
-/
structure Protocol
    (emitter : Emitter σ)
    (catalog : Option Catalog)
    (modules : List ProxyModule)
    (state : σ)
    (report : Report σ)
    (made : List Stage)
    (events : List Event)
    (success : Bool) : Prop where
  trace :
    report.trace =
      Event.call .prepare :: events ++
        [Event.call (.finish success)]
  ofStages :
    List.Forall₂ (Stage.IsMadeBy catalog) made events
  inOrder : made <+: idealStages modules
  /- a stage with a fault of its own ends the elaboration -/
  obstructed :
    ∀ (before : List Stage) (stage : Stage)
        (after : List Stage) (fault : Fault),
      idealStages modules = before ++ stage :: after →
        stage.fault? catalog before = some fault →
          made <+: before ++ stage.announced
  /- nothing but the finish follows a refused call -/
  refused :
    ∀ (before : List Event) (call : Call)
        (after : List Event) (fault : Fault),
      report.trace = before ++ Event.call call :: after →
        emitter.answer (emitter.replay state before)
            (.call call) = .error fault →
          after = [] ∨ after = [.call (.finish false)]
  success_iff :
    success = true ↔
      made = idealStages modules ∧
        Clear catalog [] (idealStages modules) ∧
        emitter.Accepts state (.call .prepare :: events)
  ok_iff :
    (∃ summary, report.result = .ok summary) ↔
      success = true ∧
        emitter.answer
            (emitter.replay state (.call .prepare :: events))
            (.call (.finish true)) = .ok ()
  /- a fault is the first: of a call or of a stage -/
  fault :
    ∀ fault, report.result = .error fault →
      (∃ (before : List Event) (call : Call)
          (after : List Event),
        report.trace = before ++ Event.call call :: after ∧
          call ≠ .finish false ∧
          emitter.Accepts state before ∧
          Clear catalog [] made ∧
          emitter.answer (emitter.replay state before)
            (.call call) = .error fault) ∨
      (∃ (before : List Stage) (stage : Stage)
          (after : List Stage),
        idealStages modules = before ++ stage :: after ∧
          made = before ++ stage.announced ∧
          emitter.Accepts state (.call .prepare :: events) ∧
          Clear catalog [] before ∧
          stage.fault? catalog before = some fault)
  summary :
    ∀ summary, report.result = .ok summary →
      summary.modules = modules.length ∧
        summary.classes = report.calls.countP isObject ∧
        summary.functions = report.calls.countP isFunction

end Run

------------------------------------------------------------
-- Runs
------------------------------------------------------------

variable {σ : Type}

/-
  A run that goes well has gone through all its stages, and
  every call of it has been accepted.
-/
theorem exists_events_of_run_ok
    {emitter : Emitter σ}
    {catalog : Option Catalog}
    {modules : List ProxyModule}
    {state : σ}
    {summary : Summary}
    (hOk :
      (run emitter catalog modules state).result =
        .ok summary) :
    ∃ events,
      List.Forall₂ (Run.Stage.IsMadeBy catalog)
          (Run.idealStages modules) events ∧
        emitter.Accepts state
          (Event.call .prepare :: events) ∧
        Run.Reported emitter modules state events (.ok ())
          (run emitter catalog modules state) := by
  rcases Run.exists_reported emitter catalog modules state with
    ⟨made, events, result, hMade, hCourse, hReported⟩
  have hSuccess := (hReported.ok_iff.mp ⟨summary, hOk⟩).1
  cases result with
  | error fault => cases hSuccess
  | ok =>
      rcases hCourse.isOk_iff.mp rfl with ⟨rfl, _, hAccepts⟩
      exact ⟨events, hMade, hAccepts, hReported⟩

/-
  Every run keeps the protocol, whatever the modules, the
  catalog and the emitter are.
-/
theorem run_keeps_protocol
    (emitter : Emitter σ)
    (catalog : Option Catalog)
    (modules : List ProxyModule)
    (state : σ) :
    ∃ made events success,
      Run.Protocol emitter catalog modules state
        (run emitter catalog modules state) made events
        success := by
  rcases Run.exists_reported emitter catalog modules state with
    ⟨made, events, result, hMade, hCourse, hReported⟩
  refine ⟨made, events, result.isOk, ?_⟩
  constructor
  · exact hReported.trace
  · exact hMade
  · exact hCourse.made_prefix
  · intro before stage after fault hStages hFault
    exact hCourse.made_prefix_of_fault hStages hFault
  · intro before call after fault hSplit hAnswer
    rw [hReported.trace] at hSplit
    exact hCourse.after_of_refused hSplit hAnswer
  · exact hCourse.isOk_iff
  · exact hReported.ok_iff
  · intro fault hFault
    exact hReported.first_fault hCourse hMade hFault
  · intro summary hSummary
    exact hReported.counts hCourse hMade hSummary

end HostBindings
