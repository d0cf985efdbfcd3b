import HostBindings.Excel.Emitter
import HostBindings.Locale.Collector
import HostBindings.Proofs.Elaboration.Emissions

/-
  Emitters that are used again.

  An emitter may have been called in any way before a run:
  call by call, in runs that went well and in runs that
  failed.  If preparing it forgets all that, then the run is
  the same as that of a new emitter.

  Main declarations:
    * `Use`
    * `Emitter.after`
    * `Emitter.Keeps`
    * `Emitter.Keeps.after`
    * `run_of_prepare`
    * `Collector.isSome_canonical_iff`
    * `used_emitters_run_afresh`
-/

------------------------------------------------------------
-- Histories
------------------------------------------------------------

namespace HostBindings

/- What is done with an emitter: one call, or a whole run. -/
inductive Use where
| call (made : Call)
| run
    (catalog : Option Catalog)
    (modules : List ProxyModule)

section

variable {σ : Type}
variable {emitter : Emitter σ}
variable {catalog : Option Catalog}
variable {modules : List ProxyModule}
variable {state : σ}

namespace Emitter

/- The state after a use, whether or not it went well. -/
def use
    (emitter : Emitter σ)
    (state : σ) : Use → σ
| .call made => (emitter.respond state made).state
| .run catalog modules =>
    (HostBindings.run emitter catalog modules state).state

/- The state after one use after the other. -/
def after
    (emitter : Emitter σ)
    (state : σ)
    (history : List Use) : σ :=
  history.foldl emitter.use state

/- Every call keeps a property of the state. -/
def Keeps
    (emitter : Emitter σ)
    (holds : σ → Prop) : Prop :=
  ∀ state call,
    holds state → holds (emitter.respond state call).state

variable {holds : σ → Prop}

/- What every call keeps is kept over any events. -/
theorem Keeps.replay
    (hKeeps : emitter.Keeps holds)
    (hHolds : holds state)
    (events : List Event) :
    holds (emitter.replay state events) := by
  induction events generalizing state with
  | nil => exact hHolds
  | cons event events ih =>
      apply ih
      cases event with
      | describe moduleName => exact hHolds
      | call made => exact hKeeps state made hHolds

end Emitter

/- The state after a run is that after its events. -/
theorem state_of_run
    (emitter : Emitter σ)
    (catalog : Option Catalog)
    (modules : List ProxyModule)
    (state : σ) :
    (run emitter catalog modules state).state =
      emitter.replay state
        (run emitter catalog modules state).trace := by
  rcases Run.exists_reported emitter catalog modules state with
    ⟨made, events, result, hMade, hCourse, hReported⟩
  rw [hReported.lastState, hReported.trace,
    Emitter.replay_append]
  rfl

/- What every call keeps is kept over any history. -/
theorem Emitter.Keeps.after
    {holds : σ → Prop}
    (hKeeps : emitter.Keeps holds)
    (hHolds : holds state)
    (history : List Use) :
    holds (emitter.after state history) := by
  induction history generalizing state with
  | nil => exact hHolds
  | cons use history ih =>
      apply ih
      cases use with
      | call made => exact hKeeps state made hHolds
      | run catalog modules =>
          rw [Emitter.use, state_of_run]
          exact hKeeps.replay hHolds _

------------------------------------------------------------
-- Runs After a Preparation
------------------------------------------------------------

/-
  A run starts with the preparation, so that it depends on
  the state before only through what this leads to.
-/
theorem run_of_prepare
    {used new : σ}
    (hPrepare :
      emitter.respond used .prepare =
        emitter.respond new .prepare) :
    run emitter catalog modules used =
      run emitter catalog modules new := by
  have hCalled :
      Run.callEmitter emitter .prepare
          (Run.Progress.start used) =
        Run.callEmitter emitter .prepare
          (Run.Progress.start new) := by
    simp only [Run.callEmitter, Run.Progress.start, hPrepare]
  unfold run Run.elaborate Run.andThen
  rw [hCalled]

/-
  An emitter is told the good end when everything before it
  went well.
-/
theorem Run.Reported.finish_mem_calls_iff
    {made : List Run.Stage}
    {events : List Event}
    {result : Except Fault Unit}
    {report : Run.Report σ}
    (hReported :
      Run.Reported emitter modules state events result report)
    (hMade :
      List.Forall₂ (Run.Stage.IsMadeBy catalog) made events) :
    Call.finish true ∈ report.calls ↔ result.isOk = true := by
  have hEvents :
      Call.finish true ∉ events.filterMap Event.call? := by
    intro hMem
    rcases List.mem_filterMap.mp hMem with
      ⟨event, hEvent, hCall⟩
    rw [Event.call?_eq_some_iff] at hCall
    subst hCall
    exact
      Run.ne_finish_of_mem hMade
        (List.mem_cons_of_mem _ hEvent) true rfl
  rw [hReported.calls, List.mem_cons, List.mem_append,
    List.mem_singleton]
  constructor
  · rintro (hFirst | hMem | hLast)
    · cases hFirst
    · exact absurd hMem hEvents
    · exact (Call.finish.inj hLast).symm
  · intro hOk
    rw [hOk]
    exact .inr (.inr rfl)

end

------------------------------------------------------------
-- Collectors
------------------------------------------------------------

namespace Collector

/- No call changes the base of the documentation. -/
theorem keeps_documentationBase
    (documentationBase : Option String) :
    emitter.Keeps fun c =>
      c.documentationBase = documentationBase := by
  intro c call hBase
  cases call with
  | prepare => exact hBase
  | object proxyClass => exact hBase
  | function proxyClass method function =>
      simp only [emitter, respond]
      split <;> exact hBase
  | finish success =>
      simp only [emitter, respond]
      split <;> exact hBase

/- Only the good end completes the tree. -/
theorem canonical_of_call
    {c : Collector}
    {call : Call}
    (hNone : c.canonical = none)
    (hCall : call ≠ .finish true) :
    (c.respond call).state.canonical = none := by
  cases call with
  | prepare => rfl
  | object proxyClass => exact hNone
  | function proxyClass method function =>
      rw [respond]
      split <;> exact hNone
  | finish success =>
      cases success with
      | false => exact hNone
      | true => exact absurd rfl hCall

/- Without the good end no tree is completed. -/
theorem canonical_of_replay
    {c : Collector}
    {events : List Event}
    (hNone : c.canonical = none)
    (hEvents :
      ∀ call, .call call ∈ events → call ≠ .finish true) :
    (emitter.replay c events).canonical = none := by
  induction events generalizing c with
  | nil => exact hNone
  | cons event events ih =>
      rw [Emitter.replay_cons]
      refine ih ?_ fun call hCall =>
        hEvents call (List.mem_cons_of_mem _ hCall)
      cases event with
      | describe moduleName => exact hNone
      | call made =>
          exact
            canonical_of_call hNone
              (hEvents made List.mem_cons_self)

/-
  After a run there is a tree exactly when the run has come
  to the good end, whatever was there before.
-/
theorem isSome_canonical_iff
    (catalog : Option Catalog)
    (modules : List ProxyModule)
    (c : Collector) :
    (run emitter catalog modules c).state.canonical.isSome =
        true ↔
      Call.finish true ∈
        (run emitter catalog modules c).calls := by
  rcases Run.exists_reported emitter catalog modules c with
    ⟨made, events, result, hMade, hCourse, hReported⟩
  have hNone :
      (emitter.replay c
        (.call .prepare :: events)).canonical = none := by
    rw [Emitter.replay_cons]
    apply canonical_of_replay rfl
    intro call hCall
    exact
      Run.ne_finish_of_mem hMade (List.mem_cons_of_mem _ hCall)
        true
  rw [hReported.finish_mem_calls_iff hMade,
    hReported.lastState]
  cases result.isOk with
  | false =>
      have hLast :
          (emitter.advance
            (emitter.replay c (.call .prepare :: events))
            (.call (.finish false))).canonical = none :=
        canonical_of_call hNone (by simp)
      rw [hLast]
      exact iff_of_false Bool.false_ne_true Bool.false_ne_true
  | true => exact iff_of_true rfl rfl

end Collector

------------------------------------------------------------
-- New and Used
------------------------------------------------------------

/-
  Whatever has been done with them before, the emitter of
  bindings and the collector run as new ones do: with the
  same events, the same log and result, the same bindings and
  thus the same source and manifest, the same files written
  to the disk as it is `now`, and the same tree.  A collector
  has a tree exactly when the latest run has come to the good
  end.
-/
theorem used_emitters_run_afresh
    (options : Excel.Options)
    (documentationBase : Option String)
    (history : List Use)
    (catalog : Option Catalog)
    (modules : List ProxyModule) :
    (∀ disk now,
      run (Excel.emitter options) catalog modules
          { (Excel.emitter options).after
              (Excel.Workspace.new disk) history with
            disk := now } =
        run (Excel.emitter options) catalog modules
          (Excel.Workspace.new now)) ∧
    (let used : Collector :=
        Collector.emitter.after
          (Collector.new documentationBase) history;
      run Collector.emitter catalog modules used =
          run Collector.emitter catalog modules
            (Collector.new documentationBase) ∧
        ((run Collector.emitter catalog modules
            used).state.canonical.isSome = true ↔
          Call.finish true ∈
            (run Collector.emitter catalog modules
              used).calls)) := by
  refine ⟨?_, ?_, ?_⟩
  · intro disk now
    exact run_of_prepare rfl
  · have hBase :
        (Collector.emitter.after
          (Collector.new documentationBase)
          history).documentationBase = documentationBase :=
      (Collector.keeps_documentationBase
        documentationBase).after rfl history
    apply run_of_prepare
    change
      Response.ok (Collector.new _) =
        Response.ok (Collector.new documentationBase)
    rw [hBase]
  · exact Collector.isSome_canonical_iff catalog modules _

end HostBindings
