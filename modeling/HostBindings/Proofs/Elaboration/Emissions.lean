import HostBindings.Proofs.Elaboration.Obstacles

/-
  What runs emit.

  The classes and functions that a run emits, and the names
  of the functions, are laid down by its modules.  Neither
  the emitter nor the catalog has a say in it, except for how
  far the run gets.

  Main declarations:
    * `Call.emission?`
    * `Run.Report.emissions`
    * `Run.Stage.emission?`
    * `Run.emissions_eq`
    * `Run.emissions_prefix`
-/

------------------------------------------------------------
-- Emissions
------------------------------------------------------------

namespace HostBindings

/- Only the event of a call has this call. -/
theorem Event.call?_eq_some_iff
    {event : Event}
    {call : Call} :
    event.call? = some call ↔ event = .call call := by
  cases event <;> simp [call?]

/- A call without texts, if it emits a class or a function. -/
def Call.emission? : Call → Option Call
| .object proxyClass => some (.object proxyClass)
| .function proxyClass method emitted =>
    some
      (.function proxyClass method
        { emitted with localizations := [] })
| _ => none

/- Only the call for a class emits the class. -/
theorem Call.emission?_eq_object_iff
    {call : Call}
    {proxyClass : ProxyClass} :
    call.emission? = some (.object proxyClass) ↔
      call = .object proxyClass := by
  cases call <;> simp [emission?]

namespace Run

/- The classes and functions that a run emits, in order. -/
def Report.emissions
    {σ : Type}
    (report : Report σ) : List Call :=
  report.calls.filterMap Call.emission?

/- A class is among the emissions when it is among the calls. -/
theorem object_mem_emissions_iff
    {σ : Type}
    {report : Report σ}
    {proxyClass : ProxyClass} :
    .object proxyClass ∈ report.emissions ↔
      .object proxyClass ∈ report.calls := by
  simp [Report.emissions, Call.emission?_eq_object_iff]

/- What is emitted at a stage; functions come without texts. -/
def Stage.emission? : Stage → Option Call
| .describe _ _ => none
| .object proxyClass => some (.object proxyClass)
| .function proxyClass method =>
    match functionName proxyClass.methodInfix method with
    | .error _ => none
    | .ok name =>
        some
          (.function proxyClass method
            { name := name
              nameSpace := proxyClass.nameSpace
              localizations := [] })

variable {catalog other : Option Catalog}

/- The event at a stage emits what the stage lays down. -/
theorem emission?_of_isMadeBy
    {stage : Stage}
    {event : Event}
    (hMade : stage.IsMadeBy catalog event) :
    event.call?.bind Call.emission? = stage.emission? := by
  rcases Stage.isMadeBy_cases hMade with
    ⟨_, _, rfl, rfl⟩ | ⟨_, rfl, rfl⟩ |
    ⟨proxyClass, method, function, rfl, rfl, hName, hSpace,
      _⟩
  · rfl
  · rfl
  · simp [Event.call?, Call.emission?, Stage.emission?,
      hName, hSpace]

------------------------------------------------------------
-- Runs
------------------------------------------------------------

variable {σ τ : Type}
variable {emitter : Emitter σ}
variable {modules : List ProxyModule}
variable {state : σ}

/- A run emits what the stages lay down that it has made. -/
theorem emissions_eq
    {made : List Stage}
    {events : List Event}
    {result : Except Fault Unit}
    {report : Report σ}
    (hMade :
      List.Forall₂ (Stage.IsMadeBy catalog) made events)
    (hReported :
      Reported emitter modules state events result report) :
    report.emissions = made.filterMap Stage.emission? := by
  rw [Report.emissions,
    hReported.filterMap_calls rfl fun _ => rfl]
  exact
    filterMap_of_made
      (fun _ _ hEvent => emission?_of_isMadeBy hEvent) hMade

/- A run that goes well emits all that its modules lay down. -/
theorem emissions_of_run_ok
    {summary : Summary}
    (hOk :
      (run emitter catalog modules state).result =
        .ok summary) :
    (run emitter catalog modules state).emissions =
      (idealStages modules).filterMap Stage.emission? := by
  rcases exists_events_of_run_ok hOk with
    ⟨events, hMade, _, hReported⟩
  exact emissions_eq hMade hReported

/- Its summary counts all of it. -/
theorem summary_of_run_ok
    {summary : Summary}
    (hOk :
      (run emitter catalog modules state).result =
        .ok summary) :
    summary = tally (idealStages modules) := by
  rcases exists_events_of_run_ok hOk with
    ⟨events, _, _, hReported⟩
  rw [hReported.outcome] at hOk
  rcases Fault.map_ok_iff.mp hOk with ⟨_, _, hSummary⟩
  exact hSummary.symm

/- Any other run of the same modules emits the same so far. -/
theorem emissions_prefix
    {summary : Summary}
    (hOk :
      (run emitter catalog modules state).result =
        .ok summary)
    (second : Emitter τ)
    (other : Option Catalog)
    (start : τ) :
    (run second other modules start).emissions <+:
      (run emitter catalog modules state).emissions := by
  rcases exists_reported second other modules start with
    ⟨made, events, result, hMade, hCourse, hReported⟩
  rw [emissions_of_run_ok hOk, emissions_eq hMade hReported]
  exact hCourse.made_prefix.filterMap Stage.emission?

end Run

end HostBindings
