import HostBindings.Proofs.Collector.Documented
import HostBindings.Proofs.Excel.InStep

/-
  What bindings have gathered at the end of a run.

  Every class that is emitted has one object, and every
  visible function has one wrapper and one entry, in the
  order of the modules and whatever the catalog is.  Their
  names and ids depend on nothing else.

  Main declarations:
    * `Run.emittedClasses`
    * `DocumentedFunction.bare`
    * `Emission.documented`
    * `Run.stage_of_emission`
    * `Run.documented_emissions`
    * `Run.documented_emissions_of_run_ok`
    * `Excel.Gathered`
    * `Excel.InStep.gathered`
    * `Excel.gathered_of_run_ok`
-/

------------------------------------------------------------
-- Classes and Functions
------------------------------------------------------------

namespace HostBindings

namespace Run

/- The class that a stage emits, if it emits one. -/
def Stage.class? : Stage → Option ProxyClass
| .object proxyClass => some proxyClass
| _ => none

/- The classes that modules register, in their order. -/
def emittedClasses
    (modules : List ProxyModule) : List ProxyClass :=
  (idealStages modules).filterMap Stage.class?

end Run

/- A documented function without its translations. -/
def DocumentedFunction.bare
    (f : DocumentedFunction) : ProxyFunction where
  name := f.name
  nameSpace := f.nameSpace
  localizations := []

/- An emission as a documented function. -/
def Emission.documented (e : Emission) : DocumentedFunction :=
  ⟨e.function.nameSpace, e.function.name,
    e.method.parameters⟩

namespace Run

variable {catalog : Option Catalog}
variable {stage : Stage}
variable {event : Event}

/- The event at a stage emits the class of the stage. -/
theorem class?_of_isMadeBy
    (hMade : stage.IsMadeBy catalog event) :
    event.class? = stage.class? := by
  rcases Stage.isMadeBy_cases hMade with
    ⟨_, _, rfl, rfl⟩ | ⟨_, rfl, rfl⟩ |
    ⟨_, _, _, rfl, rfl, _⟩
  all_goals rfl

/- It emits what the stage lays down to be documented. -/
theorem visible?_of_isMadeBy
    (hMade : stage.IsMadeBy catalog event) :
    event.visible?.map Emission.documented =
      stage.documented? := by
  rw [← documented?_of_isMadeBy hMade]
  rcases Stage.isMadeBy_cases hMade with
    ⟨_, _, rfl, rfl⟩ | ⟨_, rfl, rfl⟩ |
    ⟨proxyClass, method, function, rfl, rfl, _, hSpace, _⟩
  · rfl
  · rfl
  · by_cases hHidden : method.isHidden = true
    · simp [Event.visible?, Event.call?, Call.visible?,
        Call.documented?, hHidden]
    · simp [Event.visible?, Event.call?, Call.visible?,
        Call.documented?, Emission.documented, hHidden,
        hSpace]

variable {σ : Type}
variable {emitter : Emitter σ}
variable {modules : List ProxyModule}
variable {state : σ}

/-
  Whatever the emitter is, a visible function is emitted at a
  stage for its method.
-/
theorem stage_of_emission
    {e : Emission}
    (hMem :
      e ∈ (run emitter catalog modules
        state).calls.filterMap Call.visible?) :
    Stage.function e.proxyClass e.method ∈
        idealStages modules ∧
      e.method.isHidden = false ∧
      (Stage.function e.proxyClass e.method).IsMadeBy catalog
        (.call
          (.function e.proxyClass e.method e.function)) := by
  rcases exists_reported emitter catalog modules state with
    ⟨made, events, result, hMade, hCourse, hReported⟩
  rw [hReported.filterMap_calls rfl fun _ => rfl] at hMem
  rcases List.mem_filterMap.mp hMem with
    ⟨event, hEvent, hVisible⟩
  rcases Event.visible?_eq_some_iff.mp hVisible with
    ⟨hShown, rfl⟩
  rcases exists_stage_of_mem hMade hEvent with
    ⟨stage, hStage, hMadeBy⟩
  have hIdeal := hCourse.made_prefix.mem hStage
  cases stage with
  | describe moduleName outcome => cases hMadeBy
  | object proxyClass => cases hMadeBy
  | function proxyClass method =>
      rcases hMadeBy with ⟨hClass, hMethod, hTexts⟩
      rw [← hClass, ← hMethod] at hIdeal hTexts
      exact ⟨hIdeal, hShown, rfl, rfl, hTexts⟩

/- The events at stages emit what is to be documented. -/
theorem documented_emissions_of_made
    {stages : List Stage}
    {events : List Event}
    (hMade :
      List.Forall₂ (Stage.IsMadeBy catalog) stages events) :
    (events.filterMap Event.visible?).map
        Emission.documented =
      stages.filterMap Stage.documented? := by
  rw [List.map_filterMap]
  exact
    filterMap_of_made
      (fun _ _ hEvent => visible?_of_isMadeBy hEvent) hMade

/- However a run ends, it emits the functions it documents. -/
theorem documented_emissions
    (emitter : Emitter σ)
    (catalog : Option Catalog)
    (modules : List ProxyModule)
    (state : σ) :
    ((run emitter catalog modules
        state).calls.filterMap Call.visible?).map
          Emission.documented =
      (run emitter catalog modules state).documented := by
  rcases exists_reported emitter catalog modules state with
    ⟨made, events, result, hMade, _, hReported⟩
  rw [hReported.filterMap_calls rfl fun _ => rfl,
    hReported.documented, documented_of_made hMade]
  exact documented_emissions_of_made hMade

/- A run that goes well emits all that is to be documented. -/
theorem documented_emissions_of_run_ok
    {summary : Summary}
    (hOk :
      (run emitter catalog modules state).result =
        .ok summary) :
    ((run emitter catalog modules
        state).calls.filterMap Call.visible?).map
          Emission.documented =
      documentedFunctions modules := by
  rw [documented_emissions]
  exact documented_of_run_ok hOk

end Run

------------------------------------------------------------
-- Gathering
------------------------------------------------------------

namespace Excel

/- A wrapper has the names of a function. -/
def Wrapper.IsOf
    (f : DocumentedFunction)
    (wrapper : Wrapper) : Prop :=
  wrapper.identifier = functionIdentifier f.bare ∧
    wrapper.id = functionId f.bare

/- An entry has the id of a function. -/
def FunctionEntry.IsOf
    (f : DocumentedFunction)
    (entry : FunctionEntry) : Prop :=
  entry.id = functionId f.bare

/-
  Bindings hold an object for each of some classes, and a
  wrapper and an entry for each of some functions.
-/
structure Gathered
    (bindings : Bindings)
    (classes : List ProxyClass)
    (functions : List DocumentedFunction) : Prop where
  objects :
    List.Forall₂ ObjectConstant.IsOf classes bindings.objects
  wrappers :
    List.Forall₂ Wrapper.IsOf functions bindings.wrappers
  entries :
    List.Forall₂ FunctionEntry.IsOf functions bindings.entries

variable {options : Options}
variable {latest : Option ProxyClass}
variable {classes : List ProxyClass}
variable {emissions : List Emission}
variable {bindings : Bindings}

/- Bindings in step have gathered what they are in step with. -/
theorem InStep.gathered
    (hInStep :
      InStep options latest classes emissions bindings) :
    Gathered bindings classes
      (emissions.map Emission.documented) := by
  refine ⟨hInStep.objects, ?_, ?_⟩
  · rw [List.forall₂_map_left_iff]
    apply hInStep.wrappers.imp
    rintro e w ⟨object, _, _, rfl⟩
    exact ⟨rfl, rfl⟩
  · rw [List.forall₂_map_left_iff, hInStep.entries,
      List.forall₂_map_right_iff, List.forall₂_same]
    intro e _
    rfl

------------------------------------------------------------
-- Runs
------------------------------------------------------------

variable {catalog : Option Catalog}

/- A run that goes well gathers all that its modules lay down. -/
theorem gathered_of_run_ok
    {modules : List ProxyModule}
    {workspace : Workspace}
    {summary : Summary}
    (hOk :
      (run (emitter options) catalog modules
        workspace).result = .ok summary) :
    Gathered
      (run (emitter options) catalog modules
        workspace).state.bindings
      (Run.emittedClasses modules)
      (Run.documentedFunctions modules) := by
  rcases exists_events_of_run_ok hOk with
    ⟨events, hMade, hAccepts, hReported⟩
  have hInStep :=
    (inStep_prepare workspace).events
      (Run.placed_of_prefix List.prefix_rfl) hMade hAccepts.2
  have hClasses :
      events.filterMap Event.class? =
        Run.emittedClasses modules :=
    Run.filterMap_of_made
      (fun _ _ hEvent => Run.class?_of_isMadeBy hEvent) hMade
  have hFunctions :
      (events.filterMap Event.visible?).map
          Emission.documented =
        Run.documentedFunctions modules :=
    Run.documented_emissions_of_made hMade
  rw [hReported.lastState, bindings_finish,
    Emitter.replay_cons, ← hClasses, ← hFunctions]
  exact hInStep.gathered

end Excel

end HostBindings
