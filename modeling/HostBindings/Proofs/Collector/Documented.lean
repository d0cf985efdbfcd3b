import HostBindings.Proofs.Collector.Agreement
import HostBindings.Proofs.Elaboration.Obstacles

/-
  What the modules of a run lay down to be documented.

  A run that goes well documents the visible functions of its
  modules, whatever its emitter and its catalog are.  Their
  names have been checked to be distinct.  The collector
  enters all of them, so they have a canonical tree.

  Main declarations:
    * `Run.Stage.documented?`
    * `Run.documentedFunctions`
    * `Run.documented_of_run_ok`
    * `Run.nodup_documentedFunctions`
    * `Collector.canonical_of_run_ok`
-/

------------------------------------------------------------
-- Documented Functions of Modules
------------------------------------------------------------

namespace HostBindings

/- The name within the namespace. -/
def DocumentedFunction.qualifiedName
    (f : DocumentedFunction) : String :=
  HostBindings.qualifiedName f.nameSpace f.name

namespace Run

/- The function that a stage documents, if it has a name. -/
def Stage.documented? : Stage → Option DocumentedFunction
| .function proxyClass method =>
    match functionName proxyClass.methodInfix method with
    | .error _ => none
    | .ok name =>
        if method.isHidden then
          none
        else
          some
            ⟨proxyClass.nameSpace, name, method.parameters⟩
| _ => none

/- The visible functions of modules, in their order. -/
def documentedFunctions
    (modules : List ProxyModule) : List DocumentedFunction :=
  (idealStages modules).filterMap Stage.documented?

variable {catalog : Option Catalog}
variable {stages : List Stage}

/- A visible function with a name is documented. -/
theorem Stage.mem_documented
    {proxyClass : ProxyClass}
    {method : Method}
    {name : String}
    (hStage : Stage.function proxyClass method ∈ stages)
    (hName :
      functionName proxyClass.methodInfix method = .ok name)
    (hVisible : method.isHidden = false) :
    ⟨proxyClass.nameSpace, name, method.parameters⟩ ∈
      stages.filterMap documented? := by
  apply List.mem_filterMap.mpr
  refine ⟨_, hStage, ?_⟩
  simp [documented?, hName, hVisible]

/- A stage that documents a function takes its name. -/
theorem Stage.qualifiedName?_of_documented?
    {stage : Stage}
    {f : DocumentedFunction}
    (hStage : stage.documented? = some f) :
    stage.qualifiedName? = some f.qualifiedName := by
  cases stage with
  | describe moduleName outcome => cases hStage
  | object proxyClass => cases hStage
  | function proxyClass method =>
      simp only [documented?, qualifiedName?] at hStage ⊢
      cases hName :
          functionName proxyClass.methodInfix method with
      | error fault => simp [hName] at hStage
      | ok name =>
          simp only [hName, Option.ite_none_left_eq_some,
            Option.some.injEq] at hStage ⊢
          rw [← hStage.2]
          rfl

/- So the documented functions have some of the names taken. -/
theorem qualifiedNames_of_documented (stages : List Stage) :
    List.Sublist
      ((stages.filterMap Stage.documented?).map
        DocumentedFunction.qualifiedName)
      (qualifiedNames stages) := by
  induction stages with
  | nil => exact List.Sublist.slnil
  | cons stage stages ih =>
      unfold qualifiedNames
      rw [List.filterMap_cons, List.filterMap_cons]
      cases hStage : stage.documented? with
      | none =>
          cases stage.qualifiedName? with
          | none => exact ih
          | some name => exact ih.cons name
      | some f =>
          rw [Stage.qualifiedName?_of_documented? hStage]
          exact ih.cons_cons f.qualifiedName

/- Clear stages document functions with distinct names. -/
theorem nodup_documentedFunctions
    {modules : List ProxyModule}
    (hClear : Clear catalog [] (idealStages modules)) :
    ((documentedFunctions modules).map
      DocumentedFunction.qualifiedName).Nodup := by
  exact
    (nodup_qualifiedNames_of_clear hClear).1.sublist
      (qualifiedNames_of_documented _)

------------------------------------------------------------
-- Documented Functions of Runs
------------------------------------------------------------

/- The event at a stage documents what the stage lays down. -/
theorem documented?_of_isMadeBy
    {stage : Stage}
    {event : Event}
    (hMade : stage.IsMadeBy catalog event) :
    event.call?.bind Call.documented? = stage.documented? := by
  rcases Stage.isMadeBy_cases hMade with
    ⟨_, _, rfl, rfl⟩ | ⟨_, rfl, rfl⟩ |
    ⟨proxyClass, method, function, rfl, rfl, hName, _⟩
  · rfl
  · rfl
  · simp [Event.call?, Call.documented?, Stage.documented?,
      hName]

/- The events at stages document what the stages lay down. -/
theorem documented_of_made
    {events : List Event}
    (hMade :
      List.Forall₂ (Stage.IsMadeBy catalog) stages events) :
    Event.documented events =
      stages.filterMap Stage.documented? := by
  unfold Event.documented
  rw [List.filterMap_filterMap]
  exact
    filterMap_of_made
      (fun _ _ hEvent => documented?_of_isMadeBy hEvent) hMade

/- A run that goes well documents all of them. -/
theorem documented_of_run_ok
    {σ : Type}
    {emitter : Emitter σ}
    {modules : List ProxyModule}
    {state : σ}
    {summary : Summary}
    (hOk :
      (run emitter catalog modules state).result =
        .ok summary) :
    (run emitter catalog modules state).documented =
      documentedFunctions modules := by
  rcases exists_events_of_run_ok hOk with
    ⟨events, hMade, _, hReported⟩
  rw [hReported.documented]
  exact documented_of_made hMade

end Run

------------------------------------------------------------
-- The Canonical Tree
------------------------------------------------------------

/-
  The collector enters the visible functions of the modules
  one after the other, and none of them is refused.
-/
theorem Collector.canonical_of_run_ok
    {catalog : Option Catalog}
    {modules : List ProxyModule}
    {c : Collector}
    {summary : Summary}
    (hOk :
      (run emitter catalog modules c).result = .ok summary) :
    let entries :=
      (Run.documentedFunctions modules).flatMap
        DocumentedFunction.entries
    let start := CanonicalTree.empty c.documentationBase
    start.AcceptsAll entries ∧
      (run emitter catalog modules c).state.canonical =
        some (start.enterAll entries).toJson := by
  rcases exists_events_of_run_ok hOk with
    ⟨events, hMade, hAccepts, hReported⟩
  have hTree := tree_of_events hMade hAccepts.2
  rw [Run.documented_of_made hMade] at hTree
  refine ⟨hTree.1, ?_⟩
  rw [hReported.lastState, Emitter.replay_cons]
  exact congrArg (fun tree => some tree.toJson) hTree.2

end HostBindings
