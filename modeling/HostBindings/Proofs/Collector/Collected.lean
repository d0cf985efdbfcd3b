import HostBindings.Locale.Collector
import HostBindings.Proofs.CanonicalTree.Entries
import HostBindings.Proofs.Elaboration.Stages

/-
  What the collector enters into its tree.

  Over the events of a run, the tree of the collector is that
  of the documented functions: the parameters of each and
  then the function itself.

  Main declarations:
    * `DocumentedFunction`
    * `Call.documented?`
    * `DocumentedFunction.entries`
    * `Collector.tree_of_events`
-/

------------------------------------------------------------
-- Documented Functions
------------------------------------------------------------

namespace HostBindings

/- A function that is documented, with its parameters. -/
structure DocumentedFunction where
  nameSpace : Option String
  name : String
  parameters : List Parameter
deriving DecidableEq, Repr

/- The function that a call documents: hidden ones are not. -/
def Call.documented? : Call → Option DocumentedFunction
| .function proxyClass method emitted =>
    if method.isHidden then
      none
    else
      some
        ⟨proxyClass.nameSpace, emitted.name,
          method.parameters⟩
| _ => none

/- The functions that events document. -/
def Event.documented
    (events : List Event) : List DocumentedFunction :=
  (events.filterMap Event.call?).filterMap Call.documented?

/- What a documented function enters into a tree. -/
def DocumentedFunction.entries
    (f : DocumentedFunction) : List CanonicalTree.Entry :=
  f.parameters.map .parameter ++
    [CanonicalTree.Entry.function f.nameSpace f.name]

/- The functions among the entries are the documented ones. -/
theorem DocumentedFunction.function_mem_entries
    {nameSpace : Option String}
    {functionName : String}
    {documented : List DocumentedFunction} :
    CanonicalTree.Entry.function nameSpace functionName ∈
        documented.flatMap entries ↔
      ∃ f ∈ documented,
        f.nameSpace = nameSpace ∧ f.name = functionName := by
  simp [entries, eq_comm]

/- The parameters among the entries are theirs. -/
theorem DocumentedFunction.parameter_mem_entries
    {p : Parameter}
    {documented : List DocumentedFunction} :
    CanonicalTree.Entry.parameter p ∈
        documented.flatMap entries ↔
      ∃ f ∈ documented, p ∈ f.parameters := by
  simp [entries]

------------------------------------------------------------
-- Single Calls
------------------------------------------------------------

namespace Collector

/- Parameters that are not refused are entered in order. -/
theorem addParameters_ok
    {parameters : List Parameter}
    {tree after : CanonicalTree}
    (hOk : addParameters tree parameters = (after, .ok ())) :
    tree.AcceptsAll (parameters.map .parameter) ∧
      after = tree.enterAll (parameters.map .parameter) := by
  induction parameters generalizing tree with
  | nil =>
      cases hOk
      exact ⟨trivial, rfl⟩
  | cons p parameters ih =>
      rw [addParameters] at hOk
      cases hFirst : tree.addParameter p with
      | mk next result =>
          rw [hFirst] at hOk
          have hEnter :
              tree.enter (.parameter p) = (next, result) :=
            hFirst
          cases result with
          | error fault => cases hOk
          | ok =>
              rcases ih hOk with ⟨hAccepts, hAfter⟩
              rw [List.map_cons, CanonicalTree.enterAll_cons,
                CanonicalTree.AcceptsAll, hEnter]
              exact ⟨⟨rfl, hAccepts⟩, hAfter⟩

/- A function that is not refused is entered at the end. -/
theorem addFunction_ok
    {parameters : List Parameter}
    {function : ProxyFunction}
    {tree after : CanonicalTree}
    (hOk :
      addFunction tree parameters function = (after, .ok ())) :
    tree.AcceptsAll
        (DocumentedFunction.entries
          ⟨function.nameSpace, function.name, parameters⟩) ∧
      after =
        tree.enterAll
          (DocumentedFunction.entries
            ⟨function.nameSpace, function.name,
              parameters⟩) := by
  rw [addFunction] at hOk
  cases hFirst : addParameters tree parameters with
  | mk next result =>
      rw [hFirst] at hOk
      cases result with
      | error fault => cases hOk
      | ok =>
          rcases addParameters_ok hFirst with ⟨hAccepts, rfl⟩
          rw [DocumentedFunction.entries,
            CanonicalTree.acceptsAll_append,
            CanonicalTree.enterAll_append]
          refine ⟨⟨hAccepts, ?_, trivial⟩, ?_⟩
          · exact congrArg Prod.snd hOk
          · exact (congrArg Prod.fst hOk).symm

/- A function is documented in the namespace of its class. -/
theorem tree_of_function
    {c : Collector}
    {proxyClass : ProxyClass}
    {method : Method}
    {function : ProxyFunction}
    (hSpace : function.nameSpace = proxyClass.nameSpace)
    (hOk :
      (c.respond (.function proxyClass method function)).result =
        .ok ()) :
    c.tree.AcceptsAll
        ((Event.documented
          [.call (.function proxyClass method function)]).flatMap
            DocumentedFunction.entries) ∧
      (c.respond (.function proxyClass method function)).state.tree =
        c.tree.enterAll
          ((Event.documented
            [.call (.function proxyClass method function)]).flatMap
              DocumentedFunction.entries) := by
  simp only [Event.documented, Event.call?, Call.documented?,
    List.filterMap_cons, List.filterMap_nil]
  rw [respond] at hOk ⊢
  by_cases hHidden : method.isHidden = true
  · rw [if_pos hHidden, if_pos hHidden]
    exact ⟨trivial, rfl⟩
  · rw [if_neg hHidden] at hOk
    rw [if_neg hHidden, if_neg hHidden]
    cases hTree :
        addFunction c.tree method.parameters function with
    | mk after result =>
        rw [hTree] at hOk
        cases hOk
        simpa [hSpace] using addFunction_ok hTree

------------------------------------------------------------
-- Whole Runs
------------------------------------------------------------

variable {catalog : Option Catalog}

/- What is entered at the event of a stage. -/
theorem tree_of_event
    {c : Collector}
    {stage : Run.Stage}
    {event : Event}
    (hMade : stage.IsMadeBy catalog event)
    (hAnswer : emitter.answer c event = .ok ()) :
    c.tree.AcceptsAll
        ((Event.documented [event]).flatMap
          DocumentedFunction.entries) ∧
      (emitter.advance c event).tree =
        c.tree.enterAll
          ((Event.documented [event]).flatMap
            DocumentedFunction.entries) := by
  rcases Run.Stage.isMadeBy_cases hMade with
    ⟨_, _, rfl, rfl⟩ | ⟨_, rfl, rfl⟩ |
    ⟨_, _, _, rfl, rfl, _, hSpace, _⟩
  · exact ⟨trivial, rfl⟩
  · exact ⟨trivial, rfl⟩
  · exact tree_of_function hSpace hAnswer

/- What is entered at the events of stages. -/
theorem tree_of_events
    {c : Collector}
    {stages : List Run.Stage}
    {events : List Event}
    (hMade :
      List.Forall₂ (Run.Stage.IsMadeBy catalog) stages events)
    (hAccepts : emitter.Accepts c events) :
    c.tree.AcceptsAll
        ((Event.documented events).flatMap
          DocumentedFunction.entries) ∧
      (emitter.replay c events).tree =
        c.tree.enterAll
          ((Event.documented events).flatMap
            DocumentedFunction.entries) := by
  induction hMade generalizing c with
  | nil => exact ⟨trivial, rfl⟩
  | @cons stage event stages events hEvent hRest ih =>
      rcases tree_of_event hEvent hAccepts.1 with
        ⟨hFirst, hTree⟩
      have hMore := ih hAccepts.2
      rw [hTree] at hMore
      have hDocumented :
          Event.documented (event :: events) =
            Event.documented [event] ++
              Event.documented events := by
        simp only [Event.documented, ← List.filterMap_append,
          List.singleton_append]
      rw [hDocumented, List.flatMap_append,
        CanonicalTree.acceptsAll_append,
        CanonicalTree.enterAll_append]
      exact ⟨⟨hFirst, hMore.1⟩, hMore.2⟩

end Collector

end HostBindings
