import HostBindings.Proofs.Elaboration.Placement
import HostBindings.Proofs.Elaboration.Protocol
import HostBindings.Proofs.Excel.Calls

/-
  The source and the manifest stay in step.

  At any time of a run, there is an object for each class and
  a wrapper and an entry for each visible function that has
  been emitted.  A wrapper calls its method on the object of
  its own class, since this class was emitted last.  So only
  the name of an object can be refused, which changes nothing.

  Main declarations:
    * `Emission`
    * `Excel.InStep`
    * `Excel.InStep.event`
    * `Excel.InStep.events`
    * `Excel.inStep_of_course`
    * `Excel.source_and_manifest_in_step`
-/

------------------------------------------------------------
-- Emissions
------------------------------------------------------------

namespace HostBindings

/- A function that is emitted for a method of a class. -/
structure Emission where
  proxyClass : ProxyClass
  method : Method
  function : ProxyFunction
deriving DecidableEq, Repr

/- The class that a call emits. -/
def Call.class? : Call → Option ProxyClass
| .object proxyClass => some proxyClass
| _ => none

/- Only the call for a class emits this class. -/
theorem Call.class?_eq_some_iff
    {call : Call}
    {proxyClass : ProxyClass} :
    call.class? = some proxyClass ↔
      call = .object proxyClass := by
  cases call <;> simp [class?]

/- The function that a call emits, unless it is hidden. -/
def Call.visible? : Call → Option Emission
| .function proxyClass method emitted =>
    if method.isHidden then
      none
    else
      some ⟨proxyClass, method, emitted⟩
| _ => none

namespace Event

/- The class that is emitted at an event. -/
def class? (event : Event) : Option ProxyClass :=
  event.call?.bind Call.class?

/- The visible function that is emitted at an event. -/
def visible? (event : Event) : Option Emission :=
  event.call?.bind Call.visible?

@[simp]
theorem class?_describe (moduleName : String) :
    (Event.describe moduleName).class? = none := rfl

@[simp]
theorem class?_call (call : Call) :
    (Event.call call).class? = call.class? := rfl

@[simp]
theorem visible?_describe (moduleName : String) :
    (Event.describe moduleName).visible? = none := rfl

@[simp]
theorem visible?_call (call : Call) :
    (Event.call call).visible? = call.visible? := rfl

/- Only the call for a visible function emits it. -/
theorem visible?_eq_some_iff
    {event : Event}
    {e : Emission} :
    event.visible? = some e ↔
      e.method.isHidden = false ∧
        event =
          .call (.function e.proxyClass e.method e.function) := by
  rcases event with _ | (_ | _ | ⟨proxyClass, method, made⟩ | _)
  case call.function =>
    simp only [visible?_call, Call.visible?,
      Option.ite_none_left_eq_some, Bool.not_eq_true,
      Option.some.injEq, call.injEq, Call.function.injEq]
    constructor
    · rintro ⟨hShown, rfl⟩
      exact ⟨hShown, rfl, rfl, rfl⟩
    · rintro ⟨hShown, rfl, rfl, rfl⟩
      exact ⟨hShown, rfl⟩
  all_goals simp [Call.visible?]

end Event

------------------------------------------------------------
-- Bindings in Step
------------------------------------------------------------

namespace Excel

/- An object is that of a class. -/
def ObjectConstant.IsOf
    (proxyClass : ProxyClass)
    (object : ObjectConstant) : Prop :=
  objectName proxyClass.name = .ok object.name ∧
    object.className = proxyClass.name

/-
  A wrapper is that of an emission and calls the method on
  the object of its class, which is among some objects.
-/
def Wrapper.Binds
    (objects : List ObjectConstant)
    (e : Emission)
    (w : Wrapper) : Prop :=
  ∃ object ∈ objects,
    object.IsOf e.proxyClass ∧
      w = wrapper object.name e.method e.function

/- The entry of an emission. -/
def entryOf
    (options : Options)
    (e : Emission) : FunctionEntry :=
  functionEntry e.method e.function
    (localized options e.function).2

/-
  Bindings hold an object for each of some classes, and a
  wrapper and an entry for each of some emissions.  The
  object in use is that of the latest class.
-/
structure InStep
    (options : Options)
    (latest : Option ProxyClass)
    (classes : List ProxyClass)
    (emissions : List Emission)
    (bindings : Bindings) : Prop where
  objects :
    List.Forall₂ ObjectConstant.IsOf classes bindings.objects
  current :
    ∀ proxyClass,
      latest = some proxyClass →
        ∃ object ∈ bindings.objects,
          object.IsOf proxyClass ∧
            bindings.currentObject = some object.name
  wrappers :
    List.Forall₂ (Wrapper.Binds bindings.objects) emissions
      bindings.wrappers
  entries : bindings.entries = emissions.map (entryOf options)

variable {options : Options}
variable {latest : Option ProxyClass}
variable {classes : List ProxyClass}
variable {emissions : List Emission}
variable {bindings : Bindings}

/- At the start there is nothing. -/
theorem inStep_empty : InStep options none [] [] .empty :=
  ⟨.nil, nofun, .nil, rfl⟩

/- A class whose object has a name adds this object. -/
theorem InStep.addObject
    {proxyClass : ProxyClass}
    {name : String}
    (hInStep :
      InStep options latest classes emissions bindings)
    (hName : objectName proxyClass.name = .ok name) :
    ∃ next,
      bindings.addObject proxyClass = .ok next ∧
        InStep options (some proxyClass)
          (classes ++ [proxyClass]) emissions next := by
  have hIsOf :
      ObjectConstant.IsOf proxyClass
        ⟨name, proxyClass.name⟩ :=
    ⟨hName, rfl⟩
  refine
    ⟨{ bindings with
        objects :=
          bindings.objects ++ [⟨name, proxyClass.name⟩]
        currentObject := some name }, ?_, ?_⟩
  · simp only [Bindings.addObject, hName]
  · refine ⟨?_, ?_, ?_, hInStep.entries⟩
    · exact
        List.rel_append hInStep.objects (.cons hIsOf .nil)
    · rintro _ ⟨⟩
      exact ⟨_, by simp, hIsOf, rfl⟩
    · apply hInStep.wrappers.imp
      rintro e w ⟨object, hObject, hWrapper⟩
      exact ⟨object, List.mem_append_left _ hObject, hWrapper⟩

/- A method of the latest class adds a wrapper and an entry. -/
theorem InStep.addFunction
    {proxyClass : ProxyClass}
    (hInStep :
      InStep options (some proxyClass) classes emissions
        bindings)
    (method : Method)
    (function : ProxyFunction) :
    ∃ next,
      bindings.addFunction proxyClass method function
          (localized options function).2 = .ok next ∧
        InStep options (some proxyClass) classes
          (emissions ++ [⟨proxyClass, method, function⟩])
          next := by
  rcases hInStep.current proxyClass rfl with
    ⟨object, hObject, hIsOf, hCurrent⟩
  refine
    ⟨{ bindings with
        wrappers :=
          bindings.wrappers ++
            [wrapper object.name method function]
        entries :=
          bindings.entries ++
            [entryOf options
              ⟨proxyClass, method, function⟩] }, ?_, ?_⟩
  · simp only [Bindings.addFunction, Bindings.objectFor,
      hCurrent, entryOf]
  · refine ⟨hInStep.objects, hInStep.current, ?_, ?_⟩
    · exact
        List.rel_append hInStep.wrappers
          (.cons ⟨object, hObject, hIsOf, rfl⟩ .nil)
    · rw [hInStep.entries, List.map_append]
      rfl

------------------------------------------------------------
-- Events
------------------------------------------------------------

variable {catalog : Option Catalog}
variable {workspace : Workspace}

/- The bindings are empty once they are prepared. -/
theorem inStep_prepare (workspace : Workspace) :
    InStep options none [] []
      ((emitter options).advance workspace
        (.call .prepare)).bindings :=
  inStep_empty

/-
  The event of a stage that is placed keeps the bindings in
  step, or else it names an object in vain and changes
  nothing.
-/
theorem InStep.event
    {stage : Run.Stage}
    {event : Event}
    (hInStep :
      InStep options latest classes emissions
        workspace.bindings)
    (hPlaced : stage.IsPlaced latest)
    (hMade : stage.IsMadeBy catalog event) :
    ((emitter options).answer workspace event = .ok () ∧
      InStep options (stage.currentClass latest)
        (classes ++ event.class?.toList)
        (emissions ++ event.visible?.toList)
        ((emitter options).advance workspace
          event).bindings) ∨
    (∃ proxyClass fault,
      event = .call (.object proxyClass) ∧
        objectName proxyClass.name = .error fault ∧
        (emitter options).answer workspace event =
          .error fault ∧
        (emitter options).advance workspace event =
          workspace) := by
  rcases Run.Stage.isMadeBy_cases hMade with
    ⟨moduleName, outcome, rfl, rfl⟩ |
    ⟨proxyClass, rfl, rfl⟩ |
    ⟨proxyClass, method, function, rfl, rfl, _⟩
  · left
    refine ⟨rfl, ?_⟩
    simpa [Emitter.advance] using hInStep
  · cases hName : objectName proxyClass.name with
    | error fault =>
        right
        refine ⟨proxyClass, fault, rfl, hName, ?_, ?_⟩
        · simp [Emitter.answer, emitter, respond,
            Bindings.addObject, hName, Response.error]
        · simp [Emitter.advance, emitter, respond,
            Bindings.addObject, hName, Response.error]
    | ok name =>
        left
        rcases hInStep.addObject hName with
          ⟨next, hNext, hAdded⟩
        simp only [Emitter.answer, Emitter.advance, emitter,
          respond, hNext, Response.ok]
        refine ⟨trivial, ?_⟩
        simpa [Call.class?, Call.visible?] using hAdded
  · left
    cases hPlaced
    by_cases hHidden : method.isHidden = true
    · simp only [Emitter.answer, Emitter.advance, emitter,
        respond, emitFunction, if_pos hHidden, Response.ok]
      refine ⟨trivial, ?_⟩
      simpa [Call.class?, Call.visible?, hHidden]
        using hInStep
    · rcases hInStep.addFunction method function with
        ⟨next, hNext, hAdded⟩
      simp only [Emitter.answer, Emitter.advance, emitter,
        respond, emitFunction, if_neg hHidden, hNext]
      refine ⟨trivial, ?_⟩
      simpa [Call.class?, Call.visible?, hHidden]
        using hAdded

/- So do the events of stages, if all are accepted. -/
theorem InStep.events
    {stages : List Run.Stage}
    {events : List Event}
    (hInStep :
      InStep options latest classes emissions
        workspace.bindings)
    (hPlaced : Run.Placed latest stages)
    (hMade :
      List.Forall₂ (Run.Stage.IsMadeBy catalog) stages events)
    (hAccepts : (emitter options).Accepts workspace events) :
    InStep options (Run.classAfter latest stages)
      (classes ++ events.filterMap Event.class?)
      (emissions ++ events.filterMap Event.visible?)
      ((emitter options).replay workspace events).bindings := by
  induction hMade generalizing workspace latest classes
      emissions with
  | nil => simpa [Run.classAfter] using hInStep
  | @cons stage event stages events hEvent hRest ih =>
      rcases hInStep.event hPlaced.1 hEvent with
        ⟨_, hNext⟩ | ⟨_, fault, _, _, hAnswer, _⟩
      · have hMore := ih hNext hPlaced.2 hAccepts.2
        have hCons {α : Type} (f : Event → Option α) :
            (f event).toList ++ events.filterMap f =
              (event :: events).filterMap f := by
          cases hFound : f event <;> simp [hFound]
        simp only [List.append_assoc, hCons] at hMore
        exact hMore
      · rw [hAccepts.1] at hAnswer
        cases hAnswer

------------------------------------------------------------
-- Courses
------------------------------------------------------------

variable {modules : List ProxyModule}
variable {made : List Run.Stage}
variable {events : List Event}
variable {result : Except Fault Unit}

/- A course in which everything is accepted stays in step. -/
theorem inStep_of_accepted
    (hMade :
      List.Forall₂ (Run.Stage.IsMadeBy catalog) made events)
    (hPlaced : Run.Placed none made)
    (hAccepts :
      (emitter options).Accepts workspace
        (.call .prepare :: events)) :
    InStep options (Run.classAfter none made)
      (events.filterMap Event.class?)
      (events.filterMap Event.visible?)
      ((emitter options).replay workspace
        (.call .prepare :: events)).bindings :=
  (inStep_prepare workspace).events hPlaced hMade hAccepts.2

/-
  A call that is refused names an object in vain, and leaves
  the bindings in step.
-/
theorem inStep_of_refused
    {good : List Event}
    {call : Call}
    {fault : Fault}
    (hMade :
      List.Forall₂ (Run.Stage.IsMadeBy catalog) made
        (good ++ [.call call]))
    (hPlaced : Run.Placed none made)
    (hAccepts :
      (emitter options).Accepts workspace
        (.call .prepare :: good))
    (hAnswer :
      (emitter options).answer
        ((emitter options).replay workspace
          (.call .prepare :: good))
        (.call call) = .error fault) :
    ∃ latest proxyClass,
      call = .object proxyClass ∧
        objectName proxyClass.name = .error fault ∧
        InStep options latest
          (good.filterMap Event.class?)
          ((good ++ [Event.call call]).filterMap Event.visible?)
          ((emitter options).replay workspace
            (.call .prepare ::
              (good ++ [.call call]))).bindings := by
  rcases Run.exists_last_stage hMade with
    ⟨before, stage, rfl, hGood, hLast⟩
  rcases Run.placed_append.mp hPlaced with
    ⟨hBefore, hStage, _⟩
  have hInStep := inStep_of_accepted hGood hBefore hAccepts
  rcases hInStep.event hStage hLast with
    ⟨hOk, _⟩ |
    ⟨proxyClass, refusal, hCall, hName, hRefused, hSame⟩
  · rw [hAnswer] at hOk
    cases hOk
  · rw [hAnswer] at hRefused
    cases hRefused
    cases hCall
    refine
      ⟨Run.classAfter none before, proxyClass, rfl, hName, ?_⟩
    have hNothing :
        (good ++ [Event.call (.object proxyClass)]).filterMap
            Event.visible? =
          good.filterMap Event.visible? := by
      rw [List.filterMap_append]
      exact List.append_nil _
    rw [← List.cons_append, Emitter.replay_append,
      Emitter.replay_cons, Emitter.replay_nil, hSame,
      hNothing]
    exact hInStep

/-
  In any course the bindings are in step with everything that
  is accepted.  This is all, but for a last class whose object
  has no name.
-/
theorem inStep_of_course
    (hMade :
      List.Forall₂ (Run.Stage.IsMadeBy catalog) made events)
    (hCourse :
      Run.Course (emitter options) catalog modules workspace
        made events result) :
    ∃ latest good,
      (emitter options).Accepts workspace
          (.call .prepare :: good) ∧
        InStep options latest
          (good.filterMap Event.class?)
          (events.filterMap Event.visible?)
          ((emitter options).replay workspace
            (.call .prepare :: events)).bindings ∧
        (events = good ∨
          ∃ proxyClass fault,
            events = good ++ [.call (.object proxyClass)] ∧
              objectName proxyClass.name = .error fault ∧
              result = .error fault) := by
  have hPlaced := Run.placed_of_prefix hCourse.made_prefix
  cases hCourse with
  | completed hAll hClear hAccepts =>
      exact
        ⟨_, events, hAccepts,
          inStep_of_accepted hMade hPlaced hAccepts, .inl rfl⟩
  | obstructed before after stage hStages hFault hClear
      hAnnounced hAccepts =>
      exact
        ⟨_, events, hAccepts,
          inStep_of_accepted hMade hPlaced hAccepts, .inl rfl⟩
  | @refused before call fault hEvents hAnswer hClear hPrefix
      hAccepts =>
      cases before with
      | nil =>
          -- the preparation is never refused
          cases hEvents
          cases hAnswer
      | cons first good =>
          rw [List.cons_append, List.cons.injEq] at hEvents
          rcases hEvents with ⟨rfl, rfl⟩
          rcases inStep_of_refused hMade hPlaced hAccepts
              hAnswer with
            ⟨latest, proxyClass, rfl, hName, hInStep⟩
          exact
            ⟨latest, good, hAccepts, hInStep,
              .inr ⟨proxyClass, fault, rfl, hName, rfl⟩⟩

end Excel

end HostBindings
