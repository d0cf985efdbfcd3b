import HostBindings.Elaboration.Run
import HostBindings.Proofs.Registration.Registered

/-
  The stages of an elaboration.

  What is to be done in a run, and in which order, does not
  depend on the emitter.  The modules lay down a list of
  stages, and a run works through it up to the first fault,
  which is that of a stage itself or of the call made at it.

  Key definitions include:
    * `Run.Stage`
    * `Run.idealStages`
    * `Run.preparedFunction`
    * `Run.Stage.fault?`
    * `Run.Stage.IsMadeBy`
    * `Run.Stage.isMadeBy_cases`
    * `Run.play`
-/

------------------------------------------------------------
-- Stages
------------------------------------------------------------

namespace HostBindings

/- The fault of a description, or of what it leaves waiting. -/
def ProxyModule.outcome
    (module : ProxyModule)
    (session : Session) : Except Fault Unit :=
  match module.description.run session with
  | (_, .error fault) => .error fault
  | (after, .ok ()) =>
      if 0 < after.waitingCount then
        .error (.danglingParameters module.name
          after.waitingCount)
      else
        .ok ()

/- The session once the classes of a module are taken out. -/
def ProxyModule.sessionAfter
    (module : ProxyModule)
    (session : Session) : Session :=
  (module.description.run session).1.takeClasses.2

/- Add two counts. -/
def Summary.plus (first second : Summary) : Summary where
  modules := first.modules + second.modules
  classes := first.classes + second.classes
  functions := first.functions + second.functions

/- Counts may be added in any grouping. -/
theorem Summary.plus_assoc (first second third : Summary) :
    (first.plus second).plus third =
      first.plus (second.plus third) := by
  simp [Summary.plus, Nat.add_assoc]

namespace Run

/-
  A stage of an elaboration: a module is described with some
  outcome, or a class or a method of it is emitted.
-/
inductive Stage where
| describe (moduleName : String) (outcome : Except Fault Unit)
| object (proxyClass : ProxyClass)
| function (proxyClass : ProxyClass) (method : Method)

/- A class is followed by its methods in order. -/
def classStages (proxyClass : ProxyClass) : List Stage :=
  .object proxyClass ::
    proxyClass.methods.map (.function proxyClass)

/- A module is followed by the classes that it registers. -/
def moduleStages
    (session : Session)
    (module : ProxyModule) : List Stage :=
  .describe module.name (module.outcome session) ::
    (module.description.registered session).flatMap
      classStages

/- The stages of modules that are described in a session. -/
def stagesFrom : Session → List ProxyModule → List Stage
| _, [] => []
| session, module :: rest =>
    moduleStages session module ++
      stagesFrom (module.sessionAfter session) rest

/- The stages of a run in which nothing fails. -/
def idealStages (modules : List ProxyModule) : List Stage :=
  stagesFrom Session.start modules

------------------------------------------------------------
-- Counting Stages
------------------------------------------------------------

/- What a stage adds to the count of a run. -/
def Stage.count : Stage → Summary
| .describe _ _ => ⟨1, 0, 0⟩
| .object _ => ⟨0, 1, 0⟩
| .function _ _ => ⟨0, 0, 1⟩

/- How much stages generate together. -/
def tally : List Stage → Summary
| [] => ⟨0, 0, 0⟩
| stage :: rest => stage.count.plus (tally rest)

/- Stages are counted part by part. -/
theorem tally_append (first second : List Stage) :
    tally (first ++ second) =
      (tally first).plus (tally second) := by
  induction first with
  | nil =>
      simp [tally, Summary.plus]
  | cons stage first ih =>
      rw [List.cons_append, tally, tally, ih,
        Summary.plus_assoc]

/- Each method counts once. -/
theorem tally_functions
    (proxyClass : ProxyClass)
    (methods : List Method) :
    tally (methods.map (.function proxyClass)) =
      ⟨0, 0, methods.length⟩ := by
  induction methods with
  | nil => rfl
  | cons method methods ih =>
      simp [tally, ih, Stage.count, Summary.plus, Nat.add_comm]

/- A class counts once, and so does each of its methods. -/
theorem tally_classStages (proxyClass : ProxyClass) :
    tally (classStages proxyClass) =
      ⟨0, 1, proxyClass.methods.length⟩ := by
  simp [classStages, tally, tally_functions, Stage.count,
    Summary.plus]

------------------------------------------------------------
-- Obstacles
------------------------------------------------------------

namespace Stage

/- The name under which a stage emits a function. -/
def qualifiedName? : Stage → Option String
| .function proxyClass method =>
    match functionName proxyClass.methodInfix method with
    | .error _ => none
    | .ok name =>
        some (qualifiedName proxyClass.nameSpace name)
| _ => none

end Stage

/- The names that stages take. -/
def qualifiedNames (stages : List Stage) : List String :=
  stages.filterMap Stage.qualifiedName?

/-
  The function of a method, given the stages before it: it
  needs a name, which must be free, and translations.
-/
def preparedFunction
    (catalog : Option Catalog)
    (earlier : List Stage)
    (proxyClass : ProxyClass)
    (method : Method) : Except Fault ProxyFunction :=
  match functionName proxyClass.methodInfix method with
  | .error fault => .error fault
  | .ok name =>
      if qualifiedName proxyClass.nameSpace name ∈
          qualifiedNames earlier then
        .error (.duplicateFunction
          (qualifiedName proxyClass.nameSpace name))
      else
        match localizations catalog proxyClass method name with
        | .error fault => .error fault
        | .ok localizations =>
            .ok
              { name := name
                nameSpace := proxyClass.nameSpace
                localizations := localizations }

/- A function that is prepared has a free name and texts. -/
theorem preparedFunction_ok
    {catalog : Option Catalog}
    {earlier : List Stage}
    {proxyClass : ProxyClass}
    {method : Method}
    {function : ProxyFunction}
    (hOk :
      preparedFunction catalog earlier proxyClass method =
        .ok function) :
    functionName proxyClass.methodInfix method =
        .ok function.name ∧
      qualifiedName proxyClass.nameSpace function.name ∉
        qualifiedNames earlier ∧
      function.nameSpace = proxyClass.nameSpace ∧
      localizations catalog proxyClass method function.name =
        .ok function.localizations := by
  unfold preparedFunction at hOk
  cases hName : functionName proxyClass.methodInfix method with
  | error fault =>
      rw [hName] at hOk
      cases hOk
  | ok name =>
      simp only [hName] at hOk
      split at hOk
      · cases hOk
      · rename_i hFree
        cases hTexts :
            localizations catalog proxyClass method name with
        | error fault =>
            rw [hTexts] at hOk
            cases hOk
        | ok texts =>
            rw [hTexts] at hOk
            cases hOk
            exact ⟨rfl, hFree, rfl, hTexts⟩

namespace Stage

/- The fault of a stage itself, whatever the emitter does. -/
def fault?
    (catalog : Option Catalog)
    (earlier : List Stage) : Stage → Option Fault
| .describe _ (.error fault) => some fault
| .describe _ (.ok ()) => none
| .object _ => none
| .function proxyClass method =>
    match preparedFunction catalog earlier proxyClass method
      with
    | .error fault => some fault
    | .ok _ => none

/-
  What still happens at a stage with a fault: a module has
  been described, while a function is not emitted.
-/
def announced : Stage → List Stage
| .describe moduleName outcome =>
    [.describe moduleName outcome]
| _ => []

/-
  What happens at a stage.  A function is emitted under the
  name of its method in the namespace of its class, with its
  translations.
-/
def IsMadeBy
    (catalog : Option Catalog) : Stage → Event → Prop
| .describe moduleName _, .describe described =>
    described = moduleName
| .object proxyClass, .call (.object emitted) =>
    emitted = proxyClass
| .function proxyClass method,
    .call (.function emitted emittedMethod made) =>
    emitted = proxyClass ∧ emittedMethod = method ∧
      functionName proxyClass.methodInfix method =
        .ok made.name ∧
      made.nameSpace = proxyClass.nameSpace ∧
      localizations catalog proxyClass method made.name =
        .ok made.localizations
| _, _ => False

/-
  The three ways in which an event is made at a stage.
-/
theorem isMadeBy_cases
    {catalog : Option Catalog}
    {stage : Stage}
    {event : Event}
    (hMade : stage.IsMadeBy catalog event) :
    (∃ moduleName outcome,
      stage = .describe moduleName outcome ∧
        event = .describe moduleName) ∨
    (∃ proxyClass,
      stage = .object proxyClass ∧
        event = .call (.object proxyClass)) ∨
    (∃ proxyClass method made,
      stage = .function proxyClass method ∧
        event = .call (.function proxyClass method made) ∧
        functionName proxyClass.methodInfix method =
          .ok made.name ∧
        made.nameSpace = proxyClass.nameSpace ∧
        localizations catalog proxyClass method made.name =
          .ok made.localizations) := by
  cases stage with
  | describe moduleName outcome =>
      cases event with
      | describe described =>
          cases hMade
          exact .inl ⟨_, outcome, rfl, rfl⟩
      | call call => exact hMade.elim
  | object proxyClass =>
      rcases event with described | (_ | emitted | _ | _)
      case call.object =>
        cases hMade
        exact .inr (.inl ⟨_, rfl, rfl⟩)
      all_goals exact hMade.elim
  | function proxyClass method =>
      rcases event with described | (_ | _ | ⟨_, _, made⟩ | _)
      case call.function =>
        rcases hMade with ⟨rfl, rfl, hMade⟩
        exact .inr (.inr ⟨_, _, made, rfl, rfl, hMade⟩)
      all_goals exact hMade.elim

end Stage

variable {catalog : Option Catalog}
variable {stages : List Stage}
variable {events : List Event}

/-
  What is read off the events at stages is read off the
  stages, if it is so for each of them.
-/
theorem filterMap_of_made
    {α : Type}
    {ofEvent : Event → Option α}
    {ofStage : Stage → Option α}
    (hSame :
      ∀ stage event,
        stage.IsMadeBy catalog event →
          ofEvent event = ofStage stage)
    (hMade :
      List.Forall₂ (Stage.IsMadeBy catalog) stages events) :
    events.filterMap ofEvent = stages.filterMap ofStage := by
  induction hMade with
  | nil => rfl
  | cons hEvent hRest ih =>
      rw [List.filterMap_cons, List.filterMap_cons, ih,
        hSame _ _ hEvent]

/- Every event is made at one of the stages. -/
theorem exists_stage_of_mem
    {event : Event}
    (hMade :
      List.Forall₂ (Stage.IsMadeBy catalog) stages events)
    (hMem : event ∈ events) :
    ∃ stage ∈ stages, stage.IsMadeBy catalog event := by
  induction hMade with
  | nil => cases hMem
  | cons hEvent hRest ih =>
      rcases List.mem_cons.mp hMem with rfl | hLater
      · exact ⟨_, List.mem_cons_self, hEvent⟩
      · rcases ih hLater with ⟨stage, hStage, hOther⟩
        exact ⟨stage, List.mem_cons_of_mem _ hStage, hOther⟩

/- The last event is made at the last stage. -/
theorem exists_last_stage
    {event : Event}
    (hMade :
      List.Forall₂ (Stage.IsMadeBy catalog) stages
        (events ++ [event])) :
    ∃ before stage,
      stages = before ++ [stage] ∧
        List.Forall₂ (Stage.IsMadeBy catalog) before events ∧
        stage.IsMadeBy catalog event := by
  have hBefore := List.forall₂_take_append _ _ _ hMade
  have hLast := List.forall₂_drop_append _ _ _ hMade
  rcases List.forall₂_cons_right_iff.mp hLast with
    ⟨stage, rest, hStage, hNil, hDrop⟩
  rw [List.forall₂_nil_right_iff.mp hNil] at hDrop
  refine ⟨_, stage, ?_, hBefore, hStage⟩
  rw [← hDrop, List.take_append_drop]

end Run

------------------------------------------------------------
-- Emitters Over Events
------------------------------------------------------------

namespace Emitter

variable {σ : Type}

/- The state after an event; descriptions do not matter. -/
def advance
    (emitter : Emitter σ)
    (state : σ) : Event → σ
| .describe _ => state
| .call made => (emitter.respond state made).state

/- The state after a list of events. -/
def replay
    (emitter : Emitter σ)
    (state : σ)
    (events : List Event) : σ :=
  events.foldl emitter.advance state

/- The answer of an emitter to an event. -/
def answer
    (emitter : Emitter σ)
    (state : σ) : Event → Except Fault Unit
| .describe _ => .ok ()
| .call made => (emitter.respond state made).result

/- Every call among some events goes well. -/
def Accepts
    (emitter : Emitter σ) : σ → List Event → Prop
| _, [] => True
| state, event :: rest =>
    emitter.answer state event = .ok () ∧
      Accepts emitter (emitter.advance state event) rest

@[simp]
theorem replay_nil
    (emitter : Emitter σ)
    (state : σ) :
    emitter.replay state [] = state := rfl

@[simp]
theorem replay_cons
    (emitter : Emitter σ)
    (state : σ)
    (event : Event)
    (events : List Event) :
    emitter.replay state (event :: events) =
      emitter.replay (emitter.advance state event) events :=
  rfl

/- The state after events in two parts. -/
theorem replay_append
    (emitter : Emitter σ)
    (state : σ)
    (first second : List Event) :
    emitter.replay state (first ++ second) =
      emitter.replay (emitter.replay state first) second :=
  List.foldl_append

/- Events that go well do so part by part. -/
theorem accepts_append
    {emitter : Emitter σ}
    {state : σ}
    {first second : List Event} :
    emitter.Accepts state (first ++ second) ↔
      emitter.Accepts state first ∧
        emitter.Accepts (emitter.replay state first)
          second := by
  induction first generalizing state with
  | nil =>
      simp [Accepts]
  | cons event first ih =>
      simp [Accepts, ih, and_assoc]

/- Events do not go well if one of them is refused. -/
theorem not_accepts_of_error
    {emitter : Emitter σ}
    {state : σ}
    {before after : List Event}
    {event : Event}
    {fault : Fault}
    (hAnswer :
      emitter.answer (emitter.replay state before) event =
        .error fault) :
    ¬ emitter.Accepts state (before ++ event :: after) := by
  intro hAccepts
  have hOk := (accepts_append.mp hAccepts).2.1
  rw [hAnswer] at hOk
  cases hOk

end Emitter

------------------------------------------------------------
-- Working Through Stages
------------------------------------------------------------

namespace Run

variable {σ : Type}

/- What has happened, the state of the emitter, the result. -/
structure Played (σ : Type) where
  made : List Event
  state : σ
  result : Except Fault Unit

/- Make a call. -/
def playCall
    (emitter : Emitter σ)
    (state : σ)
    (made : Call) : Played σ :=
  ⟨[.call made], (emitter.respond state made).state,
    (emitter.respond state made).result⟩

/- Work through one stage after those before it. -/
def playStage
    (emitter : Emitter σ)
    (catalog : Option Catalog)
    (earlier : List Stage)
    (state : σ) : Stage → Played σ
| .describe moduleName outcome =>
    ⟨[.describe moduleName], state, outcome⟩
| .object proxyClass =>
    playCall emitter state (.object proxyClass)
| .function proxyClass method =>
    match preparedFunction catalog earlier proxyClass method
      with
    | .error fault => ⟨[], state, .error fault⟩
    | .ok function =>
        playCall emitter state
          (.function proxyClass method function)

/- Work through stages up to the first fault. -/
def play
    (emitter : Emitter σ)
    (catalog : Option Catalog) :
    List Stage → σ → List Stage → Played σ
| _, state, [] => ⟨[], state, .ok ()⟩
| earlier, state, stage :: rest =>
    let first :=
      playStage emitter catalog earlier state stage
    match first.result with
    | .error _ => first
    | .ok () =>
        let more :=
          play emitter catalog (earlier ++ [stage])
            first.state rest
        ⟨first.made ++ more.made, more.state, more.result⟩

variable {emitter : Emitter σ}
variable {catalog : Option Catalog}
variable {earlier : List Stage}
variable {state : σ}

/-
  A stage has a fault of its own, or something happens at it
  and the emitter answers.
-/
theorem playStage_cases
    (emitter : Emitter σ)
    (catalog : Option Catalog)
    (earlier : List Stage)
    (state : σ)
    (stage : Stage) :
    (∃ fault made,
      stage.fault? catalog earlier = some fault ∧
      List.Forall₂ (Stage.IsMadeBy catalog) stage.announced
        made ∧
      emitter.Accepts state made ∧
      playStage emitter catalog earlier state stage =
        ⟨made, emitter.replay state made, .error fault⟩) ∨
    (∃ event,
      stage.fault? catalog earlier = none ∧
      stage.IsMadeBy catalog event ∧
      playStage emitter catalog earlier state stage =
        ⟨[event], emitter.advance state event,
          emitter.answer state event⟩) := by
  cases stage with
  | describe moduleName outcome =>
      cases outcome with
      | error fault =>
          refine
            .inl ⟨fault, [.describe moduleName], rfl, ?_, ?_,
              rfl⟩
          · exact .cons rfl .nil
          · exact ⟨rfl, trivial⟩
      | ok =>
          exact
            .inr
              ⟨.describe moduleName, rfl,
                rfl, rfl⟩
  | object proxyClass =>
      exact
        .inr
          ⟨.call (.object proxyClass), rfl,
            rfl, rfl⟩
  | function proxyClass method =>
      simp only [Stage.fault?, playStage]
      cases hPrepared :
          preparedFunction catalog earlier proxyClass method
        with
      | error fault =>
          exact .inl ⟨fault, [], rfl, .nil, trivial, rfl⟩
      | ok function =>
          refine
            .inr
              ⟨.call (.function proxyClass method function),
                rfl, ?_, rfl⟩
          rcases preparedFunction_ok hPrepared with
            ⟨hName, _, hSpace, hTexts⟩
          exact ⟨rfl, rfl, hName, hSpace, hTexts⟩

end Run

end HostBindings
