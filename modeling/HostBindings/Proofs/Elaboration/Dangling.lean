import HostBindings.Proofs.Elaboration.Duplicates
import HostBindings.Proofs.Registration.Leftovers

/-
  Parameters that a module leaves waiting.

  Modules are described in their order, and a module that is
  described with a fault is the last one.  So if a run does
  not end because a module has left parameters waiting, then
  each parameter of the module has met a method.  It belongs
  to the method unless it was registered at an index that
  the arity does not cover: then it is lost, and nothing is
  said.

  Main declarations:
    * `Run.Report.described`
    * `Run.Course.result_of_fault`
    * `Run.fault_of_described`
    * `Run.AcceptedModule`
    * `Run.AcceptedModule.exists_method_of_parameter`
-/

------------------------------------------------------------
-- Described Modules
------------------------------------------------------------

namespace HostBindings

/- The name of the module that an event describes, if any. -/
def Event.described? : Event → Option String
| .describe moduleName => some moduleName
| .call _ => none

namespace Run

/- The names of the modules that a run describes, in order. -/
def Report.described
    {σ : Type}
    (report : Report σ) : List String :=
  report.trace.filterMap Event.described?

/- The name of the module that is described at a stage. -/
def Stage.described? : Stage → Option String
| .describe moduleName _ => some moduleName
| _ => none

variable {σ : Type}
variable {emitter : Emitter σ}
variable {catalog : Option Catalog}
variable {modules : List ProxyModule}
variable {state : σ}

/- The event at a stage describes the module of the stage. -/
theorem described?_of_isMadeBy
    {stage : Stage}
    {event : Event}
    (hMade : stage.IsMadeBy catalog event) :
    event.described? = stage.described? := by
  rcases Stage.isMadeBy_cases hMade with
    ⟨_, _, rfl, rfl⟩ | ⟨_, rfl, rfl⟩ | ⟨_, _, _, rfl, rfl, _⟩
  all_goals rfl

/- A class and its methods describe no module. -/
theorem described_classStages (proxyClass : ProxyClass) :
    (classStages proxyClass).filterMap Stage.described? =
      [] := by
  simp [classStages, Stage.described?]

/- Each module is described once, in its turn. -/
theorem described_scenes
    (scenes : List (Session × ProxyModule)) :
    (scenes.flatMap fun scene =>
        moduleStages scene.1 scene.2).filterMap
          Stage.described? =
      scenes.map fun scene => scene.2.name := by
  induction scenes with
  | nil => rfl
  | cons scene scenes ih =>
      rw [List.flatMap_cons, List.filterMap_append, ih]
      simp [moduleStages, Stage.described?,
        List.filterMap_flatMap, described_classStages]

/- A run describes the modules of the stages that it makes. -/
theorem Reported.described
    {made : List Stage}
    {events : List Event}
    {result : Except Fault Unit}
    {report : Report σ}
    (hReported :
      Reported emitter modules state events result report)
    (hMade :
      List.Forall₂ (Stage.IsMadeBy catalog) made events) :
    report.described = made.filterMap Stage.described? := by
  rw [Report.described, hReported.trace,
    ← filterMap_of_made
      (fun _ _ hEvent => described?_of_isMadeBy hEvent) hMade]
  rw [List.cons_append, List.filterMap_cons_none rfl,
    List.filterMap_append]
  exact List.append_nil _

/-
  A course that comes to a description with a fault ends with
  this fault.
-/
theorem Course.result_of_fault
    {before : List Stage}
    {events : List Event}
    {result : Except Fault Unit}
    {moduleName : String}
    {fault : Fault}
    (hCourse :
      Course emitter catalog modules state
        (before ++
          [Stage.describe moduleName (.error fault)])
        events result) :
    result = .error fault := by
  have hFault :
      (Stage.describe moduleName (.error fault)).fault?
          catalog before =
        some fault := rfl
  have hNever :
      ¬ Clear catalog []
        (before ++
          [Stage.describe moduleName (.error fault)]) :=
    not_clear_of_fault hFault
  cases hCourse with
  | completed hMade hClear => exact absurd hClear hNever
  | refused _ _ _ _ hClear => exact absurd hClear hNever
  | obstructed good rest other hOther hOtherFault hClear
      hMade =>
      cases other with
      | describe name outcome =>
          -- this is the stage with the fault
          rcases List.append_inj' hMade rfl with ⟨_, hSame⟩
          cases hSame
          cases hOtherFault
          rfl
      | _ =>
          simp only [Stage.announced, List.append_nil] at hMade
          rw [← hMade] at hClear
          exact absurd hClear hNever

/-
  If a module is described, and its description has a fault
  or leaves parameters waiting, then the run ends with this
  fault and describes no further module.
-/
theorem fault_of_described
    {earlier : List (Session × ProxyModule)}
    {session : Session}
    {module : ProxyModule}
    {fault : Fault}
    (hScene :
      earlier ++ [(session, module)] <+:
        inSessions Session.start modules)
    (hDescribed :
      earlier.length <
        (run emitter catalog modules state).described.length)
    (hFault : module.outcome session = .error fault) :
    (run emitter catalog modules state).result =
        .error fault ∧
      (run emitter catalog modules state).described.length =
        earlier.length + 1 := by
  rcases hScene with ⟨later, hScenes⟩
  rcases exists_reported emitter catalog modules state with
    ⟨made, events, result, hMade, hCourse, hReported⟩
  rw [hReported.described hMade] at hDescribed ⊢
  have hStages : idealStages modules = _ :=
    stagesFrom_eq_flatMap Session.start modules
  rw [← hScenes, List.append_assoc, List.flatMap_append]
    at hStages
  generalize hBefore :
    (earlier.flatMap fun scene =>
      moduleStages scene.1 scene.2) = before at hStages
  have hCount :
      (before.filterMap Stage.described?).length =
        earlier.length := by
    rw [← hBefore, described_scenes, List.length_map]
  rw [List.singleton_append, List.flatMap_cons, moduleStages,
    hFault, List.cons_append] at hStages
  have hPrefix :=
    hCourse.made_prefix_of_fault hStages rfl
  rw [Stage.announced, List.prefix_concat_iff] at hPrefix
  rcases hPrefix with rfl | hShort
  · refine ⟨?_, ?_⟩
    · rw [hReported.outcome, hCourse.result_of_fault]
    · simp [hCount, Stage.described?]
  · -- the module would not have been described
    have hFew :=
      (hShort.filterMap Stage.described?).length_le
    omega

------------------------------------------------------------
-- Lost Parameters
------------------------------------------------------------

/-
  A module that is described in a run, after earlier ones, and
  does nothing but make registrations, all of them accepted,
  while the run does not end because the module has left
  parameters waiting.
-/
structure AcceptedModule
    (emitter : Emitter σ)
    (catalog : Option Catalog)
    (modules : List ProxyModule)
    (state : σ)
    (earlier : List (Session × ProxyModule))
    (session : Session)
    (module : ProxyModule) : Prop where
  scene :
    earlier ++ [(session, module)] <+:
      inSessions Session.start modules
  described :
    earlier.length <
      (run emitter catalog modules state).described.length
  finished : (module.description.run session).2 = .ok ()
  accepted :
    session.Accepts (module.description.registrations session)
  settled :
    ¬ ∃ count,
      (run emitter catalog modules state).result =
          .error (.danglingParameters module.name count) ∧
        (run emitter catalog modules
            state).described.length =
          earlier.length + 1

/- What is left waiting is the fault of a module. -/
theorem outcome_of_waiting
    {module : ProxyModule}
    {session : Session}
    (hFinished : (module.description.run session).2 = .ok ())
    (hWaiting :
      (module.description.run session).1.waitingCount ≠ 0) :
    module.outcome session =
      .error
        (.danglingParameters module.name
          (module.description.run session).1.waitingCount) := by
  unfold ProxyModule.outcome
  rcases hRun : module.description.run session with
    ⟨after, outcome⟩
  rw [hRun] at hFinished hWaiting
  simp only at hFinished hWaiting
  subst hFinished
  exact if_pos (Nat.pos_of_ne_zero hWaiting)

/- An accepted module leaves nothing waiting. -/
theorem AcceptedModule.waitingCount_eq_zero
    {earlier : List (Session × ProxyModule)}
    {session : Session}
    {module : ProxyModule}
    (hModule :
      AcceptedModule emitter catalog modules state earlier
        session module) :
    (module.description.run session).1.waitingCount = 0 := by
  by_contra hWaiting
  have hFault := outcome_of_waiting hModule.finished hWaiting
  exact
    hModule.settled
      ⟨_, fault_of_described hModule.scene hModule.described
        hFault⟩

/-
  Every parameter that such a module registers, and does not
  overwrite before the next method, is followed by a method.
  The method is stored, and it has the parameter at its index
  if its arity covers the index.  If not, it has nothing
  there, and the parameter is lost.
-/
theorem AcceptedModule.exists_method_of_parameter
    {earlier : List (Session × ProxyModule)}
    {session : Session}
    {module : ProxyModule}
    {before rest : List Registration}
    {index : Nat}
    {p : Parameter}
    (hModule :
      AcceptedModule emitter catalog modules state earlier
        session module)
    (hRegistered :
      module.description.registrations session =
        before ++ Registration.parameter index p :: rest)
    (hKept : Session.overwritten index rest = false) :
    ∃ className arity method,
      (session.registerAll
            (before ++
              [Registration.parameter index p])).nextMethod?
          rest =
        some (className, arity, method) ∧
      method ∈
        (module.description.run session).1.methodsOf
          className ∧
      method.parameters[index]? =
        if index < arity then some p else none := by
  have hWaiting :
      Keyed.find? index
          (session.registerAll
            (before ++
              [Registration.parameter index p])).waiting =
        some p := by
    rw [Session.registerAll_append, Session.registerAll_cons,
      Session.registerAll_nil, Session.find?_waiting_register]
    simp [Registration.isMethod, Registration.parameterAt?]
  have hRun :
      (module.description.run session).1 =
        (session.registerAll
            (before ++
              [Registration.parameter index p])).registerAll
          rest := by
    rw [Description.session_run, hRegistered,
      List.append_cons, Session.registerAll_append]
  have hAccepted := hModule.accepted
  rw [hRegistered, List.append_cons, Session.accepts_append]
    at hAccepted
  have hSettled := hModule.waitingCount_eq_zero
  rw [hRun] at hSettled ⊢
  exact
    Session.exists_nextMethod_of_waiting hWaiting hAccepted.2
      hKept hSettled

/- An emitter that does nothing. -/
def silent : Emitter Unit :=
  ⟨fun state _ => .ok state⟩

/- The first parameter of a method that takes one. -/
def surplusText : Parameter :=
  .new "text" .string .matrix true

/- A second parameter, which the method does not take. -/
def surplusDigits : Parameter :=
  .new "digits" .number .matrix true

/- Two parameters for a method that takes one of them. -/
def surplusModule : ProxyModule :=
  ⟨"checks",
    .sequence
      [.step (.parameter 0 surplusText),
        .step (.parameter 1 surplusDigits),
        .step
          (.method "CheckProxy" "check" 1
            (.returns .string .matrix)),
        .concreteClass "CheckProxy" none .none]⟩

/- What the module registers after its parameters. -/
def surplusRest : List Registration :=
  [.method "CheckProxy" "check" 1 (.returns .string .matrix),
    .declareClass "CheckProxy" none,
    .proxyClass "CheckProxy" .none]

/- The module registers its parameters before the rest. -/
theorem registrations_surplusModule :
    surplusModule.description.registrations Session.start =
      [Registration.parameter 0 surplusText] ++
        Registration.parameter 1 surplusDigits ::
          surplusRest := by
  decide +kernel

/- A run of the module goes well and generates a function. -/
theorem run_surplusModule :
    (run silent none [surplusModule] ()).result =
      .ok ⟨1, 1, 1⟩ := by
  decide +kernel

/- So the module is accepted. -/
theorem acceptedModule_surplusModule :
    AcceptedModule silent none [surplusModule] () []
      Session.start surplusModule where
  scene := ⟨[], rfl⟩
  described := by decide +kernel
  finished := by decide +kernel
  accepted := by
    refine ⟨rfl, rfl, ?_, rfl, ?_, trivial⟩ <;> decide +kernel
  settled := by
    rintro ⟨count, hResult, _⟩
    rw [run_surplusModule] at hResult
    cases hResult

/- A method comes after the second parameter, as it must. -/
theorem exists_method_of_parameter_surplus :
    AcceptedModule silent none [surplusModule] () []
        Session.start surplusModule ∧
      surplusModule.description.registrations Session.start =
        [Registration.parameter 0 surplusText] ++
          Registration.parameter 1 surplusDigits ::
            surplusRest ∧
      Session.overwritten 1 surplusRest = false ∧
      ∃ className arity method,
        (Session.start.registerAll
              ([Registration.parameter 0 surplusText] ++
                [Registration.parameter 1
                  surplusDigits])).nextMethod?
            surplusRest =
          some (className, arity, method) ∧
        method ∈
          (surplusModule.description.run
            Session.start).1.methodsOf className ∧
        method.parameters[1]? =
          if 1 < arity then some surplusDigits else none := by
  have hModule := acceptedModule_surplusModule
  have hRegistered := registrations_surplusModule
  have hKept : Session.overwritten 1 surplusRest = false := rfl
  exact
    ⟨hModule, hRegistered, hKept,
      hModule.exists_method_of_parameter hRegistered hKept⟩

/-
  The method takes one parameter.  So the second one is not
  among its parameters, though everything has been accepted
  and the run has gone well.
-/
theorem surplus_parameter_is_lost :
    AcceptedModule silent none [surplusModule] () []
        Session.start surplusModule ∧
      surplusModule.description.registrations Session.start =
        [Registration.parameter 0 surplusText] ++
          Registration.parameter 1 surplusDigits ::
            surplusRest ∧
      Session.overwritten 1 surplusRest = false ∧
      (run silent none [surplusModule] ()).result =
        .ok ⟨1, 1, 1⟩ ∧
      ¬ ∃ className arity method,
        (Session.start.registerAll
              ([Registration.parameter 0 surplusText] ++
                [Registration.parameter 1
                  surplusDigits])).nextMethod?
            surplusRest =
          some (className, arity, method) ∧
        surplusDigits ∈ method.parameters := by
  refine
    ⟨acceptedModule_surplusModule,
      registrations_surplusModule, rfl, run_surplusModule,
      ?_⟩
  have hNext :
      (Session.start.registerAll
            ([Registration.parameter 0 surplusText] ++
              [Registration.parameter 1
                surplusDigits])).nextMethod?
          surplusRest =
        some
          ("CheckProxy", 1,
            { MethodTraits.returns .string .matrix with
              name := "check"
              parameters := [surplusText] }) := by
    decide +kernel
  have hOther : surplusDigits ∉ [surplusText] := by
    decide +kernel
  rintro ⟨className, arity, method, hMethod, hMem⟩
  rw [hNext] at hMethod
  cases hMethod
  exact hOther hMem

end Run

end HostBindings
