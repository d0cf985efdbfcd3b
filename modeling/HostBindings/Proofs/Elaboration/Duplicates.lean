import HostBindings.Proofs.Elaboration.Obstacles

/-
  Duplicate names over a whole run.

  However far a run gets, it never emits two functions under
  one name.  If its emitter never fails and there are no texts
  to look up, then a run goes well exactly when its modules
  are sound: each is described without a fault, the methods
  of the classes that they register have names, and all these
  names are distinct.

  Main declarations:
    * `Call.qualifiedName?`
    * `Run.Course.nodup_qualifiedNames`
    * `Run.inSessions`
    * `Run.registeredClasses`
    * `Run.SoundModules`
    * `Run.duplicates_found_exactly`
-/

------------------------------------------------------------
-- Names of Calls
------------------------------------------------------------

namespace HostBindings

/- The name within its namespace that a call emits. -/
def Call.qualifiedName? : Call → Option String
| .function _ _ emitted => some emitted.qualifiedName
| _ => none

namespace Run

variable {σ : Type}
variable {emitter : Emitter σ}
variable {catalog : Option Catalog}
variable {modules : List ProxyModule}
variable {state : σ}

/- The names of all functions that a run emits, in order. -/
def Report.qualifiedNames (report : Report σ) : List String :=
  report.calls.filterMap Call.qualifiedName?

/- The event at a stage emits the name that the stage takes. -/
theorem qualifiedName?_of_isMadeBy
    {stage : Stage}
    {event : Event}
    (hMade : stage.IsMadeBy catalog event) :
    event.call?.bind Call.qualifiedName? =
      stage.qualifiedName? := by
  rcases Stage.isMadeBy_cases hMade with
    ⟨_, _, rfl, rfl⟩ | ⟨_, rfl, rfl⟩ |
    ⟨proxyClass, method, function, rfl, rfl, hName, hSpace,
      _⟩
  · rfl
  · rfl
  · simp [Event.call?, Call.qualifiedName?,
      Stage.qualifiedName?, ProxyFunction.qualifiedName,
      hName, hSpace]

/- What is still announced at a stage takes no name. -/
theorem qualifiedNames_announced (stage : Stage) :
    qualifiedNames stage.announced = [] := by
  cases stage <;> rfl

/- In any course, the names that are taken are distinct. -/
theorem Course.nodup_qualifiedNames
    {made : List Stage}
    {events : List Event}
    {result : Except Fault Unit}
    (hCourse :
      Course emitter catalog modules state made events
        result) :
    (qualifiedNames made).Nodup := by
  cases hCourse with
  | completed hMade hClear =>
      exact (nodup_qualifiedNames_of_clear hClear).1
  | obstructed before after stage hStages hFault hClear
      hMade =>
      rw [hMade, qualifiedNames_append,
        qualifiedNames_announced, List.append_nil]
      exact (nodup_qualifiedNames_of_clear hClear).1
  | refused before call hEvents hAnswer hClear =>
      exact (nodup_qualifiedNames_of_clear hClear).1

/- So no run emits two functions under one name. -/
theorem nodup_qualifiedNames_of_run
    (emitter : Emitter σ)
    (catalog : Option Catalog)
    (modules : List ProxyModule)
    (state : σ) :
    (run emitter catalog modules
      state).qualifiedNames.Nodup := by
  rcases exists_reported emitter catalog modules state with
    ⟨made, events, result, hMade, hCourse, hReported⟩
  rw [Report.qualifiedNames,
    hReported.filterMap_calls rfl fun _ => rfl,
    filterMap_of_made
      (fun _ _ hEvent => qualifiedName?_of_isMadeBy hEvent)
      hMade]
  exact hCourse.nodup_qualifiedNames

------------------------------------------------------------
-- Modules in Their Sessions
------------------------------------------------------------

/- Modules, each with the session that it is described in. -/
def inSessions :
    Session → List ProxyModule → List (Session × ProxyModule)
| _, [] => []
| session, module :: rest =>
    (session, module) ::
      inSessions (module.sessionAfter session) rest

/- The classes that modules register, in their order. -/
def registeredClasses
    (modules : List ProxyModule) : List ProxyClass :=
  (inSessions Session.start modules).flatMap fun scene =>
    scene.2.description.registered scene.1

/- Every module contributes its stages in its session. -/
theorem stagesFrom_eq_flatMap
    (session : Session)
    (modules : List ProxyModule) :
    stagesFrom session modules =
      (inSessions session modules).flatMap fun scene =>
        moduleStages scene.1 scene.2 := by
  induction modules generalizing session with
  | nil => rfl
  | cons module modules ih =>
      rw [stagesFrom, inSessions, List.flatMap_cons, ih]

/- A module goes well if nothing fails or is left waiting. -/
theorem outcome_ok_iff
    {module : ProxyModule}
    {session : Session} :
    module.outcome session = .ok () ↔
      (module.description.run session).2 = .ok () ∧
        (module.description.run session).1.waitingCount =
          0 := by
  unfold ProxyModule.outcome
  rcases module.description.run session with
    ⟨after, fault | ⟨⟩⟩
  · simp
  · by_cases hWaiting : 0 < after.waitingCount
    · simp only [if_pos hWaiting]
      simp [Nat.ne_of_gt hWaiting]
    · simp only [if_neg hWaiting]
      simpa using hWaiting

------------------------------------------------------------
-- Sound Modules
------------------------------------------------------------

end Run

/- The names of the functions of a class, as far as given. -/
def ProxyClass.qualifiedNames
    (proxyClass : ProxyClass) : List String :=
  proxyClass.methods.filterMap fun method =>
    (functionName proxyClass.methodInfix
      method).toOption.map
        (qualifiedName proxyClass.nameSpace)

namespace Run

variable {σ : Type}
variable {emitter : Emitter σ}
variable {modules : List ProxyModule}
variable {state : σ}

/-
  Modules are sound if each of them is described without a
  fault and leaves no parameter waiting, and the methods of
  all classes that they register have distinct names.
-/
structure SoundModules
    (modules : List ProxyModule) : Prop where
  described :
    ∀ scene ∈ inSessions Session.start modules,
      (scene.2.description.run scene.1).2 = .ok ()
  settled :
    ∀ scene ∈ inSessions Session.start modules,
      (scene.2.description.run scene.1).1.waitingCount = 0
  named :
    ∀ proxyClass ∈ registeredClasses modules,
      ∀ method ∈ proxyClass.methods,
        ∃ name,
          functionName proxyClass.methodInfix method =
            .ok name
  distinct :
    ((registeredClasses modules).flatMap
      ProxyClass.qualifiedNames).Nodup

/- The stages of a class take the names of its functions. -/
theorem qualifiedNames_classStages (proxyClass : ProxyClass) :
    qualifiedNames (classStages proxyClass) =
      proxyClass.qualifiedNames := by
  have hStage (method : Method) :
      (Stage.function proxyClass method).qualifiedName? =
        (functionName proxyClass.methodInfix
          method).toOption.map
            (qualifiedName proxyClass.nameSpace) := by
    rw [Stage.qualifiedName?]
    cases functionName proxyClass.methodInfix method <;> rfl
  rw [classStages, qualifiedNames_cons, qualifiedNames,
    List.filterMap_map]
  simp only [Function.comp_def, hStage]
  rfl

/- So do the stages of modules for the classes they register. -/
theorem qualifiedNames_idealStages
    (modules : List ProxyModule) :
    qualifiedNames (idealStages modules) =
      (registeredClasses modules).flatMap
        ProxyClass.qualifiedNames := by
  have hClasses (classes : List ProxyClass) :
      qualifiedNames (classes.flatMap classStages) =
        classes.flatMap ProxyClass.qualifiedNames := by
    rw [qualifiedNames, List.filterMap_flatMap]
    exact
      List.flatMap_congr fun proxyClass _ =>
        qualifiedNames_classStages proxyClass
  rw [idealStages, stagesFrom_eq_flatMap, registeredClasses,
    List.flatMap_assoc, qualifiedNames,
    List.filterMap_flatMap]
  refine List.flatMap_congr fun scene _ => ?_
  rw [← hClasses]
  exact qualifiedNames_cons _ _

/- Without texts, a method is ready once it has a name. -/
theorem isReady_function_iff
    {proxyClass : ProxyClass}
    {method : Method} :
    (Stage.function proxyClass method).IsReady none ↔
      ∃ name,
        functionName proxyClass.methodInfix method =
          .ok name := by
  simp [Stage.IsReady, localizations]

/- The stages of modules are ready when the modules are. -/
theorem isReady_idealStages_iff :
    (∀ stage ∈ idealStages modules, stage.IsReady none) ↔
      (∀ scene ∈ inSessions Session.start modules,
        scene.2.outcome scene.1 = .ok ()) ∧
      ∀ proxyClass ∈ registeredClasses modules,
        ∀ method ∈ proxyClass.methods,
          ∃ name,
            functionName proxyClass.methodInfix method =
              .ok name := by
  have hClass (proxyClass : ProxyClass) :
      (∀ stage ∈ classStages proxyClass,
          stage.IsReady none) ↔
        ∀ method ∈ proxyClass.methods,
          ∃ name,
            functionName proxyClass.methodInfix method =
              .ok name := by
    simp [classStages, isReady_function_iff]
  simp only [idealStages, stagesFrom_eq_flatMap,
    registeredClasses, List.forall_mem_flatMap, moduleStages,
    List.forall_mem_cons, hClass, Stage.isReady_describe,
    forall_and]

/- Modules are sound when no stage of them has an obstacle. -/
theorem clear_iff_soundModules :
    Clear none [] (idealStages modules) ↔
      SoundModules modules := by
  rw [clear_iff_ready, isReady_idealStages_iff,
    qualifiedNames_idealStages]
  simp only [outcome_ok_iff]
  constructor
  · rintro ⟨⟨hOutcomes, hNamed⟩, hDistinct, _⟩
    exact
      ⟨fun scene hScene => (hOutcomes scene hScene).1,
        fun scene hScene => (hOutcomes scene hScene).2,
        hNamed, hDistinct⟩
  · rintro ⟨hDescribed, hSettled, hNamed, hDistinct⟩
    refine ⟨⟨fun scene hScene => ?_, hNamed⟩, hDistinct, ?_⟩
    · exact ⟨hDescribed scene hScene, hSettled scene hScene⟩
    · intro name _ hTaken
      cases hTaken

------------------------------------------------------------
-- Runs
------------------------------------------------------------

end Run

/- Every call goes well, in any state. -/
def Emitter.NeverFails
    {σ : Type}
    (emitter : Emitter σ) : Prop :=
  ∀ state call, (emitter.respond state call).result = .ok ()

namespace Run

variable {σ : Type}
variable {emitter : Emitter σ}
variable {catalog : Option Catalog}
variable {modules : List ProxyModule}
variable {state : σ}

/- All events go well with an emitter that never fails. -/
theorem accepts_of_neverFails
    (hNever : emitter.NeverFails)
    (state : σ)
    (events : List Event) :
    emitter.Accepts state events := by
  induction events generalizing state with
  | nil => trivial
  | cons event events ih =>
      refine ⟨?_, ih _⟩
      cases event with
      | describe moduleName => rfl
      | call call => exact hNever state call

/- A run whose emitter never fails has only obstacles. -/
theorem run_ok_iff_of_neverFails
    (hNever : emitter.NeverFails) :
    (∃ summary,
      (run emitter catalog modules state).result =
        .ok summary) ↔
      Clear catalog [] (idealStages modules) := by
  constructor
  · rintro ⟨summary, hOk⟩
    exact clear_of_run_ok hOk
  · intro hClear
    rcases exists_reported emitter catalog modules state with
      ⟨made, events, result, hMade, hCourse, hReported⟩
    have hResult :=
      (hCourse.completed_of_clear hClear
        (accepts_of_neverFails hNever _ _)).2
    rw [hReported.ok_iff, hResult]
    exact ⟨rfl, hNever _ _⟩

/-
  Whatever the emitter and the catalog are, and however far a
  run gets, the names of the functions that it emits are
  distinct.  Without a catalog, a run of an emitter that never
  fails goes well exactly when its modules are sound.
-/
theorem duplicates_found_exactly
    (emitter : Emitter σ)
    (modules : List ProxyModule)
    (state : σ) :
    (∀ catalog,
      (run emitter catalog modules
        state).qualifiedNames.Nodup) ∧
      (emitter.NeverFails →
        ((∃ summary,
          (run emitter none modules state).result =
            .ok summary) ↔
          SoundModules modules)) := by
  constructor
  · intro catalog
    exact
      nodup_qualifiedNames_of_run emitter catalog modules state
  · intro hNever
    rw [run_ok_iff_of_neverFails hNever,
      clear_iff_soundModules]

/- A class that is derived from a family of methods. -/
def derivedClass
    (className methodInfix : String) : ProxyModule :=
  ⟨className,
    .concreteClass className (some "SetProxy")
      ⟨none, some methodInfix, []⟩⟩

/- Methods that are there to be inherited. -/
def methodFamily : ProxyModule :=
  ⟨"sets",
    .sequence
      [.abstractClass "SetProxy" none,
        .method "SetProxy" "validate"
          (.returns .string .matrix) [],
        .method "SetProxy" "createSequence"
          { MethodTraits.returns .string .matrix with
            isHidden := true
            anchor := some "Sequence" } []]⟩

/-
  Siblings may share inherited methods if their infixes tell
  these apart, and else the second one is found out.
-/
theorem duplicates_found_exactly_siblings :
    let silent : Emitter Unit := ⟨fun state _ => .ok state⟩
    let siblings : List ProxyModule :=
      [methodFamily, derivedClass "NumericProxy" "Numeric",
        derivedClass "TextProxy" "Text"]
    let doubles : List ProxyModule :=
      [methodFamily, derivedClass "NumericProxy" "Numeric",
        derivedClass "TextProxy" "Numeric"]
    silent.NeverFails ∧
      (run silent none siblings ()).result = .ok ⟨3, 2, 4⟩ ∧
      SoundModules siblings ∧
      (run silent none doubles ()).result =
        .error (.duplicateFunction "validateNumeric") ∧
      (run silent none doubles ()).qualifiedNames.Nodup ∧
      ¬ SoundModules doubles := by
  intro silent siblings doubles
  have hNever : silent.NeverFails := fun _ _ => rfl
  have hSiblings :
      (run silent none siblings ()).result =
        .ok ⟨3, 2, 4⟩ := by
    decide +kernel
  have hDoubles :
      (run silent none doubles ()).result =
        .error (.duplicateFunction "validateNumeric") := by
    decide +kernel
  refine
    ⟨hNever, hSiblings, ?_, hDoubles,
      (duplicates_found_exactly silent doubles ()).1 none, ?_⟩
  · exact
      ((duplicates_found_exactly silent siblings ()).2
        hNever).mp ⟨_, hSiblings⟩
  · intro hSound
    rcases ((duplicates_found_exactly silent doubles ()).2
        hNever).mpr hSound with
      ⟨summary, hOk⟩
    rw [hDoubles] at hOk
    cases hOk

end Run

end HostBindings
