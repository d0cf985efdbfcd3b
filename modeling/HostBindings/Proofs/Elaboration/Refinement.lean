import HostBindings.Proofs.Elaboration.Endings

/-
  The loops of a run, as work on one list of stages.

  A run goes through modules, classes and methods in loops
  that keep the session and the names that are taken.  Each
  loop does what working through its stages does.

  Main declarations:
    * `Run.Conducts`
    * `Run.Conducts.andThen`
    * `Run.conducts_emitMethod`
    * `Run.conducts_emitClass`
    * `Run.conducts_elaborateModule`
    * `Run.conducts_modules`
    * `Run.summary_of_modules`
-/

------------------------------------------------------------
-- Steps That Conduct Stages
------------------------------------------------------------

namespace HostBindings

namespace Run

variable {σ : Type}
variable {emitter : Emitter σ}
variable {catalog : Option Catalog}
variable {earlier : List Stage}
variable {p : Progress σ}

/- The names that are taken are those of earlier stages. -/
def Tracks
    (taken : List String)
    (earlier : List Stage) : Prop :=
  ∀ name, name ∈ taken ↔ name ∈ qualifiedNames earlier

/-
  What a step does from some progress is what working through
  some stages does, and it takes their names.
-/
structure Conducts
    (emitter : Emitter σ)
    (catalog : Option Catalog)
    (earlier : List Stage)
    (p : Progress σ)
    (stages : List Stage)
    (after : Progress σ × Except Fault Unit) : Prop where
  trace :
    after.1.trace =
      p.trace ++
        (play emitter catalog earlier p.state stages).made
  state :
    after.1.state =
      (play emitter catalog earlier p.state stages).state
  result :
    after.2 =
      (play emitter catalog earlier p.state stages).result
  taken :
    after.2 = .ok () →
      Tracks after.1.taken (earlier ++ stages)

/- Steps that go well are followed by what comes after. -/
theorem andThen_of_ok
    {first second : Step σ}
    {q : Progress σ}
    (hFirst : first p = (q, .ok ())) :
    andThen first second p = second q := by
  simp [andThen, hFirst]

/- After a fault nothing comes. -/
theorem andThen_of_error
    {first second : Step σ}
    {q : Progress σ}
    {fault : Fault}
    (hFirst : first p = (q, .error fault)) :
    andThen first second p = (q, .error fault) := by
  simp [andThen, hFirst]

/- Steps may be grouped as one likes. -/
theorem andThen_assoc (first second third : Step σ) :
    andThen (andThen first second) third =
      andThen first (andThen second third) := by
  funext p
  cases hFirst : first p with
  | mk q result =>
      cases result with
      | error fault =>
          rw [andThen_of_error hFirst,
            andThen_of_error (andThen_of_error hFirst)]
      | ok =>
          rw [andThen_of_ok hFirst]
          cases hSecond : second q with
          | mk r result =>
              cases result with
              | error fault =>
                  rw [andThen_of_error hSecond]
                  apply andThen_of_error
                  rw [andThen_of_ok hFirst, hSecond]
              | ok =>
                  rw [andThen_of_ok hSecond]
                  apply andThen_of_ok
                  rw [andThen_of_ok hFirst, hSecond]

/- Steps in turn conduct the stages of each in turn. -/
theorem Conducts.andThen
    {first second : Step σ}
    {stages more : List Stage}
    (hFirst :
      Conducts emitter catalog earlier p stages (first p))
    (hSecond :
      ∀ q, first p = (q, .ok ()) →
        Tracks q.taken (earlier ++ stages) →
          Conducts emitter catalog (earlier ++ stages) q more
            (second q)) :
    Conducts emitter catalog earlier p (stages ++ more)
      (Run.andThen first second p) := by
  have hAppend :=
    play_append emitter catalog earlier p.state stages more
  cases hStep : first p with
  | mk q result =>
      rw [hStep] at hFirst
      have hResult := hFirst.result
      unfold Played.continue at hAppend
      cases result with
      | error fault =>
          rw [andThen_of_error hStep]
          rw [← hResult] at hAppend
          constructor
          · rw [hAppend, hFirst.trace]
          · rw [hAppend, hFirst.state]
          · rw [hAppend, ← hResult]
          · rintro ⟨⟩
      | ok =>
          rw [andThen_of_ok hStep]
          rw [← hResult] at hAppend
          have hMore :=
            hSecond q hStep (hFirst.taken rfl)
          have hState := hFirst.state
          simp only at hState
          constructor
          · rw [hAppend, hMore.trace, hState,
              show q.trace = _ from hFirst.trace,
              List.append_assoc]
          · rw [hAppend, hMore.state, hState]
          · rw [hAppend, hMore.result, hState]
          · rw [← List.append_assoc]
            exact hMore.taken

/- A step that leaves the emitter and the names alone. -/
theorem conducts_advance
    (change : Progress σ → Progress σ)
    (hTracks : Tracks p.taken earlier)
    (hTrace : (change p).trace = p.trace)
    (hState : (change p).state = p.state)
    (hTaken : (change p).taken = p.taken) :
    Conducts emitter catalog earlier p [] (advance change p) := by
  constructor
  · simp [advance, play, hTrace]
  · simp [advance, play, hState]
  · simp [advance, play]
  · intro _
    simpa [advance, hTaken] using hTracks

/- Only the trace and the state at the start matter. -/
theorem Conducts.congr
    {q : Progress σ}
    {stages : List Stage}
    {after : Progress σ × Except Fault Unit}
    (hConducts :
      Conducts emitter catalog earlier q stages after)
    (hTrace : q.trace = p.trace)
    (hState : q.state = p.state) :
    Conducts emitter catalog earlier p stages after := by
  constructor
  · rw [← hTrace, ← hState, hConducts.trace]
  · rw [← hState, hConducts.state]
  · rw [← hState, hConducts.result]
  · exact hConducts.taken

/- A list of steps conducts the stages of all of them. -/
theorem conducts_inTurn
    {α : Type}
    {step : α → Step σ}
    {stagesOf : α → List Stage}
    (hStep :
      ∀ item earlier q, Tracks q.taken earlier →
        Conducts emitter catalog earlier q (stagesOf item)
          (step item q))
    (items : List α)
    (hTracks : Tracks p.taken earlier) :
    Conducts emitter catalog earlier p
      (items.flatMap stagesOf)
      (inTurn (items.map step) p) := by
  induction items generalizing earlier p with
  | nil =>
      exact conducts_advance id hTracks rfl rfl rfl
  | cons item items ih =>
      rw [List.flatMap_cons, List.map_cons, inTurn]
      apply (hStep item earlier p hTracks).andThen
      intro q hItem hTaken
      exact ih hTaken

------------------------------------------------------------
-- Functions and Classes
------------------------------------------------------------

/- Working through one stage. -/
theorem play_singleton
    (emitter : Emitter σ)
    (catalog : Option Catalog)
    (earlier : List Stage)
    (state : σ)
    (stage : Stage) :
    play emitter catalog earlier state [stage] =
      playStage emitter catalog earlier state stage := by
  rw [play]
  cases hPlayed :
      playStage emitter catalog earlier state stage with
  | mk made after result =>
      cases result <;> simp [play]

/- A call conducts the stage at which it is made. -/
theorem conducts_callEmitter
    {stage : Stage}
    {made : Call}
    (hPlayed :
      playStage emitter catalog earlier p.state stage =
        playCall emitter p.state made)
    (hTaken : Tracks p.taken (earlier ++ [stage])) :
    Conducts emitter catalog earlier p [stage]
      (callEmitter emitter made p) := by
  constructor
  · simp [callEmitter, play_singleton, hPlayed, playCall]
  · simp [callEmitter, play_singleton, hPlayed, playCall]
  · simp [callEmitter, play_singleton, hPlayed, playCall]
  · intro _
    exact hTaken

/- A method that cannot be prepared stops the run. -/
theorem conducts_of_fault
    {proxyClass : ProxyClass}
    {method : Method}
    {fault : Fault}
    {q : Progress σ}
    (hPrepared :
      preparedFunction catalog earlier proxyClass method =
        .error fault)
    (hTrace : q.trace = p.trace)
    (hState : q.state = p.state) :
    Conducts emitter catalog earlier p
      [.function proxyClass method] (q, .error fault) := by
  constructor
  · simp [play_singleton, playStage, hPrepared, hTrace]
  · simp [play_singleton, playStage, hPrepared, hState]
  · simp [play_singleton, playStage, hPrepared]
  · rintro ⟨⟩

/- A stage without a name takes no name. -/
theorem tracks_unnamed
    {taken : List String}
    {stage : Stage}
    (hTracks : Tracks taken earlier)
    (hStage : stage.qualifiedName? = none) :
    Tracks taken (earlier ++ [stage]) := by
  intro name
  rw [hTracks name]
  simp [qualifiedNames, hStage]

/- The names taken once a method has its name. -/
theorem tracks_cons
    {taken : List String}
    {proxyClass : ProxyClass}
    {method : Method}
    {name : String}
    (hTracks : Tracks taken earlier)
    (hName :
      functionName proxyClass.methodInfix method = .ok name) :
    Tracks (qualifiedName proxyClass.nameSpace name :: taken)
      (earlier ++ [Stage.function proxyClass method]) := by
  intro other
  unfold qualifiedNames
  rw [List.filterMap_append, List.mem_cons, List.mem_append,
    hTracks other]
  simp [Stage.qualifiedName?, hName, qualifiedNames, or_comm]

/- Emitting under a free name conducts the stage as well. -/
theorem conducts_emitNamed
    {proxyClass : ProxyClass}
    {method : Method}
    {name : String}
    (hName :
      functionName proxyClass.methodInfix method = .ok name)
    (hFree :
      qualifiedName proxyClass.nameSpace name ∉
        qualifiedNames earlier)
    (hTaken :
      Tracks p.taken
        (earlier ++ [Stage.function proxyClass method])) :
    Conducts emitter catalog earlier p
      [.function proxyClass method]
      (emitNamed emitter catalog proxyClass method name p) := by
  unfold emitNamed
  cases hTexts :
      localizations catalog proxyClass method name with
  | error fault =>
      have hPrepared :
          preparedFunction catalog earlier proxyClass method =
            .error fault := by
        simp [preparedFunction, hName, hFree, hTexts]
      exact conducts_of_fault hPrepared rfl rfl
  | ok texts =>
      let noted : Progress σ :=
        p.note (Catalog.warnings name texts)
      have hPlayed :
          playStage emitter catalog earlier noted.state
              (.function proxyClass method) =
            playCall emitter noted.state
              (.function proxyClass method
                ⟨name, proxyClass.nameSpace, texts⟩) := by
        simp [playStage, preparedFunction, hName, hFree,
          hTexts]
      have hCall :=
        (conducts_callEmitter hPlayed hTaken).andThen
          fun r _ hKept =>
            conducts_advance Progress.countFunction hKept
              rfl rfl rfl
      exact hCall.congr rfl rfl

/- Emitting a method conducts the stage of the method. -/
theorem conducts_emitMethod
    (proxyClass : ProxyClass)
    (method : Method)
    (hTracks : Tracks p.taken earlier) :
    Conducts emitter catalog earlier p
      [.function proxyClass method]
      (emitMethod emitter catalog proxyClass method p) := by
  unfold emitMethod
  cases hName : functionName proxyClass.methodInfix method with
  | error fault =>
      have hPrepared :
          preparedFunction catalog earlier proxyClass method =
            .error fault := by
        simp [preparedFunction, hName]
      exact conducts_of_fault hPrepared rfl rfl
  | ok name =>
      simp only
      by_cases hTaken :
          qualifiedName proxyClass.nameSpace name ∈ p.taken
      · rw [if_pos hTaken]
        have hPrepared :
            preparedFunction catalog earlier proxyClass
                method =
              .error (.duplicateFunction
                (qualifiedName proxyClass.nameSpace name)) := by
          simp [preparedFunction, hName,
            (hTracks _).mp hTaken]
        exact conducts_of_fault hPrepared rfl rfl
      · rw [if_neg hTaken]
        have hFree :
            qualifiedName proxyClass.nameSpace name ∉
              qualifiedNames earlier :=
          fun hMem => hTaken ((hTracks _).mpr hMem)
        exact
          (conducts_emitNamed hName hFree
            (tracks_cons hTracks hName)).congr rfl rfl

/- Emitting a class conducts the stages of the class. -/
theorem conducts_emitClass
    (emitter : Emitter σ)
    (catalog : Option Catalog)
    (proxyClass : ProxyClass)
    (hTracks : Tracks p.taken earlier) :
    Conducts emitter catalog earlier p
      (classStages proxyClass)
      (emitClass emitter catalog proxyClass p) := by
  have hStages :
      classStages proxyClass =
        [Stage.object proxyClass] ++
          (proxyClass.methods.flatMap
            (fun method => [Stage.function proxyClass method]) ++
              []) := by
    rw [List.append_nil, ← List.map_eq_flatMap]
    rfl
  rw [hStages, emitClass]
  apply
    (conducts_callEmitter rfl
      (tracks_unnamed hTracks rfl)).andThen
  intro q _ hObject
  apply
    (conducts_inTurn
      (fun method earlier r hTaken =>
        conducts_emitMethod proxyClass method hTaken)
      proxyClass.methods hObject).andThen
  intro r _ hMethods
  exact
    conducts_advance Progress.countClass hMethods rfl rfl rfl

------------------------------------------------------------
-- Sessions and Counts
------------------------------------------------------------

/-
  A step that leaves the session alone and, if it goes well,
  counts what has been emitted.
-/
structure Emits (step : Step σ) (count : Summary) : Prop where
  session : ∀ p, (step p).1.session = p.session
  summary :
    ∀ p q, step p = (q, .ok ()) →
      q.summary = p.summary.plus count

/- Steps in turn count what each of them counts. -/
theorem Emits.andThen
    {first second : Step σ}
    {count more : Summary}
    (hFirst : Emits first count)
    (hSecond : Emits second more) :
    Emits (Run.andThen first second) (count.plus more) := by
  constructor
  · intro p
    have hSession := hFirst.session p
    cases hStep : first p with
    | mk q result =>
        rw [hStep] at hSession
        cases result with
        | error fault =>
            rw [andThen_of_error hStep]
            exact hSession
        | ok =>
            rw [andThen_of_ok hStep, hSecond.session]
            exact hSession
  · intro p r hOk
    cases hStep : first p with
    | mk q result =>
        cases result with
        | error fault =>
            rw [andThen_of_error hStep] at hOk
            cases hOk
        | ok =>
            rw [andThen_of_ok hStep] at hOk
            rw [hSecond.summary q r hOk,
              hFirst.summary p q hStep, Summary.plus_assoc]

/- A step counts the same after an unrelated change. -/
theorem Emits.comp
    {step : Step σ}
    {count : Summary}
    (hStep : Emits step count)
    (change : Progress σ → Progress σ)
    (hSession : ∀ p, (change p).session = p.session)
    (hSummary : ∀ p, (change p).summary = p.summary) :
    Emits (fun p => step (change p)) count := by
  constructor
  · intro p
    rw [hStep.session, hSession]
  · intro p q hOk
    rw [hStep.summary (change p) q hOk, hSummary]

/- A list of steps counts the stages of all of them. -/
theorem emits_inTurn
    {α : Type}
    {step : α → Step σ}
    {stagesOf : α → List Stage}
    (hStep :
      ∀ item, Emits (step item) (tally (stagesOf item)))
    (items : List α) :
    Emits (inTurn (items.map step))
      (tally (items.flatMap stagesOf)) := by
  induction items with
  | nil =>
      constructor
      · intro p
        rfl
      · intro p q hOk
        cases hOk
        rfl
  | cons item items ih =>
      rw [List.flatMap_cons, tally_append]
      exact (hStep item).andThen ih

/- A call counts nothing by itself. -/
theorem emits_callEmitter
    (emitter : Emitter σ)
    (made : Call) :
    Emits (callEmitter emitter made) ⟨0, 0, 0⟩ := by
  constructor
  · intro p
    rfl
  · intro p q hOk
    have hState := congrArg (fun after => after.1.summary) hOk
    exact hState.symm

/- A step that stops leaves nothing to count. -/
theorem emits_of_error
    {step : Step σ}
    {fault : Fault}
    (hStep : ∀ p, step p = (p, .error fault))
    (count : Summary) :
    Emits step count := by
  constructor
  · intro p
    rw [hStep p]
  · intro p q hOk
    rw [hStep p] at hOk
    cases hOk

/- Emitting a function under a free name counts it. -/
theorem emits_emitNamed
    (emitter : Emitter σ)
    (catalog : Option Catalog)
    (proxyClass : ProxyClass)
    (method : Method)
    (name : String) :
    Emits (emitNamed emitter catalog proxyClass method name)
      ⟨0, 0, 1⟩ := by
  unfold emitNamed
  cases localizations catalog proxyClass method name with
  | error fault =>
      exact emits_of_error (fun p => rfl) _
  | ok texts =>
      have hCount :
          Emits (advance (Progress.countFunction (σ := σ)))
            ⟨0, 0, 1⟩ := by
        constructor
        · intro p
          rfl
        · intro p q hOk
          cases hOk
          rfl
      have hEmits :=
        (emits_callEmitter emitter
          (.function proxyClass method
            ⟨name, proxyClass.nameSpace, texts⟩)).andThen
              hCount
      exact
        hEmits.comp
          (fun p => p.note (Catalog.warnings name texts))
          (fun p => rfl) (fun p => rfl)

/- Emitting a method counts one function. -/
theorem emits_emitMethod
    (emitter : Emitter σ)
    (catalog : Option Catalog)
    (proxyClass : ProxyClass)
    (method : Method) :
    Emits (emitMethod emitter catalog proxyClass method)
      (tally [.function proxyClass method]) := by
  have hNamed :=
    emits_emitNamed emitter catalog proxyClass method
  unfold emitMethod
  cases functionName proxyClass.methodInfix method with
  | error fault =>
      exact emits_of_error (fun p => rfl) _
  | ok name =>
      have hFree :=
        (hNamed name).comp
          (fun p =>
            { p with
              taken :=
                qualifiedName proxyClass.nameSpace name ::
                  p.taken })
          (fun p => rfl) (fun p => rfl)
      constructor
      · intro p
        simp only
        split
        · rfl
        · exact hFree.session p
      · intro p q hOk
        simp only at hOk
        split at hOk
        · cases hOk
        · exact hFree.summary p q hOk

/- Emitting a class counts the class and its functions. -/
theorem emits_emitClass
    (emitter : Emitter σ)
    (catalog : Option Catalog)
    (proxyClass : ProxyClass) :
    Emits (emitClass emitter catalog proxyClass)
      (tally (classStages proxyClass)) := by
  have hMethods :=
    emits_inTurn
      (emits_emitMethod emitter catalog proxyClass)
      proxyClass.methods
  have hCount :
      Emits (advance (Progress.countClass (σ := σ)))
        ⟨0, 1, 0⟩ := by
    constructor
    · intro p
      rfl
    · intro p q hOk
      cases hOk
      rfl
  have hEmits :=
    (emits_callEmitter emitter
      (.object proxyClass)).andThen (hMethods.andThen hCount)
  -- the class is counted after its methods
  have hTally :
      tally (classStages proxyClass) =
        (⟨0, 0, 0⟩ : Summary).plus
          ((tally
            (proxyClass.methods.flatMap fun method =>
              [.function proxyClass method])).plus
                ⟨0, 1, 0⟩) := by
    rw [← List.map_eq_flatMap, tally_classStages,
      tally_functions]
    simp [Summary.plus]
  rw [hTally]
  exact hEmits

------------------------------------------------------------
-- Modules
------------------------------------------------------------

/- What describing a module leads to. -/
theorem andThen_describe
    (module : ProxyModule)
    (p : Progress σ) :
    ∃ q : Progress σ,
      andThen (describe module) (checkWaiting module) p =
        (q, module.outcome p.session) ∧
      q.state = p.state ∧
      q.taken = p.taken ∧
      q.summary = p.summary ∧
      q.session = (module.description.run p.session).1 ∧
      q.trace = p.trace ++ [Event.describe module.name] := by
  unfold ProxyModule.outcome
  cases hRun : module.description.run p.session with
  | mk session outcome =>
      cases outcome with
      | error fault =>
          refine ⟨(describe module p).1, ?_, ?_⟩
          · apply andThen_of_error
            simp [describe, hRun]
          · simp [describe, hRun]
      | ok =>
          refine ⟨(describe module p).1, ?_, ?_⟩
          · rw [andThen_of_ok
              (q := (describe module p).1)
              (by simp [describe, hRun])]
            simp only [checkWaiting, describe, hRun]
            split <;> rfl
          · simp [describe, hRun]

/- Describing a module conducts its first stage. -/
theorem conducts_describe
    (module : ProxyModule)
    (hTracks : Tracks p.taken earlier) :
    Conducts emitter catalog earlier p
      [.describe module.name (module.outcome p.session)]
      (andThen (describe module) (checkWaiting module) p) := by
  rcases andThen_describe module p with
    ⟨q, hStep, hState, hTaken, _, _, hTrace⟩
  rw [hStep]
  constructor
  · rw [play_singleton, hTrace]
    rfl
  · rw [play_singleton, hState]
    rfl
  · rw [play_singleton]
    rfl
  · intro _
    rw [hTaken]
    exact tracks_unnamed hTracks rfl

/- Emitting the queue conducts the stages of its classes. -/
theorem conducts_emitQueue
    (hTracks : Tracks p.taken earlier) :
    Conducts emitter catalog earlier p
      (p.session.queue.flatMap classStages)
      (emitQueue emitter catalog p) := by
  have hClasses :=
    conducts_inTurn
      (p := { p with session := p.session.takeClasses.2 })
      (fun proxyClass earlier q hTaken =>
        conducts_emitClass emitter catalog proxyClass hTaken)
      p.session.queue hTracks
  exact hClasses.congr rfl rfl

/- A module is described before its classes are emitted. -/
theorem elaborateModule_eq (module : ProxyModule) :
    elaborateModule emitter catalog module =
      andThen (andThen (describe module) (checkWaiting module))
        (andThen (emitQueue emitter catalog)
          (advance Progress.countModule)) := by
  rw [andThen_assoc]
  rfl

/- The queue of a described module when no class waited. -/
theorem queue_of_describe
    {module : ProxyModule}
    {session : Session}
    (hQueue : session.queue = []) :
    (module.description.run session).1.queue =
      module.description.registered session := by
  rw [Description.queue_run, hQueue, List.nil_append]

/- A module conducts its stages when no class waits. -/
theorem conducts_elaborateModule
    (module : ProxyModule)
    (hQueue : p.session.queue = [])
    (hTracks : Tracks p.taken earlier) :
    Conducts emitter catalog earlier p
      (moduleStages p.session module)
      (elaborateModule emitter catalog module p) := by
  rw [elaborateModule_eq]
  change
    Conducts emitter catalog earlier p
      ([Stage.describe module.name (module.outcome p.session)] ++
        (module.description.registered p.session).flatMap
          classStages) _
  apply (conducts_describe module hTracks).andThen
  intro q hDescribed hTaken
  rcases andThen_describe module p with
    ⟨q', hStep, _, _, _, hSession, _⟩
  have hSame : q' = q := by
    rw [hStep] at hDescribed
    exact congrArg Prod.fst hDescribed
  subst hSame
  rw [← queue_of_describe hQueue, ← hSession,
    ← List.append_nil (q'.session.queue.flatMap classStages)]
  apply (conducts_emitQueue hTaken).andThen
  intro r _ hClasses
  exact
    conducts_advance Progress.countModule hClasses rfl rfl rfl

/- Emitting the queue takes the classes out and counts them. -/
theorem progress_of_emitQueue
    {q : Progress σ}
    (hOk : emitQueue emitter catalog p = (q, .ok ())) :
    q.session = p.session.takeClasses.2 ∧
      q.summary =
        p.summary.plus
          (tally (p.session.queue.flatMap classStages)) := by
  let taken : Progress σ :=
    { p with session := p.session.takeClasses.2 }
  have hClasses :
      inTurn
          (p.session.queue.map (emitClass emitter catalog))
          taken = (q, .ok ()) := hOk
  have hEmits :=
    emits_inTurn (emits_emitClass emitter catalog)
      p.session.queue
  have hSession := hEmits.session taken
  rw [hClasses] at hSession
  exact ⟨hSession, hEmits.summary taken q hClasses⟩

/- A module takes its classes out and is counted with them. -/
theorem progress_of_elaborateModule
    {module : ProxyModule}
    {q : Progress σ}
    (hQueue : p.session.queue = [])
    (hOk :
      elaborateModule emitter catalog module p = (q, .ok ())) :
    q.session = module.sessionAfter p.session ∧
      q.summary =
        p.summary.plus
          (tally (moduleStages p.session module)) := by
  rw [elaborateModule_eq] at hOk
  rcases andThen_describe module p with
    ⟨r, hStep, _, _, hSummary, hSession, _⟩
  cases hOutcome : module.outcome p.session with
  | error fault =>
      rw [hOutcome] at hStep
      rw [andThen_of_error hStep] at hOk
      cases hOk
  | ok =>
      rw [hOutcome] at hStep
      rw [andThen_of_ok hStep] at hOk
      cases hClasses : emitQueue emitter catalog r with
      | mk t result =>
          cases result with
          | error fault =>
              rw [andThen_of_error hClasses] at hOk
              cases hOk
          | ok =>
              rw [andThen_of_ok hClasses] at hOk
              cases hOk
              rcases progress_of_emitQueue hClasses with
                ⟨hLeft, hCount⟩
              rw [hSession, queue_of_describe hQueue,
                hSummary] at hCount
              refine ⟨?_, ?_⟩
              · rw [ProxyModule.sessionAfter, ← hSession]
                exact hLeft
              · simp only [Progress.countModule, hCount,
                  moduleStages, tally, Stage.count,
                  Summary.plus, Nat.zero_add]
                congr 1
                omega

/- Modules conduct their stages one after the other. -/
theorem conducts_modules
    (modules : List ProxyModule)
    (hQueue : p.session.queue = [])
    (hTracks : Tracks p.taken earlier) :
    Conducts emitter catalog earlier p
      (stagesFrom p.session modules)
      (inTurn
        (modules.map (elaborateModule emitter catalog)) p) := by
  induction modules generalizing earlier p with
  | nil =>
      exact conducts_advance id hTracks rfl rfl rfl
  | cons module modules ih =>
      rw [stagesFrom, List.map_cons, inTurn]
      apply
        (conducts_elaborateModule module hQueue
          hTracks).andThen
      intro q hOk hTaken
      rw [← (progress_of_elaborateModule hQueue hOk).1]
      apply ih _ hTaken
      rw [(progress_of_elaborateModule hQueue hOk).1]
      rfl

/- What has been counted once all modules have gone well. -/
theorem summary_of_modules
    {modules : List ProxyModule}
    {q : Progress σ}
    (hQueue : p.session.queue = [])
    (hOk :
      inTurn (modules.map (elaborateModule emitter catalog))
        p = (q, .ok ())) :
    q.summary =
      p.summary.plus (tally (stagesFrom p.session modules)) := by
  induction modules generalizing p with
  | nil =>
      cases hOk
      rfl
  | cons module modules ih =>
      rw [List.map_cons, inTurn] at hOk
      cases hModule :
          elaborateModule emitter catalog module p with
      | mk r result =>
          cases result with
          | error fault =>
              rw [andThen_of_error hModule] at hOk
              cases hOk
          | ok =>
              rw [andThen_of_ok hModule] at hOk
              rcases progress_of_elaborateModule hQueue
                  hModule with
                ⟨hSession, hSummary⟩
              have hEmpty : r.session.queue = [] := by
                rw [hSession]
                rfl
              rw [ih hEmpty hOk, hSummary, hSession,
                stagesFrom, tally_append, Summary.plus_assoc]

end Run

end HostBindings
