import HostBindings.Proofs.Elaboration.Protocol

/-
  Obstacles in the way of a run.

  A stage that emits a function needs a name, which must be
  free, and translations.  A run that goes well has met none
  of these obstacles, so no name was taken twice.  Where the
  stages of a run have no obstacle, nothing can fail but the
  calls of the emitter.

  Main declarations:
    * `Run.Stage.fault?_function_eq_none_iff`
    * `Run.Stage.IsReady`
    * `Run.Stage.fault?_eq_none_iff`
    * `Run.clear_iff_ready`
    * `Run.clear_of_localizations`
    * `Run.nodup_qualifiedNames_of_clear`
    * `Run.clear_of_run_ok`
    * `Run.exists_refused_of_clear`
-/

------------------------------------------------------------
-- Single Stages
------------------------------------------------------------

namespace HostBindings

namespace Run

variable {catalog other : Option Catalog}
variable {earlier stages : List Stage}

/- A function with a free name and texts has no obstacle. -/
theorem Stage.fault?_function_eq_none_iff
    {proxyClass : ProxyClass}
    {method : Method} :
    (Stage.function proxyClass method).fault? catalog
        earlier = none ↔
      ∃ name texts,
        functionName proxyClass.methodInfix method =
            .ok name ∧
          qualifiedName proxyClass.nameSpace name ∉
            qualifiedNames earlier ∧
          localizations catalog proxyClass method name =
            .ok texts := by
  simp only [Stage.fault?]
  constructor
  · intro hNone
    cases hPrepared :
        preparedFunction catalog earlier proxyClass method
      with
    | error fault =>
        rw [hPrepared] at hNone
        cases hNone
    | ok function =>
        rcases preparedFunction_ok hPrepared with
          ⟨hName, hFree, _, hTexts⟩
        exact ⟨_, _, hName, hFree, hTexts⟩
  · rintro ⟨name, texts, hName, hFree, hTexts⟩
    simp only [preparedFunction, hName, if_neg hFree, hTexts]

/-
  What a stage needs by itself, whatever is before it: a
  description that goes well, or a name and texts.
-/
def Stage.IsReady
    (catalog : Option Catalog) : Stage → Prop
| .describe _ outcome => outcome = .ok ()
| .object _ => True
| .function proxyClass method =>
    ∃ name texts,
      functionName proxyClass.methodInfix method = .ok name ∧
        localizations catalog proxyClass method name =
          .ok texts

@[simp]
theorem Stage.isReady_describe
    (moduleName : String)
    (outcome : Except Fault Unit) :
    (Stage.describe moduleName outcome).IsReady catalog ↔
      outcome = .ok () := Iff.rfl

@[simp]
theorem Stage.isReady_object (proxyClass : ProxyClass) :
    (Stage.object proxyClass).IsReady catalog := trivial

/- A stage has no obstacle if it is ready and its name free. -/
theorem Stage.fault?_eq_none_iff {stage : Stage} :
    stage.fault? catalog earlier = none ↔
      stage.IsReady catalog ∧
        ∀ name ∈ stage.qualifiedName?,
          name ∉ qualifiedNames earlier := by
  cases stage with
  | describe moduleName outcome =>
      cases outcome <;> simp [fault?, qualifiedName?]
  | object proxyClass => simp [fault?, qualifiedName?]
  | function proxyClass method =>
      rw [fault?_function_eq_none_iff]
      simp only [IsReady, qualifiedName?]
      constructor
      · rintro ⟨name, texts, hName, hFree, hTexts⟩
        simp only [hName, Option.mem_def, Option.some.injEq]
        exact
          ⟨⟨name, texts, rfl, hTexts⟩,
            fun _ hSame => hSame ▸ hFree⟩
      · rintro ⟨⟨name, texts, hName, hTexts⟩, hFree⟩
        simp only [hName, Option.mem_def,
          Option.some.injEq] at hFree
        exact ⟨name, texts, hName, hFree _ rfl, hTexts⟩

------------------------------------------------------------
-- Lists of Stages
------------------------------------------------------------

/- Stages take names part by part. -/
theorem qualifiedNames_append (first second : List Stage) :
    qualifiedNames (first ++ second) =
      qualifiedNames first ++ qualifiedNames second :=
  List.filterMap_append

/- The name of the first stage, if any, comes first. -/
theorem qualifiedNames_cons
    (stage : Stage)
    (stages : List Stage) :
    qualifiedNames (stage :: stages) =
      stage.qualifiedName?.toList ++ qualifiedNames stages := by
  cases hName : stage.qualifiedName? <;>
    simp [qualifiedNames, hName]

/-
  Stages are clear exactly when each of them is ready and the
  names that they take are new and distinct.
-/
theorem clear_iff_ready :
    Clear catalog earlier stages ↔
      (∀ stage ∈ stages, stage.IsReady catalog) ∧
        (qualifiedNames stages).Nodup ∧
        ∀ name ∈ qualifiedNames stages,
          name ∉ qualifiedNames earlier := by
  induction stages generalizing earlier with
  | nil => simp [Clear, qualifiedNames]
  | cons stage stages ih =>
      rw [Clear, ih, Stage.fault?_eq_none_iff,
        qualifiedNames_append, qualifiedNames_cons,
        qualifiedNames_cons, List.forall_mem_cons]
      have hEmpty : qualifiedNames [] = [] := rfl
      cases stage.qualifiedName? with
      | none => simp [hEmpty, and_assoc]
      | some own =>
          simp only [hEmpty, Option.toList_some,
            List.append_nil, List.singleton_append,
            List.nodup_cons, List.forall_mem_cons,
            List.mem_append, List.mem_singleton, not_or,
            Option.mem_def, Option.some.injEq, forall_eq']
          constructor
          · rintro ⟨⟨hReady, hFree⟩, hAll, hNodup, hNew⟩
            refine
              ⟨⟨hReady, hAll⟩, ⟨?_, hNodup⟩, hFree,
                fun name hMem => (hNew name hMem).1⟩
            exact fun hAgain => (hNew own hAgain).2 rfl
          · rintro ⟨⟨hReady, hAll⟩, ⟨hOwn, hNodup⟩, hFree,
              hNew⟩
            refine
              ⟨⟨hReady, hFree⟩, hAll, hNodup,
                fun name hMem => ⟨hNew name hMem, ?_⟩⟩
            exact fun hSame => hOwn (hSame ▸ hMem)

/-
  Stages that are clear with one catalog are clear with
  another one that has texts for their functions.
-/
theorem clear_of_localizations
    (hClear : Clear catalog earlier stages)
    (hTexts :
      ∀ proxyClass method name,
        Stage.function proxyClass method ∈ stages →
          functionName proxyClass.methodInfix method =
              .ok name →
            ∃ texts,
              localizations other proxyClass method name =
                .ok texts) :
    Clear other earlier stages := by
  rw [clear_iff_ready] at hClear ⊢
  refine ⟨fun stage hStage => ?_, hClear.2⟩
  have hReady := hClear.1 stage hStage
  cases stage with
  | describe moduleName outcome => exact hReady
  | object proxyClass => trivial
  | function proxyClass method =>
      rcases hReady with ⟨name, _, hName, _⟩
      rcases hTexts proxyClass method name hStage hName with
        ⟨texts, hFound⟩
      exact ⟨name, texts, hName, hFound⟩

/- Clear stages take names that are new and distinct. -/
theorem nodup_qualifiedNames_of_clear
    (hClear : Clear catalog earlier stages) :
    (qualifiedNames stages).Nodup ∧
      ∀ name ∈ qualifiedNames stages,
        name ∉ qualifiedNames earlier :=
  (clear_iff_ready.mp hClear).2

------------------------------------------------------------
-- Runs
------------------------------------------------------------

variable {σ : Type}
variable {emitter : Emitter σ}
variable {modules : List ProxyModule}
variable {state : σ}

/- A run that goes well has met no obstacle. -/
theorem clear_of_run_ok
    {summary : Summary}
    (hOk :
      (run emitter catalog modules state).result =
        .ok summary) :
    Clear catalog [] (idealStages modules) := by
  rcases exists_reported emitter catalog modules state with
    ⟨made, events, result, _, hCourse, hReported⟩
  have hSuccess := (hReported.ok_iff.mp ⟨summary, hOk⟩).1
  exact (hCourse.isOk_iff.mp hSuccess).2.1

/-
  A run without obstacles fails only with the answer of the
  emitter to a call, all calls before it having gone well.
-/
theorem exists_refused_of_clear
    {fault : Fault}
    (hClear : Clear catalog [] (idealStages modules))
    (hFault :
      (run emitter catalog modules state).result =
        .error fault) :
    ∃ before call after,
      (run emitter catalog modules state).trace =
          before ++ Event.call call :: after ∧
        emitter.Accepts state before ∧
        emitter.answer (emitter.replay state before)
          (.call call) = .error fault := by
  rcases exists_reported emitter catalog modules state with
    ⟨made, events, result, hMade, hCourse, hReported⟩
  rcases hReported.first_fault hCourse hMade hFault with
    ⟨before, call, after, hTrace, _, hAccepts, _, hAnswer⟩ |
    ⟨before, stage, after, hStages, _, _, _, hObstacle⟩
  · exact ⟨before, call, after, hTrace, hAccepts, hAnswer⟩
  · rw [hStages] at hClear
    exact absurd hClear (not_clear_of_fault hObstacle)

end Run

end HostBindings
