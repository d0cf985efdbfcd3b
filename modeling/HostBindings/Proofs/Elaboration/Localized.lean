import HostBindings.Locale.Collector
import HostBindings.Proofs.Catalog.Required
import HostBindings.Proofs.Elaboration.Replay

/-
  Runs with a catalog and without.

  For an emitter that does not look at the texts about a
  function, a catalog only adds these texts.  With a best
  effort, a run makes the same calls, less the texts, as one
  without a catalog, and has the same result.  A strict
  catalog may stop the run, in front of the first function
  for which it lacks a text.

  Main declarations:
    * `Call.bare`
    * `Emitter.IgnoresTexts`
    * `Catalog.LacksText`
    * `Run.preparedFunction_cases`
    * `Run.Shadows`
    * `Run.shadows_playRun`
    * `Run.catalog_only_adds_texts`
-/

------------------------------------------------------------
-- Calls without Texts
------------------------------------------------------------

namespace HostBindings

/- A call without the texts about its function. -/
def Call.bare : Call → Call
| .function proxyClass method emitted =>
    .function proxyClass method
      { emitted with localizations := [] }
| call => call

/- An event without the texts about its function. -/
def Event.bare : Event → Event
| .describe moduleName => .describe moduleName
| .call made => .call made.bare

/- The calls of bare events are bare. -/
theorem call?_map_bare (events : List Event) :
    (events.map Event.bare).filterMap Event.call? =
      (events.filterMap Event.call?).map Call.bare := by
  have hBare (event : Event) :
      event.bare.call? = event.call?.map Call.bare := by
    cases event <;> rfl
  rw [List.filterMap_map, List.map_filterMap]
  exact congrArg (events.filterMap ·) (funext hBare)

/-
  The texts about a function do not matter to an emitter,
  except for what it writes to the log.
-/
structure Emitter.IgnoresTexts
    {σ : Type}
    (emitter : Emitter σ) : Prop where
  state :
    ∀ state call,
      (emitter.respond state call).state =
        (emitter.respond state call.bare).state
  result :
    ∀ state call,
      (emitter.respond state call).result =
        (emitter.respond state call.bare).result

/- The collector enters nothing but names and parameters. -/
theorem Collector.ignoresTexts :
    Collector.emitter.IgnoresTexts := by
  constructor <;> rintro c (_ | _ | _ | _) <;> rfl

------------------------------------------------------------
-- Missing Texts
------------------------------------------------------------

namespace Catalog

/-
  A strict catalog lacks a text about a visible method that
  is emitted under some name: there is a required key with no
  translation in one of its locales, and the fault says so.
-/
structure LacksText
    (catalog : Catalog)
    (proxyClass : ProxyClass)
    (method : Method)
    (name : String)
    (fault : Fault) : Prop where
  policy : catalog.policy = .strict
  visible : method.isHidden = false
  missing :
    ∃ locale ∈ catalog.locales,
      ∃ key ∈
          requiredKeys proxyClass.nameSpace name
            method.parameters,
        catalog.find? locale key = none ∧
          fault =
            .missingLocalization locale.code (dotted key)

end Catalog

namespace Run

variable {σ : Type}
variable {emitter : Emitter σ}
variable {catalog : Catalog}

/- The texts about a method fail only when one is lacking. -/
theorem lacksText_of_localizations
    {proxyClass : ProxyClass}
    {method : Method}
    {name : String}
    {fault : Fault}
    (hError :
      localizations (some catalog) proxyClass method name =
        .error fault) :
    catalog.LacksText proxyClass method name fault := by
  rw [localizations] at hError
  by_cases hHidden : method.isHidden = true
  · simp [hHidden] at hError
  · simp only [if_neg hHidden] at hError
    rcases Catalog.exists_of_localize_error hError with
      ⟨locale, hLoaded, key, hKey, hLookup⟩
    rcases Catalog.lookup_error_iff.mp hLookup with
      ⟨hPolicy, hNone, hFault⟩
    exact
      ⟨hPolicy, by simpa using hHidden, locale, hLoaded, key,
        hKey, hNone, hFault⟩

/-
  Texts come last when a function is prepared: without them
  it fails in the same way, or it has a name to find them by.
-/
theorem preparedFunction_cases
    (catalog : Option Catalog)
    (earlier : List Stage)
    (proxyClass : ProxyClass)
    (method : Method) :
    (∃ fault,
      preparedFunction none earlier proxyClass method =
          .error fault ∧
        preparedFunction catalog earlier proxyClass method =
          .error fault) ∨
    (∃ name,
      preparedFunction none earlier proxyClass method =
          .ok ⟨name, proxyClass.nameSpace, []⟩ ∧
        preparedFunction catalog earlier proxyClass method =
          (localizations catalog proxyClass method name).map
            fun texts =>
              ⟨name, proxyClass.nameSpace, texts⟩) := by
  unfold preparedFunction
  cases functionName proxyClass.methodInfix method with
  | error fault => exact .inl ⟨fault, rfl, rfl⟩
  | ok name =>
      by_cases hTaken :
          qualifiedName proxyClass.nameSpace name ∈
            qualifiedNames earlier
      · simp only [if_pos hTaken]
        exact .inl ⟨_, rfl, rfl⟩
      · simp only [if_neg hTaken]
        refine .inr ⟨name, rfl, ?_⟩
        generalize
          localizations catalog proxyClass method name = texts
        cases texts <;> rfl

------------------------------------------------------------
-- Working Through Stages with a Catalog
------------------------------------------------------------

/-
  With a catalog the same is made as without one, less the
  texts, or work stops in front of a function for which the
  catalog lacks a text.
-/
inductive Shadows
    (catalog : Catalog)
    (localized plain : Played σ) : Prop
| same
    (hMade : localized.made.map Event.bare = plain.made)
    (hState : localized.state = plain.state)
    (hResult : localized.result = plain.result)
| stopped
    (proxyClass : ProxyClass)
    (method : Method)
    (name : String)
    (after : List Event)
    {fault : Fault}
    (hMade :
      plain.made =
        localized.made.map Event.bare ++
          .call
              (.function proxyClass method
                ⟨name, proxyClass.nameSpace, []⟩) ::
            after)
    (hLacks :
      catalog.LacksText proxyClass method name fault)
    (hResult : localized.result = .error fault)

/- A call shadows the call without its texts. -/
theorem shadows_playCall
    (hIgnores : emitter.IgnoresTexts)
    (catalog : Catalog)
    (state : σ)
    (call : Call) :
    Shadows catalog (playCall emitter state call)
      (playCall emitter state call.bare) :=
  .same rfl (hIgnores.state state call)
    (hIgnores.result state call)

/- So does a stage. -/
theorem shadows_playStage
    (hIgnores : emitter.IgnoresTexts)
    (catalog : Catalog)
    (earlier : List Stage)
    (state : σ)
    (stage : Stage) :
    Shadows catalog
      (playStage emitter (some catalog) earlier state stage)
      (playStage emitter none earlier state stage) := by
  cases stage with
  | describe moduleName outcome => exact .same rfl rfl rfl
  | object proxyClass =>
      exact
        shadows_playCall hIgnores catalog state
          (.object proxyClass)
  | function proxyClass method =>
      simp only [playStage]
      rcases preparedFunction_cases (some catalog) earlier
          proxyClass method with
        ⟨fault, hPlain, hLocalized⟩ |
        ⟨name, hPlain, hLocalized⟩
      · rw [hPlain, hLocalized]
        exact .same rfl rfl rfl
      · rw [hPlain, hLocalized]
        cases hTexts :
            localizations (some catalog) proxyClass method
              name with
        | error fault =>
            exact
              .stopped proxyClass method name [] rfl
                (lacksText_of_localizations hTexts) rfl
        | ok texts =>
            exact
              shadows_playCall hIgnores catalog state
                (.function proxyClass method
                  ⟨name, proxyClass.nameSpace, texts⟩)

/- What comes next shadows what comes next. -/
theorem Shadows.continue
    {localized plain : Played σ}
    {next other : σ → Played σ}
    (hFirst : Shadows catalog localized plain)
    (hNext :
      ∀ state, Shadows catalog (next state) (other state)) :
    Shadows catalog (localized.continue next)
      (plain.continue other) := by
  unfold Played.continue
  cases hFirst with
  | same hMade hState hResult =>
      rw [hResult, hState]
      cases hPlain : plain.result with
      | error fault => exact .same hMade hState hResult
      | ok =>
          simp only
          cases hNext plain.state with
          | same hMore hAfter hEnd =>
              refine .same ?_ hAfter hEnd
              rw [List.map_append, hMade, hMore]
          | stopped proxyClass method name after hMore
              hLacks hEnd =>
              refine
                .stopped proxyClass method name after ?_
                  hLacks hEnd
              rw [List.map_append, hMade, hMore,
                List.append_assoc]
  | stopped proxyClass method name after hMade hLacks
      hResult =>
      rw [hResult]
      cases plain.result with
      | error fault =>
          exact
            .stopped proxyClass method name after hMade hLacks
              hResult
      | ok =>
          refine
            .stopped proxyClass method name
              (after ++ (other plain.state).made) ?_ hLacks
              hResult
          simp only
          rw [hMade, List.append_assoc, List.cons_append]

/- And so do stages one after the other. -/
theorem shadows_play
    (hIgnores : emitter.IgnoresTexts)
    (catalog : Catalog)
    (earlier : List Stage)
    (state : σ)
    (stages : List Stage) :
    Shadows catalog
      (play emitter (some catalog) earlier state stages)
      (play emitter none earlier state stages) := by
  induction stages generalizing earlier state with
  | nil => exact .same rfl rfl rfl
  | cons stage stages ih =>
      have hStage :=
        shadows_playStage hIgnores catalog earlier state stage
      exact
        hStage.continue fun state =>
          ih (earlier ++ [stage]) state

/- Everything up to the end of a run shadows the same. -/
theorem shadows_playRun
    (hIgnores : emitter.IgnoresTexts)
    (catalog : Catalog)
    (modules : List ProxyModule)
    (state : σ) :
    Shadows catalog
      (playRun emitter (some catalog) modules state)
      (playRun emitter none modules state) := by
  have hPrepare :=
    shadows_playCall hIgnores catalog state .prepare
  exact
    hPrepare.continue fun state =>
      shadows_play hIgnores catalog [] state
        (idealStages modules)

------------------------------------------------------------
-- Whole Runs
------------------------------------------------------------

/-
  Two runs are the same but for the texts about functions,
  which the second run does not have.
-/
structure SameButTexts (localized plain : Report σ) : Prop where
  calls : localized.calls.map Call.bare = plain.calls
  state : localized.state = plain.state
  result : localized.result = plain.result

/-
  A run stops in front of a function that is emitted by a run
  without a catalog, since its catalog lacks a text about it.
-/
def StopsForText
    (catalog : Catalog)
    (localized plain : Report σ) : Prop :=
  ∃ before proxyClass method name after fault,
    plain.calls =
        before ++
          Call.function proxyClass method
            ⟨name, proxyClass.nameSpace, []⟩ :: after ∧
      localized.calls.map Call.bare =
        before ++ [.finish false] ∧
      catalog.LacksText proxyClass method name fault ∧
      localized.result = .error fault

/- The calls of a run without texts are those of its events. -/
theorem Report.map_bare_calls (report : Report σ) :
    report.calls.map Call.bare =
      (report.trace.map Event.bare).filterMap Event.call? :=
  (call?_map_bare report.trace).symm

/-
  A run with a catalog is the same but for the texts, or it
  stops for want of one.
-/
theorem same_or_stops
    (hIgnores : emitter.IgnoresTexts)
    (catalog : Catalog)
    (modules : List ProxyModule)
    (state : σ) :
    SameButTexts
        (run emitter (some catalog) modules state)
        (run emitter none modules state) ∨
      StopsForText catalog
        (run emitter (some catalog) modules state)
        (run emitter none modules state) := by
  rcases run_eq_playRun emitter none modules state _ rfl with
    ⟨hTrace, hState, hResult⟩
  rcases run_eq_playRun emitter (some catalog) modules state _
      rfl with
    ⟨hTexts, hAfter, hOutcome⟩
  cases shadows_playRun hIgnores catalog modules state with
  | same hMade hLast hEnd =>
      left
      rw [hEnd, hLast] at hAfter hOutcome
      constructor
      · rw [Report.map_bare_calls, hTexts, List.map_append,
          hMade, hEnd, Report.calls, hTrace]
        rfl
      · rw [hAfter, hState]
      · rw [hOutcome, hResult]
  | @stopped proxyClass method name after fault hMade hLacks
      hEnd =>
      right
      rw [hEnd] at hTexts hOutcome
      let last : Event :=
        .call
          (.finish (playRun emitter none modules
            state).result.isOk)
      refine
        ⟨((playRun emitter (some catalog) modules
            state).made.map Event.bare).filterMap Event.call?,
          proxyClass, method, name,
          (after ++ [last]).filterMap Event.call?, fault, ?_,
          ?_, hLacks, hOutcome⟩
      · rw [Report.calls, hTrace, hMade, List.append_assoc,
          List.filterMap_append]
        rfl
      · rw [Report.map_bare_calls, hTexts, List.map_append,
          List.filterMap_append]
        rfl

/-
  If an emitter ignores the texts about functions, a run with
  a catalog that makes a best effort is the same as the run
  without a catalog, but for the texts.  With a strict catalog
  it may also stop for want of one.
-/
theorem catalog_only_adds_texts
    (hIgnores : emitter.IgnoresTexts)
    (catalog : Catalog)
    (modules : List ProxyModule)
    (state : σ) :
    let plain := run emitter none modules state
    let localized := run emitter (some catalog) modules state
    (catalog.policy = .bestEffort →
        SameButTexts localized plain) ∧
      (catalog.policy = .strict →
        SameButTexts localized plain ∨
          StopsForText catalog localized plain) := by
  intro plain localized
  have hEither :=
    same_or_stops hIgnores catalog modules state
  refine ⟨fun hPolicy => ?_, fun _ => hEither⟩
  rcases hEither with
    hSame | ⟨_, _, _, _, _, _, _, _, hLacks, _⟩
  · exact hSame
  · rw [hLacks.policy] at hPolicy
    cases hPolicy

/-
  The hidden method is emitted without any text, and the run
  stops for want of the name of the visible one.
-/
theorem catalog_only_adds_texts_stopped :
    let module : ProxyModule :=
      ⟨"checks",
        .sequence
          [.method "Checker" "reset"
            { MethodTraits.returns .any .singleton with
              isHidden := true } [],
          .method "Checker" "check"
            (.returns .boolean .matrix) [],
          .concreteClass "Checker" none .none]⟩
    let catalog : Catalog :=
      ⟨.strict, [(⟨"fr", none, by decide, rfl⟩, .object [])]⟩
    let plain :=
      run Collector.emitter none [module] (.new none)
    let localized :=
      run Collector.emitter (some catalog) [module] (.new none)
    Collector.emitter.IgnoresTexts ∧
      catalog.policy = .strict ∧
      plain.result = .ok ⟨1, 1, 2⟩ ∧
      localized.result =
        .error
          (.missingLocalization "fr" "Functions.check.name") ∧
      StopsForText catalog localized plain := by
  intro module catalog plain localized
  have hIgnores := Collector.ignoresTexts
  have hPolicy : catalog.policy = .strict := rfl
  have hPlain : plain.result = .ok ⟨1, 1, 2⟩ := by
    decide +kernel
  have hLocalized :
      localized.result =
        .error
          (.missingLocalization "fr"
            "Functions.check.name") := by
    decide +kernel
  refine ⟨hIgnores, hPolicy, hPlain, hLocalized, ?_⟩
  have hEither :=
    (catalog_only_adds_texts hIgnores catalog [module]
      (.new none)).2 hPolicy
  rcases hEither with hSame | hStops
  · have hResult : localized.result = plain.result :=
      hSame.result
    rw [hPlain, hLocalized] at hResult
    cases hResult
  · exact hStops

end Run

end HostBindings
