import HostBindings.Locale.Collector
import HostBindings.Proofs.Catalog.Required
import HostBindings.Proofs.Elaboration.Emissions
import HostBindings.Proofs.Excel.Endings
import HostBindings.Proofs.Excel.InStep

/-
  A run for bindings that follows a run for the locales.

  What a run that collects the canonical tree has come by
  without a fault is no obstacle to a second run, and with a
  best effort no texts are missing either.  So the second run
  emits what the first one has emitted, and only the name of
  an object can stop it before its outputs are written.

  Main declarations:
    * `Excel.course_of_clear`
    * `Excel.NamesObjects`
    * `Excel.StopsAtObject`
    * `Excel.second_run_follows`
-/

------------------------------------------------------------
-- Obstacles
------------------------------------------------------------

namespace HostBindings

/- A class without a name for its object is reported as such. -/
theorem fault_of_objectName
    {className : String}
    {fault : Fault}
    (hError : objectName className = .error fault) :
    fault = .invalidClassName className := by
  unfold objectName at hError
  split at hError <;> cases hError
  rfl

namespace Run

/- With a best effort, a method has texts in any case. -/
theorem localizations_of_bestEffort
    {catalog : Catalog}
    (hPolicy : catalog.policy = .bestEffort)
    (proxyClass : ProxyClass)
    (method : Method)
    (name : String) :
    ∃ texts,
      localizations (some catalog) proxyClass method name =
        .ok texts := by
  rw [localizations]
  by_cases hHidden : method.isHidden = true
  · exact ⟨[], if_pos hHidden⟩
  · simp only [if_neg hHidden]
    exact Catalog.localize_of_bestEffort hPolicy _ _ _

/-
  What is clear for a run that goes well is clear for another
  one with a best effort.
-/
theorem clear_of_bestEffort
    {σ : Type}
    {emitter : Emitter σ}
    {base : Option Catalog}
    {catalog : Catalog}
    {modules : List ProxyModule}
    {state : σ}
    {summary : Summary}
    (hOk :
      (run emitter base modules state).result = .ok summary)
    (hPolicy : catalog.policy = .bestEffort) :
    Clear (some catalog) [] (idealStages modules) :=
  clear_of_localizations (clear_of_run_ok hOk)
    fun proxyClass method name _ _ =>
      localizations_of_bestEffort hPolicy proxyClass method
        name

end Run

------------------------------------------------------------
-- Courses
------------------------------------------------------------

namespace Excel

variable {options : Options}
variable {catalog : Option Catalog}
variable {modules : List ProxyModule}
variable {workspace : Workspace}
variable {made : List Run.Stage}
variable {events : List Event}
variable {result : Except Fault Unit}

/- The classes of bindings in step have names for objects. -/
theorem InStep.exists_objectName
    {latest : Option ProxyClass}
    {classes : List ProxyClass}
    {emissions : List Emission}
    {bindings : Bindings}
    {proxyClass : ProxyClass}
    (hInStep :
      InStep options latest classes emissions bindings)
    (hMem : proxyClass ∈ classes) :
    ∃ name, objectName proxyClass.name = .ok name := by
  rcases List.mem_iff_get.mp hMem with ⟨n, rfl⟩
  rcases List.forall₂_iff_get.mp hInStep.objects with
    ⟨hLength, hObjects⟩
  exact ⟨_, (hObjects n n.isLt (hLength ▸ n.isLt)).1⟩

/-
  Without obstacles, a course is completed and all its classes
  have names for their objects, or it stops at a class that
  has none.
-/
theorem course_of_clear
    (hMade :
      List.Forall₂ (Run.Stage.IsMadeBy catalog) made events)
    (hCourse :
      Run.Course (emitter options) catalog modules workspace
        made events result)
    (hClear :
      Run.Clear catalog [] (Run.idealStages modules)) :
    (made = Run.idealStages modules ∧
      result = .ok () ∧
      ∀ proxyClass, .call (.object proxyClass) ∈ events →
        ∃ name, objectName proxyClass.name = .ok name) ∨
    (∃ good proxyClass,
      events = good ++ [.call (.object proxyClass)] ∧
        objectName proxyClass.name =
          .error (.invalidClassName proxyClass.name) ∧
        result =
          .error (.invalidClassName proxyClass.name)) := by
  rcases inStep_of_course hMade hCourse with
    ⟨latest, good, hAccepts, hInStep, hEvents⟩
  rcases hEvents with
    rfl | ⟨proxyClass, fault, rfl, hName, rfl⟩
  · left
    rcases hCourse.completed_of_clear hClear hAccepts with
      ⟨hAll, hOk⟩
    refine ⟨hAll, hOk, ?_⟩
    intro proxyClass hMem
    apply hInStep.exists_objectName
    exact List.mem_filterMap.mpr ⟨_, hMem, rfl⟩
  · right
    cases fault_of_objectName hName
    exact ⟨good, proxyClass, rfl, hName, rfl⟩

------------------------------------------------------------
-- The Second Run
------------------------------------------------------------

/- The classes that a run emits have names for objects. -/
def NamesObjects {σ : Type} (report : Run.Report σ) : Prop :=
  ∀ proxyClass, .object proxyClass ∈ report.calls →
    ∃ name, objectName proxyClass.name = .ok name

/- Only the calls for classes have to be looked at. -/
theorem namesObjects_iff
    {σ : Type}
    {report : Run.Report σ} :
    NamesObjects report ↔
      ∀ proxyClass ∈ report.calls.filterMap Call.class?,
        (objectName proxyClass.name).isOk = true := by
  have hCalls (proxyClass : ProxyClass) :
      proxyClass ∈ report.calls.filterMap Call.class? ↔
        .object proxyClass ∈ report.calls := by
    simp [Call.class?_eq_some_iff]
  unfold NamesObjects
  simp only [hCalls]
  refine forall₂_congr fun proxyClass _ => ?_
  cases objectName proxyClass.name <;>
    simp [Except.isOk, Except.toBool]

instance
    {σ : Type}
    (report : Run.Report σ) :
    Decidable (NamesObjects report) :=
  decidable_of_iff _ namesObjects_iff.symm

/-
  A run is stopped at a class that has no name for its object,
  and is told its bad end.
-/
def StopsAtObject (report : Run.Report Workspace) : Prop :=
  ∃ calls proxyClass,
    report.calls =
        calls ++ [.object proxyClass, .finish false] ∧
      objectName proxyClass.name =
        .error (.invalidClassName proxyClass.name) ∧
      report.result =
        .error (.invalidClassName proxyClass.name)

/-
  If a run for the locales goes well, a run for bindings of
  the same modules, with any catalog that makes a best effort,
  emits the same classes and functions as far as it gets.  It
  reaches its outputs with the same summary when all classes
  have names for their objects, and else it is stopped at one
  that has none.
-/
theorem second_run_follows
    {base : Option Catalog}
    {catalog : Catalog}
    {modules : List ProxyModule}
    {collector : Collector}
    {summary : Summary}
    (hFirst :
      (run Collector.emitter base modules collector).result =
        .ok summary)
    (hPolicy : catalog.policy = .bestEffort)
    (options : Options)
    (workspace : Workspace) :
    let first := run Collector.emitter base modules collector
    let second :=
      run (emitter options) (some catalog) modules workspace
    second.emissions <+: first.emissions ∧
      (NamesObjects first →
        second.emissions = first.emissions ∧
          ReachesOutputs options workspace.disk summary
            second) ∧
      (¬ NamesObjects first → StopsAtObject second) := by
  intro first second
  have hPrefix : second.emissions <+: first.emissions :=
    Run.emissions_prefix hFirst (emitter options)
      (some catalog) workspace
  refine ⟨hPrefix, ?_⟩
  rcases Run.exists_reported (emitter options) (some catalog)
      modules workspace with
    ⟨made, events, result, hMade, hCourse, hReported⟩
  rcases course_of_clear hMade hCourse
      (Run.clear_of_bestEffort hFirst hPolicy) with
    ⟨rfl, rfl, hNames⟩ |
    ⟨good, proxyClass, rfl, hName, rfl⟩
  · have hSame : second.emissions = first.emissions := by
      rw [Run.emissions_of_run_ok hFirst]
      exact Run.emissions_eq hMade hReported
    have hFirstNames : NamesObjects first := by
      intro proxyClass hCall
      rw [← Run.object_mem_emissions_iff, ← hSame,
        Run.object_mem_emissions_iff, hReported.calls] at hCall
      apply hNames
      simpa [Event.call?_eq_some_iff] using hCall
    refine ⟨fun _ => ⟨hSame, ?_⟩, fun hNot => ?_⟩
    · rw [Run.summary_of_run_ok hFirst]
      exact (reachesOutputs_of_reported hMade hReported).1
    · exact absurd hFirstNames hNot
  · have hCalls :
        second.calls =
          (.prepare :: good.filterMap Event.call?) ++
            [.object proxyClass, .finish false] := by
      rw [hReported.calls]
      simp [Event.call?, Except.isOk, Except.toBool]
    have hStops : StopsAtObject second :=
      ⟨_, proxyClass, hCalls, hName, hReported.outcome⟩
    refine ⟨fun hFirstNames => ?_, fun _ => hStops⟩
    -- the class is one of those that the first run emits
    have hEmitted : .object proxyClass ∈ second.emissions := by
      rw [Run.object_mem_emissions_iff, hCalls]
      simp
    rcases hFirstNames proxyClass
        (Run.object_mem_emissions_iff.mp
          (hPrefix.mem hEmitted)) with
      ⟨name, hOk⟩
    rw [hName] at hOk
    cases hOk

/- A method without any texts is emitted with a best effort. -/
theorem second_run_follows_untranslated :
    let module : ProxyModule :=
      ⟨"checks",
        .sequence
          [.method "Checker" "check"
            (.returns .boolean .matrix) [],
          .concreteClass "Checker" none ⟨none, none, []⟩]⟩
    let catalog : Catalog :=
      ⟨.bestEffort,
        [(⟨"fr", none, by decide, rfl⟩, .object [])]⟩
    let options : Options :=
      { sourcePath := "bindings.ts"
        manifestPath := "functions.json"
        defaultLocale := "fr"
        proxyModule := "./proxies"
        extensionClass := "AppExtension"
        extensionModule := "./extension" }
    let first := run Collector.emitter none [module] (.new none)
    let second :=
      run (emitter options) (some catalog) [module]
        (.new (.empty []))
    first.result = .ok ⟨1, 1, 1⟩ ∧
      catalog.policy = .bestEffort ∧
      NamesObjects first ∧
      second.emissions = first.emissions ∧
      ReachesOutputs options (.empty []) ⟨1, 1, 1⟩
        second := by
  intro module catalog options first second
  have hFirst : first.result = .ok ⟨1, 1, 1⟩ := by
    decide +kernel
  have hPolicy : catalog.policy = .bestEffort := rfl
  have hNames : NamesObjects first := by
    decide +kernel
  have hFollows :=
    second_run_follows hFirst hPolicy options
      (.new (.empty []))
  exact ⟨hFirst, hPolicy, hNames, hFollows.2.1 hNames⟩

end Excel

end HostBindings
