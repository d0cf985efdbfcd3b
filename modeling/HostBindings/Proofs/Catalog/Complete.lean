import HostBindings.Proofs.Catalog.Required
import HostBindings.Proofs.Catalog.Synchronized
import HostBindings.Proofs.Collector.Documented
import HostBindings.Proofs.Locale.Gaps

/-
  Complete translations of base locales are enough.

  A merged base tree has a text wherever the canonical tree
  asks for one, and a tree without gaps has no placeholder.
  So a lookup that falls back to a complete base locale finds
  a text at every key that a documented function requires.

  Main declarations:
    * `Catalog.BasesComplete`
    * `Catalog.lookup_of_basesComplete`
    * `Collector.run_of_basesComplete`
-/

------------------------------------------------------------
-- Lookups
------------------------------------------------------------

namespace HostBindings

namespace Catalog

/-
  Every loaded locale has its base locale loaded too, and no
  text of a base locale is still to be translated.
-/
structure BasesComplete (catalog : Catalog) : Prop where
  closed :
    ∀ locale ∈ catalog.locales,
      locale.base ∈ catalog.locales
  complete :
    ∀ entry ∈ catalog.trees,
      entry.1.isBase = true →
        (Completeness.ofTree entry.2).untranslated = []

variable {canonical : Json}
variable {before after : Catalog}
variable {key : List String}
variable {locale : Locale}

/- A complete base locale has a translation of its own. -/
theorem own?_base_of_basesComplete
    (hSync : before.synchronized canonical = .ok after)
    (hBases : after.BasesComplete)
    (hKey : canonical.textAt? key = some placeholder)
    (hLoaded : locale ∈ after.locales) :
    ∃ text, after.own? locale.base key = some text := by
  rcases Keyed.find?_of_mem_keys (hBases.closed locale hLoaded)
    with ⟨tree, hTree⟩
  have hMerged := find?_of_synchronized hSync locale.base
  rw [hTree] at hMerged
  generalize Keyed.find? locale.base before.trees = found
    at hMerged
  cases hMerged with
  | some hMerge =>
      rcases Merge.exists_textAt?_of_added hMerge hKey with
        ⟨text, hText⟩
      have hComplete :=
        hBases.complete _ (Keyed.mem_of_find? hTree) rfl
      have hTranslated :=
        Completeness.ne_placeholder_of_complete hComplete
          hText
      refine ⟨text, ?_⟩
      simp only [own?, hTree, hText, if_neg hTranslated]

/- So every loaded locale finds a text there. -/
theorem lookup_of_basesComplete
    (hSync : before.synchronized canonical = .ok after)
    (hBases : after.BasesComplete)
    (hKey : canonical.textAt? key = some placeholder)
    (hLoaded : locale ∈ after.locales) :
    ∃ text, after.lookup locale key = .ok text := by
  rcases own?_base_of_basesComplete hSync hBases hKey hLoaded
    with ⟨baseText, hBaseText⟩
  have hFound : ∃ text, after.find? locale key = some text := by
    rw [find?_eq_or, hBaseText]
    cases after.own? locale key with
    | some text => exact ⟨text, rfl⟩
    | none => exact ⟨baseText, rfl⟩
  rcases hFound with ⟨text, hText⟩
  exact ⟨text, by simp only [lookup, hText]⟩

end Catalog

------------------------------------------------------------
-- Runs
------------------------------------------------------------

namespace Collector

/- A collected tree asks for all that a run may look up. -/
theorem textAt?_of_run_ok
    {catalog : Option Catalog}
    {modules : List ProxyModule}
    {c : Collector}
    {summary : Summary}
    {canonical : Json}
    {f : DocumentedFunction}
    {key : List String}
    (hOk :
      (run emitter catalog modules c).result = .ok summary)
    (hTree :
      (run emitter catalog modules c).state.canonical =
        some canonical)
    (hDocumented : f ∈ Run.documentedFunctions modules)
    (hKey :
      key ∈ requiredKeys f.nameSpace f.name f.parameters) :
    canonical.textAt? key = some placeholder := by
  rcases canonical_of_run_ok hOk with ⟨hAccepts, hCanonical⟩
  rw [hTree] at hCanonical
  cases hCanonical
  exact
    textAt?_of_mem_requiredKeys
      ((CanonicalTree.holds_empty c.documentationBase).enterAll
        hAccepts)
      hDocumented hKey

/-
  Suppose that the collector accepts some modules and that a
  catalog, merged with its tree, is complete in all its base
  locales.  Then no stage of a run of these modules with the
  merged catalog has a fault of its own, so that a run can
  only fail with the answer of its emitter to a call.
-/
theorem run_of_basesComplete
    {catalog : Option Catalog}
    {modules : List ProxyModule}
    {c : Collector}
    {summary : Summary}
    {canonical : Json}
    {before after : Catalog}
    (hOk :
      (run emitter catalog modules c).result = .ok summary)
    (hTree :
      (run emitter catalog modules c).state.canonical =
        some canonical)
    (hSync : before.synchronized canonical = .ok after)
    (hBases : after.BasesComplete) :
    Run.Clear (some after) [] (Run.idealStages modules) ∧
      ∀ {σ : Type} (other : Emitter σ) (state : σ)
          (fault : Fault),
        (run other (some after) modules state).result =
            .error fault →
          ∃ (first : List Event) (call : Call)
              (rest : List Event),
            (run other (some after) modules state).trace =
                first ++ Event.call call :: rest ∧
              other.Accepts state first ∧
              other.answer (other.replay state first)
                (.call call) = .error fault := by
  have hClear :
      Run.Clear (some after) [] (Run.idealStages modules) := by
    apply Run.clear_of_localizations (Run.clear_of_run_ok hOk)
    intro proxyClass method name hStage hName
    unfold Run.localizations
    cases hHidden : method.isHidden with
    | true => exact ⟨[], rfl⟩
    | false =>
        have hDocumented :=
          Run.Stage.mem_documented hStage hName hHidden
        apply Catalog.localize_of_lookups
        intro locale hLoaded key hKey
        have hText :=
          textAt?_of_run_ok hOk hTree hDocumented hKey
        exact
          Catalog.lookup_of_basesComplete hSync hBases hText
            hLoaded
  refine ⟨hClear, ?_⟩
  intro σ other state fault hFault
  exact Run.exists_refused_of_clear hClear hFault

/- A region without any text of its own is complete. -/
theorem run_of_basesComplete_region :
    let fr : Locale := ⟨"fr", none, by decide, rfl⟩
    let frCA : Locale :=
      ⟨"fr", some "CA", by decide, by decide⟩
    let module : ProxyModule :=
      ⟨"checks",
        .sequence
          [.method "Checker" "check"
            (.returns .boolean .matrix) [],
          .concreteClass "Checker" none ⟨none, none, []⟩]⟩
    let tree (name description : String) : Json :=
      .object
        [("Parameters", .object []),
          ("Functions",
            .object
              [("check",
                .object
                  [("name", .string name),
                    ("description", .string description)])])]
    let translated : Json := tree "vérifier" "Vérifie."
    let before : Catalog :=
      ⟨.strict, [(fr, translated), (frCA, .object [])]⟩
    (run emitter none [module] (new none)).result =
        .ok ⟨1, 1, 1⟩ ∧
      (run emitter none [module] (new none)).state.canonical =
        some (tree placeholder placeholder) ∧
      before.synchronized (tree placeholder placeholder) =
        .ok before ∧
      before.BasesComplete ∧
      Run.Clear (some before) [] (Run.idealStages [module]) := by
  intro fr frCA module tree translated before
  have hOk :
      (run emitter none [module] (new none)).result =
        .ok ⟨1, 1, 1⟩ := by
    decide +kernel
  have hTree :
      (run emitter none [module] (new none)).state.canonical =
        some (tree placeholder placeholder) := by
    decide +kernel
  have hSync :
      before.synchronized (tree placeholder placeholder) =
        .ok before := by
    rfl
  have hBases : before.BasesComplete :=
    ⟨by decide +kernel, by decide +kernel⟩
  have hRun :=
    run_of_basesComplete hOk hTree hSync hBases
  exact ⟨hOk, hTree, hSync, hBases, hRun.1⟩

end Collector

end HostBindings
