import HostBindings.Proofs.CanonicalTree.Values
import HostBindings.Proofs.Catalog.Required
import HostBindings.Proofs.Collector.Collected
import HostBindings.Proofs.Elaboration.Protocol

/-
  The canonical tree and the lookups of a catalog address the
  same keys.

  Whatever is looked up about a documented function has its
  place in the tree of the run that documented it, and no
  entry of the tree belongs to anything else.

  Main declarations:
    * `Run.Report.documented`
    * `Run.Reported.documented`
    * `Collector.Agreement`
    * `Collector.agreement_of_holds`
    * `Collector.canonical_agrees_of_run_ok`
-/

------------------------------------------------------------
-- Agreement
------------------------------------------------------------

namespace HostBindings

/- The functions that a run has documented. -/
def Run.Report.documented
    {σ : Type}
    (report : Report σ) : List DocumentedFunction :=
  report.calls.filterMap Call.documented?

/- They are the functions that its events document. -/
theorem Run.Reported.documented
    {σ : Type}
    {emitter : Emitter σ}
    {modules : List ProxyModule}
    {state : σ}
    {events : List Event}
    {result : Except Fault Unit}
    {report : Report σ}
    (hReported :
      Reported emitter modules state events result report) :
    report.documented = Event.documented events := by
  rw [Report.documented,
    hReported.filterMap_calls rfl fun _ => rfl,
    Event.documented, List.filterMap_filterMap]

namespace Collector

/-
  A tree agrees with the keys of lookups for some functions:
  it has a placeholder at every key that their localization
  requires, and the only objects in its sections are entries
  of these functions, their namespaces, and levels on the way
  to entries of their parameters.
-/
structure Agreement
    (documented : List DocumentedFunction)
    (tree : Json) : Prop where
  functionTexts :
    ∀ f ∈ documented,
      ∀ word ∈ [LocaleKey.name, LocaleKey.description],
        tree.textAt?
            (functionKey f.nameSpace f.name ++ [word]) =
          some placeholder
  parameterTexts :
    ∀ f ∈ documented, ∀ p ∈ f.parameters,
      ∀ word ∈ [LocaleKey.name, LocaleKey.description],
        tree.textAt? (parameterKey p ++ [word]) =
          some placeholder
  /- a localization fails nowhere but at a placeholder -/
  lookups :
    ∀ f ∈ documented,
      ∀ (catalog : Catalog) (locale : Locale) (fault : Fault),
        catalog.localizeIn f.nameSpace f.name f.parameters
            locale = .error fault →
          ∃ key ∈
              requiredKeys f.nameSpace f.name f.parameters,
            tree.textAt? key = some placeholder ∧
              catalog.lookup locale key = .error fault
  functions :
    ∀ path members, path ≠ [] →
      tree.at? (LocaleKey.functions :: path) =
          some (.object members) →
        (∃ f ∈ documented,
          LocaleKey.functions :: path =
            functionKey f.nameSpace f.name) ∨
        (∃ f ∈ documented, ∃ nameSpace,
          f.nameSpace = some nameSpace ∧
            path = [nameSpace] ∧
            ∀ entry ∈ members,
              ∃ inner, entry.2 = .object inner)
  parameters :
    ∀ path members, path ≠ [] →
      tree.at? (LocaleKey.parameters :: path) =
          some (.object members) →
        ∃ f ∈ documented, ∃ p ∈ f.parameters,
          LocaleKey.parameters :: path <+: parameterKey p

/- A word for a text of an entry is reserved. -/
theorem isReserved_of_mem
    {word : String}
    (hWord :
      word ∈ [LocaleKey.name, LocaleKey.description]) :
    CanonicalTree.isReserved word = true := by
  simpa [CanonicalTree.isReserved] using hWord

variable {documented : List DocumentedFunction}
variable {tree : CanonicalTree}

/- The texts of documented functions are placeholders. -/
theorem functionTexts_of_holds
    (hHolds :
      tree.Holds
        (documented.flatMap DocumentedFunction.entries))
    {f : DocumentedFunction}
    (hDocumented : f ∈ documented)
    {word : String}
    (hWord :
      word ∈ [LocaleKey.name, LocaleKey.description]) :
    tree.toJson.textAt?
        (functionKey f.nameSpace f.name ++ [word]) =
      some placeholder := by
  apply hHolds.textAt?_function _ (isReserved_of_mem hWord)
  exact
    DocumentedFunction.function_mem_entries.mpr
      ⟨f, hDocumented, rfl, rfl⟩

/- So are the texts of their parameters. -/
theorem parameterTexts_of_holds
    (hHolds :
      tree.Holds
        (documented.flatMap DocumentedFunction.entries))
    {f : DocumentedFunction}
    (hDocumented : f ∈ documented)
    {p : Parameter}
    (hMem : p ∈ f.parameters)
    {word : String}
    (hWord :
      word ∈ [LocaleKey.name, LocaleKey.description]) :
    tree.toJson.textAt? (parameterKey p ++ [word]) =
      some placeholder := by
  apply hHolds.textAt?_parameter _ (isReserved_of_mem hWord)
  exact
    DocumentedFunction.parameter_mem_entries.mpr
      ⟨f, hDocumented, hMem⟩

/- No lookup is required where there is no placeholder. -/
theorem textAt?_of_mem_requiredKeys
    (hHolds :
      tree.Holds
        (documented.flatMap DocumentedFunction.entries))
    {f : DocumentedFunction}
    (hDocumented : f ∈ documented)
    {key : List String}
    (hKey :
      key ∈ requiredKeys f.nameSpace f.name f.parameters) :
    tree.toJson.textAt? key = some placeholder := by
  rcases mem_requiredKeys_iff.mp hKey with
    ⟨p, hMem, word, hWord, rfl⟩ | ⟨word, hWord, rfl⟩
  · exact parameterTexts_of_holds hHolds hDocumented hMem hWord
  · exact functionTexts_of_holds hHolds hDocumented hWord

/- A tree that holds documented functions agrees with them. -/
theorem agreement_of_holds
    (hHolds :
      tree.Holds
        (documented.flatMap DocumentedFunction.entries)) :
    Agreement documented tree.toJson := by
  constructor
  · intro f hDocumented word hWord
    exact functionTexts_of_holds hHolds hDocumented hWord
  · intro f hDocumented p hMem word hWord
    exact parameterTexts_of_holds hHolds hDocumented hMem hWord
  · intro f hDocumented catalog locale fault hError
    rcases Catalog.exists_of_localizeIn_error hError with
      ⟨key, hKey, hLookup⟩
    refine ⟨key, hKey, ?_, hLookup⟩
    exact textAt?_of_mem_requiredKeys hHolds hDocumented hKey
  · intro path members hPath hAt
    rcases hHolds.function_of_object hPath hAt with
      ⟨nameSpace, functionName, hEntry, hKey⟩ |
      ⟨nameSpace, functionName, hEntry, hKey, hMembers⟩
    · rcases DocumentedFunction.function_mem_entries.mp hEntry
        with ⟨f, hDocumented, rfl, rfl⟩
      exact .inl ⟨f, hDocumented, hKey⟩
    · rcases DocumentedFunction.function_mem_entries.mp hEntry
        with ⟨f, hDocumented, hSpace, _⟩
      exact
        .inr
          ⟨f, hDocumented, nameSpace, hSpace, hKey, hMembers⟩
  · intro path members hPath hAt
    rcases hHolds.parameter_of_object hPath hAt with
      ⟨p, hEntry, hPrefix⟩
    rcases DocumentedFunction.parameter_mem_entries.mp hEntry
      with ⟨f, hDocumented, hMem⟩
    exact ⟨f, hDocumented, p, hMem, hPrefix⟩

------------------------------------------------------------
-- Runs of the Collector
------------------------------------------------------------

/-
  A run of the collector that goes well leaves a canonical
  tree, and this tree agrees with the keys of lookups for the
  functions that the run has documented.
-/
theorem canonical_agrees_of_run_ok
    (catalog : Option Catalog)
    (modules : List ProxyModule)
    (c : Collector)
    (summary : Summary)
    (hOk :
      (run emitter catalog modules c).result = .ok summary) :
    ∃ tree,
      (run emitter catalog modules c).state.canonical =
          some tree ∧
        Agreement (run emitter catalog modules c).documented
          tree := by
  rcases exists_events_of_run_ok hOk with
    ⟨events, hMade, hAccepts, hReported⟩
  rcases tree_of_events hMade hAccepts.2 with
    ⟨hEntries, hTree⟩
  rw [hReported.lastState, hReported.documented]
  refine ⟨_, rfl, ?_⟩
  apply agreement_of_holds
  rw [Emitter.replay_cons, hTree]
  exact
    (CanonicalTree.holds_empty c.documentationBase).enterAll
      hEntries

/- One function with a variant of a parameter agrees. -/
theorem canonical_agrees_of_variant :
    let gtin : Parameter :=
      .extension (.new "identifier" .string .matrix true)
        { Overlay.none with name := some "gtin" }
    let module : ProxyModule :=
      ⟨"checks",
        .sequence
          [.method "Checker" "checkDigit"
            (.returns .boolean .matrix) [gtin],
          .concreteClass "Checker" none
            ⟨some "GS1", none, []⟩]⟩
    let report := run emitter none [module] (new none)
    report.result = .ok ⟨1, 1, 1⟩ ∧
      report.documented =
        [⟨some "GS1", "checkDigit", [gtin]⟩] ∧
      ∃ tree, report.state.canonical = some tree ∧
        Agreement report.documented tree := by
  refine ⟨by decide +kernel, by decide +kernel, ?_⟩
  exact
    canonical_agrees_of_run_ok none _ (new none) ⟨1, 1, 1⟩
      (by decide +kernel)

end Collector

end HostBindings
