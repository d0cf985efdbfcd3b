import HostBindings.Proofs.Merge.Changes
import HostBindings.Proofs.Merge.Conflicts

/-
  What a merge reports.

  The report lists the paths of the changes as dotted texts,
  those removed apart from those added.

  Main declarations:
    * `Merge.Lists`
    * `Merge.lists_of_nodup`
    * `Merge.report_is_exact`
-/

------------------------------------------------------------
-- Reports
------------------------------------------------------------

namespace HostBindings

namespace Merge

variable {addMissing : Bool}

namespace Change

/- Only the removal of a path is read as one. -/
theorem removed?_eq_some_iff
    (change : Change)
    (path : List String) :
    change.removed? = some path ↔ change = .removed path := by
  cases change <;> simp [removed?]

/- Only the addition of a path is read as one. -/
theorem added?_eq_some_iff
    (change : Change)
    (path : List String) :
    change.added? = some path ↔ change = .added path := by
  cases change <;> simp [added?]

end Change

/- Texts that name each of some paths once, dotted. -/
def Lists
    (texts : List String)
    (listed : List String → Prop) : Prop :=
  ∃ paths : List (List String),
    texts = paths.map dotted ∧ paths.Nodup ∧
      ∀ path, path ∈ paths ↔ listed path

/- The changes of one sort are listed as they were made. -/
theorem lists_of_nodup
    {changes : List Change}
    {read : Change → Option (List String)}
    {made : List String → Change}
    (hRead :
      ∀ change path,
        read change = some path ↔ change = made path)
    (hNodup : changes.Nodup) :
    Lists ((changes.filterMap read).map dotted) fun path =>
      made path ∈ changes := by
  refine ⟨changes.filterMap read, rfl, ?_, ?_⟩
  · apply hNodup.filterMap
    intro first second path hFirst hSecond
    rw [(hRead first path).mp hFirst,
      (hRead second path).mp hSecond]
  · intro path
    simp only [List.mem_filterMap, hRead]
    constructor
    · rintro ⟨change, hChange, rfl⟩
      exact hChange
    · intro hChange
      exact ⟨made path, hChange, rfl⟩

/- What is listed may be put in other words. -/
theorem Lists.congr
    {texts : List String}
    {listed other : List String → Prop}
    (hLists : Lists texts listed)
    (hSame : ∀ path, listed path ↔ other path) :
    Lists texts other := by
  rcases hLists with ⟨paths, hTexts, hNodup, hMem⟩
  exact
    ⟨paths, hTexts, hNodup,
      fun path => (hMem path).trans (hSame path)⟩

/- A report is empty when nothing was changed. -/
theorem isUnchanged_ofChanges_iff
    (changes : List Change) :
    (Report.ofChanges changes).isUnchanged = true ↔
      changes = [] := by
  cases changes with
  | nil => simp [Report.ofChanges, Report.isUnchanged]
  | cons change rest =>
      cases change <;>
        simp [Report.ofChanges, Report.isUnchanged,
          Change.added?, Change.removed?]

/- Whole trees that merge well are merged as values. -/
theorem mergeRoots_of_ok
    {source destination merged : Json}
    (hOk :
      (mergeRoots addMissing source
        destination).result = .ok merged) :
    mergeRoots addMissing source destination =
      mergeValues addMissing [] source destination := by
  by_cases hObjects : Both .object source destination
  · exact mergeRoots_of_objects hObjects
  · rw [mergeRoots_of_others hObjects] at hOk
    cases hOk

/-
  The report on a merge that goes well is exact.  Removed are
  the paths, except those of root keys, that the destination
  alone has below an object on both sides.  Added are, on
  request, those that the source alone has, root keys
  included.  Each is listed once, and nothing is listed
  exactly when the result is the destination.
-/
theorem report_is_exact
    {source destination merged : Json}
    (hSource : source.WellKeyed)
    (hDestination : destination.WellKeyed)
    (hOk :
      (mergeRoots addMissing source
        destination).result = .ok merged) :
    let report :=
      Report.ofChanges
        (mergeRoots addMissing source destination).changes
    Lists report.removed (fun path =>
      1 < path.length ∧ OnlyIn destination source path) ∧
    Lists report.added (fun path =>
      addMissing = true ∧ OnlyIn source destination path) ∧
    (report.isUnchanged = true ↔ merged = destination) := by
  have hValues := mergeRoots_of_ok hOk
  rw [hValues] at hOk ⊢
  have hNodup := nodup_changes hSource hDestination hOk
  have hDue (change : Change) :
      change ∈
          (mergeValues addMissing [] source
            destination).changes ↔
        Due addMissing [] source destination change :=
    mem_changes_iff hDestination hOk
  intro report
  refine ⟨?_, ?_, ?_⟩
  · apply
      (lists_of_nodup Change.removed?_eq_some_iff hNodup).congr
    intro path
    simp [hDue, Due, OnlyBelow]
  · apply
      (lists_of_nodup Change.added?_eq_some_iff hNodup).congr
    intro path
    simp [hDue, Due, OnlyBelow]
  · rw [isUnchanged_ofChanges_iff]
    exact changes_eq_nil_iff hDestination hOk

/-
  Of what is removed and of what is added only the tops are
  listed, and a root key of the destination alone is not.
-/
theorem report_is_exact_tops :
    let source : Json :=
      .object
        [("Functions", .object
          [("new", .object [("name", .string "todo")])])]
    let destination : Json :=
      .object
        [("Errors", .null),
          ("Functions", .object
            [("old", .object [("name", .string "alt")])])]
    let report :=
      Report.ofChanges
        (mergeRoots true source destination).changes
    source.WellKeyed ∧ destination.WellKeyed ∧
      report = ⟨["Functions.new"], ["Functions.old"]⟩ ∧
      Lists report.removed (fun path =>
        1 < path.length ∧
          OnlyIn destination source path) := by
  intro source destination report
  have hSource : source.WellKeyed := by
    simp [source, Keyed.Distinct, Keyed.keys,
      Json.WellKeyed, Json.WellKeyedMembers]
  have hDestination : destination.WellKeyed := by
    simp [destination, Keyed.Distinct, Keyed.keys,
      Json.WellKeyed, Json.WellKeyedMembers]
  have hOk :
      (mergeRoots true source destination).result =
        .ok (.object
          [("Errors", .null),
            ("Functions", .object
              [("new", .object
                [("name", .string "todo")])])]) := by
    rfl
  exact
    ⟨hSource, hDestination, rfl,
      (report_is_exact hSource hDestination hOk).1⟩

end Merge

end HostBindings
