import HostBindings.Proofs.CanonicalTree.Shape
import HostBindings.Proofs.Json.Readable
import HostBindings.Proofs.Json.RoundTrip
import HostBindings.Proofs.Merge.FixedPoint
import HostBindings.Proofs.Synchronization.Outcomes

/-
  Bringing locale files in line a second time.

  A file that was merged holds a tree that is read back as it
  was and that a second merge leaves as it is.  So there is
  nothing to be written.  A file that was not merged is still
  as it was, and fails again.

  Main declarations:
    * `Json.DoublesReadBack`
    * `Synchronization.merges_again`
    * `Synchronization.plan_again`
    * `Interleaving.disk_follow_of_settled`
    * `Interleaving.second_run_changes_nothing`
-/

------------------------------------------------------------
-- Numbers of Files
------------------------------------------------------------

namespace HostBindings

namespace Json

/-
  The doubles in a value are read from the text written for
  them.  There may be none.
-/
def DoublesReadBack (v : Json) : Prop :=
  ∀ bits,
    .double bits ∈ numbers v →
      (Number.double bits).ReadsBack

/- This is so where all numbers are integers. -/
theorem doublesReadBack_of_integersOnly
    {v : Json}
    (hIntegers : IntegersOnly v) :
    DoublesReadBack v :=
  fun bits hDouble =>
    absurd hDouble (integersOnly_iff.mp hIntegers bits)

/- Then all numbers of a value that was read are read back. -/
theorem shaped_of_read
    {text : String}
    {v : Json}
    (hRead : read text = some v)
    (hDoubles : DoublesReadBack v) :
    Shaped maxNesting Number.ReadsBack v := by
  have hReadable := readable_of_read hRead
  refine ⟨hReadable.keyed, hReadable.nesting, ?_⟩
  intro n hN
  cases n with
  | integer n =>
      exact Number.readsBack_of_fits (hReadable.allowed _ hN)
  | double bits => exact hDoubles bits hN

end Json

------------------------------------------------------------
-- One File Again
------------------------------------------------------------

namespace Synchronization

/- The same entry for a file to which nothing is done. -/
def Entry.unchanged (entry : Entry) : Entry :=
  { entry with
    report := ⟨[], []⟩
    written := false }

/- The result of a resource to whose file nothing is done. -/
def unchangedResult
    (one : Resource × Except Fault Entry) :
    Resource × Except Fault Entry :=
  (one.1, one.2.map Entry.unchanged)

variable {canonical : Json}
variable {disk later : Disk}
variable {resource : Resource}

/- A merged file is merged again to what it holds. -/
theorem merges_again
    {text : String}
    {destination tree : Json}
    (hPlain : CanonicalTree.Plain canonical)
    (hNesting : canonical.nesting ≤ Json.maxNesting)
    (hDoubles : destination.DoublesReadBack)
    (hMerges :
      Merges canonical disk resource text destination tree)
    (hRead :
      later.readText (Path.ofString resource.path) =
        .ok (Json.fileText tree)) :
    Merges canonical later resource (Json.fileText tree)
        tree tree ∧
      mergedEntry canonical resource (Json.fileText tree)
          tree tree =
        (mergedEntry canonical resource text destination
          tree).unchanged := by
  have hAgain :=
    Merge.mergeRoots_again hPlain.textual hPlain.keyed
      hMerges.merged
  have hSource :
      canonical.Shaped Json.maxNesting Number.ReadsBack :=
    ⟨hPlain.keyed, hNesting, fun n hN =>
      absurd hN
        (Json.notMem_numbers_of_textual hPlain.textual n)⟩
  have hTree :=
    Merge.shaped_of_mergeRoots hSource
      (Json.shaped_of_read hMerges.parsed hDoubles)
      hMerges.merged
  refine ⟨⟨hRead, Json.read_fileText hTree, ?_⟩, ?_⟩
  · rw [hAgain]
  · simp [mergedEntry, Entry.unchanged, hAgain,
      Merge.Report.ofChanges]

/-
  Where a file is as it was left the first time, there is
  nothing to be done about it.
-/
theorem plan_again
    (hPlain : CanonicalTree.Plain canonical)
    (hNesting : canonical.nesting ≤ Json.maxNesting)
    (hDoubles :
      ∀ tree,
        resource.loadTree disk = .ok tree →
          tree.DoublesReadBack)
    (hRewritten : disk.Rewritten later)
    (hFile :
      ∀ here,
        resource.LeadsTo disk here →
          later.node? here =
            (alone canonical disk resource).disk.node? here) :
    (plan canonical later resource).2 =
      .settle
        ((alone canonical disk resource).result.map
          Entry.unchanged) := by
  cases hTree : mergedTree canonical disk resource with
  | error fault =>
      have hAlone := alone_of_fault hTree
      rw [hAlone] at hFile ⊢
      rw [plan_of_rewritten hRewritten hFile,
        plan_of_fault hTree]
      rfl
  | ok tree =>
      rcases mergedTree_ok_iff.mp hTree with
        ⟨text, destination, hMerges⟩
      have hResult := (alone_of_merges hMerges).1
      have hRead :=
        readText_of_merges hMerges hRewritten hFile
      have hLoaded :
          resource.loadTree disk = .ok destination := by
        simp only [Resource.loadTree, hMerges.read,
          hMerges.parsed]
      rcases merges_again hPlain hNesting
          (hDoubles destination hLoaded) hMerges hRead with
        ⟨hAgain, hEntry⟩
      rw [plan_of_merges hAgain, if_pos rfl, hEntry, hResult]
      rfl

end Synchronization

------------------------------------------------------------
-- Runs That Change Nothing
------------------------------------------------------------

/- Resources stay apart when texts are rewritten. -/
theorem Resource.Apart.rewritten
    {disk later : Disk}
    {resources : List Resource}
    (hApart : Apart disk resources)
    (hRewritten : disk.Rewritten later) :
    Apart later resources := by
  refine hApart.imp ?_
  intro first second hPair here hHere hThere
  rw [LeadsTo, hRewritten.resolve_eq] at hHere hThere
  exact hPair here hHere hThere

namespace Interleaving

open Synchronization

variable {canonical : Json}
variable {disk : Disk}
variable {resources : List Resource}
variable {schedule again : List Nat}

/- A turn changes nothing if nothing is to be written. -/
theorem disk_advance_of_settled
    {resource : Resource}
    (hSettled :
      ∃ result,
        (plan canonical disk resource).2 = .settle result)
    (turns : Nat) :
    (Task.advance canonical disk
      (taskAfter canonical disk resource turns)).1 = disk := by
  rcases hSettled with ⟨result, hPlan⟩
  match turns with
  | 0 => rfl
  | 1 =>
      simp only [Task.advance, taskAfter, stageAfter, hPlan,
        carryOut]
  | _ + 2 => rfl

/- A run changes nothing if nothing is to be written. -/
theorem disk_follow_of_settled
    (hApart : Resource.Apart disk resources)
    (hSettled :
      ∀ resource ∈ resources,
        ∃ result,
          (plan canonical disk resource).2 =
            .settle result)
    (schedule : List Nat) :
    (follow canonical (start disk resources)
      schedule).disk = disk := by
  induction schedule using List.reverseRecOn with
  | nil =>
      rfl
  | append_singleton schedule turn ih =>
      have hTask :=
        (follows_follow canonical hApart schedule).tasks turn
      rw [follow, List.foldl_append]
      change
        (step canonical
          (follow canonical (start disk resources) schedule)
          turn).disk = disk
      cases hResource : resources[turn]? with
      | none =>
          rw [hResource, Option.map_none] at hTask
          rw [step_of_none hTask]
          exact ih
      | some resource =>
          rw [hResource, Option.map_some] at hTask
          rw [step_of_task hTask, ih]
          exact
            disk_advance_of_settled
              (hSettled resource
                (List.mem_of_getElem? hResource)) _

/-
  A second run changes nothing.  The results are those of the
  first one, but nothing was added, removed or written.
-/
theorem follow_again
    (hPlain : CanonicalTree.Plain canonical)
    (hNesting : canonical.nesting ≤ Json.maxNesting)
    (hApart : Resource.Apart disk resources)
    (hDoubles :
      ∀ resource ∈ resources,
        ∀ tree,
          resource.loadTree disk = .ok tree →
            tree.DoublesReadBack)
    (hCompletes : Completes schedule resources.length)
    (hAgain : Completes again resources.length) :
    let first :=
      follow canonical (start disk resources) schedule
    let second :=
      follow canonical (start first.disk resources) again
    second.disk = first.disk ∧
      results? second =
        (results? first).map
          (List.map Synchronization.unchangedResult) := by
  intro first second
  have hFollows := follows_follow canonical hApart schedule
  have hPlans :
      ∀ resource ∈ resources,
        (plan canonical first.disk resource).2 =
          .settle
            ((alone canonical disk resource).result.map
              Entry.unchanged) := by
    intro resource hResource
    refine
      plan_again hPlain hNesting (hDoubles resource hResource)
        hFollows.rewritten ?_
    exact fun here hHere =>
      node?_follow canonical hApart hCompletes hResource hHere
  have hApartAgain := hApart.rewritten hFollows.rewritten
  constructor
  · exact
      disk_follow_of_settled hApartAgain
        (fun resource hResource =>
          ⟨_, hPlans resource hResource⟩)
        again
  · rw [results?_follow canonical hApart hCompletes,
      results?_follow canonical hApartAgain hAgain]
    simp only [Option.map_some, aloneResults, List.map_map,
      Option.some.injEq, List.map_inj_left]
    intro resource hResource
    simp only [Function.comp_apply, unchangedResult]
    rw [alone, hPlans resource hResource]
    rfl

/- Entries of results that report no changes. -/
theorem entries_map_unchangedResult
    (results : List (Resource × Except Fault Entry)) :
    entries (results.map unchangedResult) =
      (entries results).map (List.map Entry.unchanged) := by
  induction results with
  | nil =>
      rfl
  | cons one rest ih =>
      rcases one with ⟨resource, fault | entry⟩
      · rfl
      · simp only [List.map_cons, unchangedResult, Except.map,
          entries, ih]
        cases entries rest <;> rfl

/-
  Bringing files in line twice is the same as doing it once.
  The second time no file changes.  What went well goes well
  again, with nothing added, removed or written and the same
  completeness, and what failed fails in the same way.  This
  is so for dealing with one file after the other, whatever
  is logged, and for any two complete runs.
-/
theorem second_run_changes_nothing
    (hBuilt : CanonicalTree.IsBuilt canonical)
    (hNesting : canonical.nesting ≤ Json.maxNesting)
    (hApart : Resource.Apart disk resources)
    (hDoubles :
      ∀ resource ∈ resources,
        ∀ tree,
          resource.loadTree disk = .ok tree →
            tree.DoublesReadBack) :
    (∀ firstLog secondLog,
      let first :=
        synchronize canonical firstLog disk resources
      let second :=
        synchronize canonical secondLog first.disk resources
      second.disk = first.disk ∧
        second.result =
          first.result.map (List.map Entry.unchanged) ∧
        (synchronizeEach canonical secondLog first.disk
            resources).2.2 =
          (synchronizeEach canonical firstLog disk
            resources).2.2.map unchangedResult) ∧
      ∀ schedule again,
        Completes schedule resources.length →
          Completes again resources.length →
            let first :=
              follow canonical (start disk resources) schedule
            let second :=
              follow canonical (start first.disk resources)
                again
            second.disk = first.disk ∧
              results? second =
                (results? first).map
                  (List.map unchangedResult) := by
  have hPlain := CanonicalTree.plain_of_isBuilt hBuilt
  refine
    ⟨?_, fun schedule again hCompletes hAgain =>
      follow_again hPlain hNesting hApart hDoubles hCompletes
        hAgain⟩
  intro firstLog secondLog first second
  have hFirst :
      follow canonical (start disk resources)
          (inOrder 0 resources) =
        ⟨first.disk, _⟩ :=
    follow_inOrder canonical firstLog disk resources
  have hInOrder :=
    follow_again hPlain hNesting hApart hDoubles
      (completes_inOrder resources)
      (completes_inOrder resources)
  simp only [hFirst] at hInOrder
  simp only [follow_inOrder canonical secondLog, results?,
    mapM_result?_settledTask, Option.map_some,
    Option.some.injEq] at hInOrder
  rcases hInOrder with ⟨hDisk, hResults⟩
  refine ⟨hDisk, ?_, hResults⟩
  have hEntries := congrArg entries hResults
  rw [entries_map_unchangedResult] at hEntries
  exact hEntries

/-
  A file with a number and an obsolete function is rewritten
  once, and one that is no tree fails both times.
-/
theorem second_run_changes_nothing_after_merge :
    let de : Resource :=
      ⟨⟨"de", none, by decide, rfl⟩, "de.json"⟩
    let en : Resource :=
      ⟨⟨"en", none, by decide, rfl⟩, "en.json"⟩
    let text :=
      "\x7b\"version\": 3, \"Functions\": \x7b\"old\": 0\x7d\x7d"
    let disk : Disk :=
      ⟨[],
        [([.text "de.json"], .file (.text "[")),
          ([.text "en.json"], .file (.text text))]⟩
    let canonical :=
      ((CanonicalTree.empty none).enterAll
        [.function none "f"]).toJson
    let first := synchronize canonical true disk [de, en]
    let second :=
      synchronize canonical false first.disk [de, en]
    canonical.nesting ≤ Json.maxNesting ∧
      Resource.Apart disk [de, en] ∧
      first.disk.readText (Path.ofString "en.json") ≠
        .ok text ∧
      second.disk = first.disk ∧
      second.result =
        first.result.map (List.map Entry.unchanged) := by
  intro de en text disk canonical first second
  have hCanonical :
      canonical =
        .object
          [("Parameters", .object []),
            ("Functions",
              .object
                [("f", CanonicalTree.functionJson none)])] := by
    simp [canonical, CanonicalTree.empty,
      CanonicalTree.enter, CanonicalTree.addFunction,
      CanonicalTree.address, CanonicalTree.toJson,
      CanonicalTree.siblings, CanonicalTree.sortSiblings,
      CanonicalTree.slotJson, Keyed.put,
      LocaleKey.parameters, LocaleKey.functions]
  have hNesting : canonical.nesting ≤ Json.maxNesting := by
    rw [hCanonical]
    decide +kernel
  have hDe : de.LeadsTo disk [.text "de.json"] := by
    unfold Resource.LeadsTo
    decide +kernel
  have hEn : en.LeadsTo disk [.text "en.json"] := by
    unfold Resource.LeadsTo
    decide +kernel
  have hApart : Resource.Apart disk [de, en] := by
    refine .cons ?_ (List.pairwise_singleton _ _)
    intro other hOther here hHere hThere
    rw [List.mem_singleton.mp hOther] at hThere
    cases hDe.symm.trans hHere
    have hSame := hEn.symm.trans hThere
    simp at hSame
  have hDoubles :
      ∀ resource ∈ [de, en],
        ∀ tree,
          resource.loadTree disk = .ok tree →
            tree.DoublesReadBack := by
    have hNoTree :
        de.loadTree disk = .error .malformedJson := by
      decide +kernel
    have hTree :
        en.loadTree disk =
          .ok
            (.object
              [("version", .number (.integer 3)),
                ("Functions",
                  .object
                    [("old", .number (.integer 0))])]) := by
      decide +kernel
    intro resource hResource tree hLoaded
    apply Json.doublesReadBack_of_integersOnly
    simp only [List.mem_cons, List.not_mem_nil,
      or_false] at hResource
    rcases hResource with rfl | rfl
    · rw [hNoTree] at hLoaded
      cases hLoaded
    · rw [hTree] at hLoaded
      cases hLoaded
      simp [Json.IntegersOnly, Json.IntegersOnlyMembers]
  have hWritten :
      first.disk.readText (Path.ofString "en.json") ≠
        .ok text := by
    change
      (synchronize canonical true disk
          [de, en]).disk.readText (Path.ofString "en.json") ≠
        .ok text
    rw [hCanonical]
    decide +kernel
  have hSecond :=
    (second_run_changes_nothing ⟨none, _, rfl⟩ hNesting hApart
      hDoubles).1 true false
  exact
    ⟨hNesting, hApart, hWritten, hSecond.1, hSecond.2.1⟩

end Interleaving

end HostBindings
