import HostBindings.Proofs.Excel.Outputs
import HostBindings.Proofs.Synchronization.Resynchronized
import HostBindings.Proofs.Workflow.Endings

/-
  Generating a second time.

  A generation that goes well brings the locale files in line
  and writes the outputs.  On the disk that it leaves, the
  same locale files are found, nothing is left to be done
  about them, and the same bindings are written where they
  are already.

  Main declarations:
    * `Generation.Succeeds`
    * `Generation.exists_succeeds_of_ok`
    * `Generation.resources_of_succeeds`
    * `Generation.generate_again`
-/

------------------------------------------------------------
-- Generations That Go Well
------------------------------------------------------------

namespace HostBindings

namespace Generation

/-
  What a generation that goes well comes by: the tree of the
  modules, the default locale, the disk with the locale files
  in line, and the catalog that is loaded from it.
-/
structure Succeeds
    (request : Request)
    (disk : Disk)
    (tree : Json)
    (defaultLocale : Locale)
    (inLine : Disk)
    (catalog : Catalog)
    (summary : Summary) : Prop where
  collected : ∃ count, (collect request).result = .ok count
  canonical : (collect request).state.canonical = some tree
  locale :
    Locale.ofCode request.settings.defaultLocale =
      .ok defaultLocale
  synchronized :
    ∃ all, (synchronization request disk tree).result = .ok all
  leaves : (synchronization request disk tree).disk = inLine
  loaded :
    Catalog.load inLine (policy request.settings)
        (resources request disk) =
      .ok catalog
  emitted :
    (emission request inLine defaultLocale catalog).result =
      .ok summary

variable {request : Request}
variable {disk inLine : Disk}
variable {tree : Json}
variable {defaultLocale : Locale}
variable {catalog : Catalog}
variable {summary : Summary}

/- A generation goes well when all its stages do. -/
theorem exists_succeeds_of_ok
    (hOk : (generate request disk).result = .ok summary) :
    ∃ tree defaultLocale inLine catalog,
      Succeeds request disk tree defaultLocale inLine catalog
        summary := by
  have hEnding := ending_of_generate request disk
  rw [hOk] at hEnding
  rcases hEnding.exists_of_ok with
    ⟨tree, defaultLocale, inLine, catalog, hReady, hEmitted⟩
  exact
    ⟨tree, defaultLocale, inLine, catalog, hReady.collected,
      hReady.canonical, hReady.locale, hReady.synchronized,
      hReady.leaves, hReady.loaded, hEmitted⟩

/- With a default locale, only the log is added to. -/
theorem withCanonical_of_locale
    (hLocale :
      Locale.ofCode request.settings.defaultLocale =
        .ok defaultLocale) :
    ∃ log,
      withCanonical request disk tree =
        (synchronizeAndBind request disk tree defaultLocale
          (resources request disk)).after log := by
  unfold withCanonical
  dsimp only
  rw [hLocale]
  exact ⟨_, rfl⟩

/- When all stages go well, the last one has the result. -/
theorem generate_of_succeeds
    (hSucceeds :
      Succeeds request disk tree defaultLocale inLine catalog
        summary) :
    (generate request disk).result = .ok summary ∧
      (generate request disk).disk =
        (emission request inLine defaultLocale
          catalog).state.disk := by
  rcases hSucceeds with
    ⟨⟨count, hCollected⟩, hTree, hLocale, ⟨all, hAll⟩,
      rfl, hLoaded, hEmitted⟩
  obtain ⟨log, hLog⟩ :=
    @withCanonical_of_locale request disk tree _ hLocale
  simp only [synchronization, emission] at *
  simp only [generate, hCollected, hTree, hLog, after_result,
    after_disk, synchronizeAndBind, hAll, bindLocalized,
    hLoaded, emitBindings, hEmitted, Except.mapError, and_self]

------------------------------------------------------------
-- The Second Time
------------------------------------------------------------

/- A catalog depends on nothing but the texts of its files. -/
theorem load_of_readText
    {policy : LookupPolicy}
    {later : Disk}
    {found : List Resource}
    (hRead :
      ∀ resource ∈ found,
        later.readText (Path.ofString resource.path) =
          disk.readText (Path.ofString resource.path)) :
    Catalog.load later policy found =
      Catalog.load disk policy found := by
  have hInto :
      ∀ catalog : Catalog,
        Catalog.loadInto later catalog found =
          Catalog.loadInto disk catalog found := by
    induction found with
    | nil => exact fun _ => rfl
    | cons resource rest ih =>
        intro catalog
        have hFirst :
            resource.loadTree later = resource.loadTree disk := by
          unfold Resource.loadTree
          rw [hRead resource List.mem_cons_self]
        have hRest :=
          ih fun other hOther =>
            hRead other (List.mem_cons_of_mem _ hOther)
        simp only [Catalog.loadInto, hFirst, hRest]
  exact hInto _

/- The tree of the modules is plain. -/
theorem plain_of_succeeds
    (hSucceeds :
      Succeeds request disk tree defaultLocale inLine catalog
        summary) :
    CanonicalTree.Plain tree := by
  rcases hSucceeds.collected with ⟨count, hCollected⟩
  have hCanonical :=
    (Collector.canonical_of_run_ok hCollected).2
  have hTree := hSucceeds.canonical
  rw [collect, hCanonical] at hTree
  exact
    CanonicalTree.plain_of_isBuilt
      ⟨_, _, (Option.some.inj hTree).symm⟩

/-
  The disk that a generation leaves: the outputs have been
  written to a disk with the locale files in line.
-/
theorem writtenAt_of_succeeds
    (hSucceeds :
      Succeeds request disk tree defaultLocale inLine catalog
        summary) :
    Disk.WrittenAt
        (Excel.outputPlaces request.sourcePath
          request.manifestPath inLine)
        inLine (generate request disk).disk ∧
      (emission request (generate request disk).disk
          defaultLocale catalog).result = .ok summary ∧
      (emission request (generate request disk).disk
          defaultLocale catalog).state.disk =
        (generate request disk).disk := by
  have hEmitted := hSucceeds.emitted
  rw [(generate_of_succeeds hSucceeds).2]
  rw [emission] at hEmitted
  rcases Excel.run_again hEmitted with
    ⟨hWritten, hResult, hDisk⟩
  exact ⟨hWritten, hResult, hDisk⟩

/- The files that are found are apart from each other. -/
theorem apart_resources
    (hDistinct : disk.nodes.Distinct)
    (request : Request) :
    Resource.Apart disk (resources request disk) :=
  Resource.apart_discover disk
    (Resource.nodup_paths_discover hDistinct _)

/- Locale files that are in line are those from before. -/
theorem inLine_of_succeeds
    (hSucceeds :
      Succeeds request disk tree defaultLocale inLine catalog
        summary) :
    disk.Rewritten inLine ∧
      resources request inLine = resources request disk := by
  have hRewritten : disk.Rewritten inLine := by
    rw [← hSucceeds.leaves]
    exact Synchronization.rewritten_synchronize _ _ disk _
  have hKeys : inLine.nodes.keys = disk.nodes.keys := by
    rw [← hSucceeds.leaves]
    exact Synchronization.keys_synchronizeEach _ _ _ _
  refine ⟨hRewritten, ?_⟩
  rw [resources, resources,
    Resource.discover_rewritten hRewritten hKeys]

/- Where texts are rewritten, the same places are outside. -/
theorem outside_of_rewritten
    {directory : Path}
    (hRewritten : disk.Rewritten inLine)
    (hOutside :
      disk.Outside directory
        (Excel.outputPlaces request.sourcePath
          request.manifestPath disk)) :
    inLine.Outside directory
      (Excel.outputPlaces request.sourcePath
        request.manifestPath inLine) := by
  intro here hHere
  rw [Disk.placeOf_eq hRewritten.home]
  apply hOutside here
  rw [Excel.outputPlaces,
    ← Disk.touched_eq hRewritten.home,
    ← Disk.touched_eq hRewritten.home]
  exact hHere

/-
  Outputs outside of the locale directory leave the locale
  files as they are in line.
-/
theorem resources_of_succeeds
    (hDistinct : disk.nodes.Distinct)
    (hReaches :
      disk.Reaches
        (.ofString request.settings.localesDirectory))
    (hOutside :
      disk.Outside
        (.ofString request.settings.localesDirectory)
        (Excel.outputPlaces request.sourcePath
          request.manifestPath disk))
    (hSucceeds :
      Succeeds request disk tree defaultLocale inLine catalog
        summary) :
    resources request (generate request disk).disk =
        resources request disk ∧
      ∀ resource ∈ resources request disk,
        (generate request disk).disk.readText
            (Path.ofString resource.path) =
          inLine.readText (Path.ofString resource.path) := by
  rcases inLine_of_succeeds hSucceeds with
    ⟨hRewritten, hSame⟩
  have hWritten := (writtenAt_of_succeeds hSucceeds).1
  have hApart := outside_of_rewritten hRewritten hOutside
  constructor
  · rw [← hSame]
    exact
      Resource.discover_written hWritten hApart
        (hRewritten.reaches hReaches)
  · intro resource hResource
    rcases hSucceeds.synchronized with ⟨all, hAll⟩
    rcases Synchronization.exists_readText_of_ok
        (apart_resources hDistinct request) hAll resource
        hResource with
      ⟨text, hText⟩
    have hText :
        inLine.readText (Path.ofString resource.path) =
          .ok text := by
      rw [← hSucceeds.leaves]
      exact hText
    rw [hText]
    exact
      Resource.readText_written hWritten hApart hResource
        hText

/-
  Generating a second time changes nothing.  Let the outputs
  be outside of the locale directory, and let the directory
  be reached before the first time if anything is in it, as
  it is by a path that never goes up.  Then the second
  generation has the same summary and leaves the disk just
  as it was.
-/
theorem generate_again
    (hDistinct : disk.nodes.Distinct)
    (hReaches :
      disk.Reaches
        (.ofString request.settings.localesDirectory))
    (hOutside :
      disk.Outside
        (.ofString request.settings.localesDirectory)
        (Excel.outputPlaces request.sourcePath
          request.manifestPath disk))
    (hNesting :
      ∀ tree,
        (collect request).state.canonical = some tree →
          tree.nesting ≤ Json.maxNesting)
    (hDoubles :
      ∀ resource ∈ resources request disk,
        ∀ tree,
          resource.loadTree disk = .ok tree →
            tree.DoublesReadBack)
    (hOk : (generate request disk).result = .ok summary) :
    let after := (generate request disk).disk
    (generate request after).result = .ok summary ∧
      (generate request after).disk = after := by
  intro after
  rcases exists_succeeds_of_ok hOk with
    ⟨tree, defaultLocale, inLine, catalog, hSucceeds⟩
  rcases hSucceeds.synchronized with ⟨all, hAll⟩
  rcases writtenAt_of_succeeds hSucceeds with
    ⟨_, hEmitted, hLeft⟩
  rcases resources_of_succeeds hDistinct hReaches hOutside
      hSucceeds with
    ⟨hFound, hRead⟩
  have hReadFirst :
      ∀ resource ∈ resources request disk,
        after.readText (Path.ofString resource.path) =
          (synchronization request disk tree).disk.readText
            (Path.ofString resource.path) := by
    rw [hSucceeds.leaves]
    exact hRead
  rcases Synchronization.synchronize_again
      (plain_of_succeeds hSucceeds)
      (hNesting tree hSucceeds.canonical)
      (apart_resources hDistinct request) hDoubles hAll
      hReadFirst with
    ⟨hDisk, hResult⟩
  have hLoaded :
      Catalog.load after (policy request.settings)
          (resources request after) =
        .ok catalog := by
    rw [hFound, load_of_readText hRead]
    exact hSucceeds.loaded
  -- every stage goes well again, and the disk is in line
  have hAgain :
      Succeeds request after tree defaultLocale after catalog
        summary :=
    ⟨hSucceeds.collected, hSucceeds.canonical,
      hSucceeds.locale,
      ⟨_, by rw [synchronization, hFound]; exact hResult⟩,
      by rw [synchronization, hFound]; exact hDisk,
      hLoaded, hEmitted⟩
  rcases generate_of_succeeds hAgain with ⟨hSummary, hSame⟩
  exact ⟨hSummary, hSame.trans hLeft⟩

/- One method, and locale files in some directory. -/
def checkRequest (localesDirectory : String) : Request where
  settings :=
    { localesDirectory := localesDirectory
      logLocaleChanges := true
      strictLocalization := false
      defaultLocale := "en"
      documentationBase := none
      proxyModule := "./proxies"
      extensionClass := "ExcelAppExtension"
      extensionModule := "./excel-app-extension" }
  modules :=
    [⟨"checks",
      .sequence
        [.method "CheckProxy" "check"
            (.returns .string .matrix) [],
          .concreteClass "CheckProxy" none
            ⟨none, none, []⟩]⟩]
  sourcePath := "out/functions.ts"
  manifestPath := "functions.json"

/- A directory with an empty locale file. -/
def checkDisk : Disk :=
  ⟨[],
    [([.text "locales"], .directory),
      ([.text "locales", .text "en.json"],
        .file (.text "\x7b\x7d"))]⟩

/- The tree of the method is not deep. -/
theorem nesting_check
    {localesDirectory : String}
    {tree : Json}
    (hTree :
      (collect
          (checkRequest localesDirectory)).state.canonical =
        some tree) :
    tree.nesting ≤ Json.maxNesting := by
  have hCanonical :
      (collect
          (checkRequest localesDirectory)).state.canonical =
        some
          (.object
            [("Parameters", .object []),
              ("Functions",
                .object
                  [("check",
                    .object
                      [("name", .string placeholder),
                        ("description",
                          .string placeholder)])])]) := by
    unfold collect
    simp only [checkRequest]
    decide +kernel
  rw [hCanonical] at hTree
  cases hTree
  decide +kernel

/- The empty file is filled once and then left alone. -/
theorem generate_again_check :
    let after := (generate (checkRequest "locales") checkDisk).disk
    (generate (checkRequest "locales") checkDisk).result =
        .ok ⟨1, 1, 1⟩ ∧
      (generate (checkRequest "locales") after).result =
          .ok ⟨1, 1, 1⟩ ∧
        (generate (checkRequest "locales") after).disk =
          after := by
  have hRooted : checkDisk.Rooted :=
    Disk.Rooted.of_keys (by decide) (by decide +kernel)
  have hSteps :
      (Path.ofString "locales").steps =
        [FileName.text "locales"].map PathStep.enter := by
    decide
  have hReaches :
      checkDisk.Reaches (.ofString "locales") :=
    hRooted.reaches (by decide) hSteps
  have hOutside :
      checkDisk.Outside (.ofString "locales")
        (Excel.outputPlaces "out/functions.ts"
          "functions.json" checkDisk) := by
    unfold Disk.Outside
    decide +kernel
  have hLoaded :
      ∀ resource ∈ resources (checkRequest "locales") checkDisk,
        resource.loadTree checkDisk = .ok (.object []) := by
    decide +kernel
  have hDoubles :
      ∀ resource ∈ resources (checkRequest "locales") checkDisk,
        ∀ tree,
          resource.loadTree checkDisk = .ok tree →
            tree.DoublesReadBack := by
    intro resource hResource tree hTree
    rw [hLoaded resource hResource] at hTree
    cases hTree
    apply Json.doublesReadBack_of_integersOnly
    simp [Json.IntegersOnly, Json.IntegersOnlyMembers]
  have hOk :
      (generate (checkRequest "locales") checkDisk).result =
        .ok ⟨1, 1, 1⟩ := by
    decide +kernel
  have hAgain :=
    @generate_again (checkRequest "locales") checkDisk
      ⟨1, 1, 1⟩ (by decide) hReaches hOutside
      (fun _ => nesting_check) hDoubles hOk
  exact ⟨hOk, hAgain⟩

/-
  A directory that is reached through one that is missing is
  found the second time only.
-/
theorem generate_again_through_missing :
    ¬ ∀ (request : Request) (disk : Disk) (summary : Summary),
      disk.nodes.Distinct →
        disk.Outside
            (.ofString request.settings.localesDirectory)
            (Excel.outputPlaces request.sourcePath
              request.manifestPath disk) →
          (∀ tree,
            (collect request).state.canonical = some tree →
              tree.nesting ≤ Json.maxNesting) →
            (∀ resource ∈ resources request disk,
              ∀ tree,
                resource.loadTree disk = .ok tree →
                  tree.DoublesReadBack) →
              (generate request disk).result = .ok summary →
                (generate request
                    (generate request disk).disk).result =
                    .ok summary ∧
                  (generate request
                      (generate request disk).disk).disk =
                    (generate request disk).disk := by
  intro hStable
  have hOutside :
      checkDisk.Outside (.ofString "out/../locales")
        (Excel.outputPlaces "out/functions.ts"
          "functions.json" checkDisk) := by
    unfold Disk.Outside
    decide +kernel
  have hNone :
      resources (checkRequest "out/../locales") checkDisk =
        [] := by
    decide +kernel
  have hDoubles :
      ∀ resource ∈
          resources (checkRequest "out/../locales") checkDisk,
        ∀ tree,
          resource.loadTree checkDisk = .ok tree →
            tree.DoublesReadBack := by
    rw [hNone]
    exact List.forall_mem_nil _
  have hOk :
      (generate (checkRequest "out/../locales")
          checkDisk).result =
        .ok ⟨1, 1, 1⟩ := by
    decide +kernel
  have hSame :=
    (hStable (checkRequest "out/../locales") checkDisk
      ⟨1, 1, 1⟩ (by decide) hOutside
      (fun _ => nesting_check) hDoubles hOk).2
  have hDiffers :
      (generate (checkRequest "out/../locales")
          (generate (checkRequest "out/../locales")
            checkDisk).disk).disk ≠
        (generate (checkRequest "out/../locales")
          checkDisk).disk := by
    decide +kernel
  exact hDiffers hSame

end Generation

end HostBindings
