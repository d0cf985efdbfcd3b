import HostBindings.Proofs.Locale.Order
import HostBindings.Proofs.Synchronization.Rediscovery

/-
  Which locale files are found, and in which order.

  A directory holds a locale file for each of its names that
  is a code with the extension.  The files are sorted by
  their locales, which are distinct.  So it does not matter
  in which order the names of the directory are listed.

  Main declarations:
    * `Resource.sorted_ofEntries`
    * `Resource.ascending_ofEntries`
    * `Resource.ofEntries_of_perm`
    * `Disk.Reordered`
    * `Resource.discover_finds_locale_files`
-/

------------------------------------------------------------
-- The Order of Locale Files
------------------------------------------------------------

namespace HostBindings

namespace Resource

variable {directory : String}
variable {names others : List FileName}

/- Locale files are in the order of their locales. -/
theorem sorted_ofEntries
    (directory : String)
    (names : List FileName) :
    (ofEntries directory names).Pairwise fun first second =>
      first.locale.le second.locale = true := by
  apply List.pairwise_mergeSort
  · intro a b c hFirst hSecond
    exact Locale.le_trans hFirst hSecond
  · intro a b
    rw [Bool.or_eq_true]
    exact Locale.le_total a.locale b.locale

/- No locale has two files. -/
theorem ascending_ofEntries
    (hNodup : names.Nodup) :
    Locale.Ascending
      ((ofEntries directory names).map Resource.locale) := by
  rw [Locale.Ascending, List.pairwise_map]
  refine
    ((sorted_ofEntries directory names).and
      (nodup_ofEntries directory hNodup)).imp_of_mem ?_
  rintro first second hFirst hSecond ⟨hLe, hNe⟩
  exact ⟨hLe, mt (eq_of_locale_eq hFirst hSecond) hNe⟩

/- The same names in another order give the same files. -/
theorem ofEntries_of_perm
    (hPerm : names.Perm others) :
    ofEntries directory names =
      ofEntries directory others := by
  have hFound :
      (ofEntries directory names).Perm
        (ofEntries directory others) :=
    (perm_ofEntries directory names).trans
      ((hPerm.filterMap _).trans
        (perm_ofEntries directory others).symm)
  refine
    List.Perm.eq_of_pairwise ?_
      (sorted_ofEntries directory names)
      (sorted_ofEntries directory others) hFound
  intro first second hFirst hSecond hLe hGe
  exact
    eq_of_locale_eq hFirst (hFound.symm.subset hSecond)
      (Locale.le_antisymm hLe hGe)

end Resource

------------------------------------------------------------
-- Disks in Another Order
------------------------------------------------------------

namespace Disk

variable {disk other : Disk}
variable {path : Path}

/- A disk that lists the same nodes in another order. -/
structure Reordered (disk other : Disk) : Prop where
  home : other.home = disk.home
  nodes : disk.nodes.Perm other.nodes

/- At each location there is what was there. -/
theorem Reordered.rewritten
    (hReordered : disk.Reordered other)
    (hDistinct : disk.nodes.Distinct) :
    disk.Rewritten other := by
  refine ⟨hReordered.home, fun here => .inl ?_⟩
  unfold node?
  rw [hReordered.home,
    Keyed.find?_of_perm hDistinct hReordered.nodes]

/- There are entries in directories only. -/
theorem entries_of_not_isDirectory
    (hNot : ¬ disk.isDirectory path = true) :
    disk.entries path = [] := by
  unfold isDirectory at hNot
  unfold entries
  split
  · rename_i hLocate
    simp [hLocate] at hNot
  · rfl

/- So a directory lists the same names in some order. -/
theorem Reordered.entries
    (hReordered : disk.Reordered other)
    (hDistinct : disk.nodes.Distinct)
    (path : Path) :
    (disk.entries path).Perm (other.entries path) := by
  have hSame :=
    (hReordered.rewritten hDistinct).isDirectory_iff path
  by_cases hThere : disk.isDirectory path = true
  · rw [entries_of_isDirectory hThere,
      entries_of_isDirectory (hSame.mpr hThere),
      placeOf_eq hReordered.home]
    exact (hReordered.nodes.map Prod.fst).filterMap _
  · rw [entries_of_not_isDirectory hThere,
      entries_of_not_isDirectory (mt hSame.mp hThere)]

end Disk

------------------------------------------------------------
-- Discovery
------------------------------------------------------------

namespace Resource

/- What is found are the locale files among the entries. -/
theorem discover_eq_ofEntries
    (disk : Disk)
    (directory : String) :
    (discover disk directory).2 =
      ofEntries directory
        (disk.entries (Path.ofString directory)) := by
  unfold discover
  by_cases hThere :
      disk.isDirectory (Path.ofString directory) = true
  · simp only [hThere, if_true]
  · rw [Disk.entries_of_not_isDirectory hThere]
    simp [hThere, ofEntries]

/- The locales of the files that are found ascend. -/
theorem ascending_discover
    {disk : Disk}
    (directory : String)
    (hDistinct : disk.nodes.Distinct) :
    Locale.Ascending
      ((discover disk directory).2.map Resource.locale) := by
  rw [discover_eq_ofEntries]
  exact ascending_ofEntries (Disk.nodup_entries hDistinct _)

/-
  On a disk with distinct keys, one file is found for each
  entry of the directory that is the code of a locale with
  the extension, and nothing else.  The locales ascend, so
  that they and the paths are distinct.  Any order of the
  entries, and any order of the nodes of the disk, gives the
  same files.
-/
theorem discover_finds_locale_files
    (disk : Disk)
    (directory : String)
    (hDistinct : disk.nodes.Distinct) :
    let entries := disk.entries (Path.ofString directory)
    let found := (discover disk directory).2
    (∀ resource,
      resource ∈ found ↔
        ∃ code locale,
          .text (code ++ ".json") ∈ entries ∧
            Locale.ofCode code = .ok locale ∧
            resource =
              ⟨locale,
                Path.join directory (code ++ ".json")⟩) ∧
    Locale.Ascending (found.map Resource.locale) ∧
    (found.map Resource.path).Nodup ∧
    (∀ names,
      entries.Perm names →
        ofEntries directory names = found) ∧
    ∀ other,
      disk.Reordered other →
        (discover other directory).2 = found := by
  intro entries found
  have hFound : found = ofEntries directory entries :=
    discover_eq_ofEntries disk directory
  have hNodup : entries.Nodup :=
    Disk.nodup_entries hDistinct _
  have hName :
      ∀ code : String,
        code ++ "." ++ extension = code ++ ".json" := by
    intro code
    rw [String.append_assoc]
    rfl
  rw [hFound]
  refine
    ⟨?_, ascending_ofEntries hNodup,
      nodup_paths_ofEntries hNodup,
      fun names hPerm => (ofEntries_of_perm hPerm).symm, ?_⟩
  · intro resource
    rw [mem_ofEntries_iff, hName]
    constructor
    · rintro ⟨hEntry, hPath⟩
      refine
        ⟨_, resource.locale, hEntry,
          Locale.ofCode_code resource.locale, ?_⟩
      rw [← hPath]
    · rintro ⟨code, locale, hEntry, hCode, rfl⟩
      rw [Locale.code_of_ofCode hCode]
      exact ⟨hEntry, rfl⟩
  · intro other hReordered
    rw [discover_eq_ofEntries]
    exact
      (ofEntries_of_perm
        (hReordered.entries hDistinct _)).symm

/-
  Among the entries are names that only look like those of
  locale files, one that is not text, and a directory.
-/
theorem discover_finds_locale_files_mixed :
    let inside (name : FileName) : Location × Node :=
      ([.text "locales", name], .file (.text ""))
    let disk : Disk :=
      ⟨[],
        [([.text "locales"], .directory),
          inside (.text "fr-CA.json"), inside (.text "fr.json"),
          ([.text "locales", .text "eng.json"], .directory),
          inside (.text ".json"), inside (.text "en-US.json"),
          inside (.text "en.old.json"),
          inside (.text "de.JSON"), inside (.bytes [0xFF])]⟩
    let found := (discover disk "locales/").2
    disk.nodes.Distinct ∧
      found.map (fun resource => resource.locale.code) =
        ["en-US", "eng", "fr", "fr-CA"] ∧
      found.map Resource.path =
        ["locales/en-US.json", "locales/eng.json",
          "locales/fr.json", "locales/fr-CA.json"] := by
  intro inside disk found
  let names : List FileName :=
    [.text "en-US.json", .text "eng.json", .text "fr.json",
      .text "fr-CA.json", .text ".json", .text "en.old.json",
      .text "de.JSON", .bytes [0xFF]]
  let resources : List Resource :=
    [⟨⟨"en", some "US", by decide, by decide⟩,
        "locales/en-US.json"⟩,
      ⟨⟨"eng", none, by decide, rfl⟩, "locales/eng.json"⟩,
      ⟨⟨"fr", none, by decide, rfl⟩, "locales/fr.json"⟩,
      ⟨⟨"fr", some "CA", by decide, by decide⟩,
        "locales/fr-CA.json"⟩]
  have hDistinct : disk.nodes.Distinct := by
    decide
  have hPerm :
      (disk.entries (Path.ofString "locales/")).Perm
        names := by
    decide +kernel
  have hClassified :
      (names.filterMap (classify "locales/")).filterMap
        found? = resources := by
    decide +kernel
  have hSorted :
      (resources.mergeSort fun a b => a.locale.le b.locale) =
        resources :=
    List.mergeSort_of_pairwise (by decide)
  rcases
    discover_finds_locale_files disk "locales/" hDistinct with
    ⟨_, _, _, hOrder, _⟩
  have hFound : found = resources := by
    calc
      found = ofEntries "locales/" names :=
        (hOrder names hPerm).symm
      _ = resources := by
        rw [ofEntries, hClassified, hSorted]
  rw [hFound]
  exact ⟨hDistinct, rfl, rfl⟩

end Resource

end HostBindings
