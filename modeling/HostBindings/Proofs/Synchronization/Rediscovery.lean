import HostBindings.Proofs.Disk.Written
import HostBindings.Proofs.Synchronization.Registries

/-
  Locale files that are found again.

  On a disk with distinct keys, the files that are found have
  different paths.  What is written outside of the directory
  does not change which files are found, provided that the
  directory could be reached before if anything was in it.
  Where all nodes are in directories, every path that never
  goes up can be reached in this way.

  Main declarations:
    * `Disk.Reaches`
    * `Disk.Outside`
    * `Disk.Rooted`
    * `Disk.Rooted.of_keys`
    * `Disk.Rooted.reaches`
    * `Resource.nodup_paths_discover`
    * `Resource.discover_written`
    * `Resource.readText_written`
-/

------------------------------------------------------------
-- Directories
------------------------------------------------------------

namespace HostBindings

namespace Disk

variable {disk after : Disk}
variable {places : List Location}
variable {path : Path}

/- A location is in a directory as one name more. -/
theorem childName?_eq_some_iff
    {parent child : Location}
    {name : FileName} :
    childName? parent child = some name ↔
      child = parent ++ [name] := by
  unfold childName?
  rcases List.eq_nil_or_concat child with
    rfl | ⟨front, last, rfl⟩
  · simp
  · rw [List.concat_eq_append, List.getLast?_concat,
      List.dropLast_concat]
    by_cases hParent : front = parent
    · simp [hParent]
    · simp [hParent]

/- A key of a disk is a location at which something is. -/
theorem node?_of_mem_keys
    {here : Location}
    (hMem : here ∈ disk.nodes.keys) :
    ∃ node, disk.node? here = some node := by
  unfold node?
  split
  · exact ⟨_, rfl⟩
  · exact Keyed.find?_of_mem_keys hMem

/- A path to a directory leads to its place. -/
theorem isDirectory_iff :
    disk.isDirectory path = true ↔
      disk.resolve path = .ok (disk.placeOf path) ∧
        disk.node? (disk.placeOf path) = some .directory := by
  unfold isDirectory locate
  cases hResolve : disk.resolve path with
  | error fault => simp
  | ok here =>
      rw [← eq_placeOf_of_resolve hResolve]
      rcases hNode : disk.node? here with _ | (_ | _)
      · simp [hNode]
      · by_cases hOnly : path.onlyDirectory = true <;>
          simp [hNode, hOnly]
      · simp [hNode]

/- Its entries are the names one step below. -/
theorem entries_of_isDirectory
    (hDirectory : disk.isDirectory path = true) :
    disk.entries path =
      disk.nodes.keys.filterMap
        (childName? (disk.placeOf path)) := by
  rcases isDirectory_iff.mp hDirectory with ⟨hResolve, hNode⟩
  simp only [entries, locate, hResolve, hNode]

/- Directories have no entry twice. -/
theorem nodup_entries
    (hDistinct : disk.nodes.Distinct)
    (path : Path) :
    (disk.entries path).Nodup := by
  unfold entries
  split
  · apply hDistinct.filterMap
    intro first second name hFirst hSecond
    rw [Option.mem_def, childName?_eq_some_iff] at hFirst hSecond
    rw [hFirst, hSecond]
  · exact List.nodup_nil

/- The empty path does not lead to a directory. -/
theorem ne_empty_of_isDirectory
    {directory : String}
    (hDirectory :
      disk.isDirectory (Path.ofString directory) = true) :
    directory ≠ "" := by
  rintro rfl
  rcases isDirectory_iff.mp hDirectory with ⟨hResolve, _⟩
  have hFault :
      FileFault.ofPath? (Path.ofString "") = some .notFound := by
    decide
  simp [resolve, hFault] at hResolve

/- A name in a directory ends in a place in its place. -/
theorem placeOf_join
    (disk : Disk)
    {directory name : String}
    (hDirectory : directory ≠ "")
    (hPlain : Path.IsPlain name) :
    disk.placeOf (Path.ofString (Path.join directory name)) =
      disk.placeOf (Path.ofString directory) ++
        [.text name] := by
  have hArrive :
      ∀ (here : Location) (steps : List PathStep),
        arrive here (steps ++ [.enter (.text name)]) =
          arrive here steps ++ [.text name] := by
    intro here steps
    induction steps generalizing here with
    | nil => rfl
    | cons step rest ih => cases step <;> exact ih _
  unfold placeOf origin
  rw [Path.steps_join hDirectory hPlain,
    Path.fromRoot_join hDirectory hPlain, hArrive]

------------------------------------------------------------
-- Outside of a Directory
------------------------------------------------------------

/- None of the places is directly in the place of a path. -/
def Outside
    (disk : Disk)
    (directory : Path)
    (places : List Location) : Prop :=
  ∀ here ∈ places,
    childName? (disk.placeOf directory) here = none

/-
  A path leads to a directory, unless there is nothing in the
  place where it would lead.
-/
def Reaches
    (disk : Disk)
    (directory : Path) : Prop :=
  ∀ here node,
    disk.node? here = some node →
      (childName? (disk.placeOf directory) here).isSome →
        disk.isDirectory directory = true

/- Every node is in a directory, and its name fits. -/
def Rooted (disk : Disk) : Prop :=
  ∀ here name node,
    disk.node? (here ++ [name]) = some node →
      disk.node? here = some .directory ∧ name.fits = true

/- It is enough to look at the home and at the keys. -/
theorem Rooted.of_keys
    (hHome : ∀ name ∈ disk.home, name.fits = true)
    (hKeys :
      ∀ here ∈ disk.nodes.keys,
        disk.node? here.dropLast = some .directory ∧
          ∀ name ∈ here, name.fits = true) :
    disk.Rooted := by
  intro here name node hNode
  have hLast : name ∈ here ++ [name] :=
    List.mem_append_right here List.mem_cons_self
  by_cases hAbove :
      (here ++ [name]).isPrefixOf disk.home = true
  · -- the locations on the way home are directories
    have hPrefix := List.isPrefixOf_iff_prefix.mp hAbove
    have hHere : here.isPrefixOf disk.home = true :=
      List.isPrefixOf_iff_prefix.mpr
        ((List.prefix_append here [name]).trans hPrefix)
    refine ⟨?_, hHome name (hPrefix.subset hLast)⟩
    rw [node?, if_pos hHere]
  · rw [node?, if_neg hAbove] at hNode
    have hKey := hKeys _ (Keyed.mem_keys_of_find? hNode)
    rw [List.dropLast_concat] at hKey
    exact ⟨hKey.1, hKey.2 name hLast⟩

/- Above a directory there are directories. -/
theorem Rooted.directory_of_append
    {here names : Location}
    (hRooted : disk.Rooted)
    (hThere :
      disk.node? (here ++ names) = some .directory) :
    disk.node? here = some .directory := by
  induction names using List.reverseRecOn with
  | nil => rwa [List.append_nil] at hThere
  | append_singleton names name ih =>
      rw [← List.append_assoc] at hThere
      exact ih (hRooted _ _ _ hThere).1

/- Names are put behind the place where they are entered. -/
theorem arrive_enter (here names : Location) :
    arrive here (names.map .enter) = here ++ names := by
  induction names generalizing here with
  | nil => rw [List.map_nil, arrive, List.append_nil]
  | cons name names ih =>
      rw [List.map_cons, arrive, ih, List.append_assoc,
        List.singleton_append]

/- Names can be entered on the way to a directory. -/
theorem Rooted.follow_enter
    {here names : Location}
    (hRooted : disk.Rooted)
    (hThere :
      disk.node? (here ++ names) = some .directory) :
    disk.follow here (names.map .enter) =
      .ok (here ++ names) := by
  induction names generalizing here with
  | nil => rw [List.map_nil, follow, List.append_nil]
  | cons name names ih =>
      have hHere := hRooted.directory_of_append hThere
      rw [← List.singleton_append,
        ← List.append_assoc] at hThere
      have hNext := hRooted.directory_of_append hThere
      have hFits := (hRooted _ _ _ hNext).2
      simp only [List.map_cons, follow, hHere, hFits,
        if_true]
      rw [ih hThere, List.append_assoc, List.singleton_append]

/- A path that never goes up reaches the place it names. -/
theorem Rooted.reaches
    {names : Location}
    (hRooted : disk.Rooted)
    (hPath : FileFault.ofPath? path = none)
    (hSteps : path.steps = names.map .enter) :
    disk.Reaches path := by
  intro here node hNode hChild
  rcases Option.isSome_iff_exists.mp hChild with ⟨name, hName⟩
  rw [childName?_eq_some_iff.mp hName] at hNode
  have hDirectory := (hRooted _ _ _ hNode).1
  rw [isDirectory_iff]
  refine ⟨?_, hDirectory⟩
  rw [placeOf, hSteps, arrive_enter] at hDirectory ⊢
  simp only [resolve, hPath, hSteps]
  exact hRooted.follow_enter hDirectory

/- A directory is still a directory. -/
theorem WrittenAt.isDirectory
    (hWritten : WrittenAt places disk after)
    (hDirectory : disk.isDirectory path = true) :
    after.isDirectory path = true := by
  rw [isDirectory_iff] at hDirectory ⊢
  rw [placeOf_eq hWritten.home]
  exact
    ⟨hWritten.resolve hDirectory.1,
      hWritten.directories _ hDirectory.2⟩

/- Where texts are rewritten, directories are as before. -/
theorem Rewritten.directory_iff
    (hRewritten : Rewritten disk after)
    (here : Location) :
    after.node? here = some .directory ↔
      disk.node? here = some .directory := by
  rcases hRewritten.nodes here with
    hSame | ⟨old, new, hOld, hNew⟩
  · rw [hSame]
  · simp [hOld, hNew]

/- So the same paths lead to directories. -/
theorem Rewritten.isDirectory_iff
    (hRewritten : Rewritten disk after)
    (path : Path) :
    after.isDirectory path = true ↔
      disk.isDirectory path = true := by
  rw [Disk.isDirectory_iff, Disk.isDirectory_iff,
    placeOf_eq hRewritten.home, hRewritten.resolve_eq,
    hRewritten.directory_iff]

/- A directory that could be reached still can be. -/
theorem Rewritten.reaches
    (hRewritten : Rewritten disk after)
    (hReaches : disk.Reaches path) :
    after.Reaches path := by
  intro here node hNode hChild
  rw [placeOf_eq hRewritten.home] at hChild
  rw [hRewritten.isDirectory_iff]
  rcases hRewritten.nodes here with
    hSame | ⟨old, new, hOld, _⟩
  · exact hReaches here node (hSame.symm.trans hNode) hChild
  · exact hReaches here _ hOld hChild

/- What is written outside does not add any names. -/
theorem WrittenAt.names_eq
    (hWritten : WrittenAt places disk after)
    (hOutside : disk.Outside path places) :
    after.nodes.keys.filterMap
        (childName? (disk.placeOf path)) =
      disk.nodes.keys.filterMap
        (childName? (disk.placeOf path)) := by
  rcases hWritten.keys with ⟨new, hKeys, hNew⟩
  have hNone :
      new.filterMap (childName? (disk.placeOf path)) = [] := by
    apply List.filterMap_eq_nil_iff.mpr
    exact fun here hHere => hOutside here (hNew here hHere)
  rw [hKeys, List.filterMap_append, hNone, List.append_nil]

end Disk

------------------------------------------------------------
-- Paths of Locale Files
------------------------------------------------------------

/- Different names in a directory have different paths. -/
theorem Path.join_injective (directory : String) :
    Function.Injective (join directory) := by
  intro first second hSame
  by_cases hEmpty : directory = ""
  · rw [hEmpty] at hSame
    exact hSame
  · rcases join_cases hEmpty with ⟨front, _, hJoin⟩ | hJoin
    · simpa [hJoin] using hSame
    · simpa [hJoin] using hSame

namespace Resource

variable {disk after : Disk}
variable {places : List Location}
variable {directory : String}

/- A locale has one file in a directory. -/
theorem eq_of_locale_eq
    {names : List FileName}
    {first second : Resource}
    (hFirst : first ∈ ofEntries directory names)
    (hSecond : second ∈ ofEntries directory names)
    (hLocale : first.locale = second.locale) :
    first = second := by
  have hPath := (mem_ofEntries_iff.mp hFirst).2
  rw [hLocale, ← (mem_ofEntries_iff.mp hSecond).2] at hPath
  cases first
  cases second
  cases hLocale
  cases hPath
  rfl

/- A path is that of one locale file in a directory. -/
theorem eq_of_path_eq
    {names : List FileName}
    {first second : Resource}
    (hFirst : first ∈ ofEntries directory names)
    (hSecond : second ∈ ofEntries directory names)
    (hPath : first.path = second.path) :
    first = second := by
  apply eq_of_locale_eq hFirst hSecond
  rw [(mem_ofEntries_iff.mp hFirst).2,
    (mem_ofEntries_iff.mp hSecond).2] at hPath
  have hName := Path.join_injective directory hPath
  apply Locale.code_injective
  simpa [← String.toList_inj] using hName

/- Distinct names have distinct resources. -/
theorem nodup_ofEntries
    {names : List FileName}
    (directory : String)
    (hNodup : names.Nodup) :
    (ofEntries directory names).Nodup := by
  rw [(perm_ofEntries directory names).nodup_iff]
  apply hNodup.filterMap
  intro first second resource hFirst hSecond
  rw [Option.mem_def, bind_classify_eq_some_iff]
    at hFirst hSecond
  rw [hFirst.1, hSecond.1]

/- So their paths are distinct. -/
theorem nodup_paths_ofEntries
    {names : List FileName}
    (hNodup : names.Nodup) :
    ((ofEntries directory names).map
      Resource.path).Nodup :=
  (nodup_ofEntries directory hNodup).map_on
    fun _ hFirst _ hSecond => eq_of_path_eq hFirst hSecond

/- Locale files that are found have different paths. -/
theorem nodup_paths_discover
    (hDistinct : disk.nodes.Distinct)
    (directory : String) :
    ((discover disk directory).2.map Resource.path).Nodup := by
  simp only [discover]
  split
  · exact
      nodup_paths_ofEntries (Disk.nodup_entries hDistinct _)
  · exact List.nodup_nil

------------------------------------------------------------
-- Finding and Reading Again
------------------------------------------------------------

/- The same locale files are found again. -/
theorem discover_written
    (hWritten : Disk.WrittenAt places disk after)
    (hOutside :
      disk.Outside (Path.ofString directory) places)
    (hReaches : disk.Reaches (Path.ofString directory)) :
    (discover after directory).2 =
      (discover disk directory).2 := by
  have hNames := hWritten.names_eq hOutside
  unfold discover
  by_cases hThere :
      disk.isDirectory (Path.ofString directory) = true
  · have hStill := hWritten.isDirectory hThere
    simp only [hThere, hStill, if_true]
    rw [Disk.entries_of_isDirectory hThere,
      Disk.entries_of_isDirectory hStill,
      Disk.placeOf_eq hWritten.home, hNames]
  · simp only [hThere]
    by_cases hStill :
        after.isDirectory (Path.ofString directory) = true
    · -- the directory was made, but there is nothing in it
      have hEmpty :
          disk.nodes.keys.filterMap
              (Disk.childName?
                (disk.placeOf (Path.ofString directory))) =
            [] := by
        apply List.filterMap_eq_nil_iff.mpr
        intro here hHere
        rcases Disk.node?_of_mem_keys hHere with ⟨node, hNode⟩
        by_contra hChild
        apply hThere
        exact
          hReaches here node hNode
            (Option.isSome_iff_ne_none.mpr hChild)
      simp only [hStill, if_true]
      rw [Disk.entries_of_isDirectory hStill,
        Disk.placeOf_eq hWritten.home, hNames, hEmpty]
      simp [ofEntries]
    · simp only [hStill]
      rfl

/- Where texts are rewritten, the same files are found. -/
theorem discover_rewritten
    (hRewritten : disk.Rewritten after)
    (hKeys : after.nodes.keys = disk.nodes.keys)
    (directory : String) :
    discover after directory = discover disk directory := by
  unfold discover
  by_cases hThere :
      disk.isDirectory (Path.ofString directory) = true
  · have hStill := (hRewritten.isDirectory_iff _).mpr hThere
    simp only [hThere, hStill, if_true]
    rw [Disk.entries_of_isDirectory hThere,
      Disk.entries_of_isDirectory hStill,
      Disk.placeOf_eq hRewritten.home, hKeys]
  · have hNot :=
      mt (hRewritten.isDirectory_iff _).mp hThere
    simp only [hThere, hNot, Bool.false_eq_true, if_false]

/- Resources that are found are plain names in a directory. -/
theorem isIn_of_mem_discover
    {resource : Resource}
    (hResource : resource ∈ (discover disk directory).2) :
    directory ≠ "" ∧
      ∃ name, resource.IsIn directory name := by
  by_cases hThere :
      disk.isDirectory (Path.ofString directory) = true
  · simp only [discover, hThere, if_true] at hResource
    exact
      ⟨Disk.ne_empty_of_isDirectory hThere, _,
        isIn_of_mem_ofEntries hResource⟩
  · simp [discover, hThere] at hResource

/- Locale files hold what they held. -/
theorem readText_written
    {found : Disk}
    {resource : Resource}
    {text : String}
    (hWritten : Disk.WrittenAt places disk after)
    (hOutside :
      disk.Outside (Path.ofString directory) places)
    (hResource : resource ∈ (discover found directory).2)
    (hRead :
      disk.readText (Path.ofString resource.path) =
        .ok text) :
    after.readText (Path.ofString resource.path) =
      .ok text := by
  rcases isIn_of_mem_discover hResource with
    ⟨hDirectory, name, hIn⟩
  rcases Disk.readText_ok_iff.mp hRead with
    ⟨here, hHere, _, _⟩
  have hPlace := Disk.eq_placeOf_of_resolve hHere
  rw [hIn.path,
    Disk.placeOf_join disk hDirectory hIn.plain] at hPlace
  rw [hWritten.readText_eq hHere]
  · exact hRead
  · intro hTouched
    have hNone := hOutside here hTouched
    rw [Disk.childName?_eq_some_iff.mpr hPlace] at hNone
    cases hNone

end Resource

end HostBindings
