import HostBindings.Proofs.Disk.Written

/-
  Files that are kept whatever comes of a write.

  A write may fail half way, with some directories made.  In
  any case it changes no file but the one at the end of its
  path.

  Main declarations:
    * `Disk.KeepsFiles`
    * `Disk.keepsFiles_makeDirectories`
    * `Disk.keepsFiles_write`
-/

------------------------------------------------------------
-- Kept Files
------------------------------------------------------------

namespace HostBindings

namespace Disk

/-
  A disk on which files were changed at certain places only.
  Elsewhere the same files have the same contents, and there
  are no others.
-/
structure KeepsFiles
    (changed : Location → Prop)
    (disk after : Disk) : Prop where
  home : after.home = disk.home
  files :
    ∀ here,
      ¬ changed here →
        ∀ content,
          after.node? here = some (.file content) ↔
            disk.node? here = some (.file content)

variable {disk between after : Disk}
variable {changed more : Location → Prop}
variable {here : Location}

/- Files are kept where the nodes are the same. -/
theorem keepsFiles_of_nodes
    (hHome : after.home = disk.home)
    (hNodes :
      ∀ here,
        ¬ changed here → after.node? here = disk.node? here) :
    KeepsFiles changed disk after :=
  ⟨hHome, fun here hNot content => by rw [hNodes here hNot]⟩

/- Nothing may have been changed. -/
theorem KeepsFiles.refl
    (changed : Location → Prop)
    (disk : Disk) : KeepsFiles changed disk disk :=
  keepsFiles_of_nodes rfl fun _ _ => rfl

/- Files that are kept are kept with more places changed. -/
theorem KeepsFiles.mono
    (hKeeps : KeepsFiles changed disk after)
    (hMore : ∀ here, changed here → more here) :
    KeepsFiles more disk after :=
  ⟨hKeeps.home, fun here hNot =>
    hKeeps.files here fun hHere => hNot (hMore here hHere)⟩

/- One place that was changed may be among others. -/
theorem KeepsFiles.of_mem
    {places : List Location}
    (hKeeps : KeepsFiles (· = here) disk after)
    (hMem : here ∈ places) :
    KeepsFiles (· ∈ places) disk after := by
  apply hKeeps.mono
  rintro _ rfl
  exact hMem

/- What is kept twice is kept. -/
theorem KeepsFiles.trans
    (hFirst : KeepsFiles changed disk between)
    (hSecond : KeepsFiles changed between after) :
    KeepsFiles changed disk after :=
  ⟨hSecond.home.trans hFirst.home, fun here hNot content =>
    (hSecond.files here hNot content).trans
      (hFirst.files here hNot content)⟩

/- A file changes nothing but the place where it is put. -/
theorem keepsFiles_place
    (hThere : disk.node? here ≠ some .directory)
    (content : Content) :
    KeepsFiles (· = here) disk
      (disk.place here (.file content)) := by
  refine keepsFiles_of_nodes rfl ?_
  intro other hOther
  rw [node?_place_of_ne hThere, if_neg hOther]

------------------------------------------------------------
-- Making Directories
------------------------------------------------------------

/- A directory where nothing was is no change to any file. -/
theorem keepsFiles_place_directory
    (hNone : disk.node? here = none) :
    KeepsFiles (fun _ => False) disk
      (disk.place here .directory) := by
  rcases place_directory hNone with ⟨hWritten, _, hThere⟩
  refine ⟨hWritten.home, ?_⟩
  intro other _ content
  by_cases hOther : other = here
  · rw [hOther, hThere, hNone]
    simp
  · rw [hWritten.elsewhere other (by simpa using hOther)]

/- Making directories keeps all files, even if it fails. -/
theorem keepsFiles_makeDirectories
    (disk : Disk)
    (start : Location)
    (steps : List PathStep) :
    KeepsFiles (fun _ => False) disk
      (disk.makeDirectories start steps).1 := by
  induction steps generalizing disk start with
  | nil => exact .refl _ disk
  | cons step rest ih =>
      cases step with
      | up => exact ih disk start.dropLast
      | enter name =>
          simp only [makeDirectories]
          split
          · rcases hNode : disk.node? (start ++ [name]) with
              _ | (_ | _)
            · exact
                (keepsFiles_place_directory hNode).trans
                  (ih _ _)
            · exact .refl _ disk
            · exact ih disk (start ++ [name])
          · exact .refl _ disk

/- So it is for the directories of a path. -/
theorem keepsFiles_makeDirectory
    (disk : Disk)
    (path : Path) :
    KeepsFiles (fun _ => False) disk
      (disk.makeDirectory path).1 := by
  unfold makeDirectory
  split
  · exact .refl _ disk
  · split
    · exact .refl _ disk
    · exact keepsFiles_makeDirectories disk _ _

------------------------------------------------------------
-- Writing Files
------------------------------------------------------------

/- A file is put at the end of its path or not at all. -/
theorem keepsFiles_writeAt
    (disk : Disk)
    (path : Path)
    (content : Content) :
    KeepsFiles (· = disk.placeOf path) disk
      (disk.writeAt path content).1 := by
  cases hWrite : disk.writeAt path content with
  | mk after result =>
      cases result with
      | ok =>
          rcases writeAt_ok hWrite with ⟨_, hThere, _, rfl⟩
          exact keepsFiles_place hThere content
      | error fault =>
          rw [writeAt_error hWrite]
          exact .refl _ disk

/-
  A write changes no file but the one at the end of its path,
  whether or not it goes well.
-/
theorem keepsFiles_write
    (disk : Disk)
    (path : Path)
    (content : Content) :
    KeepsFiles (· = disk.placeOf path) disk
      (disk.write path content).1 := by
  have hMade := keepsFiles_makeDirectory disk path.parent
  unfold write
  cases hMake : disk.makeDirectory path.parent with
  | mk between result =>
      rw [hMake] at hMade
      have hKeeps :
          KeepsFiles (· = disk.placeOf path) disk between :=
        hMade.mono fun _ => False.elim
      cases result with
      | error fault => exact hKeeps
      | ok =>
          have hFile := keepsFiles_writeAt between path content
          rw [placeOf_eq hMade.home] at hFile
          exact hKeeps.trans hFile

end Disk

end HostBindings
