import HostBindings.Proofs.Disk.Contents

/-
  Disks on which files have been written, with directories
  for them.

  To write to a path touches only the places that the path
  enters by a name and the place where it ends.  Directories
  stay directories and files stay files.  So a path to which
  a file could be written can be written to ever after, and
  to write what is there already changes nothing.

  Main declarations:
    * `Disk.placeOf`
    * `Disk.touched`
    * `Disk.WrittenAt`
    * `Disk.writtenAt_write`
    * `Disk.write_again`
    * `Disk.write_both_again`
-/

------------------------------------------------------------
-- Places on the Way
------------------------------------------------------------

namespace HostBindings

namespace Disk

/- The place where steps end, whatever is there. -/
def arrive : Location → List PathStep → Location
| here, [] => here
| here, .up :: rest => arrive here.dropLast rest
| here, .enter name :: rest => arrive (here ++ [name]) rest

/- The places that steps enter by a name. -/
def entered : Location → List PathStep → List Location
| _, [] => []
| here, .up :: rest => entered here.dropLast rest
| here, .enter name :: rest =>
    (here ++ [name]) :: entered (here ++ [name]) rest

/- The place where a path ends, whatever is there. -/
def placeOf (disk : Disk) (path : Path) : Location :=
  arrive (disk.origin path) path.steps

/-
  The places that writing to a path may touch: those that it
  enters by a name and the one where it ends.
-/
def touched (disk : Disk) (path : Path) : List Location :=
  disk.placeOf path ::
    (entered (disk.origin path.parent) path.parent.steps ++
      entered (disk.origin path) path.steps)

variable {disk between after later : Disk}
variable {here start : Location}
variable {steps : List PathStep}

/- Steps that can be taken lead to the place where they end. -/
theorem eq_arrive_of_follow
    (hFollow : disk.follow start steps = .ok here) :
    here = arrive start steps := by
  induction steps generalizing start with
  | nil =>
      cases hFollow
      rfl
  | cons step rest ih =>
      rcases hNode : disk.node? start with _ | (_ | _)
      · simp [follow, hNode] at hFollow
      · simp [follow, hNode] at hFollow
      · cases step with
        | up =>
            simp only [follow, hNode] at hFollow
            exact ih hFollow
        | enter name =>
            by_cases hFits : name.fits = true
            · simp only [follow, hNode, hFits,
                if_true] at hFollow
              exact ih hFollow
            · simp [follow, hNode, hFits] at hFollow

/- So does a path. -/
theorem eq_placeOf_of_resolve
    {path : Path}
    (hResolve : disk.resolve path = .ok here) :
    here = disk.placeOf path := by
  unfold resolve at hResolve
  split at hResolve
  · cases hResolve
  · exact eq_arrive_of_follow hResolve

/- Where a path starts depends on the home alone. -/
theorem origin_eq
    (hHome : after.home = disk.home)
    (path : Path) :
    after.origin path = disk.origin path := by
  unfold origin
  rw [hHome]

/- So does where it ends. -/
theorem placeOf_eq
    (hHome : after.home = disk.home)
    (path : Path) :
    after.placeOf path = disk.placeOf path := by
  unfold placeOf
  rw [origin_eq hHome]

/- And so does what it touches. -/
theorem touched_eq
    (hHome : after.home = disk.home)
    (path : Path) :
    after.touched path = disk.touched path := by
  unfold touched
  rw [placeOf_eq hHome, origin_eq hHome, origin_eq hHome]

------------------------------------------------------------
-- Written Disks
------------------------------------------------------------

/-
  A disk after writing at some places.  What is elsewhere is
  as it was, directories are still directories, and files are
  still files.  New nodes come last.
-/
structure WrittenAt
    (places : List Location)
    (disk after : Disk) : Prop where
  home : after.home = disk.home
  directories :
    ∀ here,
      disk.node? here = some .directory →
        after.node? here = some .directory
  files :
    ∀ here old,
      disk.node? here = some (.file old) →
        ∃ new, after.node? here = some (.file new)
  elsewhere :
    ∀ here,
      here ∉ places → after.node? here = disk.node? here
  keys :
    ∃ new,
      after.nodes.keys = disk.nodes.keys ++ new ∧
        ∀ here ∈ new, here ∈ places

variable {places more : List Location}

/- Nothing may have been written. -/
theorem WrittenAt.refl
    (places : List Location)
    (disk : Disk) :
    WrittenAt places disk disk :=
  ⟨rfl, fun _ h => h, fun _ old h => ⟨old, h⟩,
    fun _ _ => rfl, [], by simp⟩

/- What is written at places is written at more places. -/
theorem WrittenAt.mono
    (hWritten : WrittenAt places disk after)
    (hMore : places ⊆ more) :
    WrittenAt more disk after := by
  rcases hWritten with
    ⟨hHome, hDirectories, hFiles, hElsewhere, new, hKeys,
      hNew⟩
  refine
    ⟨hHome, hDirectories, hFiles, ?_, new, hKeys,
      fun here hHere => hMore (hNew here hHere)⟩
  exact fun here hNot =>
    hElsewhere here fun hHere => hNot (hMore hHere)

/- One writes after the other. -/
theorem WrittenAt.trans
    (hFirst : WrittenAt places disk between)
    (hSecond : WrittenAt places between after) :
    WrittenAt places disk after := by
  rcases hFirst.keys with ⟨first, hFirstKeys, hFirstNew⟩
  rcases hSecond.keys with ⟨second, hSecondKeys, hSecondNew⟩
  refine ⟨?_, ?_, ?_, ?_, first ++ second, ?_, ?_⟩
  · exact hSecond.home.trans hFirst.home
  · exact fun here hHere =>
      hSecond.directories here (hFirst.directories here hHere)
  · intro here old hHere
    rcases hFirst.files here old hHere with ⟨new, hNew⟩
    exact hSecond.files here new hNew
  · exact fun here hNot =>
      (hSecond.elsewhere here hNot).trans
        (hFirst.elsewhere here hNot)
  · rw [hSecondKeys, hFirstKeys, List.append_assoc]
  · intro here hHere
    rcases List.mem_append.mp hHere with hEarly | hLate
    · exact hFirstNew here hEarly
    · exact hSecondNew here hLate

/- What is at a location after a node was put somewhere. -/
theorem node?_place_of_ne
    (hThere : disk.node? here ≠ some .directory)
    (node : Node)
    (other : Location) :
    (disk.place here node).node? other =
      if other = here then some node
      else disk.node? other := by
  have hHome : (here.isPrefixOf disk.home) = false := by
    by_contra hPrefix
    exact hThere (if_pos (by simpa using hPrefix))
  unfold place node?
  simp only [Keyed.find?_put]
  by_cases hOther : other = here
  · subst hOther
    simp [hHome]
  · simp [hOther]

/- A node is put where nothing is, or a file for a file. -/
theorem writtenAt_place
    {node : Node}
    (hThere : disk.node? here ≠ some .directory)
    (hNode :
      disk.node? here = none ∨
        ∃ content, node = .file content) :
    WrittenAt [here] disk (disk.place here node) := by
  have hNodes := node?_place_of_ne hThere node
  refine ⟨rfl, ?_, ?_, ?_, ?_⟩
  · intro other hOther
    rw [hNodes, if_neg]
    · exact hOther
    · rintro rfl
      exact hThere hOther
  · intro other old hOther
    rw [hNodes]
    by_cases hSame : other = here
    · subst hSame
      rcases hNode with hNone | ⟨content, rfl⟩
      · rw [hNone] at hOther
        cases hOther
      · exact ⟨content, if_pos rfl⟩
    · exact ⟨old, (if_neg hSame).trans hOther⟩
  · intro other hNot
    rw [hNodes, if_neg]
    exact fun hSame => hNot (List.mem_singleton.mpr hSame)
  · simp only [place, Keyed.keys_put]
    split
    · exact ⟨[], by simp⟩
    · exact ⟨[here], rfl, fun _ hHere => hHere⟩

------------------------------------------------------------
-- Paths on Written Disks
------------------------------------------------------------

/- Steps that could be taken can still be taken. -/
theorem WrittenAt.follow
    (hWritten : WrittenAt places disk after)
    (hFollow : disk.follow start steps = .ok here) :
    after.follow start steps = .ok here := by
  induction steps generalizing start with
  | nil => exact hFollow
  | cons step rest ih =>
      rcases hNode : disk.node? start with _ | (_ | _)
      · simp [Disk.follow, hNode] at hFollow
      · simp [Disk.follow, hNode] at hFollow
      · have hAfter := hWritten.directories start hNode
        cases step with
        | up =>
            simp only [Disk.follow, hNode] at hFollow
            simp only [Disk.follow, hAfter]
            exact ih hFollow
        | enter name =>
            by_cases hFits : name.fits = true
            · simp only [Disk.follow, hNode, hFits,
                if_true] at hFollow
              simp only [Disk.follow, hAfter, hFits, if_true]
              exact ih hFollow
            · simp [Disk.follow, hNode, hFits] at hFollow

/- A path that led somewhere still leads there. -/
theorem WrittenAt.resolve
    (hWritten : WrittenAt places disk after)
    {path : Path}
    (hResolve : disk.resolve path = .ok here) :
    after.resolve path = .ok here := by
  unfold Disk.resolve at hResolve ⊢
  rw [origin_eq hWritten.home]
  split at hResolve
  · cases hResolve
  · exact hWritten.follow hResolve

/- What is elsewhere is read as before. -/
theorem WrittenAt.readText_eq
    (hWritten : WrittenAt places disk after)
    {path : Path}
    (hResolve : disk.resolve path = .ok here)
    (hNot : here ∉ places) :
    after.readText path = disk.readText path := by
  unfold readText locate
  rw [hResolve, hWritten.resolve hResolve]
  simp only [hWritten.elsewhere here hNot]

------------------------------------------------------------
-- Making Directories
------------------------------------------------------------

/-
  What making directories leaves: they are made at places
  that are entered, everything that was there is kept, and
  there is nothing to be made as long as they are there.
-/
structure MadeAt
    (places : List Location)
    (make : Disk → Disk × Except FileFault Unit)
    (disk after : Disk) : Prop where
  written : WrittenAt places disk after
  kept :
    ∀ here node,
      disk.node? here = some node →
        after.node? here = some node
  again :
    ∀ places later,
      WrittenAt places after later →
        make later = (later, .ok ())

/- A directory is put where nothing was. -/
theorem place_directory
    (hNone : disk.node? here = none) :
    WrittenAt [here] disk (disk.place here .directory) ∧
      (∀ other node,
        disk.node? other = some node →
          (disk.place here .directory).node? other =
            some node) ∧
      (disk.place here .directory).node? here =
        some .directory := by
  have hNot : disk.node? here ≠ some .directory := by
    rw [hNone]
    exact nofun
  have hNodes := node?_place_of_ne hNot .directory
  refine ⟨writtenAt_place hNot (.inl hNone), ?_, ?_⟩
  · intro other node hOther
    rw [hNodes, if_neg]
    · exact hOther
    · rintro rfl
      rw [hNone] at hOther
      cases hOther
  · rw [hNodes, if_pos rfl]

/- A directory that is there is entered, to make others. -/
theorem MadeAt.enter
    {name : FileName}
    (hFits : name.fits = true)
    (hWritten : WrittenAt [start ++ [name]] disk between)
    (hKept :
      ∀ here node,
        disk.node? here = some node →
          between.node? here = some node)
    (hThere :
      between.node? (start ++ [name]) = some .directory)
    (hRest :
      MadeAt (entered (start ++ [name]) steps)
        (fun disk =>
          disk.makeDirectories (start ++ [name]) steps)
        between after) :
    MadeAt (entered start (.enter name :: steps))
      (fun disk =>
        disk.makeDirectories start (.enter name :: steps))
      disk after := by
  refine ⟨?_, ?_, ?_⟩
  · exact
      (hWritten.mono (by simp [entered])).trans
        (hRest.written.mono (List.subset_cons_self _ _))
  · exact fun here node hHere =>
      hRest.kept here node (hKept here node hHere)
  · intro places later hLater
    have hDirectory :=
      hLater.directories _ (hRest.kept _ _ hThere)
    simp only [makeDirectories, if_pos hFits, hDirectory]
    exact hRest.again places later hLater

/- Directories are made along steps. -/
theorem madeAt_makeDirectories
    (hMade :
      disk.makeDirectories start steps = (after, .ok ())) :
    MadeAt (entered start steps)
      (fun disk => disk.makeDirectories start steps)
      disk after := by
  induction steps generalizing disk start with
  | nil =>
      cases hMade
      exact ⟨.refl _ _, fun _ _ h => h, fun _ _ _ => rfl⟩
  | cons step rest ih =>
      cases step with
      | up =>
          rw [makeDirectories] at hMade
          rcases ih hMade with ⟨hWritten, hKept, hAgain⟩
          refine ⟨hWritten, hKept, ?_⟩
          intro places later hLater
          rw [makeDirectories]
          exact hAgain places later hLater
      | enter name =>
          simp only [makeDirectories] at hMade
          by_cases hFits : name.fits = true
          · rw [if_pos hFits] at hMade
            -- either way the directory is there afterwards
            rcases hNode : disk.node? (start ++ [name]) with
              _ | (_ | _)
            · simp only [hNode] at hMade
              rcases place_directory hNode with
                ⟨hWritten, hKept, hThere⟩
              exact
                .enter hFits hWritten hKept hThere (ih hMade)
            · simp [hNode] at hMade
            · simp only [hNode] at hMade
              exact
                .enter hFits (.refl _ _) (fun _ _ h => h)
                  hNode (ih hMade)
          · rw [if_neg hFits] at hMade
            simp at hMade

/- Directories are made along a path. -/
theorem madeAt_makeDirectory
    {path : Path}
    (hMade : disk.makeDirectory path = (after, .ok ())) :
    MadeAt (entered (disk.origin path) path.steps)
      (fun disk => disk.makeDirectory path) disk after := by
  unfold makeDirectory at hMade
  by_cases hEmpty : path.size = 0
  · rw [if_pos hEmpty] at hMade
    cases hMade
    refine ⟨.refl _ _, fun _ _ h => h, ?_⟩
    intro places later hLater
    simp only [makeDirectory, if_pos hEmpty]
  · rw [if_neg hEmpty] at hMade
    cases hPath : FileFault.ofPath? path with
    | some fault => simp [hPath] at hMade
    | none =>
        simp only [hPath] at hMade
        rcases madeAt_makeDirectories hMade with
          ⟨hWritten, hKept, hAgain⟩
        refine ⟨hWritten, hKept, ?_⟩
        intro places later hLater
        simp only [makeDirectory, if_neg hEmpty, hPath]
        rw [origin_eq hLater.home, origin_eq hWritten.home]
        exact hAgain places later hLater

------------------------------------------------------------
-- Writing Files
------------------------------------------------------------

variable {path : Path}
variable {content : Content}

/- A file is put at the end of its path. -/
theorem writeAt_ok
    (hWrite : disk.writeAt path content = (after, .ok ())) :
    disk.resolve path = .ok (disk.placeOf path) ∧
      disk.node? (disk.placeOf path) ≠ some .directory ∧
      path.onlyDirectory = false ∧
      after = disk.place (disk.placeOf path) (.file content) := by
  unfold writeAt at hWrite
  cases hResolve : disk.resolve path with
  | error fault => simp [hResolve] at hWrite
  | ok here =>
      rw [← eq_placeOf_of_resolve hResolve]
      cases hOnly : path.onlyDirectory <;>
        rcases hNode : disk.node? here with _ | (_ | _) <;>
        simp_all

/- A file that cannot be put there changes nothing. -/
theorem writeAt_error
    {fault : FileFault}
    (hWrite :
      disk.writeAt path content = (after, .error fault)) :
    after = disk := by
  unfold writeAt at hWrite
  cases hResolve : disk.resolve path with
  | error fault =>
      simp only [hResolve, Prod.mk.injEq] at hWrite
      exact hWrite.1.symm
  | ok here =>
      cases hOnly : path.onlyDirectory <;>
        rcases hNode : disk.node? here with _ | (_ | _) <;>
        simp_all

/-
  A write that goes well makes the directories above its path
  and puts the file at its end.
-/
theorem write_ok
    (hWrite : disk.write path content = (after, .ok ())) :
    ∃ between,
      MadeAt
          (entered (disk.origin path.parent) path.parent.steps)
          (fun disk => disk.makeDirectory path.parent)
          disk between ∧
        between.resolve path = .ok (disk.placeOf path) ∧
        between.node? (disk.placeOf path) ≠
          some .directory ∧
        path.onlyDirectory = false ∧
        after =
          between.place (disk.placeOf path)
            (.file content) := by
  unfold write at hWrite
  cases hMade : disk.makeDirectory path.parent with
  | mk between result =>
      cases result with
      | error fault => simp [hMade] at hWrite
      | ok =>
          simp only [hMade] at hWrite
          have hMadeAt := madeAt_makeDirectory hMade
          have hAt := writeAt_ok hWrite
          rw [placeOf_eq hMadeAt.written.home] at hAt
          exact ⟨between, hMadeAt, hAt⟩

/- It touches what the path touches. -/
theorem writtenAt_write
    (hWrite : disk.write path content = (after, .ok ())) :
    WrittenAt (disk.touched path) disk after := by
  rcases write_ok hWrite with
    ⟨between, hMade, _, hThere, _, rfl⟩
  have hPlaced :=
    writtenAt_place hThere (.inr ⟨content, rfl⟩)
  refine (hMade.written.mono ?_).trans (hPlaced.mono ?_)
  · simp [touched]
  · simp [touched]

/- Afterwards the file is there, and other files as before. -/
theorem node?_write
    (hWrite : disk.write path content = (after, .ok ())) :
    after.node? (disk.placeOf path) = some (.file content) ∧
      ∀ here node,
        here ≠ disk.placeOf path →
          disk.node? here = some node →
            after.node? here = some node := by
  rcases write_ok hWrite with
    ⟨between, hMade, _, hThere, _, rfl⟩
  have hNodes := node?_place_of_ne hThere (.file content)
  refine ⟨by rw [hNodes, if_pos rfl], ?_⟩
  intro here node hNe hHere
  rw [hNodes, if_neg hNe]
  exact hMade.kept here node hHere

/- A path that was written to is only given its file again. -/
theorem write_again
    (hWrite : disk.write path content = (after, .ok ()))
    (hLater : WrittenAt places after later)
    (new : Content) :
    later.write path new =
      (later.place (disk.placeOf path) (.file new), .ok ()) := by
  rcases write_ok hWrite with
    ⟨between, hMade, hResolve, hThere, hOnly, hAfter⟩
  have hPlaced :
      WrittenAt [disk.placeOf path] between after := by
    rw [hAfter]
    exact writtenAt_place hThere (.inr ⟨content, rfl⟩)
  have hBoth :
      WrittenAt (disk.placeOf path :: places) between later :=
    (hPlaced.mono (by simp)).trans (hLater.mono (by simp))
  rcases hLater.files _ _ (node?_write hWrite).1 with
    ⟨old, hOld⟩
  have hMake : later.makeDirectory path.parent = (later, .ok ()) :=
    hMade.again _ later hBoth
  unfold write writeAt
  simp only [hMake, hBoth.resolve hResolve, hOld, hOnly]
  rfl

/- To put a file where it is already changes nothing. -/
theorem place_of_node?
    (hThere : disk.node? here = some (.file content)) :
    disk.place here (.file content) = disk := by
  have hFound :
      Keyed.find? here disk.nodes = some (.file content) := by
    unfold node? at hThere
    split at hThere
    · cases hThere
    · exact hThere
  unfold place
  rw [Keyed.put_of_find? hFound]

/-
  Two files that were written one after the other are written
  again without any change, even to one and the same path.
-/
theorem write_both_again
    {other : Path}
    {otherContent : Content}
    (hFirst : disk.write path content = (between, .ok ()))
    (hSecond :
      between.write other otherContent = (after, .ok ())) :
    ∃ again,
      after.write path content = (again, .ok ()) ∧
        again.write other otherContent = (after, .ok ()) := by
  have hWritten := writtenAt_write hFirst
  have hMore := writtenAt_write hSecond
  have hPlace : between.placeOf other = disk.placeOf other :=
    placeOf_eq hWritten.home other
  rcases node?_write hSecond with ⟨hThere, hKept⟩
  rw [hPlace] at hThere hKept
  rcases hMore.files _ _ (node?_write hFirst).1 with
    ⟨old, hOld⟩
  have hPlaced :
      WrittenAt [disk.placeOf path] after
        (after.place (disk.placeOf path) (.file content)) :=
    writtenAt_place (by simp [hOld]) (.inr ⟨content, rfl⟩)
  refine ⟨_, write_again hFirst hMore content, ?_⟩
  rw [write_again hSecond hPlaced otherContent, hPlace]
  congr 1
  by_cases hSame : disk.placeOf path = disk.placeOf other
  · rw [hSame]
    rw [place, place, Keyed.put_put]
    exact place_of_node? hThere
  · have hFile :=
      hKept _ _ hSame (node?_write hFirst).1
    rw [place_of_node? hFile]
    exact place_of_node? hThere

end Disk

end HostBindings
