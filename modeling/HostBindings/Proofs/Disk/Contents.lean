import HostBindings.Disk.Store
import HostBindings.Proofs.Keyed.Lookup

/-
  Disks on which texts are written into files that are there.

  Such a write changes what is at one location and nothing
  else.  In particular every path leads where it led before.

  Main declarations:
    * `Disk.readText_ok_iff`
    * `Disk.writeAt_of_readText`
    * `Disk.Rewritten`
    * `Disk.Rewritten.resolve_eq`
    * `Disk.Rewritten.readText_eq`
    * `Disk.rewritten_place`
-/

------------------------------------------------------------
-- Reading and Writing
------------------------------------------------------------

namespace HostBindings

namespace Disk

variable {disk after : Disk}

/- A text is read from the file to which a path leads. -/
theorem readText_ok_iff
    {path : Path}
    {text : String} :
    disk.readText path = .ok text ↔
      ∃ here,
        disk.resolve path = .ok here ∧
          disk.node? here = some (.file (.text text)) ∧
            path.onlyDirectory = false := by
  unfold readText locate
  cases hResolve : disk.resolve path with
  | error fault =>
      simp
  | ok here =>
      simp only [Except.ok.injEq, exists_eq_left']
      rcases hNode : disk.node? here with
        _ | (⟨text | bytes⟩ | _)
      · simp
      · cases path.onlyDirectory <;> simp
      · cases path.onlyDirectory <;> simp
      · simp

/- What is at a location after something was put somewhere. -/
theorem node?_place
    {here : Location}
    {node old : Node}
    (hThere : disk.node? here = some old)
    (hFile : old ≠ .directory)
    (other : Location) :
    (disk.place here node).node? other =
      if other = here then some node
      else disk.node? other := by
  have hHome : (here.isPrefixOf disk.home) = false := by
    by_contra hPrefix
    rw [node?, if_pos (by simpa using hPrefix)] at hThere
    exact hFile (Option.some.inj hThere).symm
  unfold place node?
  simp only [Keyed.find?_put]
  by_cases hOther : other = here
  · subst hOther
    simp [hHome]
  · simp [hOther]

/-
  A file that can be read can be written, and this puts the
  content at its location.
-/
theorem writeAt_of_readText
    {path : Path}
    {text : String}
    {here : Location}
    (hRead : disk.readText path = .ok text)
    (hResolve : disk.resolve path = .ok here)
    (content : Content) :
    disk.writeAt path content =
      (disk.place here (.file content), .ok ()) := by
  rcases readText_ok_iff.mp hRead with
    ⟨place, hPlace, hNode, hOnly⟩
  rw [hResolve] at hPlace
  cases hPlace
  unfold writeAt
  simp [hResolve, hNode, hOnly]

------------------------------------------------------------
-- Rewritten Disks
------------------------------------------------------------

/-
  Two disks are the same but for the texts in files that hold
  texts on both of them.
-/
structure Rewritten (disk after : Disk) : Prop where
  home : after.home = disk.home
  nodes :
    ∀ here,
      after.node? here = disk.node? here ∨
        ∃ old new,
          disk.node? here = some (.file (.text old)) ∧
            after.node? here = some (.file (.text new))

/- A disk that nothing was written to. -/
theorem Rewritten.refl (disk : Disk) : Rewritten disk disk :=
  ⟨rfl, fun _ => .inl rfl⟩

/- Texts are written one after the other. -/
theorem Rewritten.trans
    {between : Disk}
    (hFirst : Rewritten disk between)
    (hSecond : Rewritten between after) :
    Rewritten disk after := by
  refine ⟨hSecond.home.trans hFirst.home, ?_⟩
  intro here
  rcases hFirst.nodes here with
    hSame | ⟨old, text, hOld, hText⟩
  · rw [← hSame]
    exact hSecond.nodes here
  · right
    rcases hSecond.nodes here with
      hSame | ⟨_, new, _, hNew⟩
    · exact ⟨old, text, hOld, hSame.trans hText⟩
    · exact ⟨old, new, hOld, hNew⟩

/- Steps are taken through the same directories. -/
theorem Rewritten.follow_eq
    (hRewritten : Rewritten disk after)
    (here : Location)
    (steps : List PathStep) :
    after.follow here steps = disk.follow here steps := by
  induction steps generalizing here with
  | nil =>
      rfl
  | cons step rest ih =>
      rcases hRewritten.nodes here with
        hSame | ⟨old, new, hOld, hNew⟩
      · cases step <;> simp only [follow, hSame, ih]
      · cases step <;> simp only [follow, hOld, hNew]

/- Every path leads where it led before. -/
theorem Rewritten.resolve_eq
    (hRewritten : Rewritten disk after)
    (path : Path) :
    after.resolve path = disk.resolve path := by
  unfold resolve origin
  rw [hRewritten.home]
  simp only [hRewritten.follow_eq]

/-
  A path at whose end nothing was written is read as before.
-/
theorem Rewritten.readText_eq
    (hRewritten : Rewritten disk after)
    {path : Path}
    (hSame :
      ∀ here,
        disk.resolve path = .ok here →
          after.node? here = disk.node? here) :
    after.readText path = disk.readText path := by
  unfold readText locate
  rw [hRewritten.resolve_eq]
  cases hResolve : disk.resolve path with
  | error fault => rfl
  | ok here => simp only [hSame here hResolve]

/- A text has been put in the place of another one. -/
theorem rewritten_place
    {here : Location}
    {old : String}
    (hThere : disk.node? here = some (.file (.text old)))
    (new : String) :
    Rewritten disk
      (disk.place here (.file (.text new))) := by
  refine ⟨rfl, ?_⟩
  intro other
  rw [node?_place hThere (by simp)]
  by_cases hOther : other = here
  · subst hOther
    exact .inr ⟨old, new, hThere, by simp⟩
  · exact .inl (by simp [hOther])

end Disk

end HostBindings
