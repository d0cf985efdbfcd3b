import HostBindings.Disk.Store

/-
  Paths of files in a directory.

  The path of a plain name in a directory leads into that
  directory and ends in the name.  So different names lead to
  different places.

  Main declarations:
    * `Text.pieces_append`
    * `Path.IsPlain`
    * `Path.pieces_join`
    * `Path.fromRoot_join`
    * `Path.steps_join`
    * `Disk.getLast?_of_resolve_join`
-/

------------------------------------------------------------
-- Pieces
------------------------------------------------------------

namespace HostBindings

namespace Text

variable {α : Type}
variable {separates : α → Bool}

/- Without a separator there is one piece. -/
theorem pieces_of_none
    {as : List α}
    (hNone : ∀ a ∈ as, separates a = false) :
    pieces separates as = [as] := by
  induction as with
  | nil =>
      rfl
  | cons a rest ih =>
      simp [pieces, hNone a List.mem_cons_self,
        ih fun b hB => hNone b (List.mem_cons_of_mem _ hB)]

/- A separator ends the pieces before it. -/
theorem pieces_append
    (front back : List α)
    {separator : α}
    (hSeparates : separates separator = true) :
    pieces separates (front ++ separator :: back) =
      pieces separates front ++ pieces separates back := by
  induction front with
  | nil =>
      simp [pieces, hSeparates]
  | cons a rest ih =>
      cases hA : separates a with
      | true =>
          simp [pieces, hA, ih]
      | false =>
          cases hRest : pieces separates rest with
          | nil =>
              have hLength := length_pieces separates rest
              simp [hRest] at hLength
          | cons piece more =>
              simp [pieces, hA, ih, hRest]

end Text

------------------------------------------------------------
-- Joined Paths
------------------------------------------------------------

namespace Path

/- A name that is one step into a directory. -/
structure IsPlain (name : String) : Prop where
  noSlash : '/' ∉ name.toList
  isStep : step? (.text name) = some (.enter (.text name))

/- A text without a slash is one piece. -/
theorem pieces_of_noSlash
    {name : String}
    (hSlash : '/' ∉ name.toList) :
    (ofString name).pieces = [.text name] := by
  have hOne :
      Text.pieces (· == '/') name.toList = [name.toList] := by
    apply Text.pieces_of_none
    intro c hC
    rw [beq_eq_false_iff_ne]
    rintro rfl
    exact hSlash hC
  simp [ofString, hOne]

/- Behind a slash it is the last piece. -/
theorem pieces_behind
    (front : String)
    {name : String}
    (hSlash : '/' ∉ name.toList) :
    (ofString (front ++ "/" ++ name)).pieces =
      (ofString front).pieces ++ [.text name] := by
  rw [← pieces_of_noSlash hSlash]
  simp [ofString, Text.pieces_append]

/-
  A name is put behind a slash, which may be the one at the
  end of the directory.
-/
theorem join_cases
    {directory : String}
    (hDirectory : directory ≠ "") :
    (∃ front,
      directory = front ++ "/" ∧
        ∀ name, join directory name = front ++ "/" ++ name) ∨
    (∀ name, join directory name = directory ++ "/" ++ name) := by
  cases hLast : directory.toList.getLast? with
  | none =>
      rw [List.getLast?_eq_none_iff] at hLast
      exact
        absurd (String.toList_inj.mp hLast) hDirectory
  | some c =>
      rcases List.getLast?_eq_some_iff.mp hLast with
        ⟨front, hFront⟩
      by_cases hSlash : c = '/'
      · subst hSlash
        have hEnd : directory = String.ofList front ++ "/" := by
          apply String.toList_inj.mp
          simp [hFront]
        refine .inl ⟨String.ofList front, hEnd, ?_⟩
        intro name
        simp only [join, hLast]
        rw [hEnd]
      · right
        intro name
        simp [join, hLast]

/- A name is the last piece behind those of a directory. -/
theorem pieces_join (directory : String) :
    ∃ front : List FileName,
      ∀ name,
        IsPlain name →
          (ofString (join directory name)).pieces =
            front ++ [.text name] := by
  by_cases hEmpty : directory = ""
  · refine ⟨[], ?_⟩
    intro name hPlain
    rw [hEmpty]
    exact pieces_of_noSlash hPlain.noSlash
  · rcases join_cases hEmpty with
      ⟨front, _, hJoin⟩ | hJoin
    · refine ⟨(ofString front).pieces, ?_⟩
      intro name hPlain
      rw [hJoin, pieces_behind front hPlain.noSlash]
    · refine ⟨(ofString directory).pieces, ?_⟩
      intro name hPlain
      rw [hJoin, pieces_behind directory hPlain.noSlash]

/- There is always a first piece. -/
theorem pieces_ne_nil (s : String) :
    (ofString s).pieces ≠ [] := by
  have hLength := Text.length_pieces (· == '/') s.toList
  intro hNil
  simp only [ofString, List.map_eq_nil_iff] at hNil
  simp [hNil] at hLength

/- Behind a slash, a path starts where the front does. -/
theorem fromRoot_behind
    (front : String)
    {name : String}
    (hSlash : '/' ∉ name.toList) :
    (ofString (front ++ "/" ++ name)).fromRoot =
      decide ((ofString front).pieces.head? = some (.text "")) := by
  rw [fromRoot, pieces_behind front hSlash]
  cases hPieces : (ofString front).pieces with
  | nil => exact absurd hPieces (pieces_ne_nil front)
  | cons piece more => simp

/- A path starts at the root if its first piece is empty. -/
theorem fromRoot_of_ne
    {directory : String}
    (hDirectory : directory ≠ "") :
    (ofString directory).fromRoot =
      decide
        ((ofString directory).pieces.head? =
          some (.text "")) := by
  rw [fromRoot]
  by_cases hSlash : '/' ∈ directory.toList
  · have hLength :=
      Text.length_pieces (· == '/') directory.toList
    have hCount :
        0 < directory.toList.countP (· == '/') :=
      List.countP_pos_iff.mpr ⟨'/', hSlash, by simp⟩
    have hMany : 1 < (ofString directory).pieces.length := by
      rw [ofString, List.length_map, hLength]
      omega
    simp [hMany]
  · simp [pieces_of_noSlash hSlash, hDirectory]

/- A name in a directory starts where the directory does. -/
theorem fromRoot_join
    {directory name : String}
    (hDirectory : directory ≠ "")
    (hPlain : IsPlain name) :
    (ofString (join directory name)).fromRoot =
      (ofString directory).fromRoot := by
  rcases join_cases hDirectory with
    ⟨front, hEnd, hJoin⟩ | hJoin
  · rw [hJoin, fromRoot_behind front hPlain.noSlash, hEnd,
      ← String.append_empty (s := front ++ "/"),
      fromRoot_behind front (by simp)]
  · rw [hJoin, fromRoot_behind directory hPlain.noSlash,
      fromRoot_of_ne hDirectory]

/- It takes one step more. -/
theorem steps_join
    {directory name : String}
    (hDirectory : directory ≠ "")
    (hPlain : IsPlain name) :
    (ofString (join directory name)).steps =
      (ofString directory).steps ++ [.enter (.text name)] := by
  rcases join_cases hDirectory with
    ⟨front, hEnd, hJoin⟩ | hJoin
  · rw [hJoin, hEnd, steps, steps,
      pieces_behind front hPlain.noSlash,
      ← String.append_empty (s := front ++ "/"),
      pieces_behind front (by simp)]
    have hIdle : step? (.text "") = none := by
      decide
    simp [hIdle, hPlain.isStep]
  · rw [hJoin, steps, steps,
      pieces_behind directory hPlain.noSlash]
    simp [hPlain.isStep]

end Path

------------------------------------------------------------
-- Places
------------------------------------------------------------

namespace Disk

variable {disk : Disk}

/- Steps that end in a name lead to a place of this name. -/
theorem getLast?_of_follow
    {start here : Location}
    {steps : List PathStep}
    {name : FileName}
    (hFollow :
      disk.follow start (steps ++ [.enter name]) =
        .ok here) :
    here.getLast? = some name := by
  induction steps generalizing start with
  | nil =>
      rcases hNode : disk.node? start with _ | (_ | _)
      · simp [follow, hNode] at hFollow
      · simp [follow, hNode] at hFollow
      · by_cases hFits : name.fits = true
        · simp only [List.nil_append, follow, hNode, hFits,
            if_true, Except.ok.injEq] at hFollow
          rw [← hFollow, List.getLast?_concat]
        · simp [follow, hNode, hFits] at hFollow
  | cons step rest ih =>
      rcases hNode : disk.node? start with _ | (_ | _)
      · simp [follow, hNode] at hFollow
      · simp [follow, hNode] at hFollow
      · cases step with
        | up =>
            simp only [List.cons_append, follow,
              hNode] at hFollow
            exact ih hFollow
        | enter other =>
            by_cases hFits : other.fits = true
            · simp only [List.cons_append, follow, hNode,
                hFits, if_true] at hFollow
              exact ih hFollow
            · simp [follow, hNode, hFits] at hFollow

/- A name in a directory leads to a place of this name. -/
theorem getLast?_of_resolve_join
    {directory name : String}
    {here : Location}
    (hPlain : Path.IsPlain name)
    (hResolve :
      disk.resolve
          (Path.ofString (Path.join directory name)) =
        .ok here) :
    here.getLast? = some (.text name) := by
  rcases Path.pieces_join directory with ⟨front, hPieces⟩
  have hSteps :
      (Path.ofString (Path.join directory name)).steps =
        front.filterMap Path.step? ++ [.enter (.text name)] := by
    simp [Path.steps, hPieces name hPlain, hPlain.isStep]
  unfold resolve at hResolve
  split at hResolve
  · cases hResolve
  · rw [hSteps] at hResolve
    exact getLast?_of_follow hResolve

end Disk

end HostBindings
