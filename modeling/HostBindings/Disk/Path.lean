import HostBindings.Text.Pieces

/-
  Paths of files.

  A path is made of the pieces between its slashes.  They
  are steps from the working directory, or from the root if
  the path starts with a slash.  A path that ends in a slash
  or in a dot can only lead to a directory.  Names need not
  be text, and both names and paths are of bounded size.

  Key definitions include:
    * `FileName`
    * `FileName.size`
    * `FileName.splitExtension`
    * `Path`
    * `Path.ofString`
    * `Path.ofBytes`
    * `Path.steps`
    * `Path.size`
    * `Path.parent`
    * `Path.join`

  Key theorems include:
    * `Path.size_ofString`
    * `Path.steps_parent`
-/

------------------------------------------------------------
-- Names
------------------------------------------------------------

namespace HostBindings

/- The name of a file, as text or else as bytes. -/
inductive FileName where
| text (name : String)
| bytes (name : List UInt8)
deriving DecidableEq, Repr

namespace FileName

/- A name of bytes, which is text if the bytes are. -/
def ofBytes (bytes : List UInt8) : FileName :=
  match String.fromUTF8? (ByteArray.mk bytes.toArray) with
  | some name => .text name
  | none => .bytes bytes

/- The number of bytes in a name. -/
def size : FileName → Nat
| .text name => name.utf8ByteSize
| .bytes name => name.length

/- The number of bytes that a name may have. -/
def sizeLimit : Nat :=
  255

/- Whether a name is short enough for a file. -/
def fits (name : FileName) : Bool :=
  name.size ≤ sizeLimit

/- Whether there is a NUL in a name. -/
def hasNul : FileName → Bool
| .text name => name.toList.contains '\x00'
| .bytes name => name.contains 0

/-
  Split at the last dot.  A name without a dot, or with its
  only dot in front, has no extension.
-/
def splitChars
    (cs : List Char) : Option (List Char × List Char) :=
  let reversed := cs.reverse
  let extension := reversed.takeWhile (· != '.')
  match reversed.dropWhile (· != '.') with
  | _ :: stem =>
      if stem = [] then
        none
      else
        some (stem.reverse, extension.reverse)
  | [] => none

/- The stem and the extension of a name. -/
def splitExtension
    (name : String) : Option (String × String) :=
  (splitChars name.toList).map fun parts =>
    (String.ofList parts.1, String.ofList parts.2)

end FileName

------------------------------------------------------------
-- Paths
------------------------------------------------------------

/- One step of a path. -/
inductive PathStep where
| up
| enter (name : FileName)
deriving DecidableEq, Repr

/- A path as the pieces between its slashes. -/
structure Path where
  pieces : List FileName
deriving DecidableEq, Repr

namespace Path

/- The path that a text names. -/
def ofString (s : String) : Path where
  pieces :=
    (Text.pieces (· == '/') s.toList).map fun cs =>
      .text (String.ofList cs)

/- The path that bytes name. -/
def ofBytes (bytes : List UInt8) : Path where
  pieces :=
    (Text.pieces (· == 0x2F) bytes).map FileName.ofBytes

/- Whether a path starts with a slash. -/
def fromRoot (path : Path) : Bool :=
  1 < path.pieces.length &&
    path.pieces.head? = some (.text "")

/- Whether a path ends in a slash or in a dot. -/
def onlyDirectory (path : Path) : Bool :=
  path.pieces.getLast? = some (.text ".") ||
    1 < path.pieces.length &&
      path.pieces.getLast? = some (.text "")

/-
  The step that a piece stands for.  Empty pieces and single
  dots stay where they are, two dots go up.
-/
def step? (piece : FileName) : Option PathStep :=
  if piece = .text "" ∨ piece = .text "." then
    none
  else if piece = .text ".." then
    some .up
  else
    some (.enter piece)

/- The steps of a path. -/
def steps (path : Path) : List PathStep :=
  path.pieces.filterMap step?

/- The name of a file in a directory, as a path. -/
def join (directory name : String) : String :=
  match directory.toList.getLast? with
  | none => name
  | some '/' => directory ++ name
  | some _ => directory ++ "/" ++ name

------------------------------------------------------------
-- Sizes
------------------------------------------------------------

/-
  The number of bytes in a path.  There is a slash behind
  every piece but the last one.
-/
def size (path : Path) : Nat :=
  path.pieces.foldl
    (fun size piece => size + piece.size + 1) 0 - 1

/- A character more is as many bytes more as it has. -/
theorem utf8ByteSize_ofList_cons (c : Char) (cs : List Char) :
    (String.ofList (c :: cs)).utf8ByteSize =
      c.utf8Size + (String.ofList cs).utf8ByteSize := by
  rw [← String.utf8ByteSize_singleton,
    ← String.utf8ByteSize_append]
  congr 1
  apply String.toList_inj.1
  simp

/- Adding up pieces and slashes counts every byte once. -/
theorem foldl_size_pieces (cs : List Char) (start : Nat) :
    (Text.pieces (· == '/') cs).foldl
      (fun size piece =>
        size + (String.ofList piece).utf8ByteSize + 1)
      start =
        start + (String.ofList cs).utf8ByteSize + 1 := by
  induction cs generalizing start with
  | nil =>
      rfl
  | cons c rest ih =>
      rw [utf8ByteSize_ofList_cons]
      by_cases hSlash : c = '/'
      · subst hSlash
        have hOne : '/'.utf8Size = 1 := by
          decide
        simp only [Text.pieces, beq_self_eq_true, if_true,
          List.foldl_cons, ih, hOne]
        simp
        omega
      · cases hPieces : Text.pieces (· == '/') rest with
        | nil =>
            have hLength := Text.length_pieces (· == '/') rest
            simp [hPieces] at hLength
        | cons piece more =>
            have hRest := ih (start + c.utf8Size)
            rw [hPieces, List.foldl_cons] at hRest
            simp only [Text.pieces, hPieces,
              beq_eq_false_iff_ne.2 hSlash, Bool.false_eq_true,
              if_false, List.foldl_cons,
              utf8ByteSize_ofList_cons]
            rw [← Nat.add_assoc, hRest]
            omega

/- A path is as long as the text that names it. -/
theorem size_ofString (s : String) :
    (ofString s).size = s.utf8ByteSize := by
  have hSize := foldl_size_pieces s.toList 0
  rw [String.ofList_toList] at hSize
  simp only [size, ofString, List.foldl_map, FileName.size]
  omega

/- The number of bytes that a path may have. -/
def sizeLimit : Nat :=
  4095

/- Whether there is a NUL in a path. -/
def hasNul (path : Path) : Bool :=
  path.pieces.any FileName.hasNul

------------------------------------------------------------
-- Parents
------------------------------------------------------------

/- Pieces without those at the end that are no steps. -/
def trimIdle (pieces : List FileName) : List FileName :=
  (pieces.reverse.dropWhile fun piece =>
    (step? piece).isNone).reverse

/- A path without its last step. -/
def parent (path : Path) : Path where
  pieces := trimIdle (trimIdle path.pieces).dropLast

/- Pieces that are no steps add no steps in front. -/
theorem filterMap_dropWhile_idle (pieces : List FileName) :
    (pieces.dropWhile fun piece =>
      (step? piece).isNone).filterMap step? =
        pieces.filterMap step? := by
  induction pieces with
  | nil =>
      rfl
  | cons piece rest ih =>
      cases hStep : step? piece with
      | none =>
          simp [hStep, ih]
      | some step =>
          simp [hStep]

/- Trimming leaves the steps as they are. -/
theorem filterMap_trimIdle (pieces : List FileName) :
    (trimIdle pieces).filterMap step? =
      pieces.filterMap step? := by
  rw [trimIdle, List.filterMap_reverse,
    filterMap_dropWhile_idle, List.filterMap_reverse,
    List.reverse_reverse]

/- What is left after trimming ends in a step, if at all. -/
theorem trimIdle_cases (pieces : List FileName) :
    trimIdle pieces = [] ∨
      ∃ before piece step,
        trimIdle pieces = before ++ [piece] ∧
          step? piece = some step := by
  unfold trimIdle
  cases hRest :
      pieces.reverse.dropWhile fun piece =>
        (step? piece).isNone with
  | nil =>
      exact Or.inl rfl
  | cons piece rest =>
      right
      have hStep :=
        List.head?_dropWhile_not
          (fun piece => (step? piece).isNone) pieces.reverse
      rw [hRest] at hStep
      rcases Option.isSome_iff_exists.1
        (by simpa using hStep) with ⟨step, hSome⟩
      exact ⟨rest.reverse, piece, step, by simp, hSome⟩

/- The parent has all steps but the last one. -/
theorem steps_parent (path : Path) :
    path.parent.steps = path.steps.dropLast := by
  unfold steps parent
  rw [filterMap_trimIdle, ← filterMap_trimIdle path.pieces]
  rcases trimIdle_cases path.pieces with
    hNone | ⟨before, piece, step, hPieces, hStep⟩
  · simp [hNone]
  · simp [hPieces, hStep]

end Path

end HostBindings
