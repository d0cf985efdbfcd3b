/-
  Cutting texts into pieces.

  Key definitions include:
    * `Text.pieces`
-/

------------------------------------------------------------
-- Pieces
------------------------------------------------------------

namespace HostBindings

namespace Text

variable {α : Type}

/- The pieces of a list between separators. -/
def pieces (separates : α → Bool) : List α → List (List α)
| [] => [[]]
| a :: rest =>
    if separates a then
      [] :: pieces separates rest
    else
      match pieces separates rest with
      | piece :: more => (a :: piece) :: more
      | [] => [[a]]

/- There is always one piece more than there are separators. -/
theorem length_pieces
    (separates : α → Bool)
    (as : List α) :
    (pieces separates as).length =
      as.countP separates + 1 := by
  induction as with
  | nil =>
      rfl
  | cons a rest ih =>
      by_cases hSeparates : separates a = true
      · simp [pieces, hSeparates, ih]
      · cases hPieces : pieces separates rest with
        | nil =>
            simp [hPieces] at ih
        | cons piece more =>
            rw [hPieces] at ih
            simp only [List.length_cons] at ih
            simp [pieces, hSeparates, hPieces]
            omega

end Text

end HostBindings
