import HostBindings.Proofs.Json.Numerals
import HostBindings.Proofs.Json.Shapes

/-
  Values that can be read from a text.

  A value that has been read repeats no key, nests no deeper
  than the limit, and its integers fit 64 bits.  The machine
  keeps this of everything that it has gathered, with as many
  levels less as there are frames around it.

  Main declarations:
    * `Json.Readable`
    * `Json.Reading.Holds`
    * `Json.Reading.holds_step`
    * `Json.readable_of_read`
-/

------------------------------------------------------------
-- Readable Values
------------------------------------------------------------

namespace HostBindings

/- What is known of a value that has been read. -/
abbrev Json.Readable (limit : Nat) (v : Json) : Prop :=
  Json.Shaped limit Number.Fits v

------------------------------------------------------------
-- Readable Tokens
------------------------------------------------------------

namespace Token

/- A token of a value holds a scalar that fits. -/
def Holds : Token → Prop
| .scalar v => v.IsScalar ∧ ∀ n ∈ v.numbers, n.Fits
| _ => True

/- Marks hold no values. -/
theorem holds_of_ofMark?
    {c : Char}
    {token : Token}
    (hMark : ofMark? c = some token) :
    Holds token := by
  unfold ofMark? at hMark
  split_ifs at hMark <;>
    (cases hMark; trivial)

/- Bare words hold literals and numbers that fit. -/
theorem holds_of_ofWord?
    {word : List Char}
    {token : Token}
    (hWord : ofWord? word = some token) :
    Holds token := by
  unfold ofWord? at hWord
  split_ifs at hWord
  · cases hWord
    exact ⟨trivial, by simp [Json.numbers]⟩
  · cases hWord
    exact ⟨trivial, by simp [Json.numbers]⟩
  · cases hWord
    exact ⟨trivial, by simp [Json.numbers]⟩
  · simp only [Option.bind_eq_bind,
      Option.bind_eq_some_iff] at hWord
    rcases hWord with ⟨numeral, _, n, hValue, hToken⟩
    cases hToken
    refine ⟨trivial, ?_⟩
    simpa [Json.numbers] using
      Numeral.fits_of_value? hValue

/- Quoted texts hold strings. -/
theorem holds_of_ofQuoted?
    {inside : List Char}
    {token : Token}
    (hQuoted : ofQuoted? inside = some token) :
    Holds token := by
  rcases Option.map_eq_some_iff.mp hQuoted with ⟨cs, _, rfl⟩
  exact ⟨trivial, by simp [Json.numbers]⟩

namespace Cutter

/- All tokens cut so far hold values that fit. -/
def AllHold (m : Cutter) : Prop :=
  ∀ token ∈ m.tokens, token.Holds

/- Reading a character between tokens keeps this so. -/
theorem allHold_readBetween
    {tokens : List Token}
    {c : Char}
    {after : Cutter}
    (hTokens : ∀ token ∈ tokens, token.Holds)
    (hRead : readBetween tokens c = some after) :
    after.AllHold := by
  unfold readBetween at hRead
  split_ifs at hRead
  · cases hRead
    exact hTokens
  · cases hRead
    exact hTokens
  · cases hRead
    exact hTokens
  · rcases Option.map_eq_some_iff.mp hRead with
      ⟨token, hMark, rfl⟩
    exact
      List.forall_mem_cons.mpr
        ⟨holds_of_ofMark? hMark, hTokens⟩

/- So does reading any character. -/
theorem allHold_read
    {m after : Cutter}
    {c : Char}
    (hAll : m.AllHold)
    (hRead : read m c = some after) :
    after.AllHold := by
  rcases m with ⟨place, tokens⟩
  cases place with
  | between =>
      exact allHold_readBetween hAll hRead
  | word gathered =>
      simp only [read] at hRead
      split at hRead
      · cases hRead
        exact hAll
      · split at hRead
        · rename_i token hWord
          exact
            allHold_readBetween
              (List.forall_mem_cons.mpr
                ⟨holds_of_ofWord? hWord, hAll⟩)
              hRead
        · cases hRead
  | quoted gathered =>
      simp only [read] at hRead
      split_ifs at hRead
      · rcases Option.map_eq_some_iff.mp hRead with
          ⟨token, hQuoted, rfl⟩
        exact
          List.forall_mem_cons.mpr
            ⟨holds_of_ofQuoted? hQuoted, hAll⟩
      · cases hRead
        exact hAll
      · cases hRead
        exact hAll
  | escaped gathered =>
      simp only [read] at hRead
      cases hRead
      exact hAll

/- So does reading a text. -/
theorem allHold_foldlM
    {cs : List Char}
    {m after : Cutter}
    (hAll : m.AllHold)
    (hRead : cs.foldlM read m = some after) :
    after.AllHold := by
  induction cs generalizing m with
  | nil =>
      cases hRead
      exact hAll
  | cons c rest ih =>
      rw [List.foldlM_cons] at hRead
      rcases Option.bind_eq_some_iff.mp hRead with
        ⟨between, hFirst, hRest⟩
      exact ih (allHold_read hAll hFirst) hRest

end Cutter

/- The tokens of a text hold values that fit. -/
theorem holds_of_cut
    {cs : List Char}
    {tokens : List Token}
    (hCut : cut cs = some tokens) :
    ∀ token ∈ tokens, token.Holds := by
  rcases Option.bind_eq_some_iff.mp hCut with
    ⟨m, hRead, hFinish⟩
  have hAll : m.AllHold :=
    Cutter.allHold_foldlM
      (by simp [Cutter.AllHold, Cutter.start]) hRead
  rcases m with ⟨place, before⟩
  cases place with
  | between =>
      cases hFinish
      exact fun token hToken =>
        hAll token (List.mem_reverse.mp hToken)
  | word gathered =>
      rcases Option.map_eq_some_iff.mp hFinish with
        ⟨token, hWord, rfl⟩
      have hToken := holds_of_ofWord? hWord
      simp only [List.mem_reverse, List.forall_mem_cons]
      exact ⟨hToken, hAll⟩
  | quoted gathered => cases hFinish
  | escaped gathered => cases hFinish

end Token

------------------------------------------------------------
-- Readings
------------------------------------------------------------

namespace Json

variable {limit : Nat}

/- What a frame has gathered is readable at its height. -/
def Frame.Holds
    (limit height : Nat) : Frame → Prop
| .items gathered =>
    ∀ v ∈ gathered, Readable (limit - height) v
| .members gathered _ =>
    Keyed.Distinct gathered ∧
      ∀ entry ∈ gathered, Readable (limit - height) entry.2

/- What open frames have gathered is readable. -/
def FramesHold (limit : Nat) : List Frame → Prop
| [] => True
| frame :: rest =>
    rest.length + 1 ≤ limit ∧
      frame.Holds limit (rest.length + 1) ∧
        FramesHold limit rest

namespace Reading

/- Everything that has been gathered is readable. -/
def Holds (limit : Nat) : Reading → Prop
| .start stack => FramesHold limit stack
| .arrayOpened stack =>
    FramesHold limit (.items [] :: stack)
| .objectOpened stack =>
    ∀ key, FramesHold limit (.members [] key :: stack)
| .nextMember gathered stack =>
    ∀ key, FramesHold limit (.members gathered key :: stack)
| .memberKey gathered key stack =>
    FramesHold limit (.members gathered key :: stack)
| .value v stack =>
    Readable (limit - stack.length) v ∧
      FramesHold limit stack

variable {stack : List Frame}
variable {token : Token}
variable {m after : Reading}

/- This stays so where a value starts. -/
theorem holds_startValue
    (hFrames : FramesHold limit stack)
    (hToken : token.Holds)
    (hStep : startValue limit stack token = some after) :
    after.Holds limit := by
  unfold startValue at hStep
  split at hStep
  · cases hStep
    exact ⟨hToken.1.shaped hToken.2, hFrames⟩
  · split_ifs at hStep with hOpens
    cases hStep
    exact ⟨hOpens, by simp [Frame.Holds], hFrames⟩
  · split_ifs at hStep with hOpens
    cases hStep
    exact fun _ =>
      ⟨hOpens, by simp [Frame.Holds, Keyed.Distinct], hFrames⟩
  · cases hStep

/- And where a member starts. -/
theorem holds_startMember
    {gathered : Keyed String Json}
    (hFrames :
      ∀ key, FramesHold limit (.members gathered key :: stack))
    (hStep : startMember gathered stack token = some after) :
    after.Holds limit := by
  unfold startMember at hStep
  split at hStep
  · cases hStep
    exact hFrames _
  · cases hStep

/- What closes inside a frame has one more level above it. -/
theorem readable_closed
    {v : Json}
    {height : Nat}
    (hHeight : height + 1 ≤ limit)
    (hReadable : Readable (limit - (height + 1) + 1) v) :
    Readable (limit - height) v := by
  have hLevels :
      limit - (height + 1) + 1 = limit - height := by
    omega
  rwa [hLevels] at hReadable

/- And after a value. -/
theorem holds_afterValue
    {v : Json}
    (hValue : Readable (limit - stack.length) v)
    (hFrames : FramesHold limit stack)
    (hStep : afterValue v stack token = some after) :
    after.Holds limit := by
  cases stack with
  | nil =>
      cases hStep
  | cons frame rest =>
      rcases hFrames with ⟨hHeight, hGathered, hRest⟩
      cases frame with
      | items gathered =>
          have hItems :
              ∀ u ∈ v :: gathered,
                Readable (limit - (rest.length + 1)) u :=
            List.forall_mem_cons.mpr ⟨hValue, hGathered⟩
          cases token with
          | comma =>
              cases hStep
              exact ⟨hHeight, hItems, hRest⟩
          | closeArray =>
              cases hStep
              refine
                ⟨readable_closed hHeight
                    (shaped_array_iff.mpr ?_),
                  hRest⟩
              exact fun u hU =>
                hItems u (List.mem_reverse.mp hU)
          | _ => cases hStep
      | members gathered key =>
          have hDistinct :
              Keyed.Distinct (Keyed.put key v gathered) :=
            Keyed.distinct_put hGathered.1 key v
          have hMembers :
              ∀ entry ∈ Keyed.put key v gathered,
                Readable (limit - (rest.length + 1))
                  entry.2 := by
            intro entry hEntry
            rcases Keyed.eq_or_mem_of_mem_put hEntry with
              rfl | hOld
            · exact hValue
            · exact hGathered.2 entry hOld
          cases token with
          | comma =>
              cases hStep
              exact fun _ =>
                ⟨hHeight, ⟨hDistinct, hMembers⟩, hRest⟩
          | closeObject =>
              cases hStep
              exact
                ⟨readable_closed hHeight
                    (shaped_object_iff.mpr
                      ⟨hDistinct, hMembers⟩),
                  hRest⟩
          | _ => cases hStep

/- Each step keeps what has been gathered readable. -/
theorem holds_step
    (hHolds : m.Holds limit)
    (hToken : token.Holds)
    (hStep : step limit m token = some after) :
    after.Holds limit := by
  cases m with
  | start stack =>
      exact holds_startValue hHolds hToken hStep
  | arrayOpened stack =>
      cases token with
      | closeArray =>
          cases hStep
          refine
            ⟨readable_closed hHolds.1
                (shaped_array_iff.mpr ?_),
              hHolds.2.2⟩
          simp
      | _ => exact holds_startValue hHolds hToken hStep
  | objectOpened stack =>
      cases token with
      | closeObject =>
          cases hStep
          rcases hHolds "" with ⟨hHeight, hGathered, hRest⟩
          exact
            ⟨readable_closed hHeight
                (shaped_object_iff.mpr
                  ⟨hGathered.1, by simp⟩),
              hRest⟩
      | scalar v => exact holds_startMember hHolds hStep
      | _ => cases hStep
  | nextMember gathered stack =>
      exact holds_startMember hHolds hStep
  | memberKey gathered key stack =>
      cases token with
      | colon =>
          cases hStep
          exact hHolds
      | _ => cases hStep
  | value v stack =>
      exact holds_afterValue hHolds.1 hHolds.2 hStep

/- So do all steps. -/
theorem holds_foldlM
    {tokens : List Token}
    (hHolds : m.Holds limit)
    (hTokens : ∀ token ∈ tokens, token.Holds)
    (hSteps : tokens.foldlM (step limit) m = some after) :
    after.Holds limit := by
  induction tokens generalizing m with
  | nil =>
      cases hSteps
      exact hHolds
  | cons token rest ih =>
      rw [List.foldlM_cons] at hSteps
      rcases Option.bind_eq_some_iff.mp hSteps with
        ⟨between, hFirst, hRest⟩
      rw [List.forall_mem_cons] at hTokens
      exact
        ih (holds_step hHolds hTokens.1 hFirst) hTokens.2
          hRest

end Reading

/- What is read from a text is readable. -/
theorem readable_of_read
    {text : String}
    {v : Json}
    (hRead : read text = some v) :
    Readable maxNesting v := by
  rcases Option.bind_eq_some_iff.mp hRead with
    ⟨tokens, hCut, hTokens⟩
  rcases Option.bind_eq_some_iff.mp hTokens with
    ⟨m, hSteps, hResult⟩
  have hStart : Reading.Holds maxNesting (.start []) :=
    trivial
  have hHolds : m.Holds maxNesting :=
    Reading.holds_foldlM hStart (Token.holds_of_cut hCut)
      hSteps
  cases m with
  | value w stack =>
      cases stack with
      | nil =>
          cases hResult
          exact hHolds.1
      | cons frame rest => cases hResult
  | _ => cases hResult

end Json

end HostBindings
