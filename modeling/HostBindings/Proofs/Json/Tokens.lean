import HostBindings.Proofs.Json.Numerals
import HostBindings.Proofs.Json.Quoted
import HostBindings.Proofs.Json.Shapes

/-
  The tokens of the text that is written for a value.

  Everything but a bare word comes to an end by itself.  A
  bare word ends where the next character is no part of one,
  which is so wherever a value has been written.

  Main declarations:
    * `Json.tokens`
    * `Token.Ends`
    * `Token.Stops`
    * `Json.stops_prettyAt`
    * `Json.cut_fileText`
-/

------------------------------------------------------------
-- Tokens of Values
------------------------------------------------------------

namespace HostBindings

namespace Json

mutual

/- The tokens that spell a value. -/
def tokens : Json → List Token
| .array items =>
    .openArray :: itemTokens items ++ [.closeArray]
| .object members =>
    .openObject :: memberTokens members ++ [.closeObject]
| v => [.scalar v]

/- The tokens of items with commas between them. -/
def itemTokens : List Json → List Token
| [] => []
| [v] => tokens v
| v :: rest => tokens v ++ .comma :: itemTokens rest

/- The tokens of members with commas between them. -/
def memberTokens : List (String × Json) → List Token
| [] => []
| [(key, v)] => .scalar (.string key) :: .colon :: tokens v
| (key, v) :: rest =>
    .scalar (.string key) :: .colon :: tokens v ++
      .comma :: memberTokens rest

end

/- A scalar is a token of its own. -/
theorem IsScalar.tokens_eq
    {v : Json}
    (hScalar : IsScalar v) :
    tokens v = [.scalar v] := by
  cases v with
  | array items => cases hScalar
  | object members => cases hScalar
  | _ => rfl

end Json

------------------------------------------------------------
-- Ends of Texts
------------------------------------------------------------

namespace Token

/- A text that is cut into tokens and leaves none open. -/
def Ends (text : List Char) (cut : List Token) : Prop :=
  ∀ before : List Token,
    text.foldlM Cutter.read ⟨.between, before⟩ =
      some ⟨.between, cut.reverse ++ before⟩

/-
  A text that is cut into tokens as soon as a character
  follows that is no part of a bare word.
-/
def Stops (text : List Char) (cut : List Token) : Prop :=
  ∀ (before : List Token) (c : Char),
    isBare c = false →
      (text ++ [c]).foldlM Cutter.read ⟨.between, before⟩ =
        Cutter.read ⟨.between, cut.reverse ++ before⟩ c

variable {first second : List Char}
variable {front back : List Token}

/- Nothing is cut into nothing. -/
theorem ends_nil : Ends [] [] :=
  fun _ => rfl

/- Texts that come to an end are cut one after the other. -/
theorem Ends.append
    (hFirst : Ends first front)
    (hSecond : Ends second back) :
    Ends (first ++ second) (front ++ back) := by
  intro before
  rw [List.foldlM_append, hFirst]
  simp only [Option.bind_eq_bind, Option.bind_some]
  rw [hSecond]
  simp

/- What ends by itself needs nothing to stop it. -/
theorem Ends.stops (hFirst : Ends first front) :
    Stops first front := by
  intro before c _
  rw [List.foldlM_append, hFirst]
  simp

/- The last of several texts may have to be stopped. -/
theorem Ends.append_stops
    (hFirst : Ends first front)
    (hSecond : Stops second back) :
    Stops (first ++ second) (front ++ back) := by
  intro before c hC
  rw [List.append_assoc, List.foldlM_append, hFirst]
  simp only [Option.bind_eq_bind, Option.bind_some]
  rw [hSecond _ _ hC]
  simp

/- A text is stopped by one that starts no bare word. -/
theorem Stops.append_ends
    {c : Char}
    (hFirst : Stops first front)
    (hC : isBare c = false)
    (hSecond : Ends (c :: second) back) :
    Ends (first ++ c :: second) (front ++ back) := by
  intro before
  have hSplit :
      first ++ c :: second = (first ++ [c]) ++ second := by
    simp
  have hRest := hSecond (front.reverse ++ before)
  rw [List.foldlM_cons] at hRest
  rw [hSplit, List.foldlM_append, hFirst _ _ hC, hRest]
  simp

/- And the text that stops it may have to be stopped. -/
theorem Stops.append_stops
    {c : Char}
    (hFirst : Stops first front)
    (hC : isBare c = false)
    (hSecond : Stops (c :: second) back) :
    Stops (first ++ c :: second) (front ++ back) := by
  intro before d hD
  have hSplit :
      first ++ c :: second ++ [d] =
        (first ++ [c]) ++ (second ++ [d]) := by
    simp
  have hRest := hSecond (front.reverse ++ before) d hD
  rw [List.cons_append, List.foldlM_cons] at hRest
  rw [hSplit, List.foldlM_append, hFirst _ _ hC, hRest]
  simp

------------------------------------------------------------
-- Marks, Gaps and Words
------------------------------------------------------------

/- A punctuation mark is a token. -/
theorem ends_mark
    {c : Char}
    {token : Token}
    (hGap : isGap c = false)
    (hQuote : c ≠ '"')
    (hBare : isBare c = false)
    (hMark : ofMark? c = some token) :
    Ends [c] [token] := by
  intro before
  simp [Cutter.read, Cutter.readBetween, hGap, hQuote, hBare,
    hMark]

/- Gaps are skipped. -/
theorem ends_gaps
    {gaps : List Char}
    (hGaps : ∀ c ∈ gaps, isGap c = true) :
    Ends gaps [] := by
  intro before
  induction gaps with
  | nil =>
      rfl
  | cons c rest ih =>
      rw [List.foldlM_cons]
      simp only [Cutter.read, Cutter.readBetween,
        hGaps c List.mem_cons_self, if_true,
        Option.bind_eq_bind, Option.bind_some]
      exact ih fun d hD => hGaps d (List.mem_cons_of_mem _ hD)

/- A quoted text is a token. -/
theorem ends_quote (s : String) :
    Ends (Json.quote s).toList [.scalar (.string s)] :=
  Cutter.foldlM_quote s

/- The characters of a word are gathered. -/
theorem foldlM_word
    {cs : List Char}
    (hBare : ∀ c ∈ cs, isBare c = true)
    (gathered : List Char)
    (before : List Token) :
    cs.foldlM Cutter.read ⟨.word gathered, before⟩ =
      some ⟨.word (cs.reverse ++ gathered), before⟩ := by
  induction cs generalizing gathered with
  | nil =>
      rfl
  | cons c rest ih =>
      rw [List.foldlM_cons]
      simp only [Cutter.read, hBare c List.mem_cons_self,
        if_true, Option.bind_eq_bind, Option.bind_some]
      rw [ih fun d hD => hBare d (List.mem_cons_of_mem _ hD)]
      simp

/- A gap is no part of a bare word. -/
theorem isBare_of_isGap
    {c : Char}
    (hGap : isGap c = true) :
    isBare c = false := by
  simp only [isGap, Bool.or_eq_true, beq_iff_eq] at hGap
  rcases hGap with ((rfl | rfl) | rfl) | rfl <;> decide

/- A bare word is a token once it is stopped. -/
theorem stops_word
    {word : List Char}
    {token : Token}
    (hBare : ∀ c ∈ word, isBare c = true)
    (hWord : ofWord? word = some token) :
    Stops word [token] := by
  intro before c hC
  cases word with
  | nil =>
      have hNone : ofWord? [] = none := by
        rfl
      rw [hNone] at hWord
      cases hWord
  | cons first rest =>
      have hFirst := hBare first List.mem_cons_self
      have hGap : isGap first = false := by
        by_contra hGap
        rw [Bool.not_eq_false] at hGap
        rw [isBare_of_isGap hGap] at hFirst
        cases hFirst
      have hQuote : first ≠ '"' := by
        rintro rfl
        exact absurd hFirst (by decide)
      have hOpen :
          Cutter.read ⟨.between, before⟩ first =
            some ⟨.word [first], before⟩ := by
        simp [Cutter.read, Cutter.readBetween, hGap, hQuote,
          hFirst]
      rw [List.cons_append, List.foldlM_cons, hOpen]
      simp only [Option.bind_eq_bind, Option.bind_some]
      rw [List.foldlM_append,
        foldlM_word fun d hD =>
          hBare d (List.mem_cons_of_mem _ hD)]
      simp [Cutter.read, hC, hWord]

end Token

------------------------------------------------------------
-- Texts of Values
------------------------------------------------------------

namespace Json

open Token

/- The characters of a new line. -/
@[simp]
theorem toList_newline (depth : Nat) :
    (newline depth).toList =
      '\n' :: List.replicate (2 * depth) ' ' :=
  String.toList_ofList

/- A new line is a gap. -/
theorem ends_newline (depth : Nat) :
    Ends ('\n' :: List.replicate (2 * depth) ' ') [] := by
  apply ends_gaps
  intro c hC
  rcases List.mem_cons.mp hC with rfl | hSpace
  · decide
  · rw [List.eq_of_mem_replicate hSpace]
    decide

/- Scalars are written alike at every depth. -/
theorem IsScalar.prettyAt_eq
    {v : Json}
    (hScalar : IsScalar v)
    (depth : Nat) :
    prettyAt depth v = compact v := by
  cases v with
  | array items => cases hScalar
  | object members => cases hScalar
  | _ => rfl

/- Scalars are written as bare words or quoted texts. -/
theorem stops_scalar
    {v : Json}
    (hScalar : IsScalar v)
    (hNumbers : ∀ n ∈ numbers v, n.ReadsBack)
    (depth : Nat) :
    Stops (prettyAt depth v).toList (tokens v) := by
  rw [hScalar.tokens_eq, hScalar.prettyAt_eq]
  cases v with
  | null =>
      have hText :
          (compact .null).toList = ['n', 'u', 'l', 'l'] := by
        simp [compact]
      rw [hText]
      exact stops_word (List.all_eq_true.mp rfl) rfl
  | bool b =>
      cases b with
      | false =>
          have hText :
              (compact (.bool false)).toList =
                ['f', 'a', 'l', 's', 'e'] := by
            simp [compact]
          rw [hText]
          exact stops_word (List.all_eq_true.mp rfl) rfl
      | true =>
          have hText :
              (compact (.bool true)).toList =
                ['t', 'r', 'u', 'e'] := by
            simp [compact]
          rw [hText]
          exact stops_word (List.all_eq_true.mp rfl) rfl
  | number n =>
      exact
        stops_word (isBareWord_numberText n)
          (hNumbers n (by simp [numbers]))
  | string s => exact (ends_quote s).stops
  | array items => cases hScalar
  | object members => cases hScalar

/- A comma and what follows it. -/
theorem stops_comma
    {text : List Char}
    {cut : List Token}
    (hRest : Stops text cut) :
    Stops (',' :: text) (.comma :: cut) :=
  (ends_mark (by decide) (by decide) (by decide)
    rfl).append_stops hRest

/- The items of an array are cut one after the other. -/
theorem stops_prettyItems
    {items : List Json}
    (depth : Nat)
    (hItems :
      ∀ v ∈ items,
        Stops (prettyAt depth v).toList (tokens v)) :
    Stops (prettyItems depth items).toList
      (itemTokens items) := by
  induction items with
  | nil =>
      exact ends_nil.stops
  | cons v rest ih =>
      have hLine :=
        (ends_newline depth).append_stops
          (hItems v List.mem_cons_self)
      cases rest with
      | nil =>
          simpa [prettyItems, itemTokens] using hLine
      | cons w more =>
          have hRest :=
            ih fun u hU => hItems u (List.mem_cons_of_mem _ hU)
          have hAll :=
            hLine.append_stops (by decide) (stops_comma hRest)
          simpa [prettyItems, itemTokens] using hAll

/- The members of an object are cut one after the other. -/
theorem stops_prettyMembers
    {members : List (String × Json)}
    (depth : Nat)
    (hMembers :
      ∀ entry ∈ members,
        Stops (prettyAt depth entry.2).toList
          (tokens entry.2)) :
    Stops (prettyMembers depth members).toList
      (memberTokens members) := by
  induction members with
  | nil =>
      exact ends_nil.stops
  | cons entry rest ih =>
      rcases entry with ⟨key, v⟩
      have hMark : Ends [':'] [.colon] :=
        ends_mark (by decide) (by decide) (by decide) rfl
      have hSpace : Ends [' '] [] :=
        ends_gaps (by simp [isGap])
      have hColon : Ends [':', ' '] [.colon] :=
        hMark.append hSpace
      have hLine :=
        ((((ends_newline depth).append
          (ends_quote key)).append hColon).append_stops
            (hMembers (key, v) List.mem_cons_self))
      cases rest with
      | nil =>
          simpa [prettyMembers, memberTokens] using hLine
      | cons other more =>
          have hRest :=
            ih fun e hE =>
              hMembers e (List.mem_cons_of_mem _ hE)
          have hAll :=
            hLine.append_stops (by decide) (stops_comma hRest)
          simpa [prettyMembers, memberTokens] using hAll

/- What is written for a value is cut into its tokens. -/
theorem stops_prettyAt
    {v : Json}
    (hNumbers : ∀ n ∈ numbers v, n.ReadsBack)
    (depth : Nat) :
    Stops (prettyAt depth v).toList (tokens v) := by
  induction v using inductionOn generalizing depth with
  | scalar v hScalar =>
      exact stops_scalar hScalar hNumbers depth
  | array items ih =>
      have hOpen : Ends ['['] [.openArray] :=
        ends_mark (by decide) (by decide) (by decide) rfl
      have hClose : Ends [']'] [.closeArray] :=
        ends_mark (by decide) (by decide) (by decide) rfl
      cases items with
      | nil =>
          simpa [prettyAt, tokens, itemTokens, memberTokens]
            using (hOpen.append hClose).stops
      | cons v rest =>
          have hItems :=
            stops_prettyItems (depth + 1) fun u hU =>
              ih u hU
                (fun n hN =>
                  hNumbers n
                    (mem_numbers_array_iff.mpr ⟨u, hU, hN⟩))
                (depth + 1)
          have hEnd := (ends_newline depth).append hClose
          have hAll :=
            (hOpen.append_stops hItems).append_ends
              (by decide) hEnd
          simpa [prettyAt, tokens] using hAll.stops
  | object members ih =>
      have hOpen : Ends ['\x7b'] [.openObject] :=
        ends_mark (by decide) (by decide) (by decide) rfl
      have hClose : Ends ['\x7d'] [.closeObject] :=
        ends_mark (by decide) (by decide) (by decide) rfl
      cases members with
      | nil =>
          simpa [prettyAt, tokens, itemTokens, memberTokens]
            using (hOpen.append hClose).stops
      | cons entry rest =>
          have hMembers :=
            stops_prettyMembers (depth + 1) fun e hE =>
              ih e hE
                (fun n hN =>
                  hNumbers n
                    (mem_numbers_object_iff.mpr ⟨e, hE, hN⟩))
                (depth + 1)
          have hEnd := (ends_newline depth).append hClose
          have hAll :=
            (hOpen.append_stops hMembers).append_ends
              (by decide) hEnd
          simpa [prettyAt, tokens] using hAll.stops

/- The text of a file is cut into the tokens of its value. -/
theorem cut_fileText
    {v : Json}
    (hNumbers : ∀ n ∈ numbers v, n.ReadsBack) :
    Token.cut (fileText v).toList = some (tokens v) := by
  have hStops := stops_prettyAt hNumbers 0 [] '\n' (by decide)
  rw [fileText, String.toList_append, Token.cut]
  have hEnd : "\n".toList = ['\n'] := by
    rfl
  rw [hEnd, pretty, Cutter.start, hStops]
  simp [Cutter.read, Cutter.readBetween, isGap,
    Cutter.finish]

end Json

end HostBindings
