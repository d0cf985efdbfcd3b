import Mathlib.Data.List.TakeWhile
import HostBindings.Proxy.ObjectName

/-
  How the name of a class splits into a head and a tail.

  A tail can start only at the end of the name or at a
  capital, and it goes on to the end of the name.  So a name
  can be split if no line ends behind its next capital, and
  then the head is the longest acronym, unless this is a
  single letter or nothing can start behind it.

  Main declarations:
    * `ObjectName.IsClassName`
    * `ObjectName.head`
    * `ObjectName.isTail_drop_iff`
    * `ObjectName.find?_headLengths`
    * `objectName_lowers_head`
-/

------------------------------------------------------------
-- Runs of Characters
------------------------------------------------------------

namespace HostBindings

namespace ObjectName

variable {cs : List Char}
variable {n : Nat}

/- Within a run all characters are alike. -/
theorem exists_of_lt_takeWhile
    {p : Char → Bool}
    (hLess : n < (cs.takeWhile p).length) :
    ∃ c, cs[n]? = some c ∧ p c = true := by
  have hPrefix := List.takeWhile_prefix (l := cs) p
  exact
    ⟨_, List.prefix_iff_getElem?.mp hPrefix n hLess,
      List.mem_takeWhile_imp (List.getElem_mem hLess)⟩

/- What is left behind a run. -/
theorem drop_length_takeWhile
    (p : Char → Bool)
    (cs : List Char) :
    cs.drop (cs.takeWhile p).length = cs.dropWhile p := by
  induction cs with
  | nil => rfl
  | cons c rest ih =>
      by_cases hHere : p c = true <;> simp [hHere, ih]

/- The character behind a run is not like those in it. -/
theorem not_of_getElem?_length_takeWhile
    {p : Char → Bool}
    {c : Char}
    (hBehind : cs[(cs.takeWhile p).length]? = some c) :
    p c = false := by
  rw [← List.head?_drop, drop_length_takeWhile] at hBehind
  have hNot := List.head?_dropWhile_not p cs
  rwa [hBehind] at hNot

------------------------------------------------------------
-- Class Names
------------------------------------------------------------

/- The next capital behind the first character, and the rest. -/
def fromNextCapital (cs : List Char) : List Char :=
  cs.tail.dropWhile (!isCapital ·)

/-
  A capital comes first, and no line ends behind the next
  one.
-/
def IsClassName (cs : List Char) : Prop :=
  (∃ c ∈ cs.head?, isCapital c = true) ∧
    '\n' ∉ fromNextCapital cs

/- Whether a name ends at a place or has a capital there. -/
def breaksAt (cs : List Char) (n : Nat) : Bool :=
  cs[n]?.all isCapital

/-
  The head of a class name.  Behind a single capital it goes
  up to the next one.  Several capitals are an acronym and
  take the digits behind them along if the name breaks there;
  else the last of them starts the tail.
-/
def head (cs : List Char) : List Char :=
  let capitals := cs.takeWhile isCapital
  let digits :=
    (cs.dropWhile isCapital).takeWhile Char.isDigit
  if capitals.length = 1 then
    cs.take 1 ++ cs.tail.takeWhile (!isCapital ·)
  else if breaksAt cs (capitals ++ digits).length then
    capitals ++ digits
  else
    capitals.dropLast

------------------------------------------------------------
-- Breaks
------------------------------------------------------------

/- Digits are no capitals. -/
theorem not_isCapital_of_isDigit
    {c : Char}
    (hDigit : c.isDigit = true) :
    isCapital c = false := by
  by_contra hNot
  have hCapital : c.isUpper = true := by
    simpa [isCapital] using hNot
  have hFrom : 65 ≤ c.val := (of_decide_eq_true hCapital).1
  have hUpTo : c.val ≤ 57 :=
    of_decide_eq_true (Bool.and_eq_true_iff.mp hDigit).2
  exact absurd (UInt32.le_trans hFrom hUpTo) (by decide)

/- The name can break in front of every leading capital. -/
theorem breaksAt_of_lt_capitals
    (hLess : n < (cs.takeWhile isCapital).length) :
    breaksAt cs n = true := by
  rcases exists_of_lt_takeWhile hLess with
    ⟨c, hHere, hCapital⟩
  rw [breaksAt, hHere, Option.all_some, hCapital]

/- Behind its capitals an acronym has digits. -/
theorem exists_isDigit_of_lt_acronymLength
    (hBehind : (cs.takeWhile isCapital).length ≤ n)
    (hLess : n < acronymLength cs) :
    ∃ c, cs[n]? = some c ∧ c.isDigit = true := by
  rcases Nat.exists_eq_add_of_le hBehind with ⟨k, rfl⟩
  rcases exists_of_lt_takeWhile
      (Nat.lt_of_add_lt_add_left hLess) with
    ⟨c, hHere, hDigit⟩
  rw [← drop_length_takeWhile, List.getElem?_drop] at hHere
  exact ⟨c, hHere, hDigit⟩

/- The name cannot break in front of these. -/
theorem not_breaksAt_of_lt_acronymLength
    (hBehind : (cs.takeWhile isCapital).length ≤ n)
    (hLess : n < acronymLength cs) :
    breaksAt cs n = false := by
  rcases exists_isDigit_of_lt_acronymLength hBehind hLess with
    ⟨c, hHere, hDigit⟩
  rw [breaksAt, hHere, Option.all_some,
    not_isCapital_of_isDigit hDigit]

/- It cannot break within the first word. -/
theorem not_breaksAt_of_lt_wordLength
    (hPos : 0 < n)
    (hLess : n < wordLength cs) :
    breaksAt cs n = false := by
  cases cs with
  | nil => cases hLess
  | cons c rest =>
      cases n with
      | zero => cases hPos
      | succ k =>
          rw [wordLength, Nat.add_comm 1] at hLess
          rcases exists_of_lt_takeWhile
              (Nat.lt_of_succ_lt_succ hLess) with
            ⟨d, hHere, hNot⟩
          rw [breaksAt, List.getElem?_cons_succ, hHere,
            Option.all_some]
          simpa using hNot

/- It breaks behind the first word. -/
theorem breaksAt_wordLength (cs : List Char) :
    breaksAt cs (wordLength cs) = true := by
  cases cs with
  | nil => rfl
  | cons c rest =>
      rw [breaksAt, wordLength, Nat.add_comm 1,
        List.getElem?_cons_succ, Option.all_eq_true]
      intro d hBehind
      have hNot := not_of_getElem?_length_takeWhile hBehind
      simpa using hNot

/- The first word ends at the next capital. -/
theorem drop_wordLength (cs : List Char) :
    cs.drop (wordLength cs) = fromNextCapital cs := by
  cases cs with
  | nil => rfl
  | cons c rest =>
      rw [wordLength, Nat.add_comm 1, List.drop_succ_cons,
        drop_length_takeWhile]
      rfl

/- The first break is the one behind the first word. -/
theorem wordLength_le_of_breaksAt
    (hPos : 0 < n)
    (hBreaks : breaksAt cs n = true) :
    wordLength cs ≤ n := by
  by_contra hWithin
  rw [not_breaksAt_of_lt_wordLength hPos
    (Nat.lt_of_not_le hWithin)] at hBreaks
  cases hBreaks

------------------------------------------------------------
-- Lengths of Heads
------------------------------------------------------------

/- Counting down from a number goes through all below it. -/
theorem mem_downFrom_iff {k : Nat} :
    k ∈ downFrom n ↔ 0 < k ∧ k ≤ n := by
  induction n with
  | zero => simp [downFrom]; omega
  | succ n ih => simp [downFrom, ih]; omega

/- The largest number comes first. -/
theorem find?_downFrom
    {p : Nat → Bool}
    {k : Nat}
    (hPos : 0 < k)
    (hLe : k ≤ n)
    (hHolds : p k = true)
    (hLater : ∀ m, k < m → m ≤ n → p m = false) :
    (downFrom n).find? p = some k := by
  induction n with
  | zero => omega
  | succ n ih =>
      rw [downFrom]
      rcases Nat.eq_or_lt_of_le hLe with rfl | hLess
      · rw [List.find?_cons_of_pos hHolds]
      · have hNot := hLater (n + 1) hLess (Nat.le_refl _)
        rw [List.find?_cons_of_neg (by simp [hNot])]
        exact
          ih (Nat.le_of_lt_succ hLess) fun m hBelow hAbove =>
            hLater m hBelow (Nat.le_succ_of_le hAbove)

/- The only element with a property is the first one. -/
theorem find?_of_only
    {p : Nat → Bool}
    {lengths : List Nat}
    (hMem : n ∈ lengths)
    (hHolds : p n = true)
    (hOnly : ∀ m ∈ lengths, p m = true → m = n) :
    lengths.find? p = some n := by
  cases hFound : lengths.find? p with
  | none =>
      exact
        absurd hHolds (List.find?_eq_none.mp hFound n hMem)
  | some m =>
      rw [hOnly m (List.mem_of_find?_eq_some hFound)
        (List.find?_some hFound)]

/- Behind a capital acronyms are tried before words. -/
theorem headLengths_eq
    (hCapital : ∃ c ∈ cs.head?, isCapital c = true) :
    headLengths cs =
      downFrom (acronymLength cs) ++
        downFrom (wordLength cs) := by
  rcases hCapital with ⟨c, hHead, hCapital⟩
  cases cs with
  | nil => cases hHead
  | cons d rest =>
      rw [List.head?_cons, Option.mem_some_iff] at hHead
      rw [headLengths, hHead, hCapital, if_pos rfl]

/- A head is within the acronym or within the first word. -/
theorem mem_headLengths_iff
    (hCapital : ∃ c ∈ cs.head?, isCapital c = true) :
    n ∈ headLengths cs ↔
      0 < n ∧ (n ≤ acronymLength cs ∨ n ≤ wordLength cs) := by
  rw [headLengths_eq hCapital, List.mem_append,
    mem_downFrom_iff, mem_downFrom_iff, and_or_left]

/- There is at least one leading capital. -/
theorem capitals_pos
    (hCapital : ∃ c ∈ cs.head?, isCapital c = true) :
    0 < (cs.takeWhile isCapital).length := by
  rcases hCapital with ⟨c, hHead, hCapital⟩
  cases cs with
  | nil => cases hHead
  | cons d rest =>
      rw [List.head?_cons, Option.mem_some_iff] at hHead
      rw [List.takeWhile_cons, hHead, hCapital, if_pos rfl]
      exact Nat.zero_lt_succ _

/- The first word has at least this capital. -/
theorem wordLength_pos
    (hCapital : ∃ c ∈ cs.head?, isCapital c = true) :
    0 < wordLength cs := by
  cases cs with
  | nil =>
      rcases hCapital with ⟨_, hHead, _⟩
      cases hHead
  | cons c rest =>
      rw [wordLength, Nat.add_comm]
      exact Nat.zero_lt_succ _

/- A tail starts at a break and has no further line. -/
theorem isTail_drop_iff :
    isTail (cs.drop n) = true ↔
      breaksAt cs n = true ∧ '\n' ∉ cs.drop n := by
  rw [breaksAt, ← List.head?_drop]
  cases cs.drop n with
  | nil => simp [isTail]
  | cons c rest =>
      rw [isTail, Bool.and_eq_true, List.all_eq_true,
        List.head?_cons, Option.all_some, List.mem_cons,
        not_or, and_congr_right_iff]
      intro hCapital
      have hC : '\n' ≠ c := by
        rintro rfl
        cases hCapital
      simp only [hC, not_false_eq_true, true_and, bne_iff_ne]
      exact
        ⟨fun hAll hMem => hAll _ hMem rfl,
          fun hNone _ hMem hSame => hNone (hSame ▸ hMem)⟩

/- No line ends in an acronym. -/
theorem newline_notMem_take
    (hLength : n ≤ acronymLength cs) :
    '\n' ∉ cs.take n := by
  intro hMem
  rcases List.getElem?_of_mem hMem with ⟨i, hThere⟩
  rw [List.getElem?_take] at hThere
  by_cases hWithin : i < n
  · rw [if_pos hWithin] at hThere
    by_cases hFront : i < (cs.takeWhile isCapital).length
    · rcases exists_of_lt_takeWhile hFront with
        ⟨c, hHere, hCapital⟩
      rw [hThere, Option.some.injEq] at hHere
      rw [← hHere] at hCapital
      cases hCapital
    · rcases exists_isDigit_of_lt_acronymLength
          (Nat.le_of_not_lt hFront)
          (Nat.lt_of_lt_of_le hWithin hLength) with
        ⟨c, hHere, hDigit⟩
      rw [hThere, Option.some.injEq] at hHere
      rw [← hHere] at hDigit
      cases hDigit
  · rw [if_neg hWithin] at hThere
    cases hThere

/- A line that ends behind the next capital ends in a tail. -/
theorem newline_mem_drop
    (hLength : n ≤ acronymLength cs ∨ n ≤ wordLength cs)
    (hNewline : '\n' ∈ fromNextCapital cs) :
    '\n' ∈ cs.drop n := by
  rw [← drop_wordLength] at hNewline
  rcases hLength with hAcronym | hWord
  · have hMem := List.mem_of_mem_drop hNewline
    rw [← List.take_append_drop n cs,
      List.mem_append] at hMem
    exact hMem.resolve_left (newline_notMem_take hAcronym)
  · rw [← Nat.add_sub_of_le hWord,
      ← List.drop_drop] at hNewline
    exact List.mem_of_mem_drop hNewline

/- A head of a class name is what stands in front of a break. -/
theorem isTail_drop_iff_breaksAt
    (hName : IsClassName cs)
    (hPos : 0 < n) :
    isTail (cs.drop n) = breaksAt cs n := by
  rw [Bool.eq_iff_iff, isTail_drop_iff]
  refine and_iff_left_of_imp ?_
  intro hBreaks hNewline
  have hWord := wordLength_le_of_breaksAt hPos hBreaks
  apply hName.2
  rw [← drop_wordLength]
  rw [← Nat.add_sub_of_le hWord, ← List.drop_drop] at hNewline
  exact List.mem_of_mem_drop hNewline

/- Other names do not have a head. -/
theorem find?_headLengths_eq_none
    (hName : ¬ IsClassName cs) :
    (headLengths cs).find? (fun n => isTail (cs.drop n)) =
      none := by
  by_cases hCapital : ∃ c ∈ cs.head?, isCapital c = true
  · rw [List.find?_eq_none]
    intro n hMem hTail
    rw [mem_headLengths_iff hCapital] at hMem
    apply hName
    refine ⟨hCapital, fun hNewline => ?_⟩
    exact
      (isTail_drop_iff.mp hTail).2
        (newline_mem_drop hMem.2 hNewline)
  · cases cs with
    | nil => rfl
    | cons c rest =>
        have hC : ¬ isCapital c = true :=
          fun hC => hCapital ⟨c, rfl, hC⟩
        rw [headLengths, if_neg hC]
        rfl

/- The head is the beginning of the name. -/
theorem isPrefix_head (cs : List Char) :
    head cs <+: cs := by
  unfold head
  dsimp only
  split_ifs with hOne hBreaks
  · cases cs with
    | nil => exact List.nil_prefix
    | cons c rest =>
        exact
          List.cons_prefix_cons.mpr
            ⟨rfl, List.takeWhile_prefix _⟩
  · have hWhole :
        cs.takeWhile isCapital ++ cs.dropWhile isCapital =
          cs :=
      List.takeWhile_append_dropWhile
    have hDigits :=
      List.takeWhile_prefix (l := cs.dropWhile isCapital)
        Char.isDigit
    rw [← List.prefix_append_right_inj
      (cs.takeWhile isCapital), hWhole] at hDigits
    exact hDigits
  · exact
      (List.dropLast_prefix _).trans (List.takeWhile_prefix _)

/- Behind a single capital the first word is the head. -/
theorem find?_headLengths_of_one
    (hName : IsClassName cs)
    (hOne : (cs.takeWhile isCapital).length = 1) :
    (headLengths cs).find? (fun n => isTail (cs.drop n)) =
      some (wordLength cs) := by
  have hPos := wordLength_pos hName.1
  have hBreaks := breaksAt_wordLength cs
  apply find?_of_only
  · exact
      (mem_headLengths_iff hName.1).mpr
        ⟨hPos, .inr (Nat.le_refl _)⟩
  · rw [isTail_drop_iff_breaksAt hName hPos, hBreaks]
  · intro n hMem hTail
    rw [mem_headLengths_iff hName.1] at hMem
    rw [isTail_drop_iff_breaksAt hName hMem.1] at hTail
    have hLe := wordLength_le_of_breaksAt hMem.1 hTail
    have hAcronym : acronymLength cs ≤ wordLength cs := by
      by_contra hLonger
      rw [not_breaksAt_of_lt_acronymLength (by omega)
        (Nat.lt_of_not_le hLonger)] at hBreaks
      cases hBreaks
    omega

/- Several capitals are the head or all of it but the last. -/
theorem find?_headLengths_of_several
    (hName : IsClassName cs)
    (hOne : (cs.takeWhile isCapital).length ≠ 1) :
    (headLengths cs).find? (fun n => isTail (cs.drop n)) =
      some
        (if breaksAt cs (acronymLength cs) then
          acronymLength cs
        else
          (cs.takeWhile isCapital).length - 1) := by
  have hSome := capitals_pos hName.1
  have hCapitals :
      (cs.takeWhile isCapital).length ≤ acronymLength cs :=
    Nat.le_add_right _ _
  rw [headLengths_eq hName.1, List.find?_append]
  split_ifs with hBreaks
  · have hPos : 0 < acronymLength cs := by
      omega
    have hTail :
        isTail (cs.drop (acronymLength cs)) = true := by
      rw [isTail_drop_iff_breaksAt hName hPos, hBreaks]
    rw [find?_downFrom hPos (Nat.le_refl _) hTail (by omega)]
    rfl
  · have hPos : 0 < (cs.takeWhile isCapital).length - 1 := by
      omega
    have hTail :
        isTail
            (cs.drop
              ((cs.takeWhile isCapital).length - 1)) =
          true := by
      rw [isTail_drop_iff_breaksAt hName hPos]
      exact breaksAt_of_lt_capitals (by omega)
    rw [find?_downFrom hPos (by omega) hTail]
    · rfl
    · intro m hBelow hLe
      rw [isTail_drop_iff_breaksAt hName (by omega)]
      rcases Nat.eq_or_lt_of_le hLe with rfl | hLess
      · exact eq_false_of_ne_true hBreaks
      · exact
          not_breaksAt_of_lt_acronymLength (by omega) hLess

/- The head of a class name is the preferred one. -/
theorem find?_headLengths
    (hName : IsClassName cs) :
    (headLengths cs).find? (fun n => isTail (cs.drop n)) =
      some (head cs).length := by
  by_cases hOne : (cs.takeWhile isCapital).length = 1
  · rw [find?_headLengths_of_one hName hOne, head, if_pos hOne]
    cases cs with
    | nil => rfl
    | cons c rest => simp [wordLength, Nat.add_comm]
  · have hLength :
        (cs.takeWhile isCapital ++
            (cs.dropWhile isCapital).takeWhile
              Char.isDigit).length =
          acronymLength cs :=
      List.length_append
    rw [find?_headLengths_of_several hName hOne, head,
      if_neg hOne, hLength]
    split_ifs
    · rw [hLength]
    · rw [List.length_dropLast]

/- A class name is split behind its head, other names not. -/
theorem split?_eq (cs : List Char) :
    (IsClassName cs →
      split? cs = some (head cs, cs.drop (head cs).length)) ∧
    (¬ IsClassName cs → split? cs = none) := by
  constructor
  · intro hName
    have hHead :=
      List.prefix_iff_eq_take.mp (isPrefix_head cs)
    rw [split?, find?_headLengths hName, Option.map_some,
      ← hHead]
  · intro hName
    rw [split?, find?_headLengths_eq_none hName]
    rfl

/- Digits go along with an acronym if the name breaks there. -/
example :
    split? "GTIN13Proxy".toList =
        some ("GTIN13".toList, "Proxy".toList) ∧
      split? "HTTP2x".toList =
        some ("HTT".toList, "P2x".toList) := by
  decide +kernel

end ObjectName

------------------------------------------------------------
-- Object Names
------------------------------------------------------------

/-
  Exactly the class names are accepted.  The object of a class
  has its name with the head in lower case.
-/
theorem objectName_lowers_head (s : String) :
    ((∃ name, objectName s = .ok name) ↔
      ObjectName.IsClassName s.toList) ∧
    (ObjectName.IsClassName s.toList →
      ∃ tail,
        ObjectName.head s.toList ++ tail = s.toList ∧
        objectName s =
          .ok
            (Text.lower
                (String.ofList (ObjectName.head s.toList)) ++
              String.ofList tail)) ∧
    (¬ ObjectName.IsClassName s.toList →
      objectName s = .error (.invalidClassName s)) := by
  rcases ObjectName.split?_eq s.toList with ⟨hSplit, hNone⟩
  have hOther :
      ¬ ObjectName.IsClassName s.toList →
        objectName s = .error (.invalidClassName s) := by
    intro hName
    rw [objectName, hNone hName]
  have hAccepted :
      ObjectName.IsClassName s.toList →
        objectName s =
          .ok
            (Text.lower
                (String.ofList (ObjectName.head s.toList)) ++
              String.ofList
                (s.toList.drop
                  (ObjectName.head s.toList).length)) := by
    intro hName
    rw [objectName, hSplit hName]
  refine ⟨⟨?_, ?_⟩, ?_, hOther⟩
  · rintro ⟨name, hOk⟩
    by_contra hName
    rw [hOther hName] at hOk
    cases hOk
  · intro hName
    exact ⟨_, hAccepted hName⟩
  · intro hName
    have hHead :=
      List.prefix_iff_eq_append.mp
        (ObjectName.isPrefix_head s.toList)
    exact ⟨_, hHead, hAccepted hName⟩

end HostBindings
