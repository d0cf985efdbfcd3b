import HostBindings.Proofs.Json.Tokens

/-
  Values that are read back from the text written for them.

  The tokens of a value bring the reading machine from where
  a value may start to where the value has been read, within
  the frames that are open.  There has to be room for the
  frames that the value itself opens.

  Main declarations:
    * `Json.Reading.StartsValue`
    * `Json.Reading.StartsMember`
    * `Json.spelled_of_wellKeyed`
    * `Json.read_fileText`
-/

------------------------------------------------------------
-- Starting Points
------------------------------------------------------------

namespace HostBindings

namespace Json

variable {limit : Nat}
variable {stack : List Frame}

namespace Reading

/-
  A value may start here, within the given frames; an array
  that has just been opened counts as one of them.
-/
def StartsValue
    (limit : Nat)
    (m : Reading)
    (stack : List Frame) : Prop :=
  ∀ token,
    token ≠ .closeArray →
      step limit m token = startValue limit stack token

/- A member may start here, behind those gathered. -/
def StartsMember
    (limit : Nat)
    (m : Reading)
    (gathered : Keyed String Json)
    (stack : List Frame) : Prop :=
  ∀ token,
    token ≠ .closeObject →
      step limit m token = startMember gathered stack token

/- At a start a value may start. -/
theorem startsValue_start :
    StartsValue limit (.start stack) stack :=
  fun _ _ => rfl

/- So it may in an array that has been opened. -/
theorem startsValue_arrayOpened :
    StartsValue limit (.arrayOpened stack)
      (.items [] :: stack) := by
  intro token hToken
  cases token with
  | closeArray => exact absurd rfl hToken
  | _ => rfl

/- A member may start in an object that has been opened. -/
theorem startsMember_objectOpened :
    StartsMember limit (.objectOpened stack) [] stack := by
  intro token hToken
  cases token with
  | closeObject => exact absurd rfl hToken
  | _ => rfl

/- And behind the comma after another member. -/
theorem startsMember_nextMember
    {gathered : Keyed String Json} :
    StartsMember limit (.nextMember gathered stack) gathered
      stack :=
  fun _ _ => rfl

end Reading

open Reading

------------------------------------------------------------
-- Tokens of a Value
------------------------------------------------------------

/-
  The tokens are read as the value wherever a value may start
  and there is room for it.
-/
def Spelled (limit : Nat) (v : Json) : Prop :=
  ∀ m stack,
    StartsValue limit m stack →
      stack.length + nesting v ≤ limit →
        (tokens v).foldlM (step limit) m =
          some (.value v stack)

/- A scalar is read at once. -/
theorem IsScalar.spelled
    {v : Json}
    (hScalar : IsScalar v) :
    Spelled limit v := by
  intro m stack hStarts _
  rw [hScalar.tokens_eq, List.foldlM_cons,
    hStarts _ (by simp)]
  rfl

/-
  Items are read one after the other, behind those that have
  been gathered.
-/
theorem foldlM_itemTokens
    {v : Json}
    {rest gathered : List Json}
    {m : Reading}
    (hStarts : StartsValue limit m (.items gathered :: stack))
    (hSpelled : ∀ u ∈ v :: rest, Spelled limit u)
    (hRoom :
      ∀ u ∈ v :: rest,
        stack.length + 1 + nesting u ≤ limit) :
    (itemTokens (v :: rest) ++ [Token.closeArray]).foldlM
        (step limit) m =
      some
        (.value (.array (gathered.reverse ++ v :: rest))
          stack) := by
  induction rest generalizing v gathered m with
  | nil =>
      have hValue :=
        hSpelled v List.mem_cons_self m _ hStarts
          (hRoom v List.mem_cons_self)
      rw [itemTokens, List.foldlM_append, hValue]
      simp [step, afterValue]
  | cons w more ih =>
      have hValue :=
        hSpelled v List.mem_cons_self m _ hStarts
          (hRoom v List.mem_cons_self)
      have hStart :
          StartsValue limit
            (.start (.items (v :: gathered) :: stack))
            (.items (v :: gathered) :: stack) :=
        startsValue_start
      have hRest :=
        ih hStart
          (fun u hU => hSpelled u (List.mem_cons_of_mem _ hU))
          (fun u hU => hRoom u (List.mem_cons_of_mem _ hU))
      rw [itemTokens, List.append_assoc, List.foldlM_append,
        hValue]
      · simp only [Option.bind_eq_bind, Option.bind_some,
          List.cons_append, List.foldlM_cons, step,
          afterValue]
        rw [hRest]
        simp
      · simp

/- A member leads from where it may start to its value. -/
theorem foldlM_member
    (key : String)
    {v : Json}
    {gathered : Keyed String Json}
    {m : Reading}
    (hStarts : StartsMember limit m gathered stack)
    (hSpelled : Spelled limit v)
    (hRoom : stack.length + 1 + nesting v ≤ limit) :
    (.scalar (.string key) :: .colon :: tokens v).foldlM
        (step limit) m =
      some (.value v (.members gathered key :: stack)) := by
  have hValue :=
    hSpelled (.start (.members gathered key :: stack))
      (.members gathered key :: stack) startsValue_start hRoom
  rw [List.foldlM_cons, hStarts _ (by simp)]
  simp only [startMember, Option.bind_eq_bind,
    Option.bind_some, List.foldlM_cons, step]
  exact hValue

/- A key is not among those before it. -/
theorem notMem_keys_of_distinct
    {key : String}
    {v : Json}
    {before after : List (String × Json)}
    (hDistinct :
      Keyed.Distinct (before ++ (key, v) :: after)) :
    key ∉ Keyed.keys before := by
  rw [Keyed.Distinct, Keyed.keys_append,
    Keyed.keys_cons] at hDistinct
  intro hMem
  exact
    (List.nodup_append.mp hDistinct).2.2 key hMem key
      List.mem_cons_self rfl

/- Members are read likewise, if their keys are distinct. -/
theorem foldlM_memberTokens
    {entry : String × Json}
    {rest gathered : List (String × Json)}
    {m : Reading}
    (hStarts : StartsMember limit m gathered stack)
    (hDistinct : Keyed.Distinct (gathered ++ entry :: rest))
    (hSpelled : ∀ e ∈ entry :: rest, Spelled limit e.2)
    (hRoom :
      ∀ e ∈ entry :: rest,
        stack.length + 1 + nesting e.2 ≤ limit) :
    (memberTokens (entry :: rest) ++ [Token.closeObject]).foldlM
        (step limit) m =
      some
        (.value (.object (gathered ++ entry :: rest))
          stack) := by
  induction rest generalizing entry gathered m with
  | nil =>
      rcases entry with ⟨key, v⟩
      have hMember :=
        foldlM_member key hStarts
          (hSpelled (key, v) List.mem_cons_self)
          (hRoom (key, v) List.mem_cons_self)
      rw [memberTokens, List.foldlM_append, hMember]
      simp [step, afterValue,
        Keyed.put_of_notMem (notMem_keys_of_distinct hDistinct)]
  | cons other more ih =>
      rcases entry with ⟨key, v⟩
      have hMember :=
        foldlM_member key hStarts
          (hSpelled (key, v) List.mem_cons_self)
          (hRoom (key, v) List.mem_cons_self)
      have hStart :
          StartsMember limit
            (.nextMember (gathered ++ [(key, v)]) stack)
            (gathered ++ [(key, v)]) stack :=
        startsMember_nextMember
      have hRest :=
        ih hStart (by simpa using hDistinct)
          (fun e hE => hSpelled e (List.mem_cons_of_mem _ hE))
          (fun e hE => hRoom e (List.mem_cons_of_mem _ hE))
      rw [memberTokens, List.append_assoc,
        List.foldlM_append, hMember]
      · simp only [Option.bind_eq_bind, Option.bind_some,
          List.cons_append, List.foldlM_cons, step,
          afterValue,
          Keyed.put_of_notMem
            (notMem_keys_of_distinct hDistinct)]
        rw [hRest]
        simp
      · simp

/- The tokens of a well-keyed value spell it. -/
theorem spelled_of_wellKeyed
    {v : Json}
    (hKeyed : WellKeyed v) :
    Spelled limit v := by
  induction v using inductionOn with
  | scalar v hScalar =>
      exact hScalar.spelled
  | array items ih =>
      intro m stack hStarts hRoom
      have hOpens : stack.length < limit := by
        simp only [nesting] at hRoom
        omega
      rw [tokens, List.cons_append, List.foldlM_cons,
        hStarts _ (by simp)]
      simp only [startValue, hOpens, if_true,
        Option.bind_eq_bind, Option.bind_some]
      cases items with
      | nil =>
          rfl
      | cons v rest =>
          rw [wellKeyed_array_iff] at hKeyed
          refine
            foldlM_itemTokens startsValue_arrayOpened
              (fun u hU => ih u hU (hKeyed u hU)) ?_
          intro u hU
          have hNested :
              nesting u ≤ nestingItems (v :: rest) :=
            nestingItems_le_iff.mp (Nat.le_refl _) u hU
          rw [nesting] at hRoom
          omega
  | object members ih =>
      intro m stack hStarts hRoom
      have hOpens : stack.length < limit := by
        simp only [nesting] at hRoom
        omega
      rw [tokens, List.cons_append, List.foldlM_cons,
        hStarts _ (by simp)]
      simp only [startValue, hOpens, if_true,
        Option.bind_eq_bind, Option.bind_some]
      cases members with
      | nil =>
          rfl
      | cons entry rest =>
          rw [wellKeyed_object_iff] at hKeyed
          refine
            foldlM_memberTokens startsMember_objectOpened
              hKeyed.1
              (fun e hE => ih e hE (hKeyed.2 e hE)) ?_
          intro e hE
          have hNested :
              nesting e.2 ≤ nestingMembers (entry :: rest) :=
            nestingMembers_le_iff.mp (Nat.le_refl _) e hE
          rw [nesting] at hRoom
          omega

------------------------------------------------------------
-- Files
------------------------------------------------------------

/-
  What is written into a file is read from it, if no key is
  repeated, numbers are read back, and there are not too many
  levels.
-/
theorem read_fileText
    {v : Json}
    (hShaped : Shaped maxNesting Number.ReadsBack v) :
    read (fileText v) = some v := by
  have hTokens :=
    spelled_of_wellKeyed hShaped.keyed (.start []) []
      startsValue_start (by simpa using hShaped.nesting)
  rw [read, readNested, cut_fileText hShaped.allowed]
  simp only [Option.bind_some, ofTokens?, hTokens, result?]

end Json

end HostBindings
