import HostBindings.Json.Reader
import HostBindings.Proofs.Keyed.Lookup

/-
  The shapes of values, member by member.

  What holds throughout a value is said of its items and of
  the values of its members.  Facts about values follow by
  induction over items and members.

  Main declarations:
    * `Json.inductionOn`
    * `Json.numbers`
    * `Json.wellKeyed_object_iff`
    * `Json.textual_object_iff`
    * `Json.nesting_object_le_iff`
    * `Json.mem_numbers_object_iff`
    * `Json.integersOnly_iff`
    * `Json.Shaped`
-/

------------------------------------------------------------
-- Induction
------------------------------------------------------------

namespace HostBindings

namespace Json

/- A value that is neither an array nor an object. -/
def IsScalar : Json → Prop
| .array _ => False
| .object _ => False
| _ => True

/-
  To prove something of all values, prove it of scalars, of
  arrays whose items have it, and of objects whose members
  have it.
-/
@[elab_as_elim]
theorem inductionOn
    {motive : Json → Prop}
    (v : Json)
    (scalar : ∀ v, IsScalar v → motive v)
    (array :
      ∀ items, (∀ v ∈ items, motive v) → motive (.array items))
    (object :
      ∀ members : List (String × Json),
        (∀ entry ∈ members, motive entry.2) →
          motive (.object members)) :
    motive v :=
  match v with
  | .null => scalar .null trivial
  | .bool b => scalar (.bool b) trivial
  | .number n => scalar (.number n) trivial
  | .string s => scalar (.string s) trivial
  | .array items =>
      array items fun v _ => inductionOn v scalar array object
  | .object members =>
      object members fun entry _ =>
        inductionOn entry.2 scalar array object
termination_by sizeOf v
decreasing_by
  · decreasing_tactic
  · rename_i hEntry
    have hMember := List.sizeOf_lt_of_mem hEntry
    have hValue : sizeOf entry.2 < sizeOf entry := by
      cases entry
      simp
    simp only [Json.object.sizeOf_spec]
    omega

------------------------------------------------------------
-- Keys
------------------------------------------------------------

/- The items of a list are well keyed one by one. -/
theorem wellKeyedItems_iff
    {items : List Json} :
    WellKeyedItems items ↔ ∀ v ∈ items, WellKeyed v := by
  induction items with
  | nil => simp [WellKeyedItems]
  | cons v rest ih => simp [WellKeyedItems, ih]

/- The members of a list are well keyed one by one. -/
theorem wellKeyedMembers_iff
    {members : List (String × Json)} :
    WellKeyedMembers members ↔
      ∀ entry ∈ members, WellKeyed entry.2 := by
  induction members with
  | nil => simp [WellKeyedMembers]
  | cons entry rest ih => simp [WellKeyedMembers, ih]

/- An array is well keyed when its items are. -/
@[simp]
theorem wellKeyed_array_iff
    {items : List Json} :
    WellKeyed (.array items) ↔ ∀ v ∈ items, WellKeyed v := by
  rw [WellKeyed, wellKeyedItems_iff]

/- An object is well keyed when it holds every key once. -/
@[simp]
theorem wellKeyed_object_iff
    {members : List (String × Json)} :
    WellKeyed (.object members) ↔
      Keyed.Distinct members ∧
        ∀ entry ∈ members, WellKeyed entry.2 := by
  rw [WellKeyed, wellKeyedMembers_iff]

/- There are no keys in a scalar. -/
theorem IsScalar.wellKeyed
    {v : Json}
    (hScalar : IsScalar v) :
    WellKeyed v := by
  cases v with
  | array items => cases hScalar
  | object members => cases hScalar
  | _ => trivial

------------------------------------------------------------
-- Texts
------------------------------------------------------------

/- An object is textual when its members are. -/
@[simp]
theorem textual_object_iff
    {members : List (String × Json)} :
    Textual (.object members) ↔
      ∀ entry ∈ members, Textual entry.2 := by
  rw [Textual]
  induction members with
  | nil => simp [TextualMembers]
  | cons entry rest ih => simp [TextualMembers, ih]

------------------------------------------------------------
-- Nesting
------------------------------------------------------------

/- A list nests as deep as its items. -/
theorem nestingItems_le_iff
    {items : List Json}
    {limit : Nat} :
    nestingItems items ≤ limit ↔
      ∀ v ∈ items, nesting v ≤ limit := by
  induction items with
  | nil => simp [nestingItems]
  | cons v rest ih => simp [nestingItems, ih]

/- A list of members nests as deep as their values. -/
theorem nestingMembers_le_iff
    {members : List (String × Json)}
    {limit : Nat} :
    nestingMembers members ≤ limit ↔
      ∀ entry ∈ members, nesting entry.2 ≤ limit := by
  induction members with
  | nil => simp [nestingMembers]
  | cons entry rest ih => simp [nestingMembers, ih]

/- An array nests one deeper than its items. -/
theorem nesting_array_le_iff
    {items : List Json}
    {limit : Nat} :
    nesting (.array items) ≤ limit + 1 ↔
      ∀ v ∈ items, nesting v ≤ limit := by
  rw [nesting, Nat.add_le_add_iff_right, nestingItems_le_iff]

/- An object nests one deeper than its members. -/
theorem nesting_object_le_iff
    {members : List (String × Json)}
    {limit : Nat} :
    nesting (.object members) ≤ limit + 1 ↔
      ∀ entry ∈ members, nesting entry.2 ≤ limit := by
  rw [nesting, Nat.add_le_add_iff_right,
    nestingMembers_le_iff]

/- Nothing is nested in a scalar. -/
theorem IsScalar.nesting_eq
    {v : Json}
    (hScalar : IsScalar v) :
    nesting v = 0 := by
  cases v with
  | array items => cases hScalar
  | object members => cases hScalar
  | _ => rfl

------------------------------------------------------------
-- Numbers
------------------------------------------------------------

mutual

/- The numbers inside a value. -/
def numbers : Json → List Number
| .number n => [n]
| .array items => numbersItems items
| .object members => numbersMembers members
| _ => []

/- The numbers inside the values of a list. -/
def numbersItems : List Json → List Number
| [] => []
| v :: rest => numbers v ++ numbersItems rest

/- The numbers inside the values of a list of members. -/
def numbersMembers : List (String × Json) → List Number
| [] => []
| (_, v) :: rest => numbers v ++ numbersMembers rest

end

/- The numbers of an array are those of its items. -/
@[simp]
theorem mem_numbers_array_iff
    {items : List Json}
    {n : Number} :
    n ∈ numbers (.array items) ↔
      ∃ v ∈ items, n ∈ numbers v := by
  rw [numbers]
  induction items with
  | nil => simp [numbersItems]
  | cons v rest ih => simp [numbersItems, ih]

/- The numbers of an object are those of its members. -/
@[simp]
theorem mem_numbers_object_iff
    {members : List (String × Json)}
    {n : Number} :
    n ∈ numbers (.object members) ↔
      ∃ entry ∈ members, n ∈ numbers entry.2 := by
  rw [numbers]
  induction members with
  | nil => simp [numbersMembers]
  | cons entry rest ih => simp [numbersMembers, ih]

/- A textual value holds no numbers. -/
theorem notMem_numbers_of_textual
    {v : Json}
    (hTextual : Textual v)
    (n : Number) :
    n ∉ numbers v := by
  induction v using inductionOn with
  | scalar v hScalar =>
      cases v with
      | string s => simp [numbers]
      | object members => cases hScalar
      | _ => cases hTextual
  | array items ih =>
      cases hTextual
  | object members ih =>
      rw [mem_numbers_object_iff]
      rintro ⟨entry, hEntry, hNumber⟩
      exact
        ih entry hEntry
          (textual_object_iff.mp hTextual entry hEntry)
          hNumber

/- A value has integers only when it holds no doubles. -/
theorem integersOnly_iff
    {v : Json} :
    IntegersOnly v ↔ ∀ bits, .double bits ∉ numbers v := by
  induction v using inductionOn with
  | scalar v hScalar =>
      cases v with
      | number n => cases n <;> simp [IntegersOnly, numbers]
      | array items => cases hScalar
      | object members => cases hScalar
      | _ => simp [IntegersOnly, numbers]
  | array items ih =>
      rw [IntegersOnly, numbers]
      induction items with
      | nil => simp [IntegersOnlyItems, numbersItems]
      | cons v rest ihRest =>
          rw [List.forall_mem_cons] at ih
          simp [IntegersOnlyItems, numbersItems, ih.1,
            ihRest ih.2, forall_and]
  | object members ih =>
      rw [IntegersOnly, numbers]
      induction members with
      | nil => simp [IntegersOnlyMembers, numbersMembers]
      | cons entry rest ihRest =>
          rw [List.forall_mem_cons] at ih
          simp [IntegersOnlyMembers, numbersMembers, ih.1,
            ihRest ih.2, forall_and]

------------------------------------------------------------
-- All at Once
------------------------------------------------------------

/-
  No key is repeated, there are no more levels than a limit,
  and all numbers are allowed.
-/
structure Shaped
    (limit : Nat)
    (allowed : Number → Prop)
    (v : Json) : Prop where
  keyed : WellKeyed v
  nesting : nesting v ≤ limit
  allowed : ∀ n ∈ numbers v, allowed n

variable {limit : Nat}
variable {allowed : Number → Prop}

/- A scalar need only be an allowed number, if it is one. -/
theorem IsScalar.shaped
    {v : Json}
    (hScalar : IsScalar v)
    (hAllowed : ∀ n ∈ numbers v, allowed n) :
    Shaped limit allowed v :=
  ⟨hScalar.wellKeyed,
    hScalar.nesting_eq.trans_le (Nat.zero_le limit), hAllowed⟩

/- An array is as its items are, one level deeper. -/
theorem shaped_array_iff
    {items : List Json} :
    Shaped (limit + 1) allowed (.array items) ↔
      ∀ v ∈ items, Shaped limit allowed v := by
  constructor
  · intro hShaped v hV
    refine
      ⟨wellKeyed_array_iff.mp hShaped.keyed v hV,
        nesting_array_le_iff.mp hShaped.nesting v hV, ?_⟩
    exact fun n hN =>
      hShaped.allowed n (mem_numbers_array_iff.mpr ⟨v, hV, hN⟩)
  · intro hItems
    refine ⟨?_, ?_, ?_⟩
    · rw [wellKeyed_array_iff]
      exact fun v hV => (hItems v hV).keyed
    · rw [nesting_array_le_iff]
      exact fun v hV => (hItems v hV).nesting
    · intro n hN
      rcases mem_numbers_array_iff.mp hN with ⟨v, hV, hNumber⟩
      exact (hItems v hV).allowed n hNumber

/- An object is as its members are, one level deeper. -/
theorem shaped_object_iff
    {members : List (String × Json)} :
    Shaped (limit + 1) allowed (.object members) ↔
      Keyed.Distinct members ∧
        ∀ entry ∈ members, Shaped limit allowed entry.2 := by
  constructor
  · intro hShaped
    rcases wellKeyed_object_iff.mp hShaped.keyed with
      ⟨hDistinct, hKeyed⟩
    refine ⟨hDistinct, ?_⟩
    intro entry hEntry
    refine
      ⟨hKeyed entry hEntry,
        nesting_object_le_iff.mp hShaped.nesting entry hEntry,
        ?_⟩
    exact fun n hN =>
      hShaped.allowed n
        (mem_numbers_object_iff.mpr ⟨entry, hEntry, hN⟩)
  · rintro ⟨hDistinct, hMembers⟩
    refine ⟨?_, ?_, ?_⟩
    · rw [wellKeyed_object_iff]
      exact ⟨hDistinct, fun e hE => (hMembers e hE).keyed⟩
    · rw [nesting_object_le_iff]
      exact fun e hE => (hMembers e hE).nesting
    · intro n hN
      rcases mem_numbers_object_iff.mp hN with
        ⟨e, hE, hNumber⟩
      exact (hMembers e hE).allowed n hNumber

/- There is room for the level that an object opens. -/
theorem Shaped.exists_succ
    {members : List (String × Json)}
    (hShaped : Shaped limit allowed (.object members)) :
    ∃ inner, limit = inner + 1 := by
  have hNesting := hShaped.nesting
  rw [Json.nesting] at hNesting
  exact ⟨limit - 1, by omega⟩

end Json

end HostBindings
