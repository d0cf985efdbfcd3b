import HostBindings.Proofs.CanonicalTree.Shape

/-
  Which entries a canonical tree refuses.

  A parameter is refused for a reserved name, whatever the
  tree holds.  A function is refused when its name, or that
  of its namespace, already stands for the other kind among
  the entries that have been accepted.  So whether a list of
  entries is accepted does not depend on its order.

  Main declarations:
    * `CanonicalTree.accepted`
    * `CanonicalTree.Clashes`
    * `CanonicalTree.Records`
    * `CanonicalTree.addFunction_error_iff`
    * `CanonicalTree.Records.enterAll`
    * `CanonicalTree.acceptsAll_iff`
-/

------------------------------------------------------------
-- Accepted Entries
------------------------------------------------------------

namespace HostBindings

namespace CanonicalTree

/- The entries that are not refused, in their order. -/
def accepted : CanonicalTree → List Entry → List Entry
| _, [] => []
| tree, entry :: rest =>
    match (tree.enter entry).2 with
    | .ok _ => entry :: accepted (tree.enter entry).1 rest
    | .error _ => accepted (tree.enter entry).1 rest

/- A name stands for a function and for a namespace. -/
def Clashes (entries : List Entry) : Prop :=
  ∃ name,
    Entry.function none name ∈ entries ∧
      ∃ functionName,
        Entry.function (some name) functionName ∈ entries

/- Entries are accepted part by part. -/
theorem accepted_append
    (tree : CanonicalTree)
    (first second : List Entry) :
    tree.accepted (first ++ second) =
      tree.accepted first ++
        (tree.enterAll first).accepted second := by
  induction first generalizing tree with
  | nil => rfl
  | cons entry first ih =>
      rw [List.cons_append, accepted, accepted, enterAll_cons]
      cases (tree.enter entry).2 <;> simp [ih]

/- When no entry is refused, all of them are accepted. -/
theorem accepted_of_acceptsAll
    {tree : CanonicalTree}
    {entries : List Entry}
    (hAccepts : tree.AcceptsAll entries) :
    tree.accepted entries = entries := by
  induction entries generalizing tree with
  | nil => rfl
  | cons entry rest ih =>
      rw [accepted, hAccepts.1]
      exact congrArg (entry :: ·) (ih hAccepts.2)

/- Clashes are those of the entries in any order. -/
theorem clashes_of_perm
    {entries others : List Entry}
    (hPerm : entries.Perm others) :
    Clashes entries ↔ Clashes others := by
  simp only [Clashes, hPerm.mem_iff]

/-
  Among entries that do not clash, a further function clashes
  if its name or that of its namespace has the other use.
-/
theorem clashes_concat_iff
    {entries : List Entry}
    {nameSpace : Option String}
    {functionName : String}
    (hClear : ¬ Clashes entries) :
    Clashes
        (entries ++ [.function nameSpace functionName]) ↔
      match nameSpace with
      | some nameSpace =>
          Entry.function none nameSpace ∈ entries
      | none =>
          ∃ otherName,
            Entry.function (some functionName) otherName ∈
              entries := by
  have hOld :
      ∀ name otherName,
        Entry.function none name ∈ entries →
          Entry.function (some name) otherName ∉ entries :=
    fun name otherName hFunction hGroup =>
      hClear ⟨name, hFunction, otherName, hGroup⟩
  cases nameSpace with
  | some nameSpace =>
      simp only [Clashes, List.mem_append, List.mem_singleton,
        Entry.function.injEq, reduceCtorEq, false_and,
        or_false, Option.some.injEq]
      constructor
      · rintro ⟨name, hFunction, otherName, hGroup | hNew⟩
        · exact absurd hGroup (hOld name otherName hFunction)
        · rw [← hNew.1]
          exact hFunction
      · intro hFunction
        exact
          ⟨nameSpace, hFunction, functionName,
            .inr ⟨rfl, rfl⟩⟩
  | none =>
      simp only [Clashes, List.mem_append, List.mem_singleton,
        Entry.function.injEq, reduceCtorEq, false_and,
        or_false, true_and]
      constructor
      · rintro ⟨name, hFunction | rfl, otherName, hGroup⟩
        · exact absurd hGroup (hOld name otherName hFunction)
        · exact ⟨otherName, hGroup⟩
      · rintro ⟨otherName, hGroup⟩
        exact ⟨functionName, .inr rfl, otherName, hGroup⟩

------------------------------------------------------------
-- Refused Functions
------------------------------------------------------------

variable {tree : CanonicalTree}
variable {nameSpace : Option String}
variable {functionName : String}
variable {fault : Fault}

/- The name that a function needs has the other use. -/
def IsTaken
    (tree : CanonicalTree)
    (nameSpace : Option String)
    (functionName : String) : Prop :=
  match nameSpace with
  | some nameSpace => tree.HasFunction none nameSpace
  | none => tree.HasNameSpace functionName

/- A function is refused when the name it needs is taken. -/
theorem addFunction_error_iff :
    (tree.addFunction nameSpace functionName).2 =
        .error fault ↔
      fault =
          .duplicateFunction
            (nameSpace.getD functionName) ∧
        tree.IsTaken nameSpace functionName := by
  unfold addFunction IsTaken HasFunction HasNameSpace
  cases nameSpace with
  | some nameSpace =>
      cases hFound : Keyed.find? nameSpace tree.functions with
      | none => simp [hFound]
      | some slot =>
          cases slot <;> simp only [hFound] <;> simp [eq_comm]
  | none =>
      cases Keyed.find? functionName tree.functions with
      | none => simp
      | some slot => cases slot <;> simp [eq_comm]

/- No name stands for a function and for a namespace. -/
theorem not_hasNameSpace_of_hasFunction
    {name : String}
    (hFunction : tree.HasFunction none name) :
    ¬ tree.HasNameSpace name := by
  rintro ⟨functions, hGroup⟩
  rcases hFunction with ⟨address, hFound⟩
  rw [hGroup] at hFound
  cases hFound

------------------------------------------------------------
-- Records
------------------------------------------------------------

/-
  The functions and the namespaces of a tree are those of the
  entries, whatever its parameters are.
-/
structure Records
    (tree : CanonicalTree)
    (entries : List Entry) : Prop where
  hasFunction :
    ∀ nameSpace functionName,
      tree.HasFunction nameSpace functionName ↔
        Entry.function nameSpace functionName ∈ entries
  hasNameSpace :
    ∀ nameSpace,
      tree.HasNameSpace nameSpace ↔
        ∃ functionName,
          Entry.function (some nameSpace) functionName ∈
            entries

variable {entries : List Entry}

/- A tree that holds entries has their functions. -/
theorem Holds.records
    (hHolds : tree.Holds entries) :
    tree.Records entries :=
  ⟨hHolds.hasFunction, hHolds.hasNameSpace⟩

/- Recorded entries do not clash. -/
theorem Records.not_clashes
    (hRecords : tree.Records entries) :
    ¬ Clashes entries := by
  rintro ⟨name, hFunction, hGroup⟩
  exact
    not_hasNameSpace_of_hasFunction
      ((hRecords.hasFunction none name).mpr hFunction)
      ((hRecords.hasNameSpace name).mpr hGroup)

/- A name is taken when its use would make a clash. -/
theorem Records.isTaken_iff
    (hRecords : tree.Records entries) :
    tree.IsTaken nameSpace functionName ↔
      Clashes
        (entries ++ [.function nameSpace functionName]) := by
  rw [clashes_concat_iff hRecords.not_clashes]
  cases nameSpace with
  | some nameSpace => exact hRecords.hasFunction none nameSpace
  | none => exact hRecords.hasNameSpace functionName

/- A parameter has no part in the functions. -/
theorem Records.addParameter
    {p : Parameter}
    (hRecords : tree.Records entries) :
    (tree.addParameter p).1.Records
      (entries ++ tree.accepted [.parameter p]) := by
  have hAccepted :
      ∀ nameSpace functionName,
        Entry.function nameSpace functionName ∉
          tree.accepted [.parameter p] := by
    intro nameSpace functionName
    rw [accepted, accepted]
    cases (tree.enter (.parameter p)).2 <;> simp
  rw [addParameter_fst]
  constructor
  · intro nameSpace functionName
    rw [List.mem_append, or_iff_left (hAccepted _ _),
      ← hRecords.hasFunction]
    rfl
  · intro nameSpace
    simp only [List.mem_append, hAccepted, or_false,
      ← hRecords.hasNameSpace]
    rfl

/- A function is recorded when it is accepted. -/
theorem Records.addFunction
    (hRecords : tree.Records entries) :
    (tree.addFunction nameSpace functionName).1.Records
      (entries ++
        tree.accepted
          [.function nameSpace functionName]) := by
  rw [accepted, accepted, enter]
  cases hResult :
      (tree.addFunction nameSpace functionName).2 with
  | error fault =>
      rw [addFunction_of_error hResult, List.append_nil]
      exact hRecords
  | ok done =>
      have hEntering :=
        entering_of_addFunction (Prod.ext rfl hResult)
      constructor
      · intro otherSpace otherName
        rw [hEntering.hasFunction_iff, hRecords.hasFunction]
        simp
      · intro otherSpace
        rw [hEntering.hasNameSpace_iff, hRecords.hasNameSpace]
        simp [exists_or, eq_comm]

/- A tree records the entries that it accepts. -/
theorem Records.enterAll
    {earlier : List Entry}
    (hRecords : tree.Records earlier)
    (entries : List Entry) :
    (tree.enterAll entries).Records
      (earlier ++ tree.accepted entries) := by
  induction entries generalizing tree earlier with
  | nil =>
      rw [accepted, List.append_nil]
      exact hRecords
  | cons entry rest ih =>
      have hEntry :
          (tree.enter entry).1.Records
            (earlier ++ tree.accepted [entry]) := by
        cases entry with
        | parameter p => exact hRecords.addParameter
        | function nameSpace functionName =>
            exact hRecords.addFunction
      have hRest := ih hEntry
      rw [List.append_assoc] at hRest
      rw [← List.singleton_append, accepted_append]
      exact hRest

/- A tree without entries records none. -/
theorem records_empty (documentationBase : Option String) :
    (empty documentationBase).Records [] :=
  (holds_empty documentationBase).records

------------------------------------------------------------
-- Accepted Lists
------------------------------------------------------------

/- None of the names that need to be free is reserved. -/
def IsUnreserved : Entry → Prop
| .parameter p =>
    ∀ name ∈ (p.identityPath.map Prod.fst).tail,
      isReserved name = false
| .function _ _ => True

/- A parameter without reserved names is accepted. -/
theorem addParameter_ok_iff
    {p : Parameter} :
    (tree.addParameter p).2 = .ok () ↔
      IsUnreserved (.parameter p) := by
  constructor
  · intro hOk
    exact (addParameter_ok hOk).2
  · intro hNames
    unfold addParameter
    cases hPath : p.identityPath with
    | nil => rfl
    | cons root variants =>
        rw [IsUnreserved, hPath, List.map_cons, List.tail_cons,
          List.forall_mem_map] at hNames
        have hNone :
            variants.find? (isReserved ·.1) = none := by
          simpa using hNames
        simp only [splitReserved, hNone]
        rfl

/- A function that would make no clash is accepted. -/
theorem Records.addFunction_ok_iff
    (hRecords : tree.Records entries) :
    (tree.addFunction nameSpace functionName).2 = .ok () ↔
      ¬ Clashes
        (entries ++ [.function nameSpace functionName]) := by
  rw [← hRecords.isTaken_iff]
  constructor
  · intro hOk hTaken
    have hError :=
      addFunction_error_iff.mpr ⟨rfl, hTaken⟩
    rw [hOk] at hError
    cases hError
  · intro hFree
    cases hResult :
        (tree.addFunction nameSpace functionName).2 with
    | ok done => rfl
    | error fault =>
        exact absurd (addFunction_error_iff.mp hResult).2 hFree

/- More entries make more clashes. -/
theorem Clashes.mono
    {others : List Entry}
    (hClashes : Clashes entries)
    (hSubset : entries ⊆ others) :
    Clashes others := by
  rcases hClashes with ⟨name, hFunction, otherName, hGroup⟩
  exact ⟨name, hSubset hFunction, otherName, hSubset hGroup⟩

/- A single entry is accepted for the same reasons. -/
theorem Records.enter_ok_iff
    {entry : Entry}
    (hRecords : tree.Records entries) :
    (tree.enter entry).2 = .ok () ↔
      ¬ Clashes (entries ++ [entry]) ∧ IsUnreserved entry := by
  cases entry with
  | parameter p =>
      have hSame :
          Clashes (entries ++ [.parameter p]) ↔
            Clashes entries := by
        simp [Clashes]
      rw [enter, addParameter_ok_iff, hSame]
      simp [hRecords.not_clashes]
  | function nameSpace functionName =>
      rw [enter, hRecords.addFunction_ok_iff]
      simp [IsUnreserved]

/- Then it is one of those that are recorded. -/
theorem Records.enter
    {entry : Entry}
    (hRecords : tree.Records entries)
    (hOk : (tree.enter entry).2 = .ok ()) :
    (tree.enter entry).1.Records (entries ++ [entry]) := by
  have hAll : tree.accepted [entry] = [entry] :=
    accepted_of_acceptsAll ⟨hOk, trivial⟩
  have hEntry := hRecords.enterAll [entry]
  rw [hAll] at hEntry
  exact hEntry

/-
  Entries are accepted, after others that are recorded, when
  they are unreserved and all of them together do not clash.
-/
theorem Records.acceptsAll_iff
    {earlier : List Entry}
    (hRecords : tree.Records earlier) :
    tree.AcceptsAll entries ↔
      ¬ Clashes (earlier ++ entries) ∧
        ∀ entry ∈ entries, IsUnreserved entry := by
  induction entries generalizing tree earlier with
  | nil =>
      rw [List.append_nil]
      simp [AcceptsAll, hRecords.not_clashes]
  | cons entry rest ih =>
      rw [AcceptsAll, List.forall_mem_cons,
        List.append_cons]
      constructor
      · rintro ⟨hFirst, hRest⟩
        rcases (ih (hRecords.enter hFirst)).mp hRest with
          ⟨hClear, hOthers⟩
        exact
          ⟨hClear, (hRecords.enter_ok_iff.mp hFirst).2,
            hOthers⟩
      · rintro ⟨hClear, hUnreserved, hOthers⟩
        have hFirst :=
          hRecords.enter_ok_iff.mpr
            ⟨fun hClash =>
              hClear
                (hClash.mono (List.subset_append_left _ _)),
              hUnreserved⟩
        exact
          ⟨hFirst,
            (ih (hRecords.enter hFirst)).mpr
              ⟨hClear, hOthers⟩⟩

/-
  A new tree accepts entries that are unreserved and do not
  clash.
-/
theorem acceptsAll_iff
    (documentationBase : Option String) :
    (empty documentationBase).AcceptsAll entries ↔
      ¬ Clashes entries ∧
        ∀ entry ∈ entries, IsUnreserved entry :=
  (records_empty documentationBase).acceptsAll_iff

end CanonicalTree

end HostBindings
