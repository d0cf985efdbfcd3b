import HostBindings.Proofs.CanonicalTree.Functions
import HostBindings.Proofs.CanonicalTree.Levels

/-
  Canonical trees as the result of a list of entries.

  A tree is built by entering parameters and functions one
  after the other.  When none of them is refused, the tree
  holds these entries, the levels above them, and no others.

  Main declarations:
    * `CanonicalTree.Entry`
    * `CanonicalTree.enterAll`
    * `CanonicalTree.AcceptsAll`
    * `CanonicalTree.Holds`
    * `CanonicalTree.Holds.enter`
    * `CanonicalTree.Holds.enterAll`
-/

------------------------------------------------------------
-- Entering
------------------------------------------------------------

namespace HostBindings

namespace CanonicalTree

/- What is entered into a tree. -/
inductive Entry where
| parameter (p : Parameter)
| function
    (nameSpace : Option String)
    (functionName : String)
deriving DecidableEq, Repr

/- Enter a parameter or a function. -/
def enter
    (tree : CanonicalTree) :
    Entry → CanonicalTree × Except Fault Unit
| .parameter p => tree.addParameter p
| .function nameSpace functionName =>
    tree.addFunction nameSpace functionName

/- The tree after entries, whether or not they are refused. -/
def enterAll
    (tree : CanonicalTree)
    (entries : List Entry) : CanonicalTree :=
  entries.foldl (fun tree entry => (tree.enter entry).1) tree

/- None of the entries is refused. -/
def AcceptsAll : CanonicalTree → List Entry → Prop
| _, [] => True
| tree, entry :: rest =>
    (tree.enter entry).2 = .ok () ∧
      AcceptsAll (tree.enter entry).1 rest

@[simp]
theorem enterAll_nil (tree : CanonicalTree) :
    tree.enterAll [] = tree := rfl

@[simp]
theorem enterAll_cons
    (tree : CanonicalTree)
    (entry : Entry)
    (entries : List Entry) :
    tree.enterAll (entry :: entries) =
      (tree.enter entry).1.enterAll entries := rfl

theorem enterAll_append
    (tree : CanonicalTree)
    (first second : List Entry) :
    tree.enterAll (first ++ second) =
      (tree.enterAll first).enterAll second :=
  List.foldl_append

/- Entries are accepted part by part. -/
theorem acceptsAll_append
    {tree : CanonicalTree}
    {first second : List Entry} :
    tree.AcceptsAll (first ++ second) ↔
      tree.AcceptsAll first ∧
        (tree.enterAll first).AcceptsAll second := by
  induction first generalizing tree with
  | nil =>
      simp [AcceptsAll]
  | cons entry first ih =>
      simp [AcceptsAll, ih, and_assoc]

------------------------------------------------------------
-- Single Entries
------------------------------------------------------------

variable {tree : CanonicalTree}

/- An identity without reserved names is taken as a whole. -/
theorem eq_of_splitReserved
    {path levels : List IdentityStep}
    (hSplit : splitReserved path = (levels, none)) :
    levels = path ∧
      ∀ name ∈ (path.map Prod.fst).tail,
        isReserved name = false := by
  cases path with
  | nil =>
      cases hSplit
      simp
  | cons root variants =>
      rw [splitReserved, Prod.mk.injEq] at hSplit
      rcases hSplit with ⟨rfl, hNone⟩
      have hVariants :
          ∀ step ∈ variants, isReserved step.1 = false := by
        simpa using hNone
      refine ⟨?_, ?_⟩
      · rw [List.cons.injEq, List.takeWhile_eq_self_iff]
        refine ⟨rfl, ?_⟩
        intro step hStep
        simp [hVariants step hStep]
      · intro name hName
        rcases List.mem_map.mp hName with ⟨step, hStep, rfl⟩
        exact hVariants step hStep

/- A parameter that is not refused is entered as a whole. -/
theorem addParameter_ok
    {p : Parameter}
    (hOk : (tree.addParameter p).2 = .ok ()) :
    (tree.addParameter p).1 =
        { tree with
          parameters :=
            enterLevels p.identityPath tree.parameters } ∧
      ∀ name ∈ (p.identityPath.map Prod.fst).tail,
        isReserved name = false := by
  unfold addParameter at hOk ⊢
  cases hSplit : splitReserved p.identityPath with
  | mk levels reserved =>
      rw [hSplit] at hOk
      cases reserved with
      | some name => cases hOk
      | none =>
          rcases eq_of_splitReserved hSplit with ⟨rfl, hNames⟩
          exact ⟨rfl, hNames⟩

------------------------------------------------------------
-- Lists of Entries
------------------------------------------------------------

/-
  A tree holds entries: its functions, its namespaces and the
  levels of its parameters are those of the entries.
-/
structure Holds
    (tree : CanonicalTree)
    (entries : List Entry) : Prop where
  hasFunction :
    ∀ nameSpace functionName,
      tree.HasFunction nameSpace functionName ↔
        Entry.function nameSpace functionName ∈ entries
  hasNameSpace :
    ∀ nameSpace,
      tree.HasNameSpace nameSpace ↔
        ∃ functionName,
          Entry.function (some nameSpace) functionName ∈
            entries
  reaches :
    ∀ path,
      Reaches path tree.parameters ↔
        path = [] ∨
          ∃ p, Entry.parameter p ∈ entries ∧
            path <+: p.identityPath.map Prod.fst
  orderly : Orderly tree.parameters
  unreserved :
    ∀ p, Entry.parameter p ∈ entries →
      ∀ name ∈ (p.identityPath.map Prod.fst).tail,
        isReserved name = false

/- A tree without entries holds none. -/
theorem holds_empty (documentationBase : Option String) :
    (empty documentationBase).Holds [] where
  hasFunction := by
    intro nameSpace functionName
    cases nameSpace <;> simp [HasFunction, empty]
  hasNameSpace := by
    intro nameSpace
    simp [HasNameSpace, empty]
  reaches := by
    intro path
    simp [empty, reaches_empty_iff]
  orderly := orderly_empty
  unreserved := by simp

/- A parameter that is not refused is held with the others. -/
theorem Holds.addParameter
    {entries : List Entry}
    {p : Parameter}
    (hHolds : tree.Holds entries)
    (hOk : (tree.addParameter p).2 = .ok ()) :
    (tree.addParameter p).1.Holds
      (entries ++ [Entry.parameter p]) := by
  rcases addParameter_ok hOk with ⟨hTree, hNames⟩
  rw [hTree]
  constructor
  · intro nameSpace functionName
    simpa [HasFunction] using
      hHolds.hasFunction nameSpace functionName
  · intro nameSpace
    simpa [HasNameSpace] using hHolds.hasNameSpace nameSpace
  · intro path
    rw [reaches_enterLevels, hHolds.reaches]
    simp [or_and_right, exists_or, or_assoc]
  · exact orderly_enterLevels hHolds.orderly
  · intro other hOther
    rw [List.mem_append, List.mem_singleton] at hOther
    rcases hOther with hOld | hNew
    · exact hHolds.unreserved other hOld
    · cases hNew
      exact hNames

/- A function that is not refused is held with the others. -/
theorem Holds.addFunction
    {entries : List Entry}
    {nameSpace : Option String}
    {functionName : String}
    (hHolds : tree.Holds entries)
    (hOk :
      (tree.addFunction nameSpace functionName).2 = .ok ()) :
    (tree.addFunction nameSpace functionName).1.Holds
      (entries ++
        [Entry.function nameSpace functionName]) := by
  have hEntering :=
    entering_of_addFunction (Prod.ext rfl hOk)
  constructor
  · intro otherSpace otherName
    rw [hEntering.hasFunction_iff, hHolds.hasFunction]
    simp
  · intro otherSpace
    rw [hEntering.hasNameSpace_iff, hHolds.hasNameSpace]
    simp [exists_or, eq_comm]
  · intro path
    rw [hEntering.parameters, hHolds.reaches]
    simp
  · rw [hEntering.parameters]
    exact hHolds.orderly
  · intro p hMem
    apply hHolds.unreserved
    simpa using hMem

/- An entry that is not refused is held with the others. -/
theorem Holds.enter
    {entries : List Entry}
    {entry : Entry}
    (hHolds : tree.Holds entries)
    (hOk : (tree.enter entry).2 = .ok ()) :
    (tree.enter entry).1.Holds (entries ++ [entry]) := by
  cases entry with
  | parameter p => exact hHolds.addParameter hOk
  | function nameSpace functionName =>
      exact hHolds.addFunction hOk

/- Entries that are accepted are held with those before. -/
theorem Holds.enterAll
    {earlier entries : List Entry}
    (hHolds : tree.Holds earlier)
    (hAccepts : tree.AcceptsAll entries) :
    (tree.enterAll entries).Holds (earlier ++ entries) := by
  induction entries generalizing tree earlier with
  | nil =>
      rw [enterAll_nil, List.append_nil]
      exact hHolds
  | cons entry entries ih =>
      have hRest := ih (hHolds.enter hAccepts.1) hAccepts.2
      rw [List.append_assoc] at hRest
      exact hRest

end CanonicalTree

end HostBindings
