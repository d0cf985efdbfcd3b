import HostBindings.Proofs.Keyed.Lookup
import HostBindings.Registration.Lineage

/-
  How the climb from a class ends.

  The climb goes along the declared bases through classes that
  it has not seen before, of which there are only so many.  So
  it comes to an end, in exactly one of four ways: the class
  is unknown, or the base of a class on the way is, or a class
  is met again, or there is a class without a base.

  Main declarations:
    * `ClassGraph.IsWalk`
    * `ClassGraph.ClimbsTo`
    * `ClassGraph.Ending`
    * `ClassGraph.climb_of_climbsTo`
    * `ClassGraph.exists_ending`
    * `ClassGraph.climb_of_ending`
    * `ClassGraph.lineage_eq_iff`
-/

------------------------------------------------------------
-- Walks
------------------------------------------------------------

namespace HostBindings

namespace ClassGraph

/- Classes of which each is followed by its declared base. -/
def IsWalk
    (graph : ClassGraph)
    (classes : List String) : Prop :=
  classes.IsChain fun derived base =>
    Keyed.find? derived graph = some (some base)

/-
  Declared bases lead from a class through distinct classes
  to a last one, which may be one of these.
-/
structure ClimbsTo
    (graph : ClassGraph)
    (start : String)
    (walk : List String)
    (last : String) : Prop where
  isWalk : IsWalk graph (walk ++ [last])
  starts : (walk ++ [last]).head? = some start
  distinct : walk.Nodup

/- The ways in which the climb from a class can end. -/
inductive Ending
    (graph : ClassGraph)
    (start : String) : Except Fault (List String) → Prop
| unknownClass
    (hUnknown : Keyed.find? start graph = none) :
    Ending graph start (.error (.unknownClass start))
| unknownBase
    {walk : List String}
    {derived base : String}
    (hClimbs : ClimbsTo graph start (walk ++ [derived]) base)
    (hUnknown : Keyed.find? base graph = none) :
    Ending graph start
      (.error (.unknownBaseClass derived base))
| cycle
    {walk : List String}
    {again : String}
    (hClimbs : ClimbsTo graph start walk again)
    (hAgain : again ∈ walk) :
    Ending graph start (.error (.hierarchyCycle start))
| resolved
    {walk : List String}
    {last : String}
    (hClimbs : ClimbsTo graph start walk last)
    (hLast : Keyed.find? last graph = some none)
    (hDistinct : (walk ++ [last]).Nodup) :
    Ending graph start (.ok (walk ++ [last]))

variable {graph : ClassGraph}
variable {start first last base : String}
variable {walk visited rest : List String}
variable {steps : Nat}

/- A walk that has a next class goes on to its base. -/
theorem isWalk_cons_cons :
    IsWalk graph (first :: base :: rest) ↔
      Keyed.find? first graph = some (some base) ∧
        IsWalk graph (base :: rest) :=
  List.isChain_cons_cons

/- All classes of a walk but the last one are declared. -/
theorem IsWalk.subset_keys
    (hWalk : IsWalk graph (walk ++ [last])) :
    walk ⊆ Keyed.keys graph := by
  induction walk with
  | nil => exact List.nil_subset _
  | cons first walk ih =>
      cases walk with
      | nil =>
          have hBase := (isWalk_cons_cons.mp hWalk).1
          simpa using Keyed.mem_keys_of_find? hBase
      | cons base walk =>
          rcases isWalk_cons_cons.mp hWalk with
            ⟨hBase, hRest⟩
          exact
            List.cons_subset.mpr
              ⟨Keyed.mem_keys_of_find? hBase, ih hRest⟩

/- Nothing has been gone through at the start. -/
theorem climbsTo_start : ClimbsTo graph start [] start :=
  ⟨List.isChain_singleton start, rfl, List.nodup_nil⟩

/- From a new class a climb goes on to its base. -/
theorem ClimbsTo.next
    (hClimbs : ClimbsTo graph start walk last)
    (hNew : last ∉ walk)
    (hBase : Keyed.find? last graph = some (some base)) :
    ClimbsTo graph start (walk ++ [last]) base := by
  refine ⟨?_, ?_, ?_⟩
  · unfold IsWalk
    rw [List.isChain_append]
    refine
      ⟨hClimbs.isWalk, List.isChain_singleton base, ?_⟩
    simpa using hBase
  · rw [List.head?_append, hClimbs.starts]
    rfl
  · rw [← List.concat_eq_append, List.nodup_concat]
    exact ⟨hNew, hClimbs.distinct⟩

/-
  A climb goes through no more classes than there are declared
  ones.
-/
theorem ClimbsTo.length_le
    (hClimbs : ClimbsTo graph start walk last) :
    walk.length ≤ graph.length := by
  have hSubperm :=
    hClimbs.distinct.subperm hClimbs.isWalk.subset_keys
  simpa [Keyed.keys] using hSubperm.length_le

------------------------------------------------------------
-- Steps
------------------------------------------------------------

/- From a new class with a base a climb goes on. -/
theorem climb_of_base
    (hNew : first ∉ visited)
    (hBase : Keyed.find? first graph = some (some base)) :
    climb graph start (steps + 1) visited first =
      climb graph start steps (first :: visited) base := by
  rw [climb.eq_def]
  simp only [if_neg hNew, hBase]

/-
  A climb along a walk takes one step for each class, as long
  as it has not seen any of them before.
-/
theorem climb_of_isWalk
    (hWalk : IsWalk graph (walk ++ [last]))
    (hFirst : (walk ++ [last]).head? = some first)
    (hDistinct : walk.Nodup)
    (hNew : ∀ className ∈ walk, className ∉ visited) :
    climb graph start (steps + walk.length) visited first =
      climb graph start steps (walk.reverse ++ visited)
        last := by
  induction walk generalizing visited first with
  | nil =>
      cases hFirst
      rfl
  | cons className walk ih =>
      cases hFirst
      rcases List.nodup_cons.mp hDistinct with
        ⟨hOther, hRest⟩
      rcases hTail : walk ++ [last] with _ | ⟨base, tail⟩
      · simp at hTail
      · rw [List.cons_append, hTail, isWalk_cons_cons,
          ← hTail] at hWalk
        have hNext : (walk ++ [last]).head? = some base := by
          rw [hTail]
          rfl
        have hUnseen :
            ∀ other ∈ walk, other ∉ className :: visited := by
          intro other hMem hSeen
          rcases List.mem_cons.mp hSeen with rfl | hBefore
          · exact hOther hMem
          · exact
              hNew other (List.mem_cons_of_mem _ hMem) hBefore
        rw [List.length_cons, ← Nat.add_assoc,
          climb_of_base (hNew _ List.mem_cons_self) hWalk.1,
          ih hWalk.2 hNext hRest hUnseen]
        simp

/- So it does from the start. -/
theorem climb_of_climbsTo
    (hClimbs : ClimbsTo graph start walk last) :
    climb graph start (steps + walk.length) [] start =
      climb graph start steps walk.reverse last := by
  rw [climb_of_isWalk hClimbs.isWalk hClimbs.starts
    hClimbs.distinct (fun _ _ => List.not_mem_nil),
    List.append_nil]

------------------------------------------------------------
-- Endings
------------------------------------------------------------

/-
  Every climb comes to an end.  As long as it has not, it goes
  on from a class that it has not seen before, so that fewer
  and fewer of the declared classes are left.
-/
theorem ClimbsTo.exists_ending
    {walk : List String}
    {last : String}
    (hClimbs : ClimbsTo graph start walk last) :
    ∃ result, Ending graph start result := by
  by_cases hAgain : last ∈ walk
  · exact ⟨_, .cycle hClimbs hAgain⟩
  · rcases hLast : Keyed.find? last graph with
      _ | (_ | base)
    · rcases List.eq_nil_or_concat walk with
        rfl | ⟨before, derived, rfl⟩
      · cases hClimbs.starts
        exact ⟨_, .unknownClass hLast⟩
      · rw [List.concat_eq_append] at hClimbs
        exact ⟨_, .unknownBase hClimbs hLast⟩
    · refine ⟨_, .resolved hClimbs hLast ?_⟩
      rw [← List.concat_eq_append, List.nodup_concat]
      exact ⟨hAgain, hClimbs.distinct⟩
    · exact (hClimbs.next hAgain hLast).exists_ending
termination_by graph.length - walk.length
decreasing_by
  have hLength := (hClimbs.next hAgain hLast).length_le
  rw [List.length_append, List.length_singleton] at hLength ⊢
  omega

/-
  With more steps than there are declared classes, a climb
  has the result of its ending.
-/
theorem climb_of_ending
    {result : Except Fault (List String)}
    (hEnding : Ending graph start result)
    (hSteps : graph.length < steps) :
    climb graph start steps [] start = result := by
  have hEnough
      {walk : List String}
      {last : String}
      (hClimbs : ClimbsTo graph start walk last) :
      ∃ left,
        climb graph start steps [] start =
          climb graph start (left + 1) walk.reverse last := by
    have hLength := hClimbs.length_le
    refine ⟨steps - walk.length - 1, ?_⟩
    rw [← climb_of_climbsTo hClimbs]
    congr 1
    omega
  cases hEnding with
  | unknownClass hUnknown =>
      rcases hEnough climbsTo_start with ⟨left, hClimb⟩
      rw [hClimb, climb.eq_def]
      simp [hUnknown]
  | @unknownBase walk derived base hClimbs hUnknown =>
      have hNew : base ∉ walk ++ [derived] := by
        intro hMem
        have hKey := hClimbs.isWalk.subset_keys hMem
        exact Keyed.find?_eq_none_iff.mp hUnknown hKey
      rcases hEnough hClimbs with ⟨left, hClimb⟩
      rw [hClimb, climb.eq_def]
      simp only [List.mem_reverse, if_neg hNew, hUnknown]
      simp
  | cycle hClimbs hAgain =>
      rcases hEnough hClimbs with ⟨left, hClimb⟩
      rw [hClimb, climb.eq_def]
      simp [hAgain]
  | @resolved walk last hClimbs hLast hDistinct =>
      have hNew : last ∉ walk := by
        rw [← List.concat_eq_append, List.nodup_concat]
          at hDistinct
        exact hDistinct.1
      rcases hEnough hClimbs with ⟨left, hClimb⟩
      rw [hClimb, climb.eq_def]
      simp [hNew, hLast]

/- The lineage of a class is the ending of its climb. -/
theorem lineage_eq_iff
    {className : String}
    {result : Except Fault (List String)} :
    graph.lineage className = result ↔
      Ending graph className result := by
  have hResult
      {other : Except Fault (List String)}
      (hEnding : Ending graph className other) :
      graph.lineage className = other :=
    climb_of_ending hEnding (Nat.lt_succ_self _)
  constructor
  · rintro rfl
    rcases climbsTo_start.exists_ending with
      ⟨other, hEnding⟩
    rw [hResult hEnding]
    exact hEnding
  · exact hResult

/- A cycle need not lead back to the class itself. -/
example :
    lineage
      [("Leaf", some "Middle"), ("Middle", some "Base"),
        ("Base", some "Middle")]
      "Leaf" =
      .error (.hierarchyCycle "Leaf") := by
  decide

end ClassGraph

end HostBindings
