import HostBindings.Proofs.Json.Shapes
import HostBindings.Proofs.Json.Walks
import HostBindings.Proofs.Merge.Level

/-
  When a merge fails.

  Two values go together when both are objects or both are
  texts.  A merge fails exactly when there is a place at which
  both sides have values that do not go together, and it
  reports the first of these places in a walk through the
  destination.

  Main declarations:
    * `Merge.Compatible`
    * `Merge.FirstConflict`
    * `Merge.fault?_mergeValues`
    * `Merge.mergeRoots_fails_exactly`
-/

------------------------------------------------------------
-- Conflicts
------------------------------------------------------------

namespace HostBindings

namespace Merge

/- Two values are of one kind. -/
def Both (kind : Json.Kind) (s d : Json) : Prop :=
  s.kind = kind ∧ d.kind = kind

/- Two values go together as objects or as texts. -/
def Compatible (s d : Json) : Prop :=
  Both .object s d ∨ Both .string s d

instance (s d : Json) : Decidable (Compatible s d) := by
  unfold Compatible Both
  infer_instance

/-
  Both sides have a value at a path, and the two do not go
  together.  Above the path both sides have objects, since
  nothing else has anything below it.
-/
structure ConflictAt
    (source destination : Json)
    (path : List String)
    (s d : Json) : Prop where
  inSource : source.at? path = some s
  inDestination : destination.at? path = some d
  apart : ¬ Compatible s d

/-
  The first conflict that a walk through the destination
  comes to.
-/
structure FirstConflict
    (source destination : Json)
    (path : List String)
    (s d : Json) : Prop extends
    ConflictAt source destination path s d where
  first :
    ∃ before after,
      destination.walk = before ++ path :: after ∧
        ∀ earlier ∈ before, ∀ s d,
          ¬ ConflictAt source destination earlier s d

/-
  The fault of merging whole trees: one at the root if these
  are not both objects, and else that of the first conflict.
-/
inductive FailsWith (source destination : Json) : Fault → Prop
| atRoot
    (hOthers : ¬ Both .object source destination) :
    FailsWith source destination
      (.schemaMismatch "<root>" source.kind destination.kind)
| inside
    (hObjects : Both .object source destination)
    {path : List String}
    {s d : Json}
    (hFirst : FirstConflict source destination path s d) :
    FailsWith source destination
      (.schemaMismatch (dotted path) s.kind d.kind)

/- The fault of an outcome. -/
def Outcome.fault?
    {α : Type}
    (outcome : Outcome α) : Option Fault :=
  match outcome.result with
  | .ok _ => none
  | .error fault => some fault

/- The fault that a conflict at a path leads to, if any. -/
def faultAt?
    (outer : List String)
    (source destination : Json)
    (path : List String) : Option Fault :=
  match source.at? path, destination.at? path with
  | some s, some d =>
      if Compatible s d then none
      else some (conflict (dotted (outer ++ path)) s d)
  | _, _ => none

variable {addMissing : Bool}
variable {outer : List String}
variable {source destination : Json}

/- A fault comes from a conflict. -/
theorem faultAt?_eq_some_iff
    {path : List String}
    {fault : Fault} :
    faultAt? outer source destination path = some fault ↔
      ∃ s d, ConflictAt source destination path s d ∧
        fault = conflict (dotted (outer ++ path)) s d := by
  unfold faultAt?
  cases hSource : source.at? path with
  | none =>
      simp only [reduceCtorEq, false_iff, not_exists, not_and]
      intro s d hConflict
      exact absurd hConflict.inSource (by simp [hSource])
  | some s =>
      cases hDestination : destination.at? path with
      | none =>
          simp only [reduceCtorEq, false_iff, not_exists,
            not_and]
          intro s d hConflict
          exact
            absurd hConflict.inDestination
              (by simp [hDestination])
      | some d =>
          constructor
          · intro hFault
            by_cases hTogether : Compatible s d
            · simp [hTogether] at hFault
            · simp only [hTogether, if_false,
                Option.some.injEq] at hFault
              exact
                ⟨s, d, ⟨hSource, hDestination, hTogether⟩,
                  hFault.symm⟩
          · rintro ⟨s', d', hConflict, rfl⟩
            cases hSource.symm.trans hConflict.inSource
            cases
              hDestination.symm.trans hConflict.inDestination
            simp [hConflict.apart]

/- Without a conflict there is no fault. -/
theorem faultAt?_eq_none_iff
    {path : List String} :
    faultAt? outer source destination path = none ↔
      ∀ s d, ¬ ConflictAt source destination path s d := by
  rw [Option.eq_none_iff_forall_ne_some]
  constructor
  · intro hNone s d hConflict
    exact
      hNone _ (faultAt?_eq_some_iff.mpr ⟨s, d, hConflict, rfl⟩)
  · intro hNever fault hFault
    rcases faultAt?_eq_some_iff.mp hFault with
      ⟨s, d, hConflict, _⟩
    exact hNever s d hConflict

------------------------------------------------------------
-- Faults of Single Steps
------------------------------------------------------------

/- The fault of a kept member comes before later ones. -/
theorem fault?_keepMember
    (key : String)
    (value : Outcome Json)
    (rest : Outcome (List (String × Json))) :
    (keepMember key value rest).fault? =
      value.fault?.or rest.fault? := by
  unfold keepMember Outcome.fault?
  cases value.result with
  | error fault => rfl
  | ok v => cases rest.result <;> rfl

/- Adding members does not fail. -/
theorem fault?_appendMissing
    (path : List String)
    (source destination : List (String × Json))
    (kept : Outcome (List (String × Json))) :
    (appendMissing addMissing path source destination
        kept).fault? = kept.fault? := by
  unfold appendMissing Outcome.fault?
  cases kept.result with
  | error fault => rfl
  | ok members => cases addMissing <;> rfl

/- Below a key, the values of the key decide. -/
theorem faultAt?_cons
    {members others : List (String × Json)}
    {key : String}
    {d : Json}
    (hFound : Keyed.find? key others = some d)
    (path : List String) :
    faultAt? outer (.object members) (.object others)
        (key :: path) =
      (Keyed.find? key members).bind fun s =>
        faultAt? (outer ++ [key]) s d path := by
  unfold faultAt?
  rw [Json.at?_cons, Json.at?_cons, Json.member?_object,
    Json.member?_object, hFound]
  cases Keyed.find? key members with
  | none => rfl
  | some s => simp

/- The faults below a key, in the order of a walk. -/
theorem findSome?_below
    {members others : List (String × Json)}
    {key : String}
    {d : Json}
    (hFound : Keyed.find? key others = some d)
    (paths : List (List String)) :
    (paths.map (key :: ·)).findSome?
        (faultAt? outer (.object members) (.object others)) =
      (Keyed.find? key members).bind fun s =>
        paths.findSome? (faultAt? (outer ++ [key]) s d) := by
  rw [List.findSome?_map]
  have hBelow :
      faultAt? outer (.object members) (.object others) ∘
          (key :: ·) =
        fun path => (Keyed.find? key members).bind fun s =>
          faultAt? (outer ++ [key]) s d path :=
    funext (faultAt?_cons hFound)
  rw [hBelow]
  cases Keyed.find? key members with
  | none => simp
  | some s => rfl

------------------------------------------------------------
-- Faults of Merges
------------------------------------------------------------

/-
  Members fail as their values do, in their order.  Values
  that only one side has do not.
-/
theorem fault?_mergeMembers
    {members others rest : List (String × Json)}
    (hRest :
      ∀ entry ∈ rest,
        Keyed.find? entry.1 others = some entry.2 ∧
          ∀ outer s,
            (mergeValues addMissing outer s entry.2).fault? =
              entry.2.walk.findSome?
                (faultAt? outer s entry.2)) :
    (mergeMembers addMissing outer members rest).fault? =
      (Json.walkMembers rest).findSome?
        (faultAt? outer (.object members)
          (.object others)) := by
  induction rest with
  | nil =>
      rw [mergeMembers]
      rfl
  | cons entry rest ih =>
      rcases entry with ⟨key, d⟩
      rw [List.forall_mem_cons] at hRest
      rcases hRest with ⟨⟨hFound, hValue⟩, hMore⟩
      rw [mergeMembers, Json.walkMembers,
        List.findSome?_append, findSome?_below hFound,
        ← ih hMore]
      cases Keyed.find? key members with
      | some s =>
          simp only [fault?_keepMember, hValue,
            Option.bind_some]
      | none =>
          by_cases hRoot : outer = []
          · simp only [if_pos hRoot, fault?_keepMember]
            rfl
          · simp only [if_neg hRoot]
            rfl

/-
  The fault of a merge is that of the first conflict in a
  walk through the destination.
-/
theorem fault?_mergeValues
    (hKeyed : destination.WellKeyed) :
    (mergeValues addMissing outer source destination).fault? =
      destination.walk.findSome?
        (faultAt? outer source destination) := by
  induction destination using Json.inductionOn
    generalizing outer source with
  | scalar d hScalar =>
      cases d with
      | array items => cases hScalar
      | object others => cases hScalar
      | string text =>
          cases source <;>
            simp [mergeValues, Json.walk, faultAt?,
              Outcome.fault?, Compatible, Both, Json.kind]
      | _ =>
          simp [mergeValues, Json.walk, faultAt?,
            Outcome.fault?, Compatible, Both, Json.kind]
  | array items ih =>
      simp [mergeValues, Json.walk, faultAt?, Outcome.fault?,
        Compatible, Both, Json.kind]
  | object others ih =>
      rw [Json.wellKeyed_object_iff] at hKeyed
      rw [Json.walk, List.findSome?_cons]
      cases source with
      | object members =>
          have hHere :
              faultAt? outer (.object members)
                (.object others) [] = none := by
            simp [faultAt?, Compatible, Both, Json.kind]
          rw [mergeValues, fault?_appendMissing, hHere]
          apply fault?_mergeMembers
          intro entry hEntry
          refine ⟨Keyed.find?_of_mem hKeyed.1 hEntry, ?_⟩
          intro outer s
          exact ih entry hEntry (hKeyed.2 entry hEntry)
      | _ =>
          simp [mergeValues, faultAt?, Outcome.fault?,
            Compatible, Both, Json.kind]

/- A first conflict is one that nothing comes before. -/
theorem findSome?_walk_eq_some_iff
    {fault : Fault} :
    destination.walk.findSome?
          (faultAt? outer source destination) =
        some fault ↔
      ∃ path s d, FirstConflict source destination path s d ∧
        fault = conflict (dotted (outer ++ path)) s d := by
  rw [List.findSome?_eq_some_iff]
  simp only [faultAt?_eq_some_iff, faultAt?_eq_none_iff]
  constructor
  · rintro
      ⟨before, path, after, hWalk, ⟨s, d, hConflict, hFault⟩,
        hBefore⟩
    exact
      ⟨path, s, d, ⟨hConflict, before, after, hWalk, hBefore⟩,
        hFault⟩
  · rintro ⟨path, s, d, hFirst, hFault⟩
    rcases hFirst.first with ⟨before, after, hWalk, hBefore⟩
    exact
      ⟨before, path, after, hWalk,
        ⟨s, d, hFirst.toConflictAt, hFault⟩, hBefore⟩

/- If there is a conflict, then there is a first one. -/
theorem exists_firstConflict
    {path : List String}
    {s d : Json}
    (hConflict : ConflictAt source destination path s d) :
    ∃ path s d,
      FirstConflict source destination path s d := by
  have hWalk : path ∈ destination.walk :=
    Json.mem_walk_of_at? hConflict.inDestination
  cases hFirst :
      destination.walk.findSome?
        (faultAt? [] source destination) with
  | none =>
      have hNever :=
        faultAt?_eq_none_iff.mp
          (List.findSome?_eq_none_iff.mp hFirst path hWalk)
      exact absurd hConflict (hNever s d)
  | some fault =>
      rcases findSome?_walk_eq_some_iff.mp hFirst with
        ⟨path, s, d, hFirst, _⟩
      exact ⟨path, s, d, hFirst⟩

/- An outcome has a fault when its result is one. -/
theorem Outcome.fault?_eq_some_iff
    {α : Type}
    {outcome : Outcome α}
    {fault : Fault} :
    outcome.fault? = some fault ↔
      outcome.result = .error fault := by
  unfold Outcome.fault?
  cases outcome.result <;> simp

------------------------------------------------------------
-- Whole Trees
------------------------------------------------------------

/- Two objects are merged as values. -/
theorem mergeRoots_of_objects
    (hObjects : Both .object source destination) :
    mergeRoots addMissing source destination =
      mergeValues addMissing [] source destination := by
  unfold mergeRoots
  split
  · rfl
  · rename_i hOther
    cases source with
    | object members =>
        cases destination with
        | object others =>
            exact absurd rfl (hOther members others rfl)
        | _ => cases hObjects.2
    | _ => cases hObjects.1

/- Anything else is refused at the root. -/
theorem mergeRoots_of_others
    (hOthers : ¬ Both .object source destination) :
    mergeRoots addMissing source destination =
      ⟨[], .error (conflict "<root>" source destination)⟩ := by
  unfold mergeRoots
  split
  · exact absurd ⟨rfl, rfl⟩ hOthers
  · rfl

/- The fault of merging whole trees. -/
theorem mergeRoots_error_iff
    (hKeyed : destination.WellKeyed)
    {fault : Fault} :
    (mergeRoots addMissing source destination).result =
        .error fault ↔
      FailsWith source destination fault := by
  by_cases hObjects : Both .object source destination
  · rw [mergeRoots_of_objects hObjects,
      ← Outcome.fault?_eq_some_iff,
      fault?_mergeValues hKeyed, findSome?_walk_eq_some_iff]
    constructor
    · rintro ⟨path, s, d, hFirst, rfl⟩
      exact .inside hObjects hFirst
    · rintro (hOthers | @⟨_, path, s, d, hFirst⟩)
      · exact absurd hObjects hOthers
      · exact ⟨path, s, d, hFirst, rfl⟩
  · rw [mergeRoots_of_others hObjects]
    constructor
    · rintro ⟨⟩
      exact .atRoot hObjects
    · rintro (_ | hBoth)
      · rfl
      · exact absurd hBoth hObjects

/-
  Merging whole trees fails exactly when they are not both
  objects or when there is a path at which both sides have
  values that are neither both objects nor both texts, with
  objects above it on both sides.  The fault names the root
  in the first case, and else the first such path in a walk
  through the destination, with the kinds of the two values.
  What only one side has never matters.
-/
theorem mergeRoots_fails_exactly
    (hKeyed : destination.WellKeyed) :
    ((∃ fault,
        (mergeRoots addMissing source destination).result =
          .error fault) ↔
      ¬ Both .object source destination ∨
        ∃ path s d,
          ConflictAt source destination path s d) ∧
    (∀ fault,
      (mergeRoots addMissing source destination).result =
          .error fault ↔
        FailsWith source destination fault) := by
  refine ⟨?_, fun fault => mergeRoots_error_iff hKeyed⟩
  simp only [mergeRoots_error_iff hKeyed]
  constructor
  · rintro ⟨fault, hOthers | @⟨_, path, s, d, hFirst⟩⟩
    · exact .inl hOthers
    · exact .inr ⟨path, s, d, hFirst.toConflictAt⟩
  · intro hEither
    by_cases hObjects : Both .object source destination
    · rcases hEither with hOthers | ⟨path, s, d, hConflict⟩
      · exact absurd hObjects hOthers
      · rcases exists_firstConflict hConflict with
          ⟨path, s, d, hFirst⟩
        exact ⟨_, .inside hObjects hFirst⟩
    · exact ⟨_, .atRoot hObjects⟩

/-
  Of two conflicts the one that the destination has first is
  reported, and a list that the source lacks is no conflict.
-/
theorem mergeRoots_fails_exactly_twice :
    let source : Json :=
      .object
        [("Parameters", .object [("s", .string "todo")]),
          ("Functions", .object
            [("check", .object [("name", .string "todo")])])]
    let destination : Json :=
      .object
        [("Errors", .array []),
          ("Functions", .object
            [("old", .null),
              ("check", .object [("name", .object [])])]),
          ("Parameters", .object [("s", .bool true)])]
    destination.WellKeyed ∧
      ConflictAt source destination ["Parameters", "s"]
        (.string "todo") (.bool true) ∧
      FailsWith source destination
        (.schemaMismatch "Functions.check.name" .string
          .object) := by
  intro source destination
  have hKeyed : destination.WellKeyed := by
    simp [destination, Keyed.Distinct, Keyed.keys,
      Json.WellKeyed, Json.WellKeyedItems,
      Json.WellKeyedMembers]
  have hFault :
      (mergeRoots true source destination).result =
        .error
          (.schemaMismatch "Functions.check.name" .string
            .object) := by
    rfl
  refine ⟨hKeyed, ⟨rfl, rfl, by decide⟩, ?_⟩
  exact ((mergeRoots_fails_exactly hKeyed).2 _).mp hFault

end Merge

end HostBindings
