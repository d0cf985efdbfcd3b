import HostBindings.Locale.Merge
import HostBindings.Proofs.Json.Shapes

/-
  What a merge does on one level of two trees.

  A merge that goes well fixes every member of the result by
  the members of the same key on both sides.  Everything
  about deeper levels is then derived by going down one key
  at a time.

  Main declarations:
    * `Merge.survives`
    * `Merge.mergeValues_ok_iff`
    * `Merge.inductionOnOk`
    * `Merge.MergedMembers`
    * `Merge.mergedMembers_of_ok`
    * `Merge.mergedMembers_of_objects`
-/

------------------------------------------------------------
-- Successful Merges
------------------------------------------------------------

namespace HostBindings

namespace Merge

variable {addMissing : Bool}
variable {path : List String}

/-
  A key of the destination stays when it is at the root or
  when the source has it too.
-/
def survives
    (path : List String)
    (source : List (String × Json))
    (key : String) : Bool :=
  decide (path = []) || Keyed.has key source

/- Below the root the source decides what stays. -/
theorem survives_iff_of_ne_root
    {source : List (String × Json)}
    {key : String}
    (hPath : path ≠ []) :
    survives path source key = true ↔
      key ∈ Keyed.keys source := by
  simp [survives, hPath, ← Keyed.has_iff_mem_keys]

/- The members that are kept when something follows them. -/
theorem keepMember_ok_iff
    {key : String}
    {value : Outcome Json}
    {rest : Outcome (List (String × Json))}
    {kept : List (String × Json)} :
    (keepMember key value rest).result = .ok kept ↔
      ∃ v more, value.result = .ok v ∧
        rest.result = .ok more ∧ kept = (key, v) :: more := by
  unfold keepMember
  cases hValue : value.result with
  | error fault =>
      simp
  | ok v =>
      cases hRest : rest.result with
      | error fault =>
          simp [Except.map]
      | ok more =>
          simp [Except.map, eq_comm]

/-
  The first member of a destination is merged, kept as it is,
  or dropped.
-/
theorem mergeMembers_cons_ok
    {source rest kept : List (String × Json)}
    {key : String}
    {destination : Json}
    (hOk :
      (mergeMembers addMissing path source
        ((key, destination) :: rest)).result = .ok kept) :
    ∃ more,
      (mergeMembers addMissing path source rest).result =
        .ok more ∧
      ((∃ value v,
          Keyed.find? key source = some value ∧
          (mergeValues addMissing (path ++ [key]) value
            destination).result = .ok v ∧
          kept = (key, v) :: more) ∨
        (Keyed.find? key source = none ∧ path = [] ∧
          kept = (key, destination) :: more) ∨
        (Keyed.find? key source = none ∧ path ≠ [] ∧
          kept = more)) := by
  rw [mergeMembers] at hOk
  cases hSource : Keyed.find? key source with
  | some value =>
      simp only [hSource] at hOk
      rcases keepMember_ok_iff.mp hOk with
        ⟨v, more, hValue, hMore, hKept⟩
      exact ⟨more, hMore, .inl ⟨value, v, rfl, hValue, hKept⟩⟩
  | none =>
      simp only [hSource] at hOk
      by_cases hPath : path = []
      · rw [if_pos hPath] at hOk
        rcases keepMember_ok_iff.mp hOk with
          ⟨v, more, hValue, hMore, hKept⟩
        have hSame : destination = v := by
          simpa using hValue
        subst hSame
        exact
          ⟨more, hMore, .inr (.inl ⟨rfl, hPath, hKept⟩)⟩
      · rw [if_neg hPath] at hOk
        exact ⟨kept, hOk, .inr (.inr ⟨rfl, hPath, rfl⟩)⟩

/- The members added behind those that are kept. -/
theorem appendMissing_ok_iff
    {source destination : List (String × Json)}
    {kept : Outcome (List (String × Json))}
    {merged : Json} :
    (appendMissing addMissing path source destination
        kept).result = .ok merged ↔
      ∃ members, kept.result = .ok members ∧
        merged = .object (members ++
          if addMissing then
            missingMembers source destination
          else []) := by
  unfold appendMissing
  cases hKept : kept.result with
  | error fault =>
      simp
  | ok members =>
      cases addMissing <;> simp [eq_comm]

/- Two values merge when both are objects or both texts. -/
theorem mergeValues_ok_iff
    {source destination merged : Json} :
    (mergeValues addMissing path source
        destination).result = .ok merged ↔
      (∃ text kept, source = .string text ∧
        destination = .string kept ∧
        merged = .string kept) ∨
      (∃ members others kept, source = .object members ∧
        destination = .object others ∧
        (mergeMembers addMissing path members
          others).result = .ok kept ∧
        merged = .object (kept ++
          if addMissing then
            missingMembers members others
          else [])) := by
  cases destination with
  | object others =>
      cases source with
      | object members =>
          rw [mergeValues]
          simp [appendMissing_ok_iff]
      | _ => simp [mergeValues]
  | string text =>
      cases source <;> simp [mergeValues, eq_comm]
  | _ => simp [mergeValues]

/- Merging whole trees is merging objects at the root. -/
theorem mergeRoots_ok_iff
    {source destination merged : Json} :
    (mergeRoots addMissing source
        destination).result = .ok merged ↔
      (∃ members, source = .object members) ∧
        (mergeValues addMissing [] source
          destination).result = .ok merged := by
  cases source with
  | object members =>
      cases destination <;>
        simp [mergeRoots, mergeValues]
  | _ => simp [mergeRoots]

/- The values of members that both sides have are merged. -/
theorem exists_merged_of_mem
    {source destination kept : List (String × Json)}
    {entry : String × Json}
    {s : Json}
    (hOk :
      (mergeMembers addMissing path source
        destination).result = .ok kept)
    (hEntry : entry ∈ destination)
    (hSource : Keyed.find? entry.1 source = some s) :
    ∃ v, (mergeValues addMissing (path ++ [entry.1]) s
      entry.2).result = .ok v := by
  induction destination generalizing kept with
  | nil => cases hEntry
  | cons first rest ih =>
      rcases mergeMembers_cons_ok hOk with ⟨more, hMore, hKept⟩
      rcases List.mem_cons.mp hEntry with rfl | hRest
      · rcases hKept with
          ⟨s', v, hFound, hValue, _⟩ | ⟨hFound, _⟩ |
          ⟨hFound, _⟩
        · cases hSource.symm.trans hFound
          exact ⟨v, hValue⟩
        · cases hSource.symm.trans hFound
        · cases hSource.symm.trans hFound
      · exact ih hMore hRest

/-
  To prove something of all merges that go well, prove it of
  two texts, and of two objects if it holds of the members
  that both have.
-/
theorem inductionOnOk
    {motive : List String → Json → Json → Json → Prop}
    {source destination merged : Json}
    (hOk :
      (mergeValues addMissing path source
        destination).result = .ok merged)
    (texts :
      ∀ path original translated,
        motive path (.string original) (.string translated)
          (.string translated))
    (objects :
      ∀ path members others kept,
        (mergeMembers addMissing path members
            others).result = .ok kept →
          (∀ entry ∈ others, ∀ s,
            Keyed.find? entry.1 members = some s →
              ∃ v,
                (mergeValues addMissing (path ++ [entry.1]) s
                    entry.2).result = .ok v ∧
                  motive (path ++ [entry.1]) s entry.2 v) →
            motive path (.object members) (.object others)
              (.object (kept ++
                if addMissing then
                  missingMembers members others
                else []))) :
    motive path source destination merged := by
  induction destination using Json.inductionOn
    generalizing path source merged with
  | scalar d hScalar =>
      rcases mergeValues_ok_iff.mp hOk with
        ⟨text, kept, rfl, rfl, rfl⟩ | ⟨_, _, _, _, rfl, _⟩
      · exact texts path text kept
      · cases hScalar
  | array items ih =>
      rcases mergeValues_ok_iff.mp hOk with
        ⟨_, _, _, hArray, _⟩ | ⟨_, _, _, _, hArray, _⟩ <;>
        cases hArray
  | object others ih =>
      rcases mergeValues_ok_iff.mp hOk with
        ⟨_, _, _, hObject, _⟩ |
        ⟨members, _, kept, rfl, hObject, hKept, rfl⟩
      · cases hObject
      cases hObject
      apply objects path members others kept hKept
      intro entry hEntry s hSource
      rcases exists_merged_of_mem hKept hEntry hSource with
        ⟨v, hValue⟩
      exact ⟨v, hValue, ih entry hEntry hValue⟩

------------------------------------------------------------
-- Members of the Result
------------------------------------------------------------

/-
  The members of a result, key by key: what both sides have
  is merged, what only the destination has stays at the root
  alone, and what only the source has is added on request.
-/
structure MergedMembers
    (addMissing : Bool)
    (path : List String)
    (source destination merged : List (String × Json)) :
    Prop where
  keys :
    Keyed.keys merged =
      (Keyed.keys destination).filter
          (survives path source) ++
        if addMissing then
          (Keyed.keys source).filter
            fun key => !Keyed.has key destination
        else []
  shared :
    ∀ {key s d},
      Keyed.find? key source = some s →
        Keyed.find? key destination = some d →
          ∃ v, Keyed.find? key merged = some v ∧
            (mergeValues addMissing (path ++ [key]) s
              d).result = .ok v
  destinationOnly :
    ∀ {key d},
      Keyed.find? key source = none →
        Keyed.find? key destination = some d →
          Keyed.find? key merged =
            if path = [] then some d else none
  sourceOnly :
    ∀ {key},
      Keyed.find? key destination = none →
        Keyed.find? key merged =
          if addMissing then Keyed.find? key source else none

/- The keys that are kept, in the order of the destination. -/
theorem keys_of_mergeMembers
    {source destination kept : List (String × Json)}
    (hOk :
      (mergeMembers addMissing path source
        destination).result = .ok kept) :
    Keyed.keys kept =
      (Keyed.keys destination).filter
        (survives path source) := by
  induction destination generalizing kept with
  | nil =>
      rw [mergeMembers] at hOk
      cases hOk
      rfl
  | cons entry rest ih =>
      rcases mergeMembers_cons_ok hOk with
        ⟨more, hMore, hKept⟩
      rw [Keyed.keys_cons, List.filter_cons, ← ih hMore]
      rcases hKept with
        ⟨value, v, hSource, hValue, rfl⟩ |
        ⟨hSource, hPath, rfl⟩ | ⟨hSource, hPath, rfl⟩
      · simp [survives, Keyed.has, hSource]
      · simp [survives, hPath]
      · simp [survives, Keyed.has, hSource, hPath]

/- What becomes of the member with a given key. -/
theorem find?_of_mergeMembers
    {source destination kept : List (String × Json)}
    {key : String}
    {d : Json}
    (hOk :
      (mergeMembers addMissing path source
        destination).result = .ok kept)
    (hFound : Keyed.find? key destination = some d) :
    (∃ s v, Keyed.find? key source = some s ∧
        (mergeValues addMissing (path ++ [key]) s
          d).result = .ok v ∧
        Keyed.find? key kept = some v) ∨
      (Keyed.find? key source = none ∧
        Keyed.find? key kept =
          if path = [] then some d else none) := by
  induction destination generalizing kept with
  | nil =>
      simp at hFound
  | cons entry rest ih =>
      rcases mergeMembers_cons_ok hOk with
        ⟨more, hMore, hKept⟩
      by_cases hKey : entry.1 = key
      · -- the first member with the key is the one found
        have hValue : entry.2 = d := by
          simpa [Keyed.find?, hKey] using hFound
        subst hKey hValue
        rcases hKept with
          ⟨value, v, hSource, hValue, rfl⟩ |
          ⟨hSource, hPath, rfl⟩ | ⟨hSource, hPath, rfl⟩
        · exact
            .inl ⟨value, v, hSource, hValue,
              by simp [Keyed.find?]⟩
        · exact
            .inr ⟨hSource, by simp [Keyed.find?, hPath]⟩
        · refine .inr ⟨hSource, ?_⟩
          rw [if_neg hPath, Keyed.find?_eq_none_iff,
            keys_of_mergeMembers hMore]
          simp [survives, Keyed.has, hSource, hPath]
      · have hRest : Keyed.find? key rest = some d := by
          simpa [Keyed.find?, hKey] using hFound
        have hMoreKept :
            Keyed.find? key kept = Keyed.find? key more := by
          rcases hKept with
            ⟨value, v, hSource, hValue, rfl⟩ |
            ⟨hSource, hPath, rfl⟩ | ⟨hSource, hPath, rfl⟩
          · simp [Keyed.find?, hKey]
          · simp [Keyed.find?, hKey]
          · rfl
        rw [hMoreKept]
        exact ih hMore hRest

/- Lookup among the members that only the source has. -/
theorem find?_missingMembers
    (key : String)
    (source destination : List (String × Json)) :
    Keyed.find? key (missingMembers source destination) =
      if Keyed.has key destination then none
      else Keyed.find? key source := by
  unfold missingMembers
  rw [Keyed.find?_filter key
    fun key => !Keyed.has key destination]
  cases Keyed.has key destination <;> simp

/- A merge that goes well merges member by member. -/
theorem mergedMembers_of_ok
    {source destination kept : List (String × Json)}
    (hOk :
      (mergeMembers addMissing path source
        destination).result = .ok kept) :
    MergedMembers addMissing path source destination
      (kept ++
        if addMissing then
          missingMembers source destination
        else []) := by
  have hKeys := keys_of_mergeMembers hOk
  constructor
  · rw [Keyed.keys_append, hKeys]
    cases addMissing with
    | false =>
        rfl
    | true =>
        simp only [if_true, missingMembers]
        rw [Keyed.keys_filter
          fun key => !Keyed.has key destination]
  · intro key s d hSource hDestination
    rcases find?_of_mergeMembers hOk hDestination with
      ⟨s', v, hSource', hValue, hKept⟩ | ⟨hSource', hKept⟩
    · rw [hSource] at hSource'
      cases hSource'
      refine ⟨v, ?_, hValue⟩
      rw [Keyed.find?_append, hKept]
      rfl
    · rw [hSource] at hSource'
      cases hSource'
  · intro key d hSource hDestination
    rcases find?_of_mergeMembers hOk hDestination with
      ⟨s', v, hSource', hValue, hKept⟩ | ⟨hSource', hKept⟩
    · rw [hSource] at hSource'
      cases hSource'
    · have hHas : Keyed.has key destination = true := by
        simp [Keyed.has, hDestination]
      rw [Keyed.find?_append, hKept]
      by_cases hPath : path = []
      · simp [hPath]
      · cases addMissing <;>
          simp [hPath, find?_missingMembers, hHas]
  · intro key hDestination
    have hHas : Keyed.has key destination = false := by
      simp [Keyed.has, hDestination]
    have hKept : Keyed.find? key kept = none := by
      rw [Keyed.find?_eq_none_iff] at hDestination ⊢
      rw [hKeys]
      intro hMem
      exact hDestination (List.mem_filter.mp hMem).1
    rw [Keyed.find?_append, hKept]
    cases addMissing <;> simp [find?_missingMembers, hHas]

/- The level on which two objects have been merged. -/
theorem mergedMembers_of_objects
    {source destination : List (String × Json)}
    {merged : Json}
    (hOk :
      (mergeValues addMissing path (.object source)
        (.object destination)).result = .ok merged) :
    ∃ members, merged = .object members ∧
      MergedMembers addMissing path source destination
        members := by
  rcases mergeValues_ok_iff.mp hOk with
    ⟨text, kept, hSource, _⟩ |
    ⟨members, others, kept, hSource, hDestination, hKept,
      hMerged⟩
  · cases hSource
  · cases hSource
    cases hDestination
    exact ⟨_, hMerged, mergedMembers_of_ok hKept⟩

end Merge

end HostBindings
