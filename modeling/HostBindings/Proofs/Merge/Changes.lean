import HostBindings.Proofs.Merge.Paths

/-
  The changes that a merge makes.

  On every level that both sides have as an object, the keys
  that only the destination has are removed, except at the
  root, and those that only the source has are added on
  request.  These are all the changes, none of them is made
  twice, and without any the destination stays as it is.

  Main declarations:
    * `Merge.OnlyIn`
    * `Merge.Due`
    * `Merge.mem_changes_iff`
    * `Merge.nodup_changes`
    * `Merge.changes_eq_nil_iff`
-/

------------------------------------------------------------
-- Changes on One Level
------------------------------------------------------------

namespace HostBindings

namespace Merge

variable {addMissing : Bool}
variable {outer : List String}

/- The path of a change. -/
def Change.path : Change → List String
| .added path => path
| .removed path => path

/- The changes that a member of the destination leads to. -/
def memberChanges
    (addMissing : Bool)
    (outer : List String)
    (source : List (String × Json))
    (entry : String × Json) : List Change :=
  match Keyed.find? entry.1 source with
  | some s =>
      (mergeValues addMissing (outer ++ [entry.1]) s
        entry.2).changes
  | none =>
      if outer = [] then [] else [.removed (outer ++ [entry.1])]

/- The changes that members of the source alone lead to. -/
def missingChanges
    (addMissing : Bool)
    (outer : List String)
    (source destination : List (String × Json)) :
    List Change :=
  if addMissing then
    (missingMembers source destination).map fun entry =>
      .added (outer ++ [entry.1])
  else []

/- The changes of a kept member come before later ones. -/
theorem changes_of_keepMember
    {key : String}
    {value : Outcome Json}
    {rest : Outcome (List (String × Json))}
    {v : Json}
    (hValue : value.result = .ok v) :
    (keepMember key value rest).changes =
      value.changes ++ rest.changes := by
  unfold keepMember
  rw [hValue]

/- The changes of members, one member after the other. -/
theorem changes_of_mergeMembers
    {source destination kept : List (String × Json)}
    (hOk :
      (mergeMembers addMissing outer source
        destination).result = .ok kept) :
    (mergeMembers addMissing outer source
        destination).changes =
      destination.flatMap
        (memberChanges addMissing outer source) := by
  induction destination generalizing kept with
  | nil => rw [mergeMembers, List.flatMap_nil]
  | cons entry rest ih =>
      rcases entry with ⟨key, d⟩
      rcases mergeMembers_cons_ok hOk with ⟨more, hMore, hKept⟩
      rw [mergeMembers, List.flatMap_cons, ← ih hMore,
        memberChanges]
      rcases hKept with
        ⟨s, v, hSource, hValue, rfl⟩ | ⟨hSource, hRoot, rfl⟩ |
        ⟨hSource, hOuter, rfl⟩
      · simp only [hSource, changes_of_keepMember hValue]
      · simp only [hSource, if_pos hRoot]
        exact changes_of_keepMember rfl
      · simp only [hSource, if_neg hOuter]
        rfl

/- The changes between two objects. -/
theorem changes_of_objects
    {members others : List (String × Json)}
    {kept : List (String × Json)}
    (hOk :
      (mergeMembers addMissing outer members
        others).result = .ok kept) :
    (mergeValues addMissing outer (.object members)
        (.object others)).changes =
      others.flatMap (memberChanges addMissing outer members) ++
        missingChanges addMissing outer members others := by
  rw [mergeValues, ← changes_of_mergeMembers hOk,
    appendMissing, missingChanges]
  simp only [hOk]
  cases addMissing <;> simp

------------------------------------------------------------
-- Changes That Are Due
------------------------------------------------------------

/-
  A path to a key that only one side has, below a path at
  which both sides have an object.
-/
def OnlyIn (one other : Json) (path : List String) : Prop :=
  ∃ parent key members others,
    path = parent ++ [key] ∧
      one.at? parent = some (.object members) ∧
      other.at? parent = some (.object others) ∧
      key ∈ Keyed.keys members ∧ key ∉ Keyed.keys others

/- There are no such paths in a text. -/
theorem not_onlyIn_string
    {text : String}
    {other : Json}
    {path : List String} :
    ¬ OnlyIn (.string text) other path := by
  rintro ⟨parent, key, members, others, _, hOne, _⟩
  cases parent <;> cases hOne

/- Between two objects, such a key is one here or below. -/
theorem onlyIn_objects_iff
    {members others : List (String × Json)}
    {path : List String} :
    OnlyIn (.object members) (.object others) path ↔
      (∃ key ∈ Keyed.keys members,
        key ∉ Keyed.keys others ∧ path = [key]) ∨
      ∃ key v w rest,
        Keyed.find? key members = some v ∧
          Keyed.find? key others = some w ∧
          OnlyIn v w rest ∧ path = key :: rest := by
  constructor
  · rintro
      ⟨parent, key, below, others', rfl, hOne, hOther, hHere,
        hMissing⟩
    cases parent with
    | nil =>
        cases hOne
        cases hOther
        exact .inl ⟨key, hHere, hMissing, rfl⟩
    | cons first parent =>
        rcases Json.at?_cons_eq_some_iff.mp hOne with
          ⟨v, hV, hBelow⟩
        rcases Json.at?_cons_eq_some_iff.mp hOther with
          ⟨w, hW, hBelowOther⟩
        exact
          .inr ⟨first, v, w, parent ++ [key], hV, hW,
            ⟨parent, key, below, others', rfl, hBelow,
              hBelowOther, hHere, hMissing⟩,
            rfl⟩
  · rintro
      (⟨key, hHere, hMissing, rfl⟩ |
      ⟨first, v, w, _, hV, hW,
        ⟨parent, key, below, others', rfl, hOne, hOther, hHere,
          hMissing⟩,
        rfl⟩)
    · exact
        ⟨[], key, members, others, rfl, rfl, rfl, hHere,
          hMissing⟩
    · exact
        ⟨first :: parent, key, below, others', rfl,
          Json.at?_cons_eq_some_iff.mpr ⟨v, hV, hOne⟩,
          Json.at?_cons_eq_some_iff.mpr ⟨w, hW, hOther⟩,
          hHere, hMissing⟩

/- Such paths as seen from further out. -/
def OnlyBelow
    (outer : List String)
    (one other : Json)
    (path : List String) : Prop :=
  ∃ inner, path = outer ++ inner ∧ OnlyIn one other inner

/- Seen from further out, too, the key is one here or below. -/
theorem onlyBelow_objects_iff
    {members others : List (String × Json)}
    {path : List String} :
    OnlyBelow outer (.object members) (.object others) path ↔
      (∃ key ∈ Keyed.keys members,
        key ∉ Keyed.keys others ∧ path = outer ++ [key]) ∨
      ∃ key v w,
        Keyed.find? key members = some v ∧
          Keyed.find? key others = some w ∧
          OnlyBelow (outer ++ [key]) v w path := by
  simp only [OnlyBelow, onlyIn_objects_iff]
  constructor
  · rintro
      ⟨_, rfl, ⟨key, hHere, hMissing, rfl⟩ |
        ⟨key, v, w, rest, hV, hW, hOnly, rfl⟩⟩
    · exact .inl ⟨key, hHere, hMissing, rfl⟩
    · exact .inr ⟨key, v, w, hV, hW, rest, by simp, hOnly⟩
  · rintro
      (⟨key, hHere, hMissing, rfl⟩ |
      ⟨key, v, w, hV, hW, rest, rfl, hOnly⟩)
    · exact ⟨[key], rfl, .inl ⟨key, hHere, hMissing, rfl⟩⟩
    · exact
        ⟨key :: rest, by simp,
          .inr ⟨key, v, w, rest, hV, hW, hOnly, rfl⟩⟩

/-
  The changes that a merge should make: keys of the
  destination alone are removed unless they are root keys,
  and keys of the source alone are added on request.
-/
def Due
    (addMissing : Bool)
    (outer : List String)
    (source destination : Json) : Change → Prop
| .removed path =>
    1 < path.length ∧ OnlyBelow outer destination source path
| .added path =>
    addMissing = true ∧ OnlyBelow outer source destination path

/- What is due between two objects is due here or below. -/
theorem due_objects_iff
    {members others : List (String × Json)}
    {change : Change} :
    Due addMissing outer (.object members) (.object others)
        change ↔
      (∃ key s d, Keyed.find? key members = some s ∧
        Keyed.find? key others = some d ∧
        Due addMissing (outer ++ [key]) s d change) ∨
      (outer ≠ [] ∧ ∃ key ∈ Keyed.keys others,
        key ∉ Keyed.keys members ∧
          change = .removed (outer ++ [key])) ∨
      (addMissing = true ∧ ∃ key ∈ Keyed.keys members,
        key ∉ Keyed.keys others ∧
          change = .added (outer ++ [key])) := by
  cases change with
  | removed path =>
      simp only [Due, onlyBelow_objects_iff, reduceCtorEq,
        and_false, exists_false, or_false,
        Change.removed.injEq]
      constructor
      · rintro
          ⟨hLong, ⟨key, hHere, hMissing, rfl⟩ |
            ⟨key, d, s, hD, hS, hBelow⟩⟩
        · refine .inr ⟨?_, key, hHere, hMissing, rfl⟩
          rintro rfl
          simp at hLong
        · exact .inl ⟨key, s, d, hS, hD, hLong, hBelow⟩
      · rintro
          (⟨key, s, d, hS, hD, hLong, hBelow⟩ |
          ⟨hOuter, key, hHere, hMissing, rfl⟩)
        · exact ⟨hLong, .inr ⟨key, d, s, hD, hS, hBelow⟩⟩
        · refine ⟨?_, .inl ⟨key, hHere, hMissing, rfl⟩⟩
          simpa [List.length_pos_iff] using hOuter
  | added path =>
      simp only [Due, onlyBelow_objects_iff, reduceCtorEq,
        and_false, exists_false, false_or,
        Change.added.injEq]
      constructor
      · rintro
          ⟨hAdd, hHere | ⟨key, s, d, hS, hD, hBelow⟩⟩
        · exact .inr ⟨hAdd, hHere⟩
        · exact .inl ⟨key, s, d, hS, hD, hAdd, hBelow⟩
      · rintro
          (⟨key, s, d, hS, hD, hAdd, hBelow⟩ | ⟨hAdd, hHere⟩)
        · exact ⟨hAdd, .inr ⟨key, s, d, hS, hD, hBelow⟩⟩
        · exact ⟨hAdd, .inl hHere⟩

/- What is due below a path is a change below it. -/
theorem Due.prefix_path
    {source destination : Json}
    {change : Change}
    (hDue : Due addMissing outer source destination change) :
    outer <+: change.path := by
  cases change with
  | removed path =>
      rcases hDue with ⟨_, inner, rfl, _⟩
      exact List.prefix_append outer inner
  | added path =>
      rcases hDue with ⟨_, inner, rfl, _⟩
      exact List.prefix_append outer inner

------------------------------------------------------------
-- The Changes of a Merge
------------------------------------------------------------

/- The changes for single members, by their keys. -/
theorem mem_memberChanges_iff
    {members others : List (String × Json)}
    {change : Change}
    (hDistinct : Keyed.Distinct others) :
    (∃ entry ∈ others,
        change ∈ memberChanges addMissing outer members
          entry) ↔
      (∃ key s d, Keyed.find? key members = some s ∧
        Keyed.find? key others = some d ∧
        change ∈ (mergeValues addMissing (outer ++ [key]) s
          d).changes) ∨
      (outer ≠ [] ∧ ∃ key ∈ Keyed.keys others,
        key ∉ Keyed.keys members ∧
          change = .removed (outer ++ [key])) := by
  constructor
  · rintro ⟨⟨key, d⟩, hEntry, hChange⟩
    unfold memberChanges at hChange
    cases hSource : Keyed.find? key members with
    | some s =>
        simp only [hSource] at hChange
        exact
          .inl ⟨key, s, d, hSource,
            Keyed.find?_of_mem hDistinct hEntry, hChange⟩
    | none =>
        simp only [hSource] at hChange
        by_cases hRoot : outer = []
        · rw [if_pos hRoot] at hChange
          cases hChange
        · rw [if_neg hRoot, List.mem_singleton] at hChange
          exact
            .inr ⟨hRoot, key, List.mem_map_of_mem hEntry,
              Keyed.find?_eq_none_iff.mp hSource, hChange⟩
  · rintro
      (⟨key, s, d, hSource, hDestination, hChange⟩ |
      ⟨hOuter, key, hKey, hMissing, rfl⟩)
    · refine ⟨(key, d), Keyed.mem_of_find? hDestination, ?_⟩
      simpa only [memberChanges, hSource] using hChange
    · rcases Keyed.find?_of_mem_keys hKey with ⟨d, hFound⟩
      refine ⟨(key, d), Keyed.mem_of_find? hFound, ?_⟩
      simp only [memberChanges,
        Keyed.find?_eq_none_iff.mpr hMissing, if_neg hOuter,
        List.mem_singleton]

/- The changes for members of the source alone. -/
theorem mem_missingChanges_iff
    {members others : List (String × Json)}
    {change : Change} :
    change ∈ missingChanges addMissing outer members others ↔
      addMissing = true ∧ ∃ key ∈ Keyed.keys members,
        key ∉ Keyed.keys others ∧
          change = .added (outer ++ [key]) := by
  unfold missingChanges missingMembers
  cases addMissing with
  | false => simp
  | true =>
      simp only [if_true, true_and, List.mem_map,
        List.mem_filter, Bool.not_eq_true',
        ← Bool.not_eq_true, Keyed.has_iff_mem_keys]
      constructor
      · rintro ⟨entry, ⟨hEntry, hMissing⟩, rfl⟩
        exact
          ⟨entry.1, List.mem_map_of_mem hEntry, hMissing, rfl⟩
      · rintro ⟨key, hKey, hMissing, rfl⟩
        rcases List.mem_map.mp hKey with ⟨entry, hEntry, rfl⟩
        exact ⟨entry, ⟨hEntry, hMissing⟩, rfl⟩

/- A merge that goes well makes the changes that are due. -/
theorem mem_changes_iff
    {source destination merged : Json}
    {change : Change}
    (hKeyed : destination.WellKeyed)
    (hOk :
      (mergeValues addMissing outer source
        destination).result = .ok merged) :
    change ∈
        (mergeValues addMissing outer source
          destination).changes ↔
      Due addMissing outer source destination change := by
  revert hKeyed
  refine
    inductionOnOk
      (motive := fun outer source destination _ =>
        destination.WellKeyed →
          (change ∈
              (mergeValues addMissing outer source
                destination).changes ↔
            Due addMissing outer source destination change))
      hOk ?_ ?_
  · intro outer original translated _
    rw [mergeValues]
    cases change <;>
      simp [Due, OnlyBelow, not_onlyIn_string]
  · intro outer members others kept hKept ih hKeyed
    rw [Json.wellKeyed_object_iff] at hKeyed
    rw [changes_of_objects hKept, List.mem_append,
      List.mem_flatMap, mem_memberChanges_iff hKeyed.1,
      mem_missingChanges_iff, due_objects_iff, or_assoc]
    -- only the changes below members are left to compare
    refine or_congr_left ?_
    refine exists_congr fun key => exists_congr fun s =>
      exists_congr fun d => ?_
    refine and_congr_right fun hSource =>
      and_congr_right fun hDestination => ?_
    have hEntry := Keyed.mem_of_find? hDestination
    rcases ih _ hEntry s hSource with ⟨v, _, hChanges⟩
    exact hChanges (hKeyed.2 _ hEntry)

------------------------------------------------------------
-- No Change Twice
------------------------------------------------------------

/- The changes for a member stand below its key. -/
theorem prefix_of_mem_memberChanges
    {members others kept : List (String × Json)}
    {entry : String × Json}
    {change : Change}
    (hKeyed : entry.2.WellKeyed)
    (hOk :
      (mergeMembers addMissing outer members
        others).result = .ok kept)
    (hEntry : entry ∈ others)
    (hChange :
      change ∈ memberChanges addMissing outer members entry) :
    outer ++ [entry.1] <+: change.path := by
  unfold memberChanges at hChange
  cases hSource : Keyed.find? entry.1 members with
  | some s =>
      simp only [hSource] at hChange
      rcases exists_merged_of_mem hOk hEntry hSource with
        ⟨v, hValue⟩
      exact
        ((mem_changes_iff hKeyed hValue).mp
          hChange).prefix_path
  | none =>
      simp only [hSource] at hChange
      by_cases hRoot : outer = []
      · rw [if_pos hRoot] at hChange
        cases hChange
      · rw [if_neg hRoot, List.mem_singleton] at hChange
        rw [hChange]
        exact List.prefix_rfl

/- No path stands below two keys of one level. -/
theorem eq_of_prefix_path
    {first second : String}
    {path : List String}
    (hFirst : outer ++ [first] <+: path)
    (hSecond : outer ++ [second] <+: path) :
    first = second := by
  have hShort : outer ++ [first] <+: outer ++ [second] :=
    List.prefix_of_prefix_length_le hFirst hSecond (by simp)
  have hSame : outer ++ [first] = outer ++ [second] :=
    hShort.eq_of_length (by simp)
  simpa using hSame

/- Members of the source alone are added once. -/
theorem nodup_missingChanges
    {members others : List (String × Json)}
    (hDistinct : Keyed.Distinct members) :
    (missingChanges addMissing outer members
      others).Nodup := by
  unfold missingChanges
  cases addMissing with
  | false => exact List.nodup_nil
  | true =>
      have hKeys :
          (Keyed.keys
            (missingMembers members others)).Nodup := by
        rw [missingMembers,
          Keyed.keys_filter fun key => !Keyed.has key others]
        exact hDistinct.filter _
      have hAdded :
          Function.Injective fun key =>
            Change.added (outer ++ [key]) := by
        intro first second hSame
        simpa using hSame
      have hChanges := hKeys.map hAdded
      rw [Keyed.keys, List.map_map] at hChanges
      exact hChanges

/- No change is made twice. -/
theorem nodup_changes
    {source destination merged : Json}
    (hSource : source.WellKeyed)
    (hDestination : destination.WellKeyed)
    (hOk :
      (mergeValues addMissing outer source
        destination).result = .ok merged) :
    (mergeValues addMissing outer source
      destination).changes.Nodup := by
  revert hSource hDestination
  refine
    inductionOnOk
      (motive := fun outer source destination _ =>
        source.WellKeyed → destination.WellKeyed →
          (mergeValues addMissing outer source
            destination).changes.Nodup)
      hOk ?_ ?_
  · intro outer original translated _ _
    rw [mergeValues]
    exact List.nodup_nil
  · intro outer members others kept hKept ih hSource
      hDestination
    rw [Json.wellKeyed_object_iff] at hSource hDestination
    have hPrefix {entry : String × Json} {change : Change}
        (hEntry : entry ∈ others) :
        change ∈ memberChanges addMissing outer members entry →
          outer ++ [entry.1] <+: change.path :=
      prefix_of_mem_memberChanges
        (hDestination.2 entry hEntry) hKept hEntry
    rw [changes_of_objects hKept]
    refine
      List.nodup_append.mpr
        ⟨List.nodup_flatMap.mpr ⟨?_, ?_⟩,
          nodup_missingChanges hSource.1, ?_⟩
    · intro entry hEntry
      unfold memberChanges
      cases hFound : Keyed.find? entry.1 members with
      | some s =>
          rcases ih entry hEntry s hFound with ⟨v, _, hNodup⟩
          exact
            hNodup (hSource.2 _ (Keyed.mem_of_find? hFound))
              (hDestination.2 entry hEntry)
      | none => by_cases hRoot : outer = [] <;> simp [hRoot]
    · -- members have distinct keys, and so no path in common
      have hKeys :
          others.Pairwise fun entry other =>
            entry.1 ≠ other.1 :=
        List.pairwise_map.mp hDestination.1
      refine hKeys.imp_of_mem ?_
      intro entry other hEntry hOther hNe change hFirst hSecond
      exact
        hNe
          (eq_of_prefix_path (hPrefix hEntry hFirst)
            (hPrefix hOther hSecond))
    · rintro change hOld _ hNew rfl
      rcases List.mem_flatMap.mp hOld with
        ⟨entry, hEntry, hChange⟩
      rcases mem_missingChanges_iff.mp hNew with
        ⟨_, key, _, hMissing, rfl⟩
      have hSame : entry.1 = key :=
        eq_of_prefix_path (hPrefix hEntry hChange)
          List.prefix_rfl
      exact hMissing (hSame ▸ List.mem_map_of_mem hEntry)

------------------------------------------------------------
-- No Change at All
------------------------------------------------------------

/- Members to which no change is made are kept. -/
theorem kept_of_no_changes
    {source destination kept : List (String × Json)}
    (hOk :
      (mergeMembers addMissing outer source
        destination).result = .ok kept)
    (hNone :
      ∀ entry ∈ destination,
        memberChanges addMissing outer source entry = [])
    (hValues :
      ∀ entry ∈ destination, ∀ s,
        Keyed.find? entry.1 source = some s →
          ∃ v,
            (mergeValues addMissing (outer ++ [entry.1]) s
                entry.2).result = .ok v ∧
              ((mergeValues addMissing (outer ++ [entry.1]) s
                  entry.2).changes = [] →
                v = entry.2)) :
    kept = destination := by
  induction destination generalizing kept with
  | nil =>
      rw [mergeMembers] at hOk
      cases hOk
      rfl
  | cons entry rest ih =>
      rw [List.forall_mem_cons] at hNone hValues
      rcases mergeMembers_cons_ok hOk with ⟨more, hMore, hKept⟩
      have hHere := hNone.1
      unfold memberChanges at hHere
      rw [← ih hMore hNone.2 hValues.2]
      rcases hKept with
        ⟨s, v, hSource, hValue, rfl⟩ | ⟨hSource, hRoot, rfl⟩ |
        ⟨hSource, hOuter, rfl⟩
      · simp only [hSource] at hHere
        rcases hValues.1 s hSource with ⟨w, hMerged, hSame⟩
        cases hValue.symm.trans hMerged
        rw [hSame hHere]
      · rfl
      · simp [hSource, hOuter] at hHere

/- A merge that makes no change leaves the destination. -/
theorem eq_of_no_changes
    {source destination merged : Json}
    (hOk :
      (mergeValues addMissing outer source
        destination).result = .ok merged)
    (hNone :
      (mergeValues addMissing outer source
        destination).changes = []) :
    merged = destination := by
  revert hNone
  refine
    inductionOnOk
      (motive := fun outer source destination merged =>
        (mergeValues addMissing outer source
            destination).changes = [] →
          merged = destination)
      hOk ?_ ?_
  · intro outer original translated _
    rfl
  · intro outer members others kept hKept ih hNone
    rw [changes_of_objects hKept, List.append_eq_nil_iff,
      List.flatMap_eq_nil_iff] at hNone
    have hSame : kept = others :=
      kept_of_no_changes hKept hNone.1 ih
    have hMissing :
        (if addMissing then missingMembers members others
          else []) = [] := by
      have hAdded := hNone.2
      unfold missingChanges at hAdded
      cases addMissing with
      | false => rfl
      | true => simpa using hAdded
    rw [hSame, hMissing, List.append_nil]

/- A merge that has a change to make changes the tree. -/
theorem ne_of_due
    {source destination merged : Json}
    {change : Change}
    (hOk :
      (mergeValues addMissing [] source
        destination).result = .ok merged)
    (hDue : Due addMissing [] source destination change) :
    merged ≠ destination := by
  intro hSame
  subst hSame
  cases change with
  | removed path =>
      rcases hDue with
        ⟨hLong, _, rfl, parent, key, others, members, rfl,
          hDestination, hSource, hHere, hMissing⟩
      rcases mergedMembers_at hOk hSource hDestination with
        ⟨result, hAt, hLevel⟩
      cases hDestination.symm.trans hAt
      rcases Keyed.find?_of_mem_keys hHere with ⟨d, hFound⟩
      have hParent : parent ≠ [] := by
        rintro rfl
        simp at hLong
      have hGone :=
        hLevel.destinationOnly
          (Keyed.find?_eq_none_iff.mpr hMissing) hFound
      rw [hFound, if_neg hParent] at hGone
      cases hGone
  | added path =>
      rcases hDue with
        ⟨hAdd, _, rfl, parent, key, members, others, rfl,
          hSource, hDestination, hHere, hMissing⟩
      rcases mergedMembers_at hOk hSource hDestination with
        ⟨result, hAt, hLevel⟩
      cases hDestination.symm.trans hAt
      rcases Keyed.find?_of_mem_keys hHere with ⟨s, hFound⟩
      have hNone := Keyed.find?_eq_none_iff.mpr hMissing
      have hNew := hLevel.sourceOnly hNone
      rw [hNone, if_pos hAdd, hFound] at hNew
      cases hNew

/- A merge makes no change exactly when nothing changes. -/
theorem changes_eq_nil_iff
    {source destination merged : Json}
    (hKeyed : destination.WellKeyed)
    (hOk :
      (mergeValues addMissing [] source
        destination).result = .ok merged) :
    (mergeValues addMissing [] source
        destination).changes = [] ↔ merged = destination := by
  constructor
  · exact eq_of_no_changes hOk
  · intro hSame
    rw [List.eq_nil_iff_forall_not_mem]
    intro change hChange
    exact
      ne_of_due hOk ((mem_changes_iff hKeyed hOk).mp hChange)
        hSame

end Merge

end HostBindings
