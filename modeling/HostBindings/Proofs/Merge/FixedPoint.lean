import HostBindings.Proofs.Json.Shapes
import HostBindings.Proofs.Merge.Level

/-
  Merging a tree again into what it has been merged into.

  After a merge there is nothing left to add or to remove,
  and what both sides have has been merged before.  So a
  second merge changes nothing.  The result has no shape that
  the two sides do not have.

  Main declarations:
    * `Merge.Settled`
    * `Merge.mergeValues_of_settled`
    * `Merge.mergeValues_self`
    * `Merge.mergeRoots_again`
    * `Merge.mergeRoots_idempotent`
    * `Merge.shaped_of_mergeRoots`
-/

------------------------------------------------------------
-- Settled Members
------------------------------------------------------------

namespace HostBindings

namespace Merge

variable {addMissing : Bool}
variable {path : List String}

/-
  A member that a merge keeps as it is: merging changes
  nothing about it, or it stands at the root and the source
  does not have it.
-/
def Settled
    (addMissing : Bool)
    (path : List String)
    (source : List (String × Json))
    (entry : String × Json) : Prop :=
  match Keyed.find? entry.1 source with
  | some value =>
      mergeValues addMissing (path ++ [entry.1]) value
        entry.2 = ⟨[], .ok entry.2⟩
  | none => path = []

/- Settled members stay as they are. -/
theorem mergeMembers_of_settled
    {source destination : List (String × Json)}
    (hSettled :
      ∀ entry ∈ destination,
        Settled addMissing path source entry) :
    mergeMembers addMissing path source destination =
      ⟨[], .ok destination⟩ := by
  induction destination with
  | nil =>
      rw [mergeMembers]
  | cons entry rest ih =>
      rw [List.forall_mem_cons] at hSettled
      rcases entry with ⟨key, d⟩
      have hFirst := hSettled.1
      unfold Settled at hFirst
      rw [mergeMembers, ih hSettled.2]
      cases hSource : Keyed.find? key source with
      | some value =>
          simp only [hSource] at hFirst ⊢
          rw [hFirst]
          rfl
      | none =>
          simp only [hSource] at hFirst ⊢
          rw [if_pos hFirst]
          rfl

/- Nothing is missing when every key is there. -/
theorem missingMembers_eq_nil
    {source destination : List (String × Json)}
    (hKeys :
      ∀ key ∈ Keyed.keys source,
        key ∈ Keyed.keys destination) :
    missingMembers source destination = [] := by
  rw [missingMembers, List.filter_eq_nil_iff]
  intro entry hEntry
  have hHas : Keyed.has entry.1 destination = true :=
    Keyed.has_iff_mem_keys.mpr
      (hKeys entry.1 (List.mem_map_of_mem hEntry))
  simp [hHas]

/-
  An object whose members are settled and to which nothing is
  added stays as it is.
-/
theorem mergeValues_of_settled
    {source destination : List (String × Json)}
    (hSettled :
      ∀ entry ∈ destination,
        Settled addMissing path source entry)
    (hKeys :
      addMissing = true →
        ∀ key ∈ Keyed.keys source,
          key ∈ Keyed.keys destination) :
    mergeValues addMissing path (.object source)
        (.object destination) =
      ⟨[], .ok (.object destination)⟩ := by
  rw [mergeValues, mergeMembers_of_settled hSettled]
  cases addMissing with
  | false => simp [appendMissing]
  | true =>
      simp [appendMissing, missingMembers_eq_nil (hKeys rfl)]

------------------------------------------------------------
-- Merging Twice
------------------------------------------------------------

/- A textual tree merged with itself stays as it is. -/
theorem mergeValues_self
    {source : Json}
    (hTextual : source.Textual)
    (hKeyed : source.WellKeyed) :
    mergeValues addMissing path source source =
      ⟨[], .ok source⟩ := by
  induction source using Json.inductionOn
    generalizing path with
  | scalar v hScalar =>
      cases v with
      | string s => rw [mergeValues]
      | object members => cases hScalar
      | _ => cases hTextual
  | array items ih =>
      cases hTextual
  | object members ih =>
      rw [Json.textual_object_iff] at hTextual
      rw [Json.wellKeyed_object_iff] at hKeyed
      apply mergeValues_of_settled
      · intro entry hEntry
        have hFound :=
          Keyed.find?_of_mem hKeyed.1
            (show (entry.1, entry.2) ∈ members from hEntry)
        simp only [Settled, hFound]
        exact
          ih entry hEntry (hTextual entry hEntry)
            (hKeyed.2 entry hEntry)
      · exact fun _ key hKey => hKey

/- Where the members that are kept come from. -/
theorem mem_of_mergeMembers
    {source destination kept : List (String × Json)}
    {entry : String × Json}
    (hOk :
      (mergeMembers addMissing path source
        destination).result = .ok kept)
    (hEntry : entry ∈ kept) :
    (∃ s d, Keyed.find? entry.1 source = some s ∧
        (entry.1, d) ∈ destination ∧
        (mergeValues addMissing (path ++ [entry.1]) s
          d).result = .ok entry.2) ∨
      (Keyed.find? entry.1 source = none ∧ path = [] ∧
        entry ∈ destination) := by
  induction destination generalizing kept with
  | nil =>
      rw [mergeMembers] at hOk
      cases hOk
      cases hEntry
  | cons first rest ih =>
      rcases mergeMembers_cons_ok hOk with
        ⟨more, hMore, hKept⟩
      have hLater :
          entry ∈ more →
            (∃ s d, Keyed.find? entry.1 source = some s ∧
              (entry.1, d) ∈ first :: rest ∧
              (mergeValues addMissing (path ++ [entry.1]) s
                d).result = .ok entry.2) ∨
            (Keyed.find? entry.1 source = none ∧ path = [] ∧
              entry ∈ first :: rest) := by
        intro hMem
        rcases ih hMore hMem with
          ⟨s, d, hSource, hDestination, hValue⟩ |
          ⟨hSource, hPath, hDestination⟩
        · exact
            .inl ⟨s, d, hSource,
              List.mem_cons_of_mem _ hDestination, hValue⟩
        · exact
            .inr ⟨hSource, hPath,
              List.mem_cons_of_mem _ hDestination⟩
      rcases hKept with
        ⟨value, v, hSource, hValue, rfl⟩ |
        ⟨hSource, hPath, rfl⟩ | ⟨hSource, hPath, rfl⟩
      · rcases List.mem_cons.mp hEntry with rfl | hMem
        · exact
            .inl ⟨value, _, hSource, List.mem_cons_self,
              hValue⟩
        · exact hLater hMem
      · rcases List.mem_cons.mp hEntry with rfl | hMem
        · exact .inr ⟨hSource, hPath, List.mem_cons_self⟩
        · exact hLater hMem
      · exact hLater hEntry

/- The members of a result, with those that are added. -/
def allMembers
    (addMissing : Bool)
    (source destination kept : List (String × Json)) :
    List (String × Json) :=
  kept ++
    if addMissing then missingMembers source destination
    else []

/- Where the members of a result come from. -/
theorem mem_of_allMembers
    {source destination kept : List (String × Json)}
    {entry : String × Json}
    (hOk :
      (mergeMembers addMissing path source
        destination).result = .ok kept)
    (hEntry :
      entry ∈ allMembers addMissing source destination kept) :
    (∃ s d, Keyed.find? entry.1 source = some s ∧
        (entry.1, d) ∈ destination ∧
        (mergeValues addMissing (path ++ [entry.1]) s
          d).result = .ok entry.2) ∨
      (Keyed.find? entry.1 source = none ∧ path = [] ∧
        entry ∈ destination) ∨
      entry ∈ source := by
  rcases List.mem_append.mp hEntry with hOld | hNew
  · rcases mem_of_mergeMembers hOk hOld with hMerged | hKept
    · exact .inl hMerged
    · exact .inr (.inl hKept)
  · right
    right
    cases addMissing with
    | false => cases hNew
    | true => exact (List.mem_filter.mp hNew).1

/- Nothing is missing after what is missing was added. -/
theorem mem_keys_allMembers
    {source destination kept : List (String × Json)}
    {key : String}
    (hOk :
      (mergeMembers true path source
        destination).result = .ok kept)
    (hKey : key ∈ Keyed.keys source) :
    key ∈ Keyed.keys
      (allMembers true source destination kept) := by
  have hKeys := (mergedMembers_of_ok hOk).keys
  rw [allMembers, hKeys, List.mem_append, List.mem_filter]
  cases hHas : Keyed.has key destination with
  | true =>
      left
      refine ⟨Keyed.has_iff_mem_keys.mp hHas, ?_⟩
      simp [survives, Keyed.has_iff_mem_keys.mpr hKey]
  | false =>
      right
      rw [if_pos rfl, List.mem_filter]
      exact ⟨hKey, by simp [hHas]⟩

/- A merge leaves nothing to be done by the same merge. -/
theorem mergeValues_again
    {source destination merged : Json}
    (hTextual : source.Textual)
    (hKeyed : source.WellKeyed)
    (hOk :
      (mergeValues addMissing path source
        destination).result = .ok merged) :
    mergeValues addMissing path source merged =
      ⟨[], .ok merged⟩ := by
  induction source using Json.inductionOn
    generalizing path destination merged with
  | scalar v hScalar =>
      rcases mergeValues_ok_iff.mp hOk with
        ⟨text, kept, rfl, rfl, rfl⟩ | ⟨members, _, _, rfl, _⟩
      · rw [mergeValues]
      · cases hScalar
  | array items ih =>
      cases hTextual
  | object members ih =>
      rcases mergeValues_ok_iff.mp hOk with
        ⟨_, _, hSource, _⟩ |
        ⟨source, others, kept, hSource, _, hKept, rfl⟩
      · cases hSource
      cases hSource
      rw [Json.textual_object_iff] at hTextual
      rw [Json.wellKeyed_object_iff] at hKeyed
      apply mergeValues_of_settled
      · intro entry hEntry
        rcases mem_of_allMembers hKept hEntry with
          ⟨s, d, hFound, _, hValue⟩ | ⟨hFound, hPath, _⟩ |
          hMember
        · have hMember := Keyed.mem_of_find? hFound
          simp only [Settled, hFound]
          exact
            ih _ hMember (hTextual _ hMember)
              (hKeyed.2 _ hMember) hValue
        · simp only [Settled, hFound, hPath]
        · have hFound :
              Keyed.find? entry.1 members = some entry.2 :=
            Keyed.find?_of_mem hKeyed.1 hMember
          simp only [Settled, hFound]
          exact
            mergeValues_self (hTextual entry hMember)
              (hKeyed.2 entry hMember)
      · rintro rfl key hKey
        exact mem_keys_allMembers hKept hKey

/- So does a merge of whole trees. -/
theorem mergeRoots_again
    {source destination merged : Json}
    (hTextual : source.Textual)
    (hKeyed : source.WellKeyed)
    (hOk :
      (mergeRoots addMissing source
        destination).result = .ok merged) :
    mergeRoots addMissing source merged =
      ⟨[], .ok merged⟩ := by
  rcases mergeRoots_ok_iff.mp hOk with
    ⟨⟨members, rfl⟩, hValues⟩
  have hAgain := mergeValues_again hTextual hKeyed hValues
  rcases mergeValues_ok_iff.mp hValues with
    ⟨_, _, hSource, _⟩ | ⟨_, _, kept, _, _, _, rfl⟩
  · cases hSource
  · exact hAgain

/-
  A second merge of a textual tree goes well, returns what it
  is given, in the same order throughout, and reports nothing
  added and nothing removed.
-/
theorem mergeRoots_idempotent
    {source destination merged : Json}
    (hTextual : source.Textual)
    (hKeyed : source.WellKeyed)
    (hOk :
      (mergeRoots addMissing source
        destination).result = .ok merged) :
    (mergeRoots addMissing source merged).result =
        .ok merged ∧
      Report.ofChanges
          (mergeRoots addMissing source merged).changes =
        ⟨[], []⟩ := by
  have hAgain := mergeRoots_again hTextual hKeyed hOk
  rw [hAgain]
  exact ⟨rfl, rfl⟩

/-
  Sections of the destination alone, keys that are dropped
  and subtrees that are appended are all settled at once.
-/
theorem mergeRoots_idempotent_sections :
    let source : Json :=
      .object
        [("Parameters", .object [("s", .string "todo")]),
          ("Functions", .object
            [("new", .object [("name", .string "todo")]),
              ("check", .string "todo")])]
    let destination : Json :=
      .object
        [("Functions", .object
            [("check", .string "Test"), ("old", .null)]),
          ("Errors", .array [.bool true])]
    let merged : Json :=
      .object
        [("Functions", .object
            [("check", .string "Test"),
              ("new", .object [("name", .string "todo")])]),
          ("Errors", .array [.bool true]),
          ("Parameters", .object [("s", .string "todo")])]
    source.Textual ∧ source.WellKeyed ∧
      (mergeRoots true source destination).result =
        .ok merged ∧
      (mergeRoots true source merged).result = .ok merged ∧
      Report.ofChanges (mergeRoots true source merged).changes =
        ⟨[], []⟩ := by
  intro source destination merged
  have hTextual : source.Textual := by
    simp [source, Json.Textual, Json.TextualMembers]
  have hKeyed : source.WellKeyed := by
    simp [source, Keyed.Distinct, Keyed.keys, Json.WellKeyed,
      Json.WellKeyedMembers]
  have hOk :
      (mergeRoots true source destination).result =
        .ok merged := by
    rfl
  exact
    ⟨hTextual, hKeyed, hOk,
      mergeRoots_idempotent hTextual hKeyed hOk⟩

------------------------------------------------------------
-- Shape of the Result
------------------------------------------------------------

/- The keys of a result are distinct if those of both are. -/
theorem distinct_allMembers
    {source destination kept : List (String × Json)}
    (hOk :
      (mergeMembers addMissing path source
        destination).result = .ok kept)
    (hSource : Keyed.Distinct source)
    (hDestination : Keyed.Distinct destination) :
    Keyed.Distinct
      (allMembers addMissing source destination kept) := by
  rw [Keyed.Distinct, allMembers,
    (mergedMembers_of_ok hOk).keys]
  refine List.nodup_append.mpr ⟨hDestination.filter _, ?_, ?_⟩
  · cases addMissing with
    | false => exact List.nodup_nil
    | true => exact hSource.filter _
  · intro key hOld other hNew
    rintro rfl
    cases addMissing with
    | false => cases hNew
    | true =>
        have hHas :=
          Keyed.has_iff_mem_keys.mpr
            (List.mem_filter.mp hOld).1
        have hMissing := (List.mem_filter.mp hNew).2
        simp [hHas] at hMissing

/- A merge has no shape that the two sides do not have. -/
theorem shaped_of_mergeValues
    {limit : Nat}
    {allowed : Number → Prop}
    {source destination merged : Json}
    (hSource : source.Shaped limit allowed)
    (hDestination : destination.Shaped limit allowed)
    (hOk :
      (mergeValues addMissing path source
        destination).result = .ok merged) :
    merged.Shaped limit allowed := by
  induction source using Json.inductionOn
    generalizing path destination merged limit with
  | scalar v hScalar =>
      rcases mergeValues_ok_iff.mp hOk with
        ⟨text, kept, rfl, rfl, rfl⟩ | ⟨members, _, _, rfl, _⟩
      · exact hDestination
      · cases hScalar
  | array items ih =>
      rcases mergeValues_ok_iff.mp hOk with
        ⟨_, _, hArray, _⟩ | ⟨_, _, _, hArray, _⟩ <;>
        cases hArray
  | object members ih =>
      rcases mergeValues_ok_iff.mp hOk with
        ⟨_, _, hObject, _⟩ |
        ⟨source, others, kept, hObject, rfl, hKept, rfl⟩
      · cases hObject
      cases hObject
      rcases hSource.exists_succ with ⟨inner, rfl⟩
      rw [Json.shaped_object_iff] at hSource hDestination ⊢
      refine
        ⟨distinct_allMembers hKept hSource.1 hDestination.1,
          ?_⟩
      intro entry hEntry
      rcases mem_of_allMembers hKept hEntry with
        ⟨s, d, hFound, hOld, hValue⟩ | ⟨_, _, hOld⟩ |
        hMember
      · have hMember := Keyed.mem_of_find? hFound
        exact
          ih _ hMember (hSource.2 _ hMember)
            (hDestination.2 _ hOld) hValue
      · exact hDestination.2 entry hOld
      · exact hSource.2 entry hMember

/- Neither has a merge of whole trees. -/
theorem shaped_of_mergeRoots
    {limit : Nat}
    {allowed : Number → Prop}
    {source destination merged : Json}
    (hSource : source.Shaped limit allowed)
    (hDestination : destination.Shaped limit allowed)
    (hOk :
      (mergeRoots addMissing source
        destination).result = .ok merged) :
    merged.Shaped limit allowed :=
  shaped_of_mergeValues hSource hDestination
    (mergeRoots_ok_iff.mp hOk).2

end Merge

end HostBindings
