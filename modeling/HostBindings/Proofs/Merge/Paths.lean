import HostBindings.Proofs.Json.Paths
import HostBindings.Proofs.Merge.Level

/-
  Merged trees, path by path.

  Every value in the result of a merge has an origin: both
  sides hold an object or both hold a text at its path, or it
  stands below a root key of the destination alone, or below
  a key that only the source has.

  Main declarations:
    * `Merge.at?_of_shared`
    * `Merge.at?_of_stale`
    * `Merge.Origin`
    * `Merge.origin_of_at?`
    * `Merge.mergeRoots_at_every_path`
-/

------------------------------------------------------------
-- Members of Merged Values
------------------------------------------------------------

namespace HostBindings

namespace Merge

variable {addMissing : Bool}
variable {outer : List String}
variable {source destination merged : Json}

/- A member that both sides have is merged. -/
theorem member?_of_shared
    {key : String}
    {s d : Json}
    (hOk :
      (mergeValues addMissing outer source
        destination).result = .ok merged)
    (hSource : source.member? key = some s)
    (hDestination : destination.member? key = some d) :
    ∃ v, merged.member? key = some v ∧
      (mergeValues addMissing (outer ++ [key]) s
        d).result = .ok v := by
  rcases Json.eq_object_of_member? hSource with
    ⟨members, rfl, hFindSource⟩
  rcases Json.eq_object_of_member? hDestination with
    ⟨others, rfl, hFindDestination⟩
  rcases mergedMembers_of_objects hOk with
    ⟨result, rfl, hLevel⟩
  exact hLevel.shared hFindSource hFindDestination

/- Two sides of a merge are objects or texts together. -/
theorem eq_object_of_merge
    {others : List (String × Json)}
    (hOk :
      (mergeValues addMissing outer source
        (.object others)).result = .ok merged) :
    ∃ members, source = .object members := by
  rcases mergeValues_ok_iff.mp hOk with
    ⟨text, kept, hSource, hDestination, _⟩ |
    ⟨members, others', kept, hSource, _⟩
  · cases hDestination
  · exact ⟨members, hSource⟩

/- A member of the destination alone stays at the root. -/
theorem member?_of_destinationOnly
    {key : String}
    {d : Json}
    (hOk :
      (mergeValues addMissing outer source
        destination).result = .ok merged)
    (hSource : source.member? key = none)
    (hDestination : destination.member? key = some d) :
    merged.member? key =
      if outer = [] then some d else none := by
  rcases Json.eq_object_of_member? hDestination with
    ⟨others, rfl, hFindDestination⟩
  rcases eq_object_of_merge hOk with ⟨members, rfl⟩
  rcases mergedMembers_of_objects hOk with
    ⟨result, rfl, hLevel⟩
  exact hLevel.destinationOnly hSource hFindDestination

/-
  A member of the result that the destination lacks comes
  from the source, between two objects and on request.
-/
theorem member?_of_sourceOnly
    {key : String}
    {v : Json}
    (hOk :
      (mergeValues addMissing outer source
        destination).result = .ok merged)
    (hMerged : merged.member? key = some v)
    (hDestination : destination.member? key = none) :
    addMissing = true ∧
      ∃ members others, source = .object members ∧
        destination = .object others ∧
        Keyed.find? key members = some v := by
  rcases mergeValues_ok_iff.mp hOk with
    ⟨text, kept, rfl, rfl, rfl⟩ |
    ⟨members, others, kept, rfl, rfl, _, _⟩
  · cases hMerged
  · rcases mergedMembers_of_objects hOk with
      ⟨result, rfl, hLevel⟩
    have hFound := hLevel.sourceOnly hDestination
    rw [Json.member?_object] at hMerged
    rw [hMerged] at hFound
    cases addMissing with
    | false => cases hFound
    | true =>
        exact ⟨rfl, members, others, rfl, rfl, hFound.symm⟩

------------------------------------------------------------
-- Paths That Both Sides Have
------------------------------------------------------------

/- At a path that both sides have the values are merged. -/
theorem at?_of_shared
    {path : List String}
    {s d : Json}
    (hOk :
      (mergeValues addMissing outer source
        destination).result = .ok merged)
    (hSource : source.at? path = some s)
    (hDestination : destination.at? path = some d) :
    ∃ v, merged.at? path = some v ∧
      (mergeValues addMissing (outer ++ path) s
        d).result = .ok v := by
  induction path generalizing
      outer source destination merged with
  | nil =>
      cases hSource
      cases hDestination
      exact ⟨merged, rfl, by simpa using hOk⟩
  | cons key path ih =>
      rcases Json.at?_cons_eq_some_iff.mp hSource with
        ⟨s', hMemberSource, hBelowSource⟩
      rcases Json.at?_cons_eq_some_iff.mp hDestination with
        ⟨d', hMemberDestination, hBelowDestination⟩
      rcases member?_of_shared hOk hMemberSource
          hMemberDestination with
        ⟨m, hMember, hValue⟩
      rcases ih hValue hBelowSource hBelowDestination with
        ⟨v, hBelow, hResult⟩
      refine ⟨v, ?_, by simpa using hResult⟩
      exact
        Json.at?_cons_eq_some_iff.mpr ⟨m, hMember, hBelow⟩

/- Below the root, what the source lacks is gone. -/
theorem at?_of_stale
    {path : List String}
    (hOuter : outer ≠ [])
    (hOk :
      (mergeValues addMissing outer source
        destination).result = .ok merged)
    (hSource : source.at? path = none)
    (hDestination : destination.at? path ≠ none) :
    merged.at? path = none := by
  induction path generalizing
      outer source destination merged with
  | nil =>
      cases hSource
  | cons key path ih =>
      rw [Json.at?_cons] at hSource hDestination ⊢
      cases hMemberDestination : destination.member? key with
      | none =>
          rw [hMemberDestination] at hDestination
          exact absurd rfl hDestination
      | some d =>
          rw [hMemberDestination] at hDestination
          cases hMemberSource : source.member? key with
          | none =>
              rw [member?_of_destinationOnly hOk
                hMemberSource hMemberDestination,
                if_neg hOuter]
              rfl
          | some s =>
              rw [hMemberSource] at hSource
              rcases member?_of_shared hOk hMemberSource
                  hMemberDestination with
                ⟨v, hMember, hValue⟩
              rw [hMember]
              exact ih (by simp) hValue hSource hDestination

------------------------------------------------------------
-- Origins
------------------------------------------------------------

/-
  Where a value of a merged tree comes from.  The flag says
  whether the trees start at the root, since only there the
  destination keeps keys of its own.
-/
inductive Origin
    (addMissing : Bool) :
    Bool → Json → Json → List String → Json → Prop
| level
    {atRoot : Bool}
    {source destination : Json}
    {path : List String}
    {members others : List (String × Json)}
    (result : List (String × Json))
    (hSource : source.at? path = some (.object members))
    (hDestination :
      destination.at? path = some (.object others)) :
    Origin addMissing atRoot source destination path
      (.object result)
| text
    {atRoot : Bool}
    {source destination : Json}
    {path : List String}
    {original translated : String}
    (hSource : source.at? path = some (.string original))
    (hDestination :
      destination.at? path = some (.string translated)) :
    Origin addMissing atRoot source destination path
      (.string translated)
| kept
    {source destination : Json}
    {root : String}
    {path : List String}
    {value : Json}
    (hSource : source.member? root = none)
    (hDestination :
      destination.at? (root :: path) = some value) :
    Origin addMissing true source destination (root :: path)
      value
| added
    {atRoot : Bool}
    {source destination : Json}
    (path : List String)
    {below : List String}
    {key : String}
    {members others : List (String × Json)}
    {value : Json}
    (hAdd : addMissing = true)
    (hSource : source.at? path = some (.object members))
    (hDestination :
      destination.at? path = some (.object others))
    (hMissing : Keyed.find? key others = none)
    (hValue :
      source.at? (path ++ key :: below) = some value) :
    Origin addMissing atRoot source destination
      (path ++ key :: below) value

/- Origins below a key are origins from above. -/
theorem Origin.below
    {key : String}
    {s d : Json}
    {path : List String}
    {value : Json}
    {atRoot : Bool}
    (hSource : source.member? key = some s)
    (hDestination : destination.member? key = some d)
    (hOrigin : Origin addMissing false s d path value) :
    Origin addMissing atRoot source destination (key :: path)
      value := by
  have hStepSource :
      ∀ rest, source.at? (key :: rest) = s.at? rest := by
    intro rest
    rw [Json.at?_cons, hSource, Option.bind_some]
  have hStepDestination :
      ∀ rest,
        destination.at? (key :: rest) = d.at? rest := by
    intro rest
    rw [Json.at?_cons, hDestination, Option.bind_some]
  cases hOrigin with
  | level result hS hD =>
      exact .level result
        ((hStepSource _).trans hS)
        ((hStepDestination _).trans hD)
  | text hS hD =>
      exact .text
        ((hStepSource _).trans hS)
        ((hStepDestination _).trans hD)
  | added path hAdd hS hD hMissing hValue =>
      exact
        .added (key :: path) hAdd
          ((hStepSource _).trans hS)
          ((hStepDestination _).trans hD)
          hMissing
          ((hStepSource _).trans hValue)

/- Every value in a merged tree has an origin. -/
theorem origin_of_at?
    {path : List String}
    {value : Json}
    (hOk :
      (mergeValues addMissing outer source
        destination).result = .ok merged)
    (hMerged : merged.at? path = some value) :
    Origin addMissing (decide (outer = [])) source
      destination path value := by
  induction path generalizing
      outer source destination merged with
  | nil =>
      cases hMerged
      rcases mergeValues_ok_iff.mp hOk with
        ⟨text, kept, rfl, rfl, rfl⟩ |
        ⟨members, others, kept, rfl, rfl, _, rfl⟩
      · exact .text rfl rfl
      · exact .level _ rfl rfl
  | cons key path ih =>
      rcases Json.at?_cons_eq_some_iff.mp hMerged with
        ⟨m, hMember, hBelow⟩
      cases hMemberDestination : destination.member? key with
      | none =>
          rcases member?_of_sourceOnly hOk hMember
              hMemberDestination with
            ⟨hAdd, members, others, rfl, rfl, hFound⟩
          refine
            .added [] hAdd rfl rfl hMemberDestination ?_
          exact
            Json.at?_cons_eq_some_iff.mpr
              ⟨m, hFound, hBelow⟩
      | some d =>
          cases hMemberSource : source.member? key with
          | none =>
              have hKept :=
                member?_of_destinationOnly hOk hMemberSource
                  hMemberDestination
              rw [hMember] at hKept
              by_cases hOuter : outer = []
              · rw [if_pos hOuter] at hKept
                cases hKept
                simp only [hOuter, decide_true]
                refine .kept hMemberSource ?_
                exact
                  Json.at?_cons_eq_some_iff.mpr
                    ⟨m, hMemberDestination, hBelow⟩
              · rw [if_neg hOuter] at hKept
                cases hKept
          | some s =>
              rcases member?_of_shared hOk hMemberSource
                  hMemberDestination with
                ⟨v, hShared, hValue⟩
              rw [hMember] at hShared
              cases hShared
              have hOrigin := ih hValue hBelow
              have hInner :
                  decide (outer ++ [key] = []) = false := by
                simp
              rw [hInner] at hOrigin
              exact
                hOrigin.below hMemberSource
                  hMemberDestination

------------------------------------------------------------
-- Levels
------------------------------------------------------------

/- At a level that both sides have the members are merged. -/
theorem mergedMembers_at
    {path : List String}
    {members others : List (String × Json)}
    (hOk :
      (mergeValues addMissing [] source
        destination).result = .ok merged)
    (hSource : source.at? path = some (.object members))
    (hDestination :
      destination.at? path = some (.object others)) :
    ∃ result, merged.at? path = some (.object result) ∧
      MergedMembers addMissing path members others
        result := by
  rcases at?_of_shared hOk hSource hDestination with
    ⟨v, hAt, hValue⟩
  rcases mergedMembers_of_objects hValue with
    ⟨result, rfl, hLevel⟩
  exact ⟨result, hAt, hLevel⟩

/-
  With additions, a level below the root has the same keys
  as in the source.
-/
theorem MergedMembers.mem_keys_iff
    {path : List String}
    {members others result : List (String × Json)}
    (hLevel :
      MergedMembers true path members others result)
    (hPath : path ≠ [])
    (key : String) :
    key ∈ Keyed.keys result ↔ key ∈ Keyed.keys members := by
  rw [hLevel.keys]
  simp only [if_true, List.mem_append, List.mem_filter,
    survives_iff_of_ne_root hPath, Bool.not_eq_true',
    ← Bool.not_eq_true, Keyed.has_iff_mem_keys]
  tauto

/- Without additions, no level has a key of its own. -/
theorem MergedMembers.keys_subset
    {path : List String}
    {members others result : List (String × Json)}
    (hLevel :
      MergedMembers false path members others result) :
    Keyed.keys result ⊆ Keyed.keys others := by
  intro key hKey
  rw [hLevel.keys] at hKey
  simp only [Bool.false_eq_true, if_false,
    List.append_nil] at hKey
  exact (List.mem_filter.mp hKey).1

/- The keys of a level, kept ones before added ones. -/
theorem MergedMembers.keys_eq
    {path : List String}
    {members others result : List (String × Json)}
    (hLevel :
      MergedMembers addMissing path members others result) :
    Keyed.keys result =
      ((Keyed.keys others).filter fun key =>
        path = [] ∨ key ∈ Keyed.keys members) ++
      (if addMissing then
        (Keyed.keys members).filter fun key =>
          key ∉ Keyed.keys others
      else []) := by
  rw [hLevel.keys]
  congr 1
  · apply List.filter_congr
    intro key hKey
    simp [survives, ← Keyed.has_iff_mem_keys]
  · congr 1
    apply List.filter_congr
    intro key hKey
    simp [← Keyed.has_iff_mem_keys]

/- Below a root key of the source nothing stale is left. -/
theorem at?_of_stale_below
    {root : String}
    {path : List String}
    (hOk :
      (mergeValues addMissing [] source
        destination).result = .ok merged)
    (hRoot : source.member? root ≠ none)
    (hSource : source.at? (root :: path) = none)
    (hDestination : destination.at? (root :: path) ≠ none) :
    merged.at? (root :: path) = none := by
  rw [Json.at?_cons] at hSource hDestination ⊢
  rcases Option.ne_none_iff_exists'.mp hRoot with
    ⟨s, hMemberSource⟩
  cases hMemberDestination : destination.member? root with
  | none =>
      rw [hMemberDestination] at hDestination
      exact absurd rfl hDestination
  | some d =>
      rw [hMemberSource] at hSource
      rw [hMemberDestination] at hDestination
      rcases member?_of_shared hOk hMemberSource
          hMemberDestination with
        ⟨v, hMember, hValue⟩
      rw [hMember]
      exact
        at?_of_stale (by simp) hValue hSource hDestination

/- A text that both sides have is that of the destination. -/
theorem at?_of_texts
    {path : List String}
    {original translated : String}
    (hOk :
      (mergeValues addMissing outer source
        destination).result = .ok merged)
    (hSource : source.at? path = some (.string original))
    (hDestination :
      destination.at? path = some (.string translated)) :
    merged.at? path = some (.string translated) := by
  rcases at?_of_shared hOk hSource hDestination with
    ⟨v, hAt, hValue⟩
  rcases mergeValues_ok_iff.mp hValue with
    ⟨text, kept, hText, hKept, rfl⟩ |
    ⟨members, others, kept, hObject, _⟩
  · cases hKept
    exact hAt
  · cases hObject

/- Without additions, every level is one of the destination. -/
theorem exists_level_of_at?
    {path : List String}
    {result : List (String × Json)}
    (hOk :
      (mergeValues false [] source
        destination).result = .ok merged)
    (hAt : merged.at? path = some (.object result)) :
    ∃ others, destination.at? path = some (.object others) ∧
      Keyed.keys result ⊆ Keyed.keys others := by
  cases origin_of_at? hOk hAt with
  | level _ hSource hDestination =>
      rcases mergedMembers_at hOk hSource hDestination with
        ⟨result', hAt', hLevel⟩
      rw [hAt] at hAt'
      cases hAt'
      exact ⟨_, hDestination, hLevel.keys_subset⟩
  | kept hSource hDestination =>
      exact ⟨result, hDestination, fun _ hKey => hKey⟩
  | added _ hAdd => cases hAdd

------------------------------------------------------------
-- Whole Trees
------------------------------------------------------------

/-
  A merge that goes well, path by path.  Root keys of the
  destination alone stay as they are; below the root keys
  that the source lacks are gone; where both sides hold an
  object the keys that survive come first and those that only
  the source has follow on request; texts of the destination
  stay; and nothing else is in the result.
-/
theorem mergeRoots_at_every_path
    (hOk :
      (mergeRoots addMissing source
        destination).result = .ok merged) :
    (∀ key value,
      source.member? key = none →
        destination.member? key = some value →
          merged.member? key = some value) ∧
    (∀ root path,
      source.member? root ≠ none →
        source.at? (root :: path) = none →
          destination.at? (root :: path) ≠ none →
            merged.at? (root :: path) = none) ∧
    (∀ path members others,
      source.at? path = some (.object members) →
        destination.at? path = some (.object others) →
          ∃ result, merged.at? path = some (.object result) ∧
            Keyed.keys result =
              ((Keyed.keys others).filter fun key =>
                path = [] ∨ key ∈ Keyed.keys members) ++
              (if addMissing then
                (Keyed.keys members).filter fun key =>
                  key ∉ Keyed.keys others
              else []) ∧
            (addMissing = true →
              ∀ key ∉ Keyed.keys others,
                Keyed.find? key result =
                  Keyed.find? key members)) ∧
    (∀ path original translated,
      source.at? path = some (.string original) →
        destination.at? path = some (.string translated) →
          merged.at? path = some (.string translated)) ∧
    (∀ path value,
      merged.at? path = some value →
        Origin addMissing true source destination path
          value) ∧
    (∀ path members others result,
      addMissing = true → path ≠ [] →
        source.at? path = some (.object members) →
          destination.at? path = some (.object others) →
            merged.at? path = some (.object result) →
              ∀ key, key ∈ Keyed.keys result ↔
                key ∈ Keyed.keys members) ∧
    (∀ path result,
      addMissing = false →
        merged.at? path = some (.object result) →
          ∃ others,
            destination.at? path = some (.object others) ∧
              Keyed.keys result ⊆ Keyed.keys others) := by
  have hValues := (mergeRoots_ok_iff.mp hOk).2
  refine ⟨?_, ?_, ?_, ?_, ?_, ?_, ?_⟩
  · intro key value hSource hDestination
    have hKept :=
      member?_of_destinationOnly hValues hSource hDestination
    simpa using hKept
  · intro root path hRoot hSource hDestination
    exact
      at?_of_stale_below hValues hRoot hSource hDestination
  · intro path members others hSource hDestination
    rcases mergedMembers_at hValues hSource
        hDestination with
      ⟨result, hAt, hLevel⟩
    refine ⟨result, hAt, hLevel.keys_eq, ?_⟩
    intro hAdd key hKey
    rw [hLevel.sourceOnly (Keyed.find?_eq_none_iff.mpr hKey),
      if_pos hAdd]
  · intro path original translated hSource hDestination
    exact at?_of_texts hValues hSource hDestination
  · intro path value hAt
    exact origin_of_at? hValues hAt
  · intro path members others result hAdd hPath hSource
      hDestination hAt
    rcases mergedMembers_at hValues hSource
        hDestination with
      ⟨result', hAt', hLevel⟩
    rw [hAt] at hAt'
    cases hAt'
    subst hAdd
    exact hLevel.mem_keys_iff hPath
  · intro path result hAdd hAt
    subst hAdd
    exact exists_level_of_at? hValues hAt

/- An obsolete function goes and a new one comes. -/
theorem mergeRoots_at_obsolete_function :
    (mergeRoots true
        (.object [("Functions", .object
          [("new", .string "todo")])])
        (.object [("Errors", .null), ("Functions", .object
          [("old", .string "alt")])])).result =
      .ok (.object [("Errors", .null), ("Functions", .object
        [("new", .string "todo")])]) ∧
    Json.at? ["Functions", "old"]
        (.object [("Errors", .null), ("Functions", .object
          [("new", .string "todo")])]) = none := by
  have hOk :
      (mergeRoots true
        (.object [("Functions", .object
          [("new", .string "todo")])])
        (.object [("Errors", .null), ("Functions", .object
          [("old", .string "alt")])])).result =
      .ok (.object [("Errors", .null), ("Functions", .object
        [("new", .string "todo")])]) := by
    rfl
  refine ⟨hOk, ?_⟩
  exact
    (mergeRoots_at_every_path hOk).2.1 "Functions" ["old"]
      (by decide) (by decide) (by decide)

end Merge

end HostBindings
