import HostBindings.Proofs.Json.Paths

/-
  Walking through a JSON value.

  A walk comes to every place inside the objects of a value,
  to each place before those below it, in the order of keys.

  Main declarations:
    * `Json.walk`
    * `Json.mem_walk_of_at?`
-/

------------------------------------------------------------
-- Walks
------------------------------------------------------------

namespace HostBindings

namespace Json

mutual

/- The paths inside a value, depth first. -/
def walk : Json → List (List String)
| .object members => [] :: walkMembers members
| _ => [[]]

/- The paths inside a list of members, in their order. -/
def walkMembers : List (String × Json) → List (List String)
| [] => []
| (key, v) :: rest =>
    (walk v).map (key :: ·) ++ walkMembers rest

end

/- A walk starts where it is. -/
theorem nil_mem_walk (v : Json) : [] ∈ v.walk := by
  cases v <;> simp [walk]

/- The walk through a member is part of the walk. -/
theorem cons_mem_walkMembers
    {members : List (String × Json)}
    {key : String}
    {v : Json}
    {path : List String}
    (hMember : (key, v) ∈ members)
    (hPath : path ∈ v.walk) :
    key :: path ∈ walkMembers members := by
  induction members with
  | nil => cases hMember
  | cons entry rest ih =>
      rw [walkMembers, List.mem_append]
      rcases List.mem_cons.mp hMember with rfl | hRest
      · exact .inl (List.mem_map_of_mem hPath)
      · exact .inr (ih hRest)

/- A walk comes to every place where there is a value. -/
theorem mem_walk_of_at?
    {path : List String}
    {v w : Json}
    (hAt : v.at? path = some w) :
    path ∈ v.walk := by
  induction path generalizing v with
  | nil => exact nil_mem_walk v
  | cons key path ih =>
      rcases at?_cons_eq_some_iff.mp hAt with
        ⟨u, hMember, hBelow⟩
      rcases eq_object_of_member? hMember with
        ⟨members, rfl, hFound⟩
      rw [walk]
      exact
        List.mem_cons_of_mem _
          (cons_mem_walkMembers (Keyed.mem_of_find? hFound)
            (ih hBelow))

end Json

end HostBindings
