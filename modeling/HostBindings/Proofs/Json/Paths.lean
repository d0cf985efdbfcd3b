import HostBindings.Json.Value
import HostBindings.Proofs.Keyed.Lookup

/-
  Going down a JSON value along paths of keys.

  Main declarations:
    * `Json.at?_append`
    * `Json.at?_cons_eq_some_iff`
    * `Json.textAt?_eq_some_iff`
    * `Json.textAt?_append`
-/

------------------------------------------------------------
-- Paths
------------------------------------------------------------

namespace HostBindings

namespace Json

@[simp]
theorem at?_nil (v : Json) : at? [] v = some v := rfl

@[simp]
theorem member?_object
    (key : String)
    (members : List (String × Json)) :
    (object members).member? key =
      Keyed.find? key members := rfl

/- One key and then the rest of a path. -/
theorem at?_cons
    (key : String)
    (path : List String)
    (v : Json) :
    at? (key :: path) v = (v.member? key).bind (at? path) := by
  rw [at?]
  cases v.member? key <;> rfl

/- What is reached below a key is reached from its value. -/
theorem at?_cons_eq_some_iff
    {key : String}
    {path : List String}
    {v w : Json} :
    at? (key :: path) v = some w ↔
      ∃ u, v.member? key = some u ∧ at? path u = some w := by
  rw [at?_cons, Option.bind_eq_some_iff]

/- A path put together is followed part by part. -/
theorem at?_append
    (first second : List String)
    (v : Json) :
    at? (first ++ second) v =
      (at? first v).bind (at? second) := by
  induction first generalizing v with
  | nil =>
      rfl
  | cons key first ih =>
      rw [List.cons_append, at?_cons, at?_cons]
      cases v.member? key with
      | none => rfl
      | some u => exact ih u

/- A value with a member is an object. -/
theorem eq_object_of_member?
    {key : String}
    {v u : Json}
    (hMember : v.member? key = some u) :
    ∃ members, v = object members ∧
      Keyed.find? key members = some u := by
  cases v with
  | object members => exact ⟨members, rfl, hMember⟩
  | _ => cases hMember

/- A text at a path is a string value there. -/
theorem textAt?_eq_some_iff
    {path : List String}
    {v : Json}
    {text : String} :
    v.textAt? path = some text ↔
      v.at? path = some (string text) := by
  unfold textAt?
  rw [Option.bind_eq_some_iff]
  constructor
  · rintro ⟨u, hAt, hText⟩
    cases u with
    | string other =>
        cases hText
        exact hAt
    | _ => cases hText
  · intro hAt
    exact ⟨_, hAt, rfl⟩

/- A text is looked for part by part. -/
theorem textAt?_append
    (first second : List String)
    (v : Json) :
    v.textAt? (first ++ second) =
      (v.at? first).bind (textAt? second) := by
  unfold textAt?
  rw [at?_append]
  cases v.at? first <;> rfl

end Json

end HostBindings
