import HostBindings.Proofs.Json.Paths
import HostBindings.Proofs.Json.Shapes

/-
  Values that differ in the order of their keys.

  A value is kept by another one when every place is still
  there, an object as an object and anything else as it was.
  Two well-keyed values that keep each other differ in
  nothing but the order of keys.

  Main declarations:
    * `Json.Rearranged`
    * `Json.Persists`
    * `Json.KeptBy`
    * `Json.rearranged_of_keptBy`
-/

------------------------------------------------------------
-- Order of Keys
------------------------------------------------------------

namespace HostBindings

namespace Json

/-
  Two values are equal up to the order of keys: objects have
  the same keys, and at each key values that are equal up to
  the order of keys.
-/
inductive Rearranged : Json → Json → Prop
| same (v : Json) : Rearranged v v
| array
    {items others : List Json}
    (hLength : items.length = others.length)
    (hItems :
      ∀ (n : Nat) (v w : Json),
        items[n]? = some v → others[n]? = some w →
          Rearranged v w) :
    Rearranged (.array items) (.array others)
| object
    {members others : List (String × Json)}
    (hKeys :
      (Keyed.keys members).Perm (Keyed.keys others))
    (hMembers :
      ∀ key v w,
        Keyed.find? key members = some v →
          Keyed.find? key others = some w →
            Rearranged v w) :
    Rearranged (.object members) (.object others)

/- An object is still an object, anything else is the same. -/
def Persists (v w : Json) : Prop :=
  v = w ∨ (v.kind = .object ∧ w.kind = .object)

/- Every place of a value persists in another one. -/
def KeptBy (before after : Json) : Prop :=
  ∀ path v,
    before.at? path = some v →
      ∃ w, after.at? path = some w ∧ Persists v w

------------------------------------------------------------
-- Kept Values
------------------------------------------------------------

/- A value is an object by its kind. -/
theorem kind_eq_object_iff
    {v : Json} :
    v.kind = .object ↔ ∃ members, v = .object members := by
  cases v <;> simp [kind]

/- Two objects persist in one another. -/
theorem persists_objects
    (members others : List (String × Json)) :
    Persists (.object members) (.object others) :=
  .inr ⟨rfl, rfl⟩

/- What persists of an object is an object. -/
theorem Persists.of_object
    {members : List (String × Json)}
    {w : Json}
    (hPersists : Persists (.object members) w) :
    ∃ others, w = .object others := by
  rcases hPersists with rfl | ⟨_, hKind⟩
  · exact ⟨members, rfl⟩
  · exact kind_eq_object_iff.mp hKind

/- What is no object persists as it is. -/
theorem Persists.of_ne_object
    {v w : Json}
    (hPersists : Persists v w)
    (hKind : v.kind ≠ .object) :
    v = w :=
  hPersists.resolve_right fun hObjects => hKind hObjects.1

/- A value persists in one that keeps it. -/
theorem KeptBy.persists
    {before after : Json}
    (hKept : KeptBy before after) :
    Persists before after := by
  rcases hKept [] before rfl with ⟨w, hAt, hPersists⟩
  cases hAt
  exact hPersists

variable {members others : List (String × Json)}

/- What an object has is kept by an object that keeps it. -/
theorem KeptBy.member
    (hKept : KeptBy (.object members) (.object others))
    {key : String}
    {v : Json}
    (hFound : Keyed.find? key members = some v) :
    ∃ w, Keyed.find? key others = some w ∧ KeptBy v w := by
  have hPlace (path : List String) :
      (Json.object members).at? (key :: path) =
        v.at? path := by
    rw [at?_cons, member?_object, hFound]
    rfl
  rcases hKept [key] v (hPlace []) with ⟨w, hAt, _⟩
  rcases at?_cons_eq_some_iff.mp hAt with
    ⟨u, hMember, hHere⟩
  cases hHere
  rw [member?_object] at hMember
  refine ⟨w, hMember, ?_⟩
  intro path inner hInner
  rcases hKept (key :: path) inner
      ((hPlace path).trans hInner) with
    ⟨outer, hOuter, hPersists⟩
  rw [at?_cons, member?_object, hMember] at hOuter
  exact ⟨outer, hOuter, hPersists⟩

/- An object that keeps another one has all of its keys. -/
theorem KeptBy.keys_subset
    (hKept : KeptBy (.object members) (.object others)) :
    Keyed.keys members ⊆ Keyed.keys others := by
  intro key hKey
  rcases Keyed.find?_of_mem_keys hKey with ⟨v, hFound⟩
  rcases hKept.member hFound with ⟨w, hOther, _⟩
  exact Keyed.mem_keys_of_find? hOther

/-
  Well-keyed values that keep each other are equal up to the
  order of keys.
-/
theorem rearranged_of_keptBy
    {v w : Json}
    (hLeft : v.WellKeyed)
    (hRight : w.WellKeyed)
    (hKept : KeptBy v w)
    (hBack : KeptBy w v) :
    Rearranged v w := by
  induction v using inductionOn generalizing w with
  | scalar v hScalar =>
      have hKind : v.kind ≠ .object := by
        cases v with
        | object members => cases hScalar
        | _ => simp [kind]
      rw [hKept.persists.of_ne_object hKind]
      exact .same w
  | array items ih =>
      rw [hKept.persists.of_ne_object (by simp [kind])]
      exact .same w
  | object members ih =>
      rcases hKept.persists.of_object with ⟨others, rfl⟩
      rw [wellKeyed_object_iff] at hLeft hRight
      refine .object ?_ ?_
      · rw [List.perm_ext_iff_of_nodup hLeft.1 hRight.1]
        intro key
        exact
          ⟨fun hKey => hKept.keys_subset hKey,
            fun hKey => hBack.keys_subset hKey⟩
      · intro key v w hFound hOther
        rcases hKept.member hFound with ⟨_, hSame, hKeptV⟩
        rw [hOther] at hSame
        cases hSame
        rcases hBack.member hOther with ⟨_, hSame, hBackV⟩
        rw [hFound] at hSame
        cases hSame
        have hMem := Keyed.mem_of_find? hFound
        exact
          ih (key, v) hMem (hLeft.2 _ hMem)
            (hRight.2 _ (Keyed.mem_of_find? hOther)) hKeptV
            hBackV

end Json

end HostBindings
