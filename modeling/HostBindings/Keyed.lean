/-
  Insertion-ordered tables.

  A table is a list of entries in the order in which their
  keys first arrived.  Writing to a key that is already
  present replaces the value and keeps the position.

  Key definitions include:
    * `Keyed`
    * `Keyed.find?`
    * `Keyed.put`
    * `Keyed.putIfNew`
    * `Keyed.keys`
    * `Keyed.values`
    * `Keyed.Distinct`
-/

------------------------------------------------------------
-- Tables
------------------------------------------------------------

namespace HostBindings

/- A table of values in order of arrival of their keys. -/
abbrev Keyed (κ α : Type) :=
  List (κ × α)

namespace Keyed

variable {κ α : Type}

/- The keys of a table, in order. -/
def keys (table : Keyed κ α) : List κ :=
  table.map Prod.fst

/- The values of a table, in order of their keys. -/
def values (table : Keyed κ α) : List α :=
  table.map Prod.snd

/- A table holds every key at most once. -/
def Distinct (table : Keyed κ α) : Prop :=
  table.keys.Nodup

instance
    [DecidableEq κ]
    (table : Keyed κ α) :
    Decidable (Distinct table) := by
  unfold Distinct
  infer_instance

variable [DecidableEq κ]

/- The value of the first entry with the given key. -/
def find? (key : κ) : Keyed κ α → Option α
| [] => none
| (k, v) :: rest =>
    if k = key then some v else find? key rest

/- Whether the table has an entry with the given key. -/
def has (key : κ) (table : Keyed κ α) : Bool :=
  (find? key table).isSome

/-
  Write a value: a key that is present keeps its position,
  a new key goes to the end.
-/
def put (key : κ) (value : α) : Keyed κ α → Keyed κ α
| [] => [(key, value)]
| (k, v) :: rest =>
    if k = key then
      (k, value) :: rest
    else
      (k, v) :: put key value rest

/- Write a value only if its key is not yet present. -/
def putIfNew
    (key : κ)
    (value : α)
    (table : Keyed κ α) : Keyed κ α :=
  if has key table then table else table ++ [(key, value)]

/- Enter values one after the other under their own keys. -/
def collect
    (key : α → κ)
    (items : List α) : Keyed κ α :=
  items.foldl (fun table item => put (key item) item table) []

end Keyed

------------------------------------------------------------
-- Lookup After Writing
------------------------------------------------------------

namespace Keyed

variable {κ α : Type} [DecidableEq κ]

/- A written value is found under its key. -/
@[simp]
theorem find?_put_self
    (key : κ)
    (value : α)
    (table : Keyed κ α) :
    find? key (put key value table) = some value := by
  induction table with
  | nil =>
      simp [put, find?]
  | cons entry rest ih =>
      by_cases hKey : entry.1 = key
      · simp [put, find?, hKey]
      · simp [put, find?, hKey, ih]

/- Writing to one key leaves the other keys alone. -/
theorem find?_put_of_ne
    {key other : κ}
    (hNe : other ≠ key)
    (value : α)
    (table : Keyed κ α) :
    find? other (put key value table) =
      find? other table := by
  induction table with
  | nil =>
      simp [put, find?, hNe.symm]
  | cons entry rest ih =>
      by_cases hKey : entry.1 = key
      · simp [put, find?, hKey, hNe.symm]
      · simp [put, find?, hKey, ih]

/- A key is found exactly when it is among the keys. -/
theorem has_iff_mem_keys
    {key : κ}
    {table : Keyed κ α} :
    has key table = true ↔ key ∈ table.keys := by
  induction table with
  | nil =>
      simp [has, find?, keys]
  | cons entry rest ih =>
      by_cases hKey : entry.1 = key
      · simp [has, find?, keys, hKey]
      · have hKey' : ¬ key = entry.1 := fun h => hKey h.symm
        simpa [has, find?, keys, hKey, hKey'] using ih

/- The keys after a write, in order. -/
theorem keys_put
    (key : κ)
    (value : α)
    (table : Keyed κ α) :
    (put key value table).keys =
      if key ∈ table.keys then table.keys
      else table.keys ++ [key] := by
  induction table with
  | nil =>
      simp [put, keys]
  | cons entry rest ih =>
      by_cases hKey : entry.1 = key
      · simp [put, keys, hKey]
      · have hKey' : ¬ key = entry.1 := fun h => hKey h.symm
        have hKeys :
            (put key value (entry :: rest)).keys =
              entry.1 :: (put key value rest).keys := by
          simp [put, keys, hKey]
        have hMemCons :
            key ∈ keys (entry :: rest) ↔ key ∈ keys rest := by
          simp [keys, hKey']
        rw [hKeys, ih]
        by_cases hMem : key ∈ keys rest
        · rw [if_pos hMem, if_pos (hMemCons.mpr hMem)]
          rfl
        · rw [if_neg hMem,
            if_neg (fun h => hMem (hMemCons.mp h))]
          rfl

/- Writing keeps the keys distinct. -/
theorem distinct_put
    {table : Keyed κ α}
    (hDistinct : table.Distinct)
    (key : κ)
    (value : α) :
    (put key value table).Distinct := by
  unfold Distinct at hDistinct ⊢
  rw [keys_put]
  by_cases hMem : key ∈ table.keys
  · simpa [hMem] using hDistinct
  · rw [if_neg hMem]
    refine List.nodup_append.mpr ⟨hDistinct, by simp, ?_⟩
    intro k hk other hOther hEq
    simp only [List.mem_singleton] at hOther
    exact hMem (by rw [← hOther, ← hEq]; exact hk)

end Keyed

end HostBindings
