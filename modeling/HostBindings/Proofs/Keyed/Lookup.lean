import Mathlib
import HostBindings.Keyed

/-
  Looking up keys in tables that are put together from
  others or collected from items.

  Main declarations:
    * `Keyed.find?_put`
    * `Keyed.put_of_find?`
    * `Keyed.put_put`
    * `Keyed.put_eq_putIfNew`
    * `Keyed.keys_putIfNew`
    * `Keyed.mem_keys_putIfNew`
    * `Keyed.find?_append`
    * `Keyed.find?_putIfNew`
    * `Keyed.find?_filter`
    * `Keyed.map_put`
    * `Keyed.find?_map`
    * `Keyed.find?_of_perm`
    * `Keyed.find?_of_forall₂`
    * `Keyed.keys_collect`
    * `Keyed.find?_collect`
    * `Keyed.map_key_values_collect`
-/

------------------------------------------------------------
-- Keys and Lookup
------------------------------------------------------------

namespace HostBindings

namespace Keyed

variable {κ α β : Type}

@[simp]
theorem keys_nil : keys ([] : Keyed κ α) = [] := rfl

@[simp]
theorem keys_cons
    (entry : κ × α)
    (table : Keyed κ α) :
    keys (entry :: table) = entry.1 :: keys table := rfl

@[simp]
theorem keys_append
    (first second : Keyed κ α) :
    keys (first ++ second) = keys first ++ keys second := by
  simp [keys]

/- Choosing entries by their keys chooses the keys. -/
theorem keys_filter
    (keep : κ → Bool)
    (table : Keyed κ α) :
    keys (table.filter fun entry => keep entry.1) =
      (keys table).filter keep := by
  simp [keys, List.filter_map, Function.comp_def]

/- Changing the values leaves the keys alone. -/
theorem keys_map
    (change : κ × α → β)
    (table : Keyed κ α) :
    keys (table.map fun entry => (entry.1, change entry)) =
      keys table := by
  simp [keys, Function.comp_def]

variable [DecidableEq κ]

@[simp]
theorem find?_nil (key : κ) :
    find? key ([] : Keyed κ α) = none := rfl

/- A key is missing exactly when it is not among the keys. -/
theorem find?_eq_none_iff
    {key : κ}
    {table : Keyed κ α} :
    find? key table = none ↔ key ∉ keys table := by
  rw [← has_iff_mem_keys]
  simp [has]

/- What is found has its key among the keys. -/
theorem mem_keys_of_find?
    {key : κ}
    {value : α}
    {table : Keyed κ α}
    (hFound : find? key table = some value) :
    key ∈ keys table := by
  rw [← has_iff_mem_keys, has, hFound]
  rfl

/- A key among the keys is found with some value. -/
theorem find?_of_mem_keys
    {key : κ}
    {table : Keyed κ α}
    (hMem : key ∈ keys table) :
    ∃ value, find? key table = some value := by
  rw [← has_iff_mem_keys, has] at hMem
  exact Option.isSome_iff_exists.mp hMem

/- What is found is an entry. -/
theorem mem_of_find?
    {key : κ}
    {value : α}
    {table : Keyed κ α}
    (hFound : find? key table = some value) :
    (key, value) ∈ table := by
  induction table with
  | nil =>
      simp at hFound
  | cons entry rest ih =>
      by_cases hKey : entry.1 = key
      · have hValue : entry.2 = value := by
          simpa [find?, hKey] using hFound
        subst hKey hValue
        exact List.mem_cons_self
      · have hRest : find? key rest = some value := by
          simpa [find?, hKey] using hFound
        exact List.mem_cons_of_mem _ (ih hRest)

/- Distinct keys make every entry the one that is found. -/
theorem find?_of_mem
    {key : κ}
    {value : α}
    {table : Keyed κ α}
    (hDistinct : table.Distinct)
    (hMem : (key, value) ∈ table) :
    find? key table = some value := by
  induction table with
  | nil =>
      simp at hMem
  | cons entry rest ih =>
      rw [Distinct, keys_cons, List.nodup_cons] at hDistinct
      rcases List.mem_cons.mp hMem with hHead | hRest
      · simp [find?, ← hHead]
      · have hNe : entry.1 ≠ key := by
          intro hKey
          apply hDistinct.1
          rw [hKey]
          exact List.mem_map_of_mem hRest
        simpa [find?, hNe] using ih hDistinct.2 hRest

------------------------------------------------------------
-- Tables Put Together
------------------------------------------------------------

/- Lookup after a write. -/
theorem find?_put
    (key other : κ)
    (value : α)
    (table : Keyed κ α) :
    find? other (put key value table) =
      if other = key then some value
      else find? other table := by
  by_cases hKey : other = key
  · subst hKey
    simp
  · rw [if_neg hKey]
    exact find?_put_of_ne hKey value table

/- Writing what is there already changes nothing. -/
theorem put_of_find?
    {key : κ}
    {value : α}
    {table : Keyed κ α}
    (hFound : find? key table = some value) :
    put key value table = table := by
  induction table with
  | nil => simp at hFound
  | cons entry rest ih =>
      rw [find?] at hFound
      rw [put]
      by_cases hKey : entry.1 = key
      · rw [if_pos hKey, Option.some.injEq] at hFound
        rw [if_pos hKey, ← hFound]
      · rw [if_neg hKey] at hFound
        rw [if_neg hKey, ih hFound]

/- Of two writes to one key the second counts. -/
theorem put_put
    (key : κ)
    (first second : α)
    (table : Keyed κ α) :
    put key second (put key first table) =
      put key second table := by
  induction table with
  | nil => simp [put]
  | cons entry rest ih =>
      by_cases hKey : entry.1 = key
      · simp [put, hKey]
      · simp [put, hKey, ih]

/- A new key is written at the end. -/
theorem put_of_notMem
    {key : κ}
    {table : Keyed κ α}
    (hNew : key ∉ keys table)
    (value : α) :
    put key value table = table ++ [(key, value)] := by
  induction table with
  | nil =>
      rfl
  | cons entry rest ih =>
      rw [keys_cons, List.mem_cons, not_or] at hNew
      simp [put, Ne.symm hNew.1, ih hNew.2]

/- Writing a key if it is new keeps the keys distinct. -/
theorem distinct_putIfNew
    {table : Keyed κ α}
    (hDistinct : table.Distinct)
    (key : κ)
    (value : α) :
    (putIfNew key value table).Distinct := by
  unfold putIfNew
  split
  · exact hDistinct
  · rename_i hNew
    have hNotMem : key ∉ keys table := fun hMem =>
      hNew (has_iff_mem_keys.mpr hMem)
    rw [← put_of_notMem hNotMem value]
    exact distinct_put hDistinct key value

/- After a write there is nothing new but what was written. -/
theorem eq_or_mem_of_mem_put
    {key : κ}
    {value : α}
    {table : Keyed κ α}
    {entry : κ × α}
    (hMem : entry ∈ put key value table) :
    entry = (key, value) ∨ entry ∈ table := by
  induction table with
  | nil =>
      exact .inl (List.mem_singleton.mp hMem)
  | cons first rest ih =>
      rw [put] at hMem
      by_cases hKey : first.1 = key
      · rw [if_pos hKey, List.mem_cons, hKey] at hMem
        exact hMem.imp id (List.mem_cons_of_mem _)
      · rw [if_neg hKey, List.mem_cons] at hMem
        rcases hMem with rfl | hRest
        · exact .inr List.mem_cons_self
        · exact (ih hRest).imp id (List.mem_cons_of_mem _)

/- The first of two tables comes first. -/
theorem find?_append
    (key : κ)
    (first second : Keyed κ α) :
    find? key (first ++ second) =
      (find? key first).or (find? key second) := by
  induction first with
  | nil =>
      simp
  | cons entry rest ih =>
      by_cases hKey : entry.1 = key
      · simp [find?, hKey]
      · simpa [find?, hKey] using ih

/- Lookup after a write that does not replace. -/
theorem find?_putIfNew
    (key other : κ)
    (value : α)
    (table : Keyed κ α) :
    find? other (putIfNew key value table) =
      (find? other table).or
        (if other = key then some value else none) := by
  unfold putIfNew has
  split_ifs with hHas hKey hKey
  · rw [hKey] at *
    rcases Option.isSome_iff_exists.mp hHas with ⟨old, hOld⟩
    rw [hOld]
    rfl
  · exact Option.or_none.symm
  · rw [find?_append, hKey]
    simp [find?]
  · rw [find?_append]
    simp [find?, Ne.symm hKey]

/- Writing what is there already is writing if it is new. -/
theorem put_eq_putIfNew
    {key : κ}
    {value : α}
    {table : Keyed κ α}
    (hSame :
      ∀ old, find? key table = some old → old = value) :
    put key value table = putIfNew key value table := by
  unfold putIfNew has
  cases hFound : find? key table with
  | none =>
      exact put_of_notMem (find?_eq_none_iff.mp hFound) value
  | some old =>
      rw [hSame old hFound] at hFound
      exact put_of_find? hFound

/- A key that is there is not written if only new ones are. -/
theorem putIfNew_of_find?
    {key : κ}
    {old : α}
    {table : Keyed κ α}
    (hFound : find? key table = some old)
    (value : α) :
    putIfNew key value table = table := by
  rw [putIfNew, if_pos]
  rw [has, hFound]
  rfl

/- The keys in order after a write that does not replace. -/
theorem keys_putIfNew
    (key : κ)
    (value : α)
    (table : Keyed κ α) :
    keys (putIfNew key value table) =
      if key ∈ keys table then keys table
      else keys table ++ [key] := by
  unfold putIfNew
  simp only [has_iff_mem_keys]
  split
  · rfl
  · rw [keys_append]
    rfl

/- There is no key but the one written besides the old. -/
theorem mem_keys_putIfNew
    {key other : κ}
    {value : α}
    {table : Keyed κ α} :
    other ∈ keys (putIfNew key value table) ↔
      other ∈ keys table ∨ other = key := by
  rw [keys_putIfNew]
  split
  · rename_i hOld
    exact (or_iff_left_of_imp fun hSame => hSame ▸ hOld).symm
  · simp

/- A write is one to the changed values. -/
theorem map_put
    (change : α → β)
    (key : κ)
    (value : α)
    (table : Keyed κ α) :
    (put key value table).map
        (fun entry => (entry.1, change entry.2)) =
      put key (change value)
        (table.map fun entry => (entry.1, change entry.2)) := by
  induction table with
  | nil => rfl
  | cons entry rest ih =>
      by_cases hKey : entry.1 = key
      · simp [put, hKey]
      · simp [put, hKey, ih]

/- Lookup among the entries with chosen keys. -/
theorem find?_filter
    (key : κ)
    (keep : κ → Bool)
    (table : Keyed κ α) :
    find? key (table.filter fun entry => keep entry.1) =
      if keep key then find? key table else none := by
  induction table with
  | nil =>
      simp
  | cons entry rest ih =>
      rw [List.filter_cons]
      by_cases hKeep : keep entry.1 = true
      · by_cases hKey : entry.1 = key
        · subst hKey
          simp [find?, hKeep]
        · simpa [find?, hKey, hKeep] using ih
      · rw [if_neg hKeep, ih]
        by_cases hKey : entry.1 = key
        · subst hKey
          simp [hKeep]
        · simp [find?, hKey]

/- Lookup after changing the values. -/
theorem find?_map
    (key : κ)
    (change : α → β)
    (table : Keyed κ α) :
    find? key
        (table.map fun entry => (entry.1, change entry.2)) =
      (find? key table).map change := by
  induction table with
  | nil =>
      simp
  | cons entry rest ih =>
      by_cases hKey : entry.1 = key
      · simp [find?, hKey]
      · simpa [find?, hKey] using ih

/- The order of entries with distinct keys does not matter. -/
theorem find?_of_perm
    {first second : Keyed κ α}
    (hDistinct : first.Distinct)
    (hPerm : first.Perm second)
    (key : κ) :
    find? key first = find? key second := by
  have hDistinct' : second.Distinct :=
    (hPerm.map Prod.fst).nodup_iff.mp hDistinct
  cases hFound : find? key first with
  | some value =>
      exact
        (find?_of_mem hDistinct'
          (hPerm.subset (mem_of_find? hFound))).symm
  | none =>
      rw [find?_eq_none_iff] at hFound
      symm
      rw [find?_eq_none_iff]
      intro hMem
      exact hFound ((hPerm.map Prod.fst).symm.subset hMem)

/- Tables that agree entry by entry agree on every lookup. -/
theorem find?_of_forall₂
    (related : κ → α → β → Prop)
    {first : Keyed κ α}
    {second : Keyed κ β}
    (hEntries :
      List.Forall₂
        (fun entry other =>
          other.1 = entry.1 ∧ related entry.1 entry.2 other.2)
        first second)
    (key : κ) :
    Option.Rel (related key) (find? key first)
      (find? key second) := by
  induction hEntries with
  | nil =>
      exact .none
  | @cons entry other rest others hEntry hRest ih =>
      by_cases hKey : entry.1 = key
      · have hValue := hEntry.2
        rw [hKey] at hValue
        simp only [find?, hEntry.1, hKey, if_true]
        exact .some hValue
      · simp only [find?, hEntry.1, hKey, if_false]
        exact ih

------------------------------------------------------------
-- Collected Items
------------------------------------------------------------

/- One more element is a new one or it is dropped. -/
theorem eraseDups_concat
    (elements : List κ)
    (last : κ) :
    (elements ++ [last]).eraseDups =
      if last ∈ elements then elements.eraseDups
      else elements.eraseDups ++ [last] := by
  rw [List.eraseDups_append, List.cons_removeAll]
  by_cases hMem : last ∈ elements
  · simp [hMem]
  · simp [hMem, List.eraseDups_cons]

/- Collecting one more item writes it to the table. -/
theorem collect_concat
    (key : α → κ)
    (items : List α)
    (item : α) :
    collect key (items ++ [item]) =
      put (key item) item (collect key items) := by
  rw [collect, List.foldl_append]
  rfl

/-
  The keys of collected items, in the order in which they
  first occur.
-/
theorem keys_collect
    (key : α → κ)
    (items : List α) :
    keys (collect key items) = (items.map key).eraseDups := by
  induction items using List.reverseRecOn with
  | nil =>
      rfl
  | append_singleton items item ih =>
      rw [collect_concat, keys_put, ih, List.map_append,
        List.map_singleton, eraseDups_concat]
      simp only [List.mem_eraseDups]

/- Collected items have distinct keys. -/
theorem distinct_collect
    (key : α → κ)
    (items : List α) :
    Distinct (collect key items) := by
  induction items using List.reverseRecOn with
  | nil =>
      exact List.nodup_nil
  | append_singleton items item ih =>
      rw [collect_concat]
      exact distinct_put ih _ _

/- What is found among collected items is the last of them. -/
theorem find?_collect
    (key : α → κ)
    (items : List α)
    (wanted : κ) :
    find? wanted (collect key items) =
      items.reverse.find? fun item => key item = wanted := by
  induction items using List.reverseRecOn with
  | nil =>
      rfl
  | append_singleton items item ih =>
      rw [collect_concat, find?_put, ih, List.reverse_concat,
        List.find?_cons]
      by_cases hKey : wanted = key item
      · simp [hKey]
      · simp [hKey, Ne.symm hKey]

/- Collected items are entered under their own keys. -/
theorem key_of_mem_collect
    {key : α → κ}
    {items : List α}
    {entry : κ × α}
    (hMem : entry ∈ collect key items) :
    key entry.2 = entry.1 := by
  have hFound :=
    find?_of_mem (distinct_collect key items) hMem
  rw [find?_collect] at hFound
  simpa using List.find?_some hFound

/- The values of collected items have their keys in order. -/
theorem map_key_values_collect
    (key : α → κ)
    (items : List α) :
    (values (collect key items)).map key =
      (items.map key).eraseDups := by
  rw [← keys_collect, values, List.map_map, keys]
  apply List.map_congr_left
  intro entry hEntry
  exact key_of_mem_collect hEntry

/- Every value is the last of the items with its key. -/
theorem find?_of_mem_values_collect
    {key : α → κ}
    {items : List α}
    {value : α}
    (hMem : value ∈ values (collect key items)) :
    (items.reverse.find? fun item => key item = key value) =
      some value := by
  rcases List.mem_map.mp hMem with ⟨entry, hEntry, rfl⟩
  rw [← find?_collect, key_of_mem_collect hEntry]
  exact find?_of_mem (distinct_collect key items) hEntry

end Keyed

end HostBindings
