import HostBindings.Locale.Synchronization
import HostBindings.Proofs.Disk.Contents

/-
  What is done about a single locale file.

  A file is merged when it can be read, parsed and merged
  with the canonical tree.  Then it holds the merged tree
  afterwards; otherwise it stays as it is.  Nothing else on
  the disk matters for this or is changed by it.

  Main declarations:
    * `Synchronization.Merges`
    * `Synchronization.mergedTree`
    * `Synchronization.alone`
    * `Synchronization.alone_of_merges`
    * `Synchronization.alone_of_fault`
    * `Synchronization.plan_of_rewritten`
    * `Synchronization.carryOut_of_rewritten`
-/

------------------------------------------------------------
-- Merged Files
------------------------------------------------------------

namespace HostBindings

namespace Resource

/- The location to which the path of a resource leads. -/
def LeadsTo
    (disk : Disk)
    (resource : Resource)
    (here : Location) : Prop :=
  disk.resolve (Path.ofString resource.path) = .ok here

end Resource

namespace Synchronization

variable {canonical : Json}
variable {disk other : Disk}
variable {resource : Resource}

/-
  The file of a resource holds a text, the text is that of a
  tree, and merging the canonical tree into it goes well.
-/
structure Merges
    (canonical : Json)
    (disk : Disk)
    (resource : Resource)
    (text : String)
    (destination tree : Json) : Prop where
  read :
    disk.readText (Path.ofString resource.path) = .ok text
  parsed : Json.read text = some destination
  merged :
    (Merge.mergeRoots resource.locale.isBase canonical
      destination).result = .ok tree

/- The merged tree of a file, or what keeps it from being. -/
def mergedTree
    (canonical : Json)
    (disk : Disk)
    (resource : Resource) : Except Fault Json :=
  match disk.readText (Path.ofString resource.path) with
  | .error fault => .error (.file fault)
  | .ok text =>
      match Json.read text with
      | none => .error .malformedJson
      | some destination =>
          (Merge.mergeRoots resource.locale.isBase canonical
            destination).result

/- The entry of the result for a file that is merged. -/
def mergedEntry
    (canonical : Json)
    (resource : Resource)
    (text : String)
    (destination tree : Json) : Entry where
  locale := resource.locale
  report :=
    .ofChanges
      (Merge.mergeRoots resource.locale.isBase canonical
        destination).changes
  completeness := .ofTree tree
  written := decide (Json.fileText tree ≠ text)

/- A file has a merged tree when it is merged. -/
theorem mergedTree_ok_iff
    {tree : Json} :
    mergedTree canonical disk resource = .ok tree ↔
      ∃ text destination,
        Merges canonical disk resource text destination
          tree := by
  unfold mergedTree
  constructor
  · intro hOk
    cases hRead :
        disk.readText (Path.ofString resource.path) with
    | error fault =>
        rw [hRead] at hOk
        cases hOk
    | ok text =>
        simp only [hRead] at hOk
        cases hParsed : Json.read text with
        | none =>
            rw [hParsed] at hOk
            cases hOk
        | some destination =>
            simp only [hParsed] at hOk
            exact ⟨text, destination, hRead, hParsed, hOk⟩
  · rintro ⟨text, destination, hMerges⟩
    simp only [hMerges.read, hMerges.parsed, hMerges.merged]

------------------------------------------------------------
-- Plans
------------------------------------------------------------

/- The plan for a file that is merged. -/
theorem plan_of_merges
    {text : String}
    {destination tree : Json}
    (hMerges :
      Merges canonical disk resource text destination tree) :
    (plan canonical disk resource).2 =
      if Json.fileText tree = text then
        .settle
          (.ok
            (mergedEntry canonical resource text destination
              tree))
      else
        .write (Json.fileText tree)
          (mergedEntry canonical resource text destination
            tree) := by
  unfold plan revise
  simp only [hMerges.read, hMerges.parsed, hMerges.merged,
    Except.map, planRevision, entryOf, mergedEntry]
  by_cases hSame : Json.fileText tree = text
  · simp [hSame]
  · simp [hSame]

/- A file that is not merged is left alone. -/
theorem plan_of_fault
    {fault : Fault}
    (hFault :
      mergedTree canonical disk resource = .error fault) :
    (plan canonical disk resource).2 =
      .settle (.error fault) := by
  unfold mergedTree at hFault
  unfold plan revise
  cases hRead :
      disk.readText (Path.ofString resource.path) with
  | error fileFault =>
      simp only [hRead, Except.error.injEq] at hFault
      subst hFault
      rfl
  | ok text =>
      simp only [hRead] at hFault
      cases hParsed : Json.read text with
      | none =>
          simp only [hParsed, Except.error.injEq] at hFault
          subst hFault
          simp only [hParsed]
      | some destination =>
          simp only [hParsed] at hFault
          simp only [hParsed, hFault, Except.map]

------------------------------------------------------------
-- One File Alone
------------------------------------------------------------

/- What comes of a resource when nothing else is done. -/
def alone
    (canonical : Json)
    (disk : Disk)
    (resource : Resource) : Outcome Entry :=
  carryOut disk resource (plan canonical disk resource).2

/- The results that resources have alone. -/
def aloneResults
    (canonical : Json)
    (disk : Disk)
    (resources : List Resource) :
    List (Resource × Except Fault Entry) :=
  resources.map fun resource =>
    (resource, (alone canonical disk resource).result)

/-
  What is planned for a file that is merged is also done, on
  any disk where the file still holds the text.
-/
theorem carryOut_of_merges
    {text : String}
    {destination tree : Json}
    {here : Location}
    (hMerges :
      Merges canonical disk resource text destination tree)
    (hRead :
      other.readText (Path.ofString resource.path) = .ok text)
    (hHere : resource.LeadsTo other here) :
    let outcome :=
      carryOut other resource (plan canonical disk resource).2
    outcome.result =
        .ok
          (mergedEntry canonical resource text destination
            tree) ∧
      other.Rewritten outcome.disk ∧
      ∀ place,
        outcome.disk.node? place =
          if place = here then
            some (.file (.text (Json.fileText tree)))
          else other.node? place := by
  rcases Disk.readText_ok_iff.mp hRead with
    ⟨place, hPlace, hNode, _⟩
  rw [Resource.LeadsTo] at hHere
  rw [hHere] at hPlace
  cases hPlace
  rw [plan_of_merges hMerges]
  by_cases hSame : Json.fileText tree = text
  · rw [if_pos hSame]
    refine ⟨rfl, Disk.Rewritten.refl other, ?_⟩
    intro place
    by_cases hPlace : place = here
    · subst hPlace
      simp [carryOut, hNode, hSame]
    · simp [carryOut, hPlace]
  · rw [if_neg hSame]
    have hWrite :=
      Disk.writeAt_of_readText hRead hHere
        (.text (Json.fileText tree))
    simp only [carryOut, hWrite, true_and]
    refine ⟨Disk.rewritten_place hNode _, ?_⟩
    intro place
    exact Disk.node?_place hNode (by simp) place

/- A file that is merged holds the merged tree afterwards. -/
theorem alone_of_merges
    {text : String}
    {destination tree : Json}
    (hMerges :
      Merges canonical disk resource text destination tree) :
    (alone canonical disk resource).result =
        .ok
          (mergedEntry canonical resource text destination
            tree) ∧
      ∀ here,
        resource.LeadsTo disk here →
          (alone canonical disk resource).disk.node? here =
            some (.file (.text (Json.fileText tree))) := by
  rcases Disk.readText_ok_iff.mp hMerges.read with
    ⟨place, hPlace, _, _⟩
  rcases carryOut_of_merges hMerges hMerges.read hPlace with
    ⟨hResult, _, hNodes⟩
  refine ⟨hResult, ?_⟩
  intro here hHere
  rw [Resource.LeadsTo, hPlace] at hHere
  cases hHere
  exact (hNodes place).trans (if_pos rfl)

/- A file that is not merged stays as it is. -/
theorem alone_of_fault
    {fault : Fault}
    (hFault :
      mergedTree canonical disk resource = .error fault) :
    alone canonical disk resource =
      ⟨disk, [], .error fault⟩ := by
  rw [alone, plan_of_fault hFault]
  rfl

/- Where it is left like this, the merged tree is read. -/
theorem readText_of_merges
    {text : String}
    {destination tree : Json}
    (hMerges :
      Merges canonical disk resource text destination tree)
    (hRewritten : disk.Rewritten other)
    (hFile :
      ∀ here,
        resource.LeadsTo disk here →
          other.node? here =
            (alone canonical disk resource).disk.node? here) :
    other.readText (Path.ofString resource.path) =
      .ok (Json.fileText tree) := by
  rcases Disk.readText_ok_iff.mp hMerges.read with
    ⟨here, hHere, _, hOnly⟩
  refine Disk.readText_ok_iff.mpr ⟨here, ?_, ?_, hOnly⟩
  · rw [hRewritten.resolve_eq]
    exact hHere
  · rw [hFile here hHere]
    exact (alone_of_merges hMerges).2 here hHere

------------------------------------------------------------
-- Other Files
------------------------------------------------------------

/- A plan does not depend on what is in other files. -/
theorem plan_of_rewritten
    (hRewritten : disk.Rewritten other)
    (hSame :
      ∀ here,
        resource.LeadsTo disk here →
          other.node? here = disk.node? here) :
    plan canonical other resource =
      plan canonical disk resource := by
  unfold plan
  rw [hRewritten.readText_eq hSame]

/-
  What is done about a file depends on this file alone, and
  changes nothing but this file.
-/
theorem carryOut_of_rewritten
    (hRewritten : disk.Rewritten other)
    (hSame :
      ∀ here,
        resource.LeadsTo disk here →
          other.node? here = disk.node? here) :
    let outcome :=
      carryOut other resource (plan canonical disk resource).2
    outcome.result = (alone canonical disk resource).result ∧
      other.Rewritten outcome.disk ∧
      (∀ here,
        resource.LeadsTo disk here →
          outcome.disk.node? here =
            (alone canonical disk resource).disk.node?
              here) ∧
      ∀ place,
        ¬ resource.LeadsTo disk place →
          outcome.disk.node? place = other.node? place := by
  cases hTree : mergedTree canonical disk resource with
  | error fault =>
      rw [alone_of_fault hTree, plan_of_fault hTree]
      exact
        ⟨rfl, Disk.Rewritten.refl other, hSame,
          fun _ _ => rfl⟩
  | ok tree =>
      rcases mergedTree_ok_iff.mp hTree with
        ⟨text, destination, hMerges⟩
      have hRead :
          other.readText (Path.ofString resource.path) =
            .ok text := by
        rw [hRewritten.readText_eq hSame]
        exact hMerges.read
      rcases Disk.readText_ok_iff.mp hMerges.read with
        ⟨place, hPlace, _, _⟩
      have hOther : resource.LeadsTo other place := by
        rw [Resource.LeadsTo, hRewritten.resolve_eq]
        exact hPlace
      rcases carryOut_of_merges hMerges hRead hOther with
        ⟨hResult, hAfter, hNodes⟩
      rcases alone_of_merges hMerges with
        ⟨hAloneResult, hAloneNodes⟩
      refine
        ⟨hResult.trans hAloneResult.symm, hAfter, ?_, ?_⟩
      · intro here hHere
        rw [hAloneNodes here hHere, hNodes here]
        rw [Resource.LeadsTo, hPlace] at hHere
        cases hHere
        exact if_pos rfl
      · intro here hNot
        rw [hNodes here, if_neg]
        rintro rfl
        exact hNot hPlace

/- Alone, a resource changes nothing but its file. -/
theorem rewritten_alone
    (canonical : Json)
    (disk : Disk)
    (resource : Resource) :
    disk.Rewritten (alone canonical disk resource).disk ∧
      ∀ here,
        ¬ resource.LeadsTo disk here →
          (alone canonical disk resource).disk.node? here =
            disk.node? here := by
  have hOutcome :=
    @carryOut_of_rewritten canonical disk disk resource
      (.refl disk) fun _ _ => rfl
  exact ⟨hOutcome.2.1, hOutcome.2.2.2⟩

end Synchronization

end HostBindings
