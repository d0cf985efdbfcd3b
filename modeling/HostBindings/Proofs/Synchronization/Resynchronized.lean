import HostBindings.Proofs.Synchronization.Rediscovery
import HostBindings.Proofs.Synchronization.Twice

/-
  Disks on which locale files have been brought in line.

  Such a disk has the same files as before, and there is
  nothing left to be done about those that were dealt with.
  This stays so as long as they hold the same texts.

  Main declarations:
    * `Synchronization.keys_synchronizeEach`
    * `Synchronization.rewritten_synchronize`
    * `Synchronization.exists_readText_of_ok`
    * `Synchronization.synchronizeEach_of_settled`
    * `Synchronization.synchronize_again`
-/

------------------------------------------------------------
-- Files That Stay
------------------------------------------------------------

namespace HostBindings

/- A location with a file is a key of the disk. -/
theorem Disk.mem_keys_of_file
    {disk : Disk}
    {here : Location}
    {content : Content}
    (hThere : disk.node? here = some (.file content)) :
    here ∈ disk.nodes.keys := by
  unfold node? at hThere
  split at hThere
  · cases hThere
  · exact Keyed.mem_keys_of_find? hThere

namespace Synchronization

variable {canonical : Json}
variable {disk later : Disk}
variable {resources : List Resource}

/- What is done about a file does not add any node. -/
theorem keys_alone
    (canonical : Json)
    (disk : Disk)
    (resource : Resource) :
    (alone canonical disk resource).disk.nodes.keys =
      disk.nodes.keys := by
  cases hTree : mergedTree canonical disk resource with
  | error fault => rw [alone_of_fault hTree]
  | ok tree =>
      rcases mergedTree_ok_iff.mp hTree with
        ⟨text, destination, hMerges⟩
      rcases Disk.readText_ok_iff.mp hMerges.read with
        ⟨here, hHere, hNode, _⟩
      rw [alone, plan_of_merges hMerges]
      by_cases hSame : Json.fileText tree = text
      · rw [if_pos hSame]
        rfl
      · have hWrite :=
          Disk.writeAt_of_readText hMerges.read hHere
            (.text (Json.fileText tree))
        rw [if_neg hSame]
        simp only [carryOut, hWrite, Disk.place,
          Keyed.keys_put]
        exact if_pos (Disk.mem_keys_of_file hNode)

/- Nor does bringing all files in line. -/
theorem keys_synchronizeEach
    (canonical : Json)
    (logChanges : Bool)
    (disk : Disk)
    (resources : List Resource) :
    (synchronizeEach canonical logChanges disk
        resources).1.nodes.keys =
      disk.nodes.keys := by
  induction resources generalizing disk with
  | nil => rfl
  | cons resource rest ih =>
      exact
        (ih _).trans (keys_alone canonical disk resource)

/-
  Texts are written into files that are there, and only into
  those of the resources.
-/
theorem rewritten_synchronizeEach
    (canonical : Json)
    (logChanges : Bool)
    (disk : Disk)
    (resources : List Resource) :
    disk.Rewritten
        (synchronizeEach canonical logChanges disk
          resources).1 ∧
      ∀ here,
        (∀ resource ∈ resources,
          ¬ resource.LeadsTo disk here) →
            (synchronizeEach canonical logChanges disk
                resources).1.node? here =
              disk.node? here := by
  induction resources generalizing disk with
  | nil => exact ⟨.refl disk, fun _ _ => rfl⟩
  | cons resource rest ih =>
      rcases rewritten_alone canonical disk resource with
        ⟨hFirst, hFirstFile⟩
      rcases ih (alone canonical disk resource).disk with
        ⟨hRest, hRestFiles⟩
      refine ⟨hFirst.trans hRest, ?_⟩
      intro here hNone
      rw [List.forall_mem_cons] at hNone
      have hLater :
          ∀ other ∈ rest,
            ¬ other.LeadsTo
              (alone canonical disk resource).disk here := by
        intro other hOther hLeads
        rw [Resource.LeadsTo, hFirst.resolve_eq] at hLeads
        exact hNone.2 other hOther hLeads
      exact
        (hRestFiles here hLater).trans
          (hFirstFile here hNone.1)

/- The disk is the same but for texts in its files. -/
theorem rewritten_synchronize
    (canonical : Json)
    (logChanges : Bool)
    (disk : Disk)
    (resources : List Resource) :
    disk.Rewritten
      (synchronize canonical logChanges disk
        resources).disk :=
  (rewritten_synchronizeEach canonical logChanges disk
    resources).1

/- Every file is as it is when it is dealt with alone. -/
theorem node?_synchronize
    {resource : Resource}
    {here : Location}
    (canonical : Json)
    (logChanges : Bool)
    (hApart : Resource.Apart disk resources)
    (hResource : resource ∈ resources)
    (hHere : resource.LeadsTo disk here) :
    (synchronize canonical logChanges disk
        resources).disk.node? here =
      (alone canonical disk resource).disk.node? here := by
  have hNode :=
    Interleaving.node?_follow canonical hApart
      (Interleaving.completes_inOrder resources) hResource
      hHere
  rw [Interleaving.follow_inOrder canonical
    logChanges] at hNode
  exact hNode

/- The result is that of all files by themselves. -/
theorem entries_aloneResults
    (canonical : Json)
    (logChanges : Bool)
    (hApart : Resource.Apart disk resources) :
    entries (aloneResults canonical disk resources) =
      (synchronize canonical logChanges disk
        resources).result := by
  rw [← Interleaving.results_synchronizeEach canonical
    logChanges hApart]
  rfl

/- Where all goes well, every file holds a text. -/
theorem exists_readText_of_ok
    {logChanges : Bool}
    {all : List Entry}
    (hApart : Resource.Apart disk resources)
    (hOk :
      (synchronize canonical logChanges disk
        resources).result = .ok all) :
    ∀ resource ∈ resources,
      ∃ text,
        (synchronize canonical logChanges disk
          resources).disk.readText
            (Path.ofString resource.path) = .ok text := by
  intro resource hResource
  rw [← entries_aloneResults canonical logChanges
    hApart] at hOk
  have hResults := entries_ok_iff.mp hOk
  have hMem :
      (alone canonical disk resource).result ∈
        all.map .ok := by
    rw [← hResults, aloneResults, List.map_map]
    exact List.mem_map.mpr ⟨resource, hResource, rfl⟩
  rcases List.mem_map.mp hMem with ⟨entry, _, hEntry⟩
  rcases alone_result_ok_iff.mp hEntry.symm with
    ⟨text, destination, tree, hMerges, _⟩
  refine ⟨Json.fileText tree, ?_⟩
  apply
    readText_of_merges hMerges
      (rewritten_synchronize canonical logChanges _ _)
  exact fun here hHere =>
    node?_synchronize canonical logChanges hApart hResource
      hHere

------------------------------------------------------------
-- Nothing Left to Be Done
------------------------------------------------------------

/- Where all results are settled, nothing changes. -/
theorem synchronizeEach_of_settled
    {resultOf : Resource → Except Fault Entry}
    (logChanges : Bool)
    (hSettled :
      ∀ resource ∈ resources,
        (plan canonical disk resource).2 =
          .settle (resultOf resource)) :
    (synchronizeEach canonical logChanges disk
        resources).1 = disk ∧
      (synchronizeEach canonical logChanges disk
        resources).2.2 =
          resources.map fun resource =>
            (resource, resultOf resource) := by
  induction resources with
  | nil => exact ⟨rfl, rfl⟩
  | cons resource rest ih =>
      have hFirst :=
        hSettled resource List.mem_cons_self
      have hOne :
          (synchronizeOne canonical logChanges disk
              resource).disk = disk ∧
            (synchronizeOne canonical logChanges disk
              resource).result = resultOf resource := by
        simp only [synchronizeOne, hFirst, carryOut,
          and_self]
      rcases ih fun other hOther =>
          hSettled other (List.mem_cons_of_mem _ hOther) with
        ⟨hDisk, hResults⟩
      simp only [synchronizeEach, hOne.1, hOne.2, hDisk,
        hResults, List.map_cons, and_self]

/- A plan depends on nothing but the text of its file. -/
theorem plan_of_readText
    {resource : Resource}
    (hRead :
      later.readText (Path.ofString resource.path) =
        disk.readText (Path.ofString resource.path)) :
    plan canonical later resource =
      plan canonical disk resource := by
  unfold plan
  rw [hRead]

/-
  Files that were brought in line once, and that hold the
  same texts on another disk, are in line there.
-/
theorem synchronize_again
    {logChanges : Bool}
    {all : List Entry}
    (hPlain : CanonicalTree.Plain canonical)
    (hNesting : canonical.nesting ≤ Json.maxNesting)
    (hApart : Resource.Apart disk resources)
    (hDoubles :
      ∀ resource ∈ resources,
        ∀ tree,
          resource.loadTree disk = .ok tree →
            tree.DoublesReadBack)
    (hOk :
      (synchronize canonical logChanges disk
        resources).result = .ok all)
    (hRead :
      ∀ resource ∈ resources,
        later.readText (Path.ofString resource.path) =
          (synchronize canonical logChanges disk
            resources).disk.readText
              (Path.ofString resource.path)) :
    (synchronize canonical logChanges later
        resources).disk = later ∧
      (synchronize canonical logChanges later
        resources).result =
          .ok (all.map Entry.unchanged) := by
  have hSettled :
      ∀ resource ∈ resources,
        (plan canonical later resource).2 =
          .settle
            ((alone canonical disk resource).result.map
              Entry.unchanged) := by
    intro resource hResource
    rw [plan_of_readText (hRead resource hResource)]
    apply
      plan_again hPlain hNesting (hDoubles resource hResource)
        (rewritten_synchronize canonical logChanges _ _)
    exact fun here hHere =>
      node?_synchronize canonical logChanges hApart hResource
        hHere
  rcases synchronizeEach_of_settled logChanges hSettled with
    ⟨hDisk, hResults⟩
  refine ⟨hDisk, ?_⟩
  rw [← entries_aloneResults canonical logChanges
    hApart] at hOk
  have hUnchanged :
      (synchronizeEach canonical logChanges later
          resources).2.2 =
        (aloneResults canonical disk resources).map
          unchangedResult := by
    rw [hResults, aloneResults, List.map_map]
    rfl
  have hAll :
      entries
          ((aloneResults canonical disk resources).map
            unchangedResult) =
        .ok (all.map Entry.unchanged) := by
    rw [Interleaving.entries_map_unchangedResult, hOk]
    rfl
  rw [← hUnchanged] at hAll
  exact hAll

end Synchronization

end HostBindings
