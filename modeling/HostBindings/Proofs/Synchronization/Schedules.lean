import HostBindings.Locale.Interleaving
import HostBindings.Proofs.Synchronization.Plans

/-
  Locale files that are revised side by side.

  A task has read its file, or has done so and carried out
  its plan, depending on how many turns it had.  What it has
  done is what it would have done alone, as no other task
  touches its file.  So the schedule does not matter, as long
  as every task has its two turns.

  Main declarations:
    * `Resource.Apart`
    * `Interleaving.Follows`
    * `Interleaving.follows_step`
    * `Interleaving.follows_follow`
    * `Interleaving.results?_follow`
    * `Interleaving.node?_follow`
    * `Interleaving.follow_inOrder`
    * `Interleaving.results_synchronizeEach`
-/

------------------------------------------------------------
-- Resources Apart
------------------------------------------------------------

namespace HostBindings

namespace Resource

/-
  No two resources lead to the same location.  Different texts
  can name one path, as with a dot in it; what is meant by
  different paths is that they lead to different places.
-/
def Apart (disk : Disk) (resources : List Resource) : Prop :=
  resources.Pairwise fun first second =>
    ∀ here, first.LeadsTo disk here → ¬ second.LeadsTo disk here

/- A location belongs to the resource at one position. -/
theorem Apart.position_unique
    {disk : Disk}
    {resources : List Resource}
    {here : Location}
    {i j : Nat}
    {first second : Resource}
    (hApart : Apart disk resources)
    (hFirst : resources[i]? = some first)
    (hSecond : resources[j]? = some second)
    (hHere : first.LeadsTo disk here)
    (hThere : second.LeadsTo disk here) :
    i = j := by
  rcases List.getElem?_eq_some_iff.mp hFirst with
    ⟨hI, rfl⟩
  rcases List.getElem?_eq_some_iff.mp hSecond with
    ⟨hJ, rfl⟩
  have hPairs := List.pairwise_iff_getElem.mp hApart
  rcases Nat.lt_trichotomy i j with hLess | hSame | hMore
  · exact absurd hThere (hPairs i j hI hJ hLess here hHere)
  · exact hSame
  · exact absurd hHere (hPairs j i hJ hI hMore here hThere)

end Resource

namespace Interleaving

open Synchronization

variable {canonical : Json}
variable {disk other : Disk}
variable {resource : Resource}
variable {resources : List Resource}
variable {schedule : List Nat}

------------------------------------------------------------
-- One Task
------------------------------------------------------------

/- How far a task has come after a number of turns. -/
def stageAfter
    (canonical : Json)
    (disk : Disk)
    (resource : Resource) : Nat → Stage
| 0 => .unread
| 1 => .planned (plan canonical disk resource).2
| _ + 2 => .settled (alone canonical disk resource).result

/- The task after a number of turns. -/
def taskAfter
    (canonical : Json)
    (disk : Disk)
    (resource : Resource)
    (turns : Nat) : Task :=
  ⟨resource, stageAfter canonical disk resource turns⟩

/- What is at a location of a task after some turns. -/
def nodeAfter
    (canonical : Json)
    (disk : Disk)
    (resource : Resource)
    (here : Location) : Nat → Option Node
| _ + 2 => (alone canonical disk resource).disk.node? here
| _ => disk.node? here

/-
  A turn of a task brings it forward and does not touch the
  files of others.
-/
theorem advance_stageAfter
    (turns : Nat)
    (hRewritten : disk.Rewritten other)
    (hFile :
      ∀ here,
        resource.LeadsTo disk here →
          other.node? here =
            nodeAfter canonical disk resource here turns) :
    let after :=
      Task.advance canonical other
        (taskAfter canonical disk resource turns)
    after.2 =
        taskAfter canonical disk resource (turns + 1) ∧
      other.Rewritten after.1 ∧
      (∀ here,
        resource.LeadsTo disk here →
          after.1.node? here =
            nodeAfter canonical disk resource here
              (turns + 1)) ∧
      ∀ place,
        ¬ resource.LeadsTo disk place →
          after.1.node? place = other.node? place := by
  match turns with
  | 0 =>
      have hPlan :
          plan canonical other resource =
            plan canonical disk resource :=
        plan_of_rewritten hRewritten hFile
      refine ⟨?_, Disk.Rewritten.refl other, hFile, ?_⟩
      · simp only [Task.advance, taskAfter, stageAfter, hPlan]
      · exact fun _ _ => rfl
  | 1 =>
      rcases carryOut_of_rewritten hRewritten hFile with
        ⟨hResult, hAfter, hNodes, hOthers⟩
      refine ⟨?_, hAfter, hNodes, hOthers⟩
      simp only [Task.advance, taskAfter, stageAfter,
        hResult]
  | _ + 2 =>
      exact
        ⟨rfl, Disk.Rewritten.refl other, hFile,
          fun _ _ => rfl⟩

------------------------------------------------------------
-- Runs
------------------------------------------------------------

/-
  Every task is where its turns have brought it, its file is
  as it left it, and everything else is untouched.
-/
structure Follows
    (canonical : Json)
    (disk : Disk)
    (resources : List Resource)
    (schedule : List Nat)
    (state : State) : Prop where
  rewritten : disk.Rewritten state.disk
  tasks :
    ∀ position,
      state.tasks[position]? =
        resources[position]?.map fun resource =>
          taskAfter canonical disk resource
            (schedule.count position)
  files :
    ∀ position resource,
      resources[position]? = some resource →
        ∀ here,
          resource.LeadsTo disk here →
            state.disk.node? here =
              nodeAfter canonical disk resource here
                (schedule.count position)
  others :
    ∀ place,
      (∀ resource ∈ resources,
        ¬ resource.LeadsTo disk place) →
        state.disk.node? place = disk.node? place

/- Nothing has been done at the start. -/
theorem follows_start
    (canonical : Json)
    (disk : Disk)
    (resources : List Resource) :
    Follows canonical disk resources []
      (start disk resources) where
  rewritten := Disk.Rewritten.refl disk
  tasks := by
    intro position
    rw [start, List.getElem?_map]
    rfl
  files := fun _ _ _ _ _ => rfl
  others := fun _ _ => rfl

/- A turn counts for the task whose turn it is. -/
theorem count_turn
    (schedule : List Nat)
    (turn : Nat) :
    (schedule ++ [turn]).count turn =
      schedule.count turn + 1 := by
  simp [List.count_append]

/- It does not count for others. -/
theorem count_turn_of_ne
    {position turn : Nat}
    (hNe : position ≠ turn)
    (schedule : List Nat) :
    (schedule ++ [turn]).count position =
      schedule.count position := by
  simp [List.count_append, hNe.symm]

/- The turn of a task that there is. -/
theorem step_of_task
    {state : State}
    {turn : Nat}
    {task : Task}
    (hTask : state.tasks[turn]? = some task) :
    step canonical state turn =
      ⟨(task.advance canonical state.disk).1,
        state.tasks.set turn
          (task.advance canonical state.disk).2⟩ := by
  simp only [step, hTask]

/- The turn of a task that there is not. -/
theorem step_of_none
    {state : State}
    {turn : Nat}
    (hTask : state.tasks[turn]? = none) :
    step canonical state turn = state := by
  simp only [step, hTask]

/- A turn that is nobody's leaves all tasks where they are. -/
theorem follows_idle
    {state : State}
    {turn : Nat}
    (hFollows :
      Follows canonical disk resources schedule state)
    (hNobody : resources[turn]? = none) :
    Follows canonical disk resources (schedule ++ [turn])
      (step canonical state turn) := by
  have hTask := hFollows.tasks turn
  rw [hNobody, Option.map_none] at hTask
  have hCount :
      ∀ position resource,
        resources[position]? = some resource →
          (schedule ++ [turn]).count position =
            schedule.count position := by
    intro position resource hThere
    apply count_turn_of_ne
    rintro rfl
    rw [hNobody] at hThere
    cases hThere
  rw [step_of_none hTask]
  refine ⟨hFollows.rewritten, ?_, ?_, hFollows.others⟩
  · intro position
    rw [hFollows.tasks]
    cases hThere : resources[position]? with
    | none => rfl
    | some resource => rw [hCount position resource hThere]
  · intro position resource hThere
    rw [hCount position resource hThere]
    exact hFollows.files position resource hThere

/- A turn of a task brings this task forward. -/
theorem follows_turn
    {state : State}
    {turn : Nat}
    (hApart : Resource.Apart disk resources)
    (hFollows :
      Follows canonical disk resources schedule state)
    (hResource : resources[turn]? = some resource) :
    Follows canonical disk resources (schedule ++ [turn])
      (step canonical state turn) := by
  have hTask := hFollows.tasks turn
  rw [hResource, Option.map_some] at hTask
  rcases
    advance_stageAfter (schedule.count turn)
      hFollows.rewritten
      (hFollows.files turn resource hResource) with
    ⟨hAdvanced, hRewritten, hNodes, hOthers⟩
  rw [← count_turn] at hAdvanced hNodes
  rw [step_of_task hTask]
  refine ⟨hFollows.rewritten.trans hRewritten, ?_, ?_, ?_⟩
  · intro position
    by_cases hTurn : position = turn
    · subst hTurn
      rcases List.getElem?_eq_some_iff.mp hTask with
        ⟨hBound, _⟩
      simp only [hResource, Option.map_some, hAdvanced,
        List.getElem?_set_self hBound]
    · rw [List.getElem?_set_ne (Ne.symm hTurn),
        hFollows.tasks, count_turn_of_ne hTurn]
  · intro position there hThere here hHere
    by_cases hTurn : position = turn
    · subst hTurn
      rw [hResource] at hThere
      cases hThere
      exact hNodes here hHere
    · -- the location belongs to one resource alone
      have hElsewhere : ¬ resource.LeadsTo disk here :=
        fun hTurned =>
          hTurn
            (hApart.position_unique hThere hResource hHere
              hTurned)
      rw [count_turn_of_ne hTurn, hOthers here hElsewhere]
      exact
        hFollows.files position there hThere here hHere
  · intro place hPlace
    rw [hOthers place
      (hPlace resource (List.mem_of_getElem? hResource))]
    exact hFollows.others place hPlace

/- Each turn leaves every task where its turns brought it. -/
theorem follows_step
    {state : State}
    (hApart : Resource.Apart disk resources)
    (hFollows :
      Follows canonical disk resources schedule state)
    (turn : Nat) :
    Follows canonical disk resources (schedule ++ [turn])
      (step canonical state turn) := by
  cases hResource : resources[turn]? with
  | none => exact follows_idle hFollows hResource
  | some resource =>
      exact follows_turn hApart hFollows hResource

/- So does a whole schedule. -/
theorem follows_follow
    (canonical : Json)
    (hApart : Resource.Apart disk resources)
    (schedule : List Nat) :
    Follows canonical disk resources schedule
      (follow canonical (start disk resources) schedule) := by
  induction schedule using List.reverseRecOn with
  | nil =>
      exact follows_start canonical disk resources
  | append_singleton schedule turn ih =>
      rw [follow, List.foldl_append]
      exact follows_step hApart ih turn

------------------------------------------------------------
-- Complete Runs
------------------------------------------------------------

/- A schedule gives each of some tasks at least two turns. -/
def Completes (schedule : List Nat) (tasks : Nat) : Prop :=
  ∀ position < tasks, 2 ≤ schedule.count position

/- A task that had its turns has been dealt with. -/
theorem stageAfter_of_two_le
    {turns : Nat}
    (hTurns : 2 ≤ turns) :
    stageAfter canonical disk resource turns =
      .settled (alone canonical disk resource).result := by
  rcases Nat.exists_eq_add_of_le hTurns with ⟨more, rfl⟩
  rw [Nat.add_comm]
  rfl

/- So has its file. -/
theorem nodeAfter_of_two_le
    {here : Location}
    {turns : Nat}
    (hTurns : 2 ≤ turns) :
    nodeAfter canonical disk resource here turns =
      (alone canonical disk resource).disk.node? here := by
  rcases Nat.exists_eq_add_of_le hTurns with ⟨more, rfl⟩
  rw [Nat.add_comm]
  rfl

/- A task that has been settled. -/
def settledTask
    (one : Resource × Except Fault Entry) : Task :=
  ⟨one.1, .settled one.2⟩

/- The results of tasks that have all been settled. -/
theorem mapM_result?_settledTask
    (results : List (Resource × Except Fault Entry)) :
    (results.map settledTask).mapM Task.result? =
      some results := by
  induction results with
  | nil =>
      rfl
  | cons one rest ih =>
      rw [List.map_cons, List.mapM_cons, ih]
      rfl

/-
  In the end every resource has the result that it has when
  it is dealt with alone.
-/
theorem results?_follow
    (canonical : Json)
    (hApart : Resource.Apart disk resources)
    (hCompletes : Completes schedule resources.length) :
    results?
        (follow canonical (start disk resources) schedule) =
      some (aloneResults canonical disk resources) := by
  have hFollows := follows_follow canonical hApart schedule
  have hTasks :
      (follow canonical (start disk resources)
          schedule).tasks =
        (aloneResults canonical disk resources).map
          settledTask := by
    apply List.ext_getElem?
    intro position
    rw [hFollows.tasks, List.getElem?_map, aloneResults,
      List.getElem?_map]
    cases hThere : resources[position]? with
    | none => rfl
    | some resource =>
        rcases List.getElem?_eq_some_iff.mp hThere with
          ⟨hBound, _⟩
        rw [Option.map_some, Option.map_some, Option.map_some,
          taskAfter,
          stageAfter_of_two_le (hCompletes position hBound)]
        rfl
  rw [results?, hTasks]
  exact mapM_result?_settledTask _

/- In the end every file is as it is when dealt with alone. -/
theorem node?_follow
    {here : Location}
    (canonical : Json)
    (hApart : Resource.Apart disk resources)
    (hCompletes : Completes schedule resources.length)
    (hResource : resource ∈ resources)
    (hHere : resource.LeadsTo disk here) :
    (follow canonical (start disk resources)
        schedule).disk.node? here =
      (alone canonical disk resource).disk.node? here := by
  rcases List.getElem?_of_mem hResource with
    ⟨position, hThere⟩
  rcases List.getElem?_eq_some_iff.mp hThere with
    ⟨hBound, _⟩
  rw [← nodeAfter_of_two_le (hCompletes position hBound)]
  exact
    (follows_follow canonical hApart schedule).files position
      resource hThere here hHere

------------------------------------------------------------
-- One Resource after the Other
------------------------------------------------------------

/- The schedule in which tasks have their turns in order. -/
def inOrder : Nat → List Resource → List Nat
| _, [] => []
| position, _ :: rest =>
    position :: position :: inOrder (position + 1) rest

/-
  To deal with resources one after the other is to let their
  tasks have their turns in order.
-/
theorem synchronizeEach_eq_follow
    (canonical : Json)
    (logChanges : Bool)
    (disk : Disk)
    (done : List Task)
    (resources : List Resource) :
    follow canonical
        ⟨disk, done ++ resources.map Task.new⟩
        (inOrder done.length resources) =
      ⟨(synchronizeEach canonical logChanges disk
          resources).1,
        done ++
          (synchronizeEach canonical logChanges disk
            resources).2.2.map settledTask⟩ := by
  induction resources generalizing disk done with
  | nil =>
      rfl
  | cons resource rest ih =>
      have hTurns :
          step canonical
              (step canonical
                ⟨disk,
                  done ++
                    Task.new resource ::
                      rest.map Task.new⟩
                done.length)
              done.length =
            ⟨(synchronizeOne canonical logChanges disk
                resource).disk,
              (done ++
                [settledTask
                  (resource,
                    (synchronizeOne canonical logChanges
                      disk resource).result)]) ++
                rest.map Task.new⟩ := by
        simp [step, Task.advance, Task.new, settledTask,
          synchronizeOne]
      have hRest :=
        ih
          (synchronizeOne canonical logChanges disk
            resource).disk
          (done ++
            [settledTask
              (resource,
                (synchronizeOne canonical logChanges
                  disk resource).result)])
      rw [List.length_append, List.length_singleton] at hRest
      simp only [follow] at hRest ⊢
      rw [inOrder, List.foldl_cons, List.foldl_cons,
        List.map_cons, hTurns, hRest]
      simp [synchronizeEach]

/- In order, tasks before the first one have no turns. -/
theorem count_inOrder
    (start position : Nat)
    (resources : List Resource) :
    (inOrder start resources).count position =
      if start ≤ position ∧
          position < start + resources.length then 2
      else 0 := by
  induction resources generalizing start with
  | nil =>
      rw [if_neg (by simp)]
      rfl
  | cons resource rest ih =>
      simp only [inOrder, List.count_cons, ih,
        List.length_cons, beq_iff_eq]
      split_ifs <;> omega

/- In order, every task has its turns. -/
theorem completes_inOrder (resources : List Resource) :
    Completes (inOrder 0 resources) resources.length := by
  intro position hBound
  rw [count_inOrder, if_pos (by omega)]

/- Dealing with one resource after the other is a run. -/
theorem follow_inOrder
    (canonical : Json)
    (logChanges : Bool)
    (disk : Disk)
    (resources : List Resource) :
    follow canonical (start disk resources)
        (inOrder 0 resources) =
      ⟨(synchronizeEach canonical logChanges disk
          resources).1,
        (synchronizeEach canonical logChanges disk
          resources).2.2.map settledTask⟩ :=
  synchronizeEach_eq_follow canonical logChanges disk []
    resources

/-
  One after the other, every resource has the result that it
  has alone.
-/
theorem results_synchronizeEach
    (canonical : Json)
    (logChanges : Bool)
    (hApart : Resource.Apart disk resources) :
    (synchronizeEach canonical logChanges disk
        resources).2.2 =
      aloneResults canonical disk resources := by
  have hResults :=
    results?_follow canonical hApart
      (completes_inOrder resources)
  rw [follow_inOrder canonical logChanges, results?] at hResults
  exact
    Option.some.inj
      ((mapM_result?_settledTask _).symm.trans hResults)

end Interleaving

end HostBindings
