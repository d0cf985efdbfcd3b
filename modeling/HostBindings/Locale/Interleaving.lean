import HostBindings.Locale.Synchronization

/-
  Locale files that are revised side by side.

  The work on a file takes two steps: the file is read, and
  what has been planned for it is carried out.  The steps of
  several files may come in any order, given by a schedule
  that says whose turn it is.

  Key definitions include:
    * `Interleaving.Stage`
    * `Interleaving.Task`
    * `Interleaving.State`
    * `Interleaving.step`
    * `Interleaving.follow`
    * `Interleaving.results?`
-/

------------------------------------------------------------
-- Tasks
------------------------------------------------------------

namespace HostBindings

namespace Interleaving

open Synchronization

/- How far the work on a file has come. -/
inductive Stage where
| unread
| planned (plan : Plan)
| settled (result : Except Fault Entry)

/- The work on the file of a resource. -/
structure Task where
  resource : Resource
  stage : Stage

namespace Task

/- Work that has not begun. -/
def new (resource : Resource) : Task :=
  ⟨resource, .unread⟩

/- The next step of a task, and the disk after it. -/
def advance
    (canonical : Json)
    (disk : Disk)
    (task : Task) : Disk × Task :=
  match task.stage with
  | .unread =>
      (disk,
        { task with
          stage :=
            .planned (plan canonical disk task.resource).2 })
  | .planned plan =>
      let outcome := carryOut disk task.resource plan
      (outcome.disk, { task with stage := .settled outcome.result })
  | .settled _ => (disk, task)

/- The result of a task that has come to its end. -/
def result? (task : Task) :
    Option (Resource × Except Fault Entry) :=
  match task.stage with
  | .settled result => some (task.resource, result)
  | _ => none

end Task

------------------------------------------------------------
-- Schedules
------------------------------------------------------------

/- The disk, and the tasks in the order of the resources. -/
structure State where
  disk : Disk
  tasks : List Task

/- All work is still to be done. -/
def start (disk : Disk) (resources : List Resource) : State :=
  ⟨disk, resources.map Task.new⟩

/- The task at a position makes its next step. -/
def step
    (canonical : Json)
    (state : State)
    (turn : Nat) : State :=
  match state.tasks[turn]? with
  | none => state
  | some task =>
      let (disk, task) := task.advance canonical state.disk
      ⟨disk, state.tasks.set turn task⟩

/- Tasks make their steps as a schedule says. -/
def follow
    (canonical : Json)
    (state : State)
    (schedule : List Nat) : State :=
  schedule.foldl (step canonical) state

/- The results when all tasks have come to their end. -/
def results? (state : State) :
    Option (List (Resource × Except Fault Entry)) :=
  state.tasks.mapM Task.result?

end Interleaving

end HostBindings
