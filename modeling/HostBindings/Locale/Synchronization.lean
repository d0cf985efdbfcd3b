import HostBindings.Json.Printer
import HostBindings.Locale.Completeness
import HostBindings.Locale.Merge
import HostBindings.Locale.Resource

/-
  Bringing locale files in line with the canonical tree.

  Every file is revised by itself: it is read in full, merged
  with the canonical tree, and written only if its text
  changes.  A file that cannot be revised is left alone and
  does not keep the others from being revised.

  Key definitions include:
    * `Synchronization.Revision`
    * `Synchronization.revise`
    * `Synchronization.Entry`
    * `Synchronization.plan`
    * `Synchronization.carryOut`
    * `Synchronization.synchronizeOne`
    * `Synchronization.synchronize`
-/

------------------------------------------------------------
-- Revisions
------------------------------------------------------------

namespace HostBindings

namespace Synchronization

/- The new text of a locale file and what is said about it. -/
structure Revision where
  text : String
  report : Merge.Report
  completeness : Completeness
deriving DecidableEq, Repr

/-
  Revise the text of the file of a locale.  Only base locales
  receive keys that they lack.
-/
def revise
    (canonical : Json)
    (locale : Locale)
    (text : String) : Merge.Outcome Revision :=
  match Json.read text with
  | none => ⟨[], .error .malformedJson⟩
  | some destination =>
      let merged :=
        Merge.mergeRoots locale.isBase canonical destination
      ⟨merged.changes,
        merged.result.map fun tree =>
          { text := Json.fileText tree
            report := .ofChanges merged.changes
            completeness := .ofTree tree }⟩

------------------------------------------------------------
-- Single Files
------------------------------------------------------------

/- The result for a locale whose file has been revised. -/
structure Entry where
  locale : Locale
  report : Merge.Report
  completeness : Completeness
  written : Bool
deriving DecidableEq

/- A disk, lines of the log, and a result or a fault. -/
structure Outcome (α : Type) where
  disk : Disk
  log : List LogLine
  result : Except Fault α

/- The line of the log for a file that has been written. -/
def updated (path : String) (report : Merge.Report) : LogLine :=
  .info ("Updated " ++ path ++ " (" ++
    toString report.added.length ++ " added, " ++
    toString report.removed.length ++ " removed)")

/- The entry for a revision that is or is not written. -/
def entryOf
    (resource : Resource)
    (revision : Revision)
    (written : Bool) : Entry where
  locale := resource.locale
  report := revision.report
  completeness := revision.completeness
  written := written

/-
  What is to be done about a file that has been read: its
  result is settled, or a new text is to be written first.
-/
inductive Plan where
| settle (result : Except Fault Entry)
| write (text : String) (entry : Entry)

/- The plan for a revision of a text. -/
def planRevision
    (resource : Resource)
    (text : String)
    (revision : Revision) : Plan :=
  if revision.text = text then
    .settle (.ok (entryOf resource revision false))
  else
    .write revision.text (entryOf resource revision true)

/- Read the file of a resource and plan what to do about it. -/
def plan
    (canonical : Json)
    (disk : Disk)
    (resource : Resource) : List Merge.Change × Plan :=
  match disk.readText (Path.ofString resource.path) with
  | .error fault => ([], .settle (.error (.file fault)))
  | .ok text =>
      let revised := revise canonical resource.locale text
      match revised.result with
      | .error fault => (revised.changes, .settle (.error fault))
      | .ok revision =>
          (revised.changes, planRevision resource text revision)

/- Do what has been planned for the file of a resource. -/
def carryOut
    (disk : Disk)
    (resource : Resource) : Plan → Outcome Entry
| .settle result => ⟨disk, [], result⟩
| .write text entry =>
    match
      disk.writeAt (Path.ofString resource.path)
        (.text text) with
    | (disk, .error fault) => ⟨disk, [], .error (.file fault)⟩
    | (disk, .ok ()) =>
        ⟨disk, [updated resource.path entry.report], .ok entry⟩

/- Revise the file of one resource. -/
def synchronizeOne
    (canonical : Json)
    (logChanges : Bool)
    (disk : Disk)
    (resource : Resource) : Outcome Entry :=
  let (changes, plan) := plan canonical disk resource
  let log :=
    if logChanges then
      changes.map (Merge.Change.logLine resource.locale.code)
    else
      []
  let outcome := carryOut disk resource plan
  { outcome with log := log ++ outcome.log }

------------------------------------------------------------
-- All Files
------------------------------------------------------------

/- The results of all resources, one after the other. -/
def synchronizeEach
    (canonical : Json)
    (logChanges : Bool) :
    Disk → List Resource →
      Disk × List LogLine × List (Resource × Except Fault Entry)
| disk, [] => (disk, [], [])
| disk, resource :: rest =>
    let one := synchronizeOne canonical logChanges disk resource
    let (disk, log, results) :=
      synchronizeEach canonical logChanges one.disk rest
    (disk, one.log ++ log, (resource, one.result) :: results)

/- The line of the log for a failure. -/
def failure? :
    Resource × Except Fault Entry → Option LogLine
| (_, .ok _) => none
| (resource, .error fault) =>
    some (.error ("Failed to synchronize " ++ resource.path ++
      ": " ++ fault.message))

/- All entries, or the first fault. -/
def entries :
    List (Resource × Except Fault Entry) →
      Except Fault (List Entry)
| [] => .ok []
| (_, .error fault) :: _ => .error fault
| (_, .ok entry) :: rest =>
    match entries rest with
    | .error fault => .error fault
    | .ok more => .ok (entry :: more)

/-
  Revise the files of all resources.  The first fault is
  reported after all of them have been dealt with.
-/
def synchronize
    (canonical : Json)
    (logChanges : Bool)
    (disk : Disk)
    (resources : List Resource) : Outcome (List Entry) :=
  let (disk, log, results) :=
    synchronizeEach canonical logChanges disk resources
  ⟨disk, log ++ results.filterMap failure?, entries results⟩

end Synchronization

end HostBindings
