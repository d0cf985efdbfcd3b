import HostBindings.Fault
import HostBindings.Json.Value
import HostBindings.Keyed
import HostBindings.Locale.Key
import HostBindings.Log

/-
  Merging a tree into a translated tree.

  Texts of the destination are never overwritten.  Keys that
  the source no longer has are removed, except at the root,
  where sections written by hand are kept.  Keys that only
  the source has are added on request.

  Key definitions include:
    * `Merge.Change`
    * `Merge.Report`
    * `Merge.mergeValues`
    * `Merge.mergeRoots`
-/

------------------------------------------------------------
-- Changes
------------------------------------------------------------

namespace HostBindings

namespace Merge

/- A key that has been added or removed. -/
inductive Change where
| added (path : List String)
| removed (path : List String)
deriving DecidableEq, Repr

namespace Change

/- The path of an added key. -/
def added? : Change → Option (List String)
| .added path => some path
| .removed _ => none

/- The path of a removed key. -/
def removed? : Change → Option (List String)
| .removed path => some path
| .added _ => none

/- The line of the log for a change. -/
def logLine (label : String) : Change → LogLine
| .added path => .info (label ++ ": added " ++ dotted path)
| .removed path =>
    .info (label ++ ": removed " ++ dotted path)

end Change

/- The keys that a merge has added and removed. -/
structure Report where
  added : List String
  removed : List String
deriving DecidableEq, Repr

namespace Report

/- The report on a list of changes. -/
def ofChanges (changes : List Change) : Report where
  added := (changes.filterMap Change.added?).map dotted
  removed := (changes.filterMap Change.removed?).map dotted

/- Whether nothing was added and nothing removed. -/
def isUnchanged (report : Report) : Bool :=
  report.added.isEmpty && report.removed.isEmpty

end Report

/-
  A result with the changes that led to it; changes made
  before a fault are kept.
-/
structure Outcome (α : Type) where
  changes : List Change
  result : Except Fault α

------------------------------------------------------------
-- Merging
------------------------------------------------------------

/- Values of kinds that cannot be merged. -/
def conflict
    (path : String)
    (source destination : Json) : Fault :=
  .schemaMismatch path source.kind destination.kind

/- The members that only the source has. -/
def missingMembers
    (source destination : List (String × Json)) :
    List (String × Json) :=
  source.filter fun entry => !Keyed.has entry.1 destination

/-
  Put the members that only the source has after those that
  are kept.
-/
def appendMissing
    (addMissing : Bool)
    (path : List String)
    (source destination : List (String × Json))
    (kept : Outcome (List (String × Json))) : Outcome Json :=
  match kept.result with
  | .error fault => ⟨kept.changes, .error fault⟩
  | .ok members =>
      if addMissing then
        let missing := missingMembers source destination
        ⟨kept.changes ++
            missing.map fun entry =>
              Change.added (path ++ [entry.1]),
          .ok (.object (members ++ missing))⟩
      else
        ⟨kept.changes, .ok (.object members)⟩

/- Put a kept member in front of those after it. -/
def keepMember
    (key : String)
    (value : Outcome Json)
    (rest : Outcome (List (String × Json))) :
    Outcome (List (String × Json)) :=
  match value.result with
  | .error fault => ⟨value.changes, .error fault⟩
  | .ok v =>
      ⟨value.changes ++ rest.changes,
        rest.result.map ((key, v) :: ·)⟩

mutual

/-
  Merge a value into another one at the same place.  Objects
  are merged member by member, and texts of the destination
  stay.
-/
def mergeValues
    (addMissing : Bool)
    (path : List String)
    (source : Json) : Json → Outcome Json
| .object destination =>
    match source with
    | .object members =>
        appendMissing addMissing path members destination
          (mergeMembers addMissing path members destination)
    | _ =>
        ⟨[], .error (conflict (dotted path) source
          (.object destination))⟩
| .string text =>
    match source with
    | .string _ => ⟨[], .ok (.string text)⟩
    | _ =>
        ⟨[], .error (conflict (dotted path) source
          (.string text))⟩
| destination =>
    ⟨[], .error (conflict (dotted path) source destination)⟩

/-
  The members of the destination that are kept, merged with
  those of the source.
-/
def mergeMembers
    (addMissing : Bool)
    (path : List String)
    (source : List (String × Json)) :
    List (String × Json) → Outcome (List (String × Json))
| [] => ⟨[], .ok []⟩
| (key, destination) :: rest =>
    match Keyed.find? key source with
    | some value =>
        keepMember key
          (mergeValues addMissing (path ++ [key]) value
            destination)
          (mergeMembers addMissing path source rest)
    | none =>
        if path = [] then
          keepMember key ⟨[], .ok destination⟩
            (mergeMembers addMissing path source rest)
        else
          let merged :=
            mergeMembers addMissing path source rest
          ⟨.removed (path ++ [key]) :: merged.changes,
            merged.result⟩

end

/- Merge a tree into another one; both must be objects. -/
def mergeRoots
    (addMissing : Bool)
    (source destination : Json) : Outcome Json :=
  match source, destination with
  | .object _, .object _ =>
      mergeValues addMissing [] source destination
  | _, _ =>
      ⟨[], .error (conflict "<root>" source destination)⟩

end Merge

end HostBindings
