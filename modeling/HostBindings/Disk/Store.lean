import HostBindings.Disk.Path
import HostBindings.Keyed

/-
  A disk of files and directories.

  Locations are given from the root.  The working directory
  and everything above it are directories; any other location
  holds what has been put there.

  Key definitions include:
    * `FileFault`
    * `Content`
    * `Disk`
    * `Disk.resolve`
    * `Disk.locate`
    * `Disk.isDirectory`
    * `Disk.readText`
    * `Disk.entries`
    * `Disk.makeDirectories`
    * `Disk.write`
-/

------------------------------------------------------------
-- Faults
------------------------------------------------------------

namespace HostBindings

/- Why a file cannot be read or written. -/
inductive FileFault where
| notFound
| notDirectory
| isDirectory
| notText
| nameTooLong
| containsNul
deriving DecidableEq, Repr

namespace FileFault

/- The text of a fault. -/
def message : FileFault → String
| .notFound => "No such file or directory (os error 2)"
| .notDirectory => "Not a directory (os error 20)"
| .isDirectory => "Is a directory (os error 21)"
| .notText => "stream did not contain valid UTF-8"
| .nameTooLong => "File name too long (os error 36)"
| .containsNul =>
    "file name contained an unexpected NUL byte"

/- Why a path leads nowhere, whatever the disk holds. -/
def ofPath? (path : Path) : Option FileFault :=
  if path.hasNul then
    some .containsNul
  else if path.size = 0 then
    some .notFound
  else if Path.sizeLimit < path.size then
    some .nameTooLong
  else
    none

end FileFault

------------------------------------------------------------
-- Disks
------------------------------------------------------------

/- What a file holds: text, or bytes that are not text. -/
inductive Content where
| text (s : String)
| bytes (b : List UInt8)
deriving DecidableEq, Repr

namespace Content

/- The content that bytes make up. -/
def ofBytes (bytes : List UInt8) : Content :=
  match String.fromUTF8? (ByteArray.mk bytes.toArray) with
  | some s => .text s
  | none => .bytes bytes

end Content

/- A file or a directory. -/
inductive Node where
| file (content : Content)
| directory
deriving DecidableEq, Repr

/- A place on the disk: the names that lead to it. -/
abbrev Location :=
  List FileName

/- The working directory and the nodes of a disk. -/
structure Disk where
  home : Location
  nodes : Keyed Location Node
deriving DecidableEq, Repr

namespace Disk

/- A disk with nothing but a working directory. -/
def empty (home : Location) : Disk :=
  ⟨home, []⟩

/- What is at a location. -/
def node? (disk : Disk) (place : Location) : Option Node :=
  if place.isPrefixOf disk.home then
    some .directory
  else
    Keyed.find? place disk.nodes

/- Put a node at a location. -/
def place
    (disk : Disk)
    (location : Location)
    (node : Node) : Disk :=
  { disk with nodes := Keyed.put location node disk.nodes }

------------------------------------------------------------
-- Following Paths
------------------------------------------------------------

/- Where a path starts. -/
def origin (disk : Disk) (path : Path) : Location :=
  if path.fromRoot then [] else disk.home

/-
  The location to which steps lead.  Every step is taken in a
  directory, and every name fits; what is at the end need not
  exist.
-/
def follow
    (disk : Disk) :
    Location → List PathStep → Except FileFault Location
| here, [] => .ok here
| here, step :: rest =>
    match disk.node? here with
    | none => .error .notFound
    | some (.file _) => .error .notDirectory
    | some .directory =>
        match step with
        | .up => follow disk here.dropLast rest
        | .enter name =>
            if name.fits then
              follow disk (here ++ [name]) rest
            else
              .error .nameTooLong

/- The location to which a path leads. -/
def resolve
    (disk : Disk)
    (path : Path) : Except FileFault Location :=
  match FileFault.ofPath? path with
  | some fault => .error fault
  | none => disk.follow (disk.origin path) path.steps

/- The location of a path and what is there. -/
def locate
    (disk : Disk)
    (path : Path) : Except FileFault (Location × Node) :=
  match disk.resolve path with
  | .error fault => .error fault
  | .ok here =>
      match disk.node? here with
      | none => .error .notFound
      | some (.file content) =>
          if path.onlyDirectory then
            .error .notDirectory
          else
            .ok (here, .file content)
      | some .directory => .ok (here, .directory)

------------------------------------------------------------
-- Reading
------------------------------------------------------------

/- Whether a path leads to a directory. -/
def isDirectory (disk : Disk) (path : Path) : Bool :=
  match disk.locate path with
  | .ok (_, .directory) => true
  | _ => false

/- The text of the file to which a path leads. -/
def readText
    (disk : Disk)
    (path : Path) : Except FileFault String :=
  match disk.locate path with
  | .error fault => .error fault
  | .ok (_, .directory) => .error .isDirectory
  | .ok (_, .file (.bytes _)) => .error .notText
  | .ok (_, .file (.text s)) => .ok s

/- The name of a location directly inside another one. -/
def childName?
    (parent child : Location) : Option FileName :=
  match child.getLast? with
  | none => none
  | some name =>
      if child.dropLast = parent then some name else none

/- The names in the directory to which a path leads. -/
def entries (disk : Disk) (path : Path) : List FileName :=
  match disk.locate path with
  | .ok (here, .directory) =>
      disk.nodes.keys.filterMap (childName? here)
  | _ => []

------------------------------------------------------------
-- Writing
------------------------------------------------------------

/-
  Follow steps and make the directories that are missing on
  the way.  Directories made before a fault stay.
-/
def makeDirectories
    (disk : Disk) :
    Location → List PathStep →
      Disk × Except FileFault Unit
| _, [] => (disk, .ok ())
| here, .up :: rest =>
    makeDirectories disk here.dropLast rest
| here, .enter name :: rest =>
    let next := here ++ [name]
    if name.fits then
      match disk.node? next with
      | some (.file _) => (disk, .error .notDirectory)
      | some .directory => makeDirectories disk next rest
      | none =>
          makeDirectories (disk.place next .directory) next
            rest
    else
      (disk, .error .nameTooLong)

/-
  Make a directory and those above it where missing.  There
  is nothing to make for the empty path.
-/
def makeDirectory
    (disk : Disk)
    (path : Path) : Disk × Except FileFault Unit :=
  if path.size = 0 then
    (disk, .ok ())
  else
    match FileFault.ofPath? path with
    | some fault => (disk, .error fault)
    | none =>
        disk.makeDirectories (disk.origin path) path.steps

/-
  Put a file at the end of a path whose directories are
  there.
-/
def writeAt
    (disk : Disk)
    (path : Path)
    (content : Content) : Disk × Except FileFault Unit :=
  match disk.resolve path with
  | .error fault => (disk, .error fault)
  | .ok here =>
      match disk.node? here with
      | some .directory => (disk, .error .isDirectory)
      | some (.file _) =>
          if path.onlyDirectory then
            (disk, .error .notDirectory)
          else
            (disk.place here (.file content), .ok ())
      | none =>
          if path.onlyDirectory then
            (disk, .error .isDirectory)
          else
            (disk.place here (.file content), .ok ())

/- Write a file and make its directories where missing. -/
def write
    (disk : Disk)
    (path : Path)
    (content : Content) : Disk × Except FileFault Unit :=
  match disk.makeDirectory path.parent with
  | (disk, .error fault) => (disk, .error fault)
  | (disk, .ok ()) => disk.writeAt path content

end Disk

end HostBindings
