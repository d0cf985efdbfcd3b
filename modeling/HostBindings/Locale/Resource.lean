import HostBindings.Disk.Store
import HostBindings.Json.Reader
import HostBindings.Locale.Catalog
import HostBindings.Locale.Code
import HostBindings.Log

/-
  Locale files.

  A directory holds one file for each locale, named by its
  code with the extension `json`.

  Key definitions include:
    * `Resource`
    * `Resource.classify`
    * `Resource.ofEntries`
    * `Resource.discover`
    * `Catalog.load`
-/

------------------------------------------------------------
-- Resources
------------------------------------------------------------

namespace HostBindings

/- A locale and the path of its file. -/
structure Resource where
  locale : Locale
  path : String
deriving DecidableEq

namespace Resource

/- The extension of locale files. -/
def extension : String :=
  "json"

/-
  What a name in a directory stands for: a resource, or a
  warning if the name has the right extension only.
-/
def classify
    (directory : String) :
    FileName → Option (Except LogLine Resource)
| .bytes _ => none
| .text name =>
    match FileName.splitExtension name with
    | none => none
    | some (stem, suffix) =>
        if suffix = extension then
          let path := Path.join directory name
          match Locale.ofCode stem with
          | .ok locale => some (.ok ⟨locale, path⟩)
          | .error _ =>
              some (.error (.warn ("Skipping " ++ path ++
                ": not a locale code")))
        else
          none

/- A resource rather than a warning. -/
def found? : Except LogLine Resource → Option Resource
| .ok resource => some resource
| .error _ => none

/- A warning rather than a resource. -/
def skipped? : Except LogLine Resource → Option LogLine
| .ok _ => none
| .error line => some line

/- The resources among the names, in the order of locales. -/
def ofEntries
    (directory : String)
    (names : List FileName) : List Resource :=
  ((names.filterMap (classify directory)).filterMap
    found?).mergeSort fun a b => a.locale.le b.locale

/- The warnings about names that are passed over. -/
def warnings
    (directory : String)
    (names : List FileName) : List LogLine :=
  (names.filterMap (classify directory)).filterMap skipped?

/- The resources in a directory, if there is one. -/
def discover
    (disk : Disk)
    (directory : String) : List LogLine × List Resource :=
  let path := Path.ofString directory
  if disk.isDirectory path then
    let names := disk.entries path
    (warnings directory names, ofEntries directory names)
  else
    ([.warn ("Locale directory " ++ directory ++
      " not found")], [])

------------------------------------------------------------
-- Loading
------------------------------------------------------------

/- The tree in the file of a resource. -/
def loadTree
    (disk : Disk)
    (resource : Resource) : Except Fault Json :=
  match disk.readText (Path.ofString resource.path) with
  | .error fault => .error (.file fault)
  | .ok text =>
      match Json.read text with
      | none => .error .malformedJson
      | some tree => .ok tree

end Resource

namespace Catalog

/- Load resources into a catalog. -/
def loadInto
    (disk : Disk)
    (catalog : Catalog) :
    List Resource → Except Fault Catalog
| [] => .ok catalog
| resource :: rest =>
    match resource.loadTree disk with
    | .error fault => .error fault
    | .ok tree =>
        loadInto disk (catalog.insert resource.locale tree) rest

/- The catalog of all given resources. -/
def load
    (disk : Disk)
    (policy : LookupPolicy)
    (resources : List Resource) : Except Fault Catalog :=
  loadInto disk (empty policy) resources

end Catalog

end HostBindings
