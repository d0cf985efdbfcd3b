import HostBindings.Fault
import HostBindings.Json.Value
import HostBindings.Keyed
import HostBindings.Locale.Key

/-
  The canonical tree of translations.

  The tree holds an entry for every emitted function and for
  every parameter of one, and a placeholder for every text.
  Parameters are entered under their identity, variants below
  what they vary.  A function stands at the top level or in
  the group of its namespace, and no name is used for both.

  Key definitions include:
    * `ParameterNode`
    * `FunctionSlot`
    * `CanonicalTree`
    * `CanonicalTree.addParameter`
    * `CanonicalTree.addFunction`
    * `CanonicalTree.toJson`
-/

------------------------------------------------------------
-- Entries
------------------------------------------------------------

namespace HostBindings

/- A parameter entry: its place among siblings, and variants. -/
inductive ParameterNode where
| node
    (sortOrder : Option Int)
    (variants : List (String × ParameterNode))
deriving Repr

/-
  What a name stands for among the functions: a function with
  the address of its documentation, or a namespace with the
  functions in it.
-/
inductive FunctionSlot where
| function (address : Option String)
| group (functions : Keyed String (Option String))
deriving DecidableEq, Repr

/- The entries, and where the documentation is. -/
structure CanonicalTree where
  documentationBase : Option String
  parameters : List (String × ParameterNode)
  functions : Keyed String FunctionSlot
deriving Repr

namespace ParameterNode

/- The sort order of an entry. -/
def sortOrder : ParameterNode → Option Int
| .node sortOrder _ => sortOrder

/- The variants of an entry. -/
def variants : ParameterNode → List (String × ParameterNode)
| .node _ variants => variants

end ParameterNode

------------------------------------------------------------
-- Entering Parameters
------------------------------------------------------------

namespace CanonicalTree

/- Drop the slashes at the end of an address. -/
def trimSlashes (address : String) : String :=
  String.ofList
    (address.toList.reverse.dropWhile (· == '/')).reverse

/- A tree without entries. -/
def empty (documentationBase : Option String) : CanonicalTree where
  documentationBase := documentationBase.map trimSlashes
  parameters := []
  functions := []

/-
  Enter the levels of an identity one below the other.  A
  level that is already there stays as it is.
-/
def enterLevels :
    List IdentityStep →
      List (String × ParameterNode) →
        List (String × ParameterNode)
| [], nodes => nodes
| (name, sortOrder) :: rest, nodes =>
    match Keyed.find? name nodes with
    | some node =>
        Keyed.put name
          (.node node.sortOrder
            (enterLevels rest node.variants))
          nodes
    | none =>
        Keyed.put name
          (.node sortOrder (enterLevels rest [])) nodes

/- The names that an entry uses for its own texts. -/
def isReserved (name : String) : Bool :=
  name == LocaleKey.name || name == LocaleKey.description

/-
  The levels of an identity up to the first variant with a
  reserved name, and that name.
-/
def splitReserved
    (path : List IdentityStep) :
    List IdentityStep × Option String :=
  match path with
  | [] => ([], none)
  | root :: variants =>
      (root :: variants.takeWhile (!isReserved ·.1),
        (variants.find? (isReserved ·.1)).map Prod.fst)

/-
  Enter a parameter.  Levels in front of a reserved name are
  entered even though the name itself is refused.
-/
def addParameter
    (tree : CanonicalTree)
    (p : Parameter) : CanonicalTree × Except Fault Unit :=
  let (levels, reserved) := splitReserved p.identityPath
  let tree :=
    { tree with
      parameters := enterLevels levels tree.parameters }
  match reserved with
  | some name => (tree, .error (.reservedParameter name))
  | none => (tree, .ok ())

------------------------------------------------------------
-- Entering Functions
------------------------------------------------------------

/- The address of the documentation of a function. -/
def address
    (tree : CanonicalTree)
    (nameSpace : Option String)
    (functionName : String) : Option String :=
  tree.documentationBase.map fun base =>
    match nameSpace with
    | some nameSpace =>
        base ++ "/" ++ nameSpace ++ "/" ++ functionName
    | none => base ++ "/" ++ functionName

/-
  Enter a function.  One that is already there stays as it
  is, and a name that stands for the other kind is refused.
-/
def addFunction
    (tree : CanonicalTree)
    (nameSpace : Option String)
    (functionName : String) :
    CanonicalTree × Except Fault Unit :=
  let address := tree.address nameSpace functionName
  match nameSpace with
  | some nameSpace =>
      match Keyed.find? nameSpace tree.functions with
      | some (.function _) =>
          (tree, .error (.duplicateFunction nameSpace))
      | some (.group functions) =>
          let slot :=
            FunctionSlot.group
              (Keyed.putIfNew functionName address functions)
          ({ tree with
              functions :=
                Keyed.put nameSpace slot tree.functions },
            .ok ())
      | none =>
          let slot :=
            FunctionSlot.group [(functionName, address)]
          ({ tree with
              functions :=
                Keyed.put nameSpace slot tree.functions },
            .ok ())
  | none =>
      match Keyed.find? functionName tree.functions with
      | some (.group _) =>
          (tree, .error (.duplicateFunction functionName))
      | some (.function _) => (tree, .ok ())
      | none =>
          ({ tree with
              functions :=
                Keyed.put functionName (.function address)
                  tree.functions },
            .ok ())

------------------------------------------------------------
-- The Tree as a Value
------------------------------------------------------------

/- The texts of an entry, still to be translated. -/
def untranslated : List (String × Json) :=
  [(LocaleKey.name, .string placeholder),
    (LocaleKey.description, .string placeholder)]

/- The entry of a function. -/
def functionJson (address : Option String) : Json :=
  .object
    (untranslated ++
      address.toList.map fun address =>
        (LocaleKey.documentation, .string address))

/- The entry of a name among the functions. -/
def slotJson : FunctionSlot → Json
| .function address => functionJson address
| .group functions =>
    .object
      (functions.map fun entry =>
        (entry.1, functionJson entry.2))

/- An entry with its name and its place among siblings. -/
structure Sibling where
  name : String
  sortOrder : Option Int
  value : Json

/-
  Entries with a sort order come first, in ascending order;
  others stay in order of arrival.
-/
def orderLe : Option Int → Option Int → Bool
| some m, some n => m ≤ n
| some _, none => true
| none, some _ => false
| none, none => true

/- Siblings in their order. -/
def sortSiblings
    (siblings : List Sibling) : List (String × Json) :=
  (siblings.mergeSort
    fun a b => orderLe a.sortOrder b.sortOrder).map
      fun sibling => (sibling.name, sibling.value)

mutual

/- The entry of a parameter: its texts and its variants. -/
def nodeJson : ParameterNode → Json
| .node _ variants =>
    .object (untranslated ++ sortSiblings (siblings variants))

/- The entries of parameters on one level. -/
def siblings : List (String × ParameterNode) → List Sibling
| [] => []
| (name, node) :: rest =>
    ⟨name, node.sortOrder, nodeJson node⟩ :: siblings rest

end

/- The tree as a value. -/
def toJson (tree : CanonicalTree) : Json :=
  .object
    [(LocaleKey.parameters,
      .object (sortSiblings (siblings tree.parameters))),
    (LocaleKey.functions,
      .object
        (tree.functions.map fun entry =>
          (entry.1, slotJson entry.2)))]

end CanonicalTree

end HostBindings
