/-
  Parameters of proxy functions.

  A parameter is a root with every field set, or an extension
  of another parameter that sets some of the fields anew.
  What a chain of extensions amounts to is its effective
  parameter.  What it is called along the way is its identity,
  under which it is localized.

  Key definitions include:
    * `ValueType`
    * `Multiplicity`
    * `Parameter`
    * `Parameter.effective`
    * `Parameter.name`
    * `Parameter.isRequired`
    * `Parameter.chain`
    * `Parameter.identityPath`
    * `Parameter.WellOrdered`
-/

------------------------------------------------------------
-- Types of Values
------------------------------------------------------------

namespace HostBindings

/- The type of a value that a function takes or returns. -/
inductive ValueType where
| string
| number
| boolean
| any
deriving DecidableEq, Inhabited, Repr

/- The shape of a value. -/
inductive Multiplicity where
| singleton
| array
| matrix
deriving DecidableEq, Inhabited, Repr

------------------------------------------------------------
-- Parameters
------------------------------------------------------------

/- A parameter with every field set. -/
structure EffectiveParameter where
  name : String
  valueType : ValueType
  multiplicity : Multiplicity
  isRequired : Bool
deriving DecidableEq, Inhabited, Repr

/-
  The fields that an extension sets anew.  The sort order
  places it among its siblings and belongs to it alone.
-/
structure Overlay where
  name : Option String
  valueType : Option ValueType
  multiplicity : Option Multiplicity
  isRequired : Option Bool
  sortOrder : Option Int
deriving DecidableEq, Inhabited, Repr

/- A root parameter or an extension of another parameter. -/
inductive Parameter where
| root (fields : EffectiveParameter)
| extension (base : Parameter) (overlay : Overlay)
deriving DecidableEq, Inhabited, Repr

/- A name on the way to a parameter, with its sort order. -/
abbrev IdentityStep :=
  String × Option Int

namespace Overlay

/- An extension that sets nothing. -/
def none : Overlay :=
  ⟨.none, .none, .none, .none, .none⟩

end Overlay

namespace Parameter

/- A root parameter. -/
def new
    (name : String)
    (valueType : ValueType)
    (multiplicity : Multiplicity)
    (isRequired : Bool) : Parameter :=
  .root ⟨name, valueType, multiplicity, isRequired⟩

/- Lay every level over what its base amounts to. -/
def effective : Parameter → EffectiveParameter
| .root fields => fields
| .extension base overlay =>
    let fields := base.effective
    { name := overlay.name.getD fields.name
      valueType := overlay.valueType.getD fields.valueType
      multiplicity :=
        overlay.multiplicity.getD fields.multiplicity
      isRequired :=
        overlay.isRequired.getD fields.isRequired }

/- The name that the nearest level sets. -/
def name : Parameter → String
| .root fields => fields.name
| .extension base overlay =>
    match overlay.name with
    | some name => name
    | none => base.name

/- Whether the nearest level that says so requires it. -/
def isRequired : Parameter → Bool
| .root fields => fields.isRequired
| .extension base overlay =>
    match overlay.isRequired with
    | some isRequired => isRequired
    | none => base.isRequired

/- The sort order that the parameter itself sets. -/
def sortOrder : Parameter → Option Int
| .root _ => none
| .extension _ overlay => overlay.sortOrder

/- The parameter that this one extends. -/
def base? : Parameter → Option Parameter
| .root _ => none
| .extension base _ => some base

/- The levels of a parameter, root first. -/
def chain : Parameter → List Parameter
| .root fields => [.root fields]
| .extension base overlay =>
    base.chain ++ [.extension base overlay]

------------------------------------------------------------
-- Identity
------------------------------------------------------------

/- Add a level unless it keeps the name before it. -/
def extendPath
    (path : List IdentityStep)
    (level : Parameter) : List IdentityStep :=
  if path.getLast?.map Prod.fst = some level.name then
    path
  else
    path ++ [(level.name, level.sortOrder)]

/-
  The names along the chain, root first, each with the sort
  order of the level that brings it in.  Levels that keep the
  name share the identity of their base.
-/
def identityPath (parameter : Parameter) : List IdentityStep :=
  parameter.chain.foldl extendPath []

------------------------------------------------------------
-- Parameter Lists
------------------------------------------------------------

/-
  A list of parameters may be declared when its names are
  distinct and nothing required follows anything optional.
-/
def WellOrdered (parameters : List Parameter) : Prop :=
  (parameters.map name).Nodup ∧
    parameters.Pairwise fun earlier later =>
      later.isRequired = true → earlier.isRequired = true

instance
    (parameters : List Parameter) :
    Decidable (WellOrdered parameters) := by
  unfold WellOrdered
  infer_instance

end Parameter

end HostBindings
