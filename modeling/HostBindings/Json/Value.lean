import HostBindings.Keyed

/-
  JSON values.

  The members of an object keep their order.  An object that
  has been read or built holds every key once; values for
  which this holds throughout are well keyed.

  Key definitions include:
    * `Number`
    * `Json`
    * `Json.Kind`
    * `Json.kind`
    * `Json.member?`
    * `Json.textAt?`
    * `Json.WellKeyed`
    * `Json.Textual`
    * `Json.IntegersOnly`
    * `Json.nesting`
-/

------------------------------------------------------------
-- Values
------------------------------------------------------------

namespace HostBindings

/-
  A number is an integer of up to 64 bits or else a double,
  which is given by its bits.
-/
inductive Number where
| integer (value : Int)
| double (bits : UInt64)
deriving DecidableEq, Repr

/- JSON values with ordered members. -/
inductive Json where
| null
| bool (value : Bool)
| number (value : Number)
| string (text : String)
| array (items : List Json)
| object (members : List (String × Json))
deriving Inhabited, Repr

namespace Json

------------------------------------------------------------
-- Equality
------------------------------------------------------------

mutual

/- Equality of two values is decidable. -/
def decEq : (v w : Json) → Decidable (v = w)
| .null, w => by
    cases w <;>
      first
      | exact isTrue rfl
      | exact isFalse (fun h => by cases h)
| .bool b, w => by
    cases w with
    | bool c =>
        exact decidable_of_iff (b = c) (by simp)
    | _ => exact isFalse (fun h => by cases h)
| .number m, w => by
    cases w with
    | number n =>
        exact decidable_of_iff (m = n) (by simp)
    | _ => exact isFalse (fun h => by cases h)
| .string s, w => by
    cases w with
    | string t =>
        exact decidable_of_iff (s = t) (by simp)
    | _ => exact isFalse (fun h => by cases h)
| .array vs, w => by
    cases w with
    | array ws =>
        have := decEqItems vs ws
        exact decidable_of_iff (vs = ws) (by simp)
    | _ => exact isFalse (fun h => by cases h)
| .object ms, w => by
    cases w with
    | object ns =>
        have := decEqMembers ms ns
        exact decidable_of_iff (ms = ns) (by simp)
    | _ => exact isFalse (fun h => by cases h)

/- Equality of two lists of values is decidable. -/
def decEqItems :
    (vs ws : List Json) → Decidable (vs = ws)
| [], [] => isTrue rfl
| [], _ :: _ => isFalse (fun h => by cases h)
| _ :: _, [] => isFalse (fun h => by cases h)
| v :: vs, w :: ws =>
    have := decEq v w
    have := decEqItems vs ws
    decidable_of_iff (v = w ∧ vs = ws) (by simp)

/- Equality of two lists of members is decidable. -/
def decEqMembers :
    (ms ns : List (String × Json)) → Decidable (ms = ns)
| [], [] => isTrue rfl
| [], _ :: _ => isFalse (fun h => by cases h)
| _ :: _, [] => isFalse (fun h => by cases h)
| (k, v) :: ms, (l, w) :: ns =>
    have := decEq v w
    have := decEqMembers ms ns
    decidable_of_iff (k = l ∧ v = w ∧ ms = ns)
      (by simp [and_assoc])

end

instance : DecidableEq Json := decEq

------------------------------------------------------------
-- Kinds
------------------------------------------------------------

/- The six kinds of value. -/
inductive Kind where
| null
| boolean
| number
| string
| array
| object
deriving DecidableEq, Repr

namespace Kind

/- The word for a kind. -/
def name : Kind → String
| .null => "null"
| .boolean => "boolean"
| .number => "number"
| .string => "string"
| .array => "array"
| .object => "object"

end Kind

/- The kind of a value. -/
def kind : Json → Kind
| .null => .null
| .bool _ => .boolean
| .number _ => .number
| .string _ => .string
| .array _ => .array
| .object _ => .object

------------------------------------------------------------
-- Reaching Inside
------------------------------------------------------------

/- The value of a member; only objects have members. -/
def member? (key : String) : Json → Option Json
| .object members => Keyed.find? key members
| _ => none

/- The value reached from a value along a path of keys. -/
def at? : List String → Json → Option Json
| [], v => some v
| key :: path, v =>
    match v.member? key with
    | none => none
    | some w => at? path w

/- The text of a string value. -/
def text? : Json → Option String
| .string s => some s
| _ => none

/- The text at the end of a path of keys. -/
def textAt? (path : List String) (v : Json) : Option String :=
  (at? path v).bind text?

------------------------------------------------------------
-- Shapes
------------------------------------------------------------

mutual

/- Every object inside the value holds every key once. -/
def WellKeyed : Json → Prop
| .array items => WellKeyedItems items
| .object members =>
    Keyed.Distinct members ∧ WellKeyedMembers members
| _ => True

/- Well-keyed values throughout a list. -/
def WellKeyedItems : List Json → Prop
| [] => True
| v :: rest => WellKeyed v ∧ WellKeyedItems rest

/- Well-keyed values throughout a list of members. -/
def WellKeyedMembers : List (String × Json) → Prop
| [] => True
| (_, v) :: rest => WellKeyed v ∧ WellKeyedMembers rest

end

mutual

/- The value is built of objects and strings alone. -/
def Textual : Json → Prop
| .string _ => True
| .object members => TextualMembers members
| _ => False

/- Textual values throughout a list of members. -/
def TextualMembers : List (String × Json) → Prop
| [] => True
| (_, v) :: rest => Textual v ∧ TextualMembers rest

end

mutual

/- Every number inside the value is an integer. -/
def IntegersOnly : Json → Prop
| .number (.double _) => False
| .array items => IntegersOnlyItems items
| .object members => IntegersOnlyMembers members
| _ => True

/- Integers only throughout a list. -/
def IntegersOnlyItems : List Json → Prop
| [] => True
| v :: rest => IntegersOnly v ∧ IntegersOnlyItems rest

/- Integers only throughout a list of members. -/
def IntegersOnlyMembers : List (String × Json) → Prop
| [] => True
| (_, v) :: rest =>
    IntegersOnly v ∧ IntegersOnlyMembers rest

end

mutual

/- How many arrays and objects enclose the deepest value. -/
def nesting : Json → Nat
| .array items => nestingItems items + 1
| .object members => nestingMembers members + 1
| _ => 0

/- The deepest nesting in a list. -/
def nestingItems : List Json → Nat
| [] => 0
| v :: rest => max (nesting v) (nestingItems rest)

/- The deepest nesting in a list of members. -/
def nestingMembers : List (String × Json) → Nat
| [] => 0
| (_, v) :: rest => max (nesting v) (nestingMembers rest)

end

end Json

end HostBindings
