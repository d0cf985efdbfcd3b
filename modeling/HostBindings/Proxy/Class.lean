import HostBindings.Proxy.Parameter

/-
  Methods and classes of proxies.

  Key definitions include:
    * `MethodTraits`
    * `Method`
    * `Replacement`
    * `ClassTraits`
    * `ProxyClass`
-/

------------------------------------------------------------
-- Methods
------------------------------------------------------------

namespace HostBindings

/-
  What is said about a method besides its name and its
  parameters: the value it returns, how it runs, and how its
  name takes up the infix of a class.  The anchor is the part
  of the name in front of which the infix goes.
-/
structure MethodTraits where
  valueType : ValueType
  multiplicity : Multiplicity
  isAsync : Bool
  isHidden : Bool
  isStream : Bool
  needsContext : Bool
  keepsName : Bool
  anchor : Option String
deriving DecidableEq, Repr

namespace MethodTraits

/- A method that returns a value and has no other trait. -/
def returns
    (valueType : ValueType)
    (multiplicity : Multiplicity) : MethodTraits :=
  ⟨valueType, multiplicity, false, false, false, false,
    false, none⟩

end MethodTraits

/- A method with its parameters. -/
structure Method extends MethodTraits where
  name : String
  parameters : List Parameter
deriving DecidableEq, Repr

------------------------------------------------------------
-- Classes
------------------------------------------------------------

/- A parameter to be put in place of the one so named. -/
structure Replacement where
  name : String
  parameter : Parameter
deriving DecidableEq, Repr

/-
  What is said about a class besides its name and its base:
  the namespace of its functions, the infix for their names,
  and the parameters to be replaced in its methods.
-/
structure ClassTraits where
  nameSpace : Option String
  methodInfix : Option String
  replacements : List Replacement
deriving DecidableEq, Repr

namespace ClassTraits

/- A class without any trait. -/
def none : ClassTraits :=
  ⟨.none, .none, []⟩

end ClassTraits

/- A class with all its methods, inherited ones included. -/
structure ProxyClass extends ClassTraits where
  name : String
  baseName : Option String
  methods : List Method
deriving DecidableEq, Repr

end HostBindings
