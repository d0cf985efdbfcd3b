import HostBindings.Fault
import HostBindings.Proxy.Class
import HostBindings.Text.Occurrence

/-
  Names of emitted functions.

  A class may have an infix, which tells its functions from
  those of its siblings.  It goes in front of the first
  occurrence of the anchor of a method, or to the end of the
  name if the method has no anchor.

  Key definitions include:
    * `functionName`
    * `qualifiedName`
-/

------------------------------------------------------------
-- Function Names
------------------------------------------------------------

namespace HostBindings

/- Put an infix into a name in front of an anchor. -/
def spliceName
    (name methodInfix anchor : String) : Option String :=
  (Text.splitAtFirst anchor.toList name.toList).map
    fun parts =>
      String.ofList parts.1 ++ methodInfix ++
        String.ofList parts.2

/- The name under which a method is emitted. -/
def functionName
    (methodInfix : Option String)
    (method : Method) : Except Fault String :=
  match methodInfix with
  | none => .ok method.name
  | some methodInfix =>
      if method.keepsName then
        .ok method.name
      else
        match method.anchor with
        | none => .ok (method.name ++ methodInfix)
        | some anchor =>
            match spliceName method.name methodInfix anchor with
            | some name => .ok name
            | none =>
                .error (.anchorNotFound method.name anchor)

/- The name of a function within its namespace. -/
def qualifiedName
    (nameSpace : Option String)
    (name : String) : String :=
  match nameSpace with
  | some nameSpace => nameSpace ++ "." ++ name
  | none => name

end HostBindings
