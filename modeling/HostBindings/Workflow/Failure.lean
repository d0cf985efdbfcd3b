import HostBindings.Fault

/-
  Failures of the program.

  A failure is a cause within what was being done at the
  time, outermost first.

  Key definitions include:
    * `Failure`
    * `Failure.texts`
    * `Failure.render`
-/

------------------------------------------------------------
-- Failures
------------------------------------------------------------

namespace HostBindings

/- A fault of the generator, or a cause that is only a text. -/
inductive Cause where
| generator (fault : Fault)
| other (text : String)
deriving DecidableEq, Repr

namespace Cause

/- The wording of a cause. -/
def message : Cause → String
| .generator fault => fault.message
| .other text => text

end Cause

/- A cause and what was being done. -/
structure Failure where
  contexts : List String
  cause : Cause
deriving DecidableEq, Repr

namespace Failure

/- A fault while something was being done. -/
def ofFault (context : String) (fault : Fault) : Failure :=
  ⟨[context], .generator fault⟩

/- A cause by itself. -/
def ofText (text : String) : Failure :=
  ⟨[], .other text⟩

/- All texts, outermost first. -/
def texts (failure : Failure) : List String :=
  failure.contexts ++ [failure.cause.message]

------------------------------------------------------------
-- Report
------------------------------------------------------------

/- Indent the further lines of a text. -/
def indentLines (indent text : String) : String :=
  String.ofList
    (text.toList.flatMap fun c =>
      if c = '\n' then c :: indent.toList else [c])

/- Numbered causes, one to a line. -/
def numbered : Nat → List String → String
| _, [] => ""
| n, text :: rest =>
    let number := toString n
    let pad :=
      String.ofList (List.replicate (5 - number.length) ' ')
    "\n" ++ pad ++ number ++ ": " ++
      indentLines "       " text ++ numbered (n + 1) rest

/- The failure and its causes as they are reported. -/
def render (failure : Failure) : String :=
  match failure.texts with
  | [] => ""
  | [outer] => outer
  | [outer, cause] =>
      outer ++ "\n\nCaused by:\n    " ++
        indentLines "    " cause
  | outer :: causes =>
      outer ++ "\n\nCaused by:" ++ numbered 0 causes

end Failure

end HostBindings
