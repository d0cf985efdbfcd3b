import HostBindings.Elaboration.Emitter
import HostBindings.Locale.CanonicalTree

/-
  The emitter that collects the canonical tree.

  Hidden functions are not documented and so not collected.
  The tree is there only after a run that went well.

  Key definitions include:
    * `Collector`
    * `Collector.respond`
    * `Collector.emitter`
-/

------------------------------------------------------------
-- Collecting
------------------------------------------------------------

namespace HostBindings

/- The tree being built, and the one that is complete. -/
structure Collector where
  documentationBase : Option String
  tree : CanonicalTree
  canonical : Option Json

namespace Collector

/- A collector that has not been run. -/
def new (documentationBase : Option String) : Collector where
  documentationBase := documentationBase
  tree := .empty documentationBase
  canonical := none

/- Enter parameters up to the first that is refused. -/
def addParameters :
    CanonicalTree → List Parameter →
      CanonicalTree × Except Fault Unit
| tree, [] => (tree, .ok ())
| tree, p :: rest =>
    match tree.addParameter p with
    | (tree, .ok ()) => addParameters tree rest
    | (tree, .error fault) => (tree, .error fault)

/- Enter the parameters of a function and then itself. -/
def addFunction
    (tree : CanonicalTree)
    (parameters : List Parameter)
    (function : ProxyFunction) :
    CanonicalTree × Except Fault Unit :=
  match addParameters tree parameters with
  | (tree, .error fault) => (tree, .error fault)
  | (tree, .ok ()) =>
      tree.addFunction function.nameSpace function.name

/- What a call leads to. -/
def respond (c : Collector) : Call → Response Collector
| .prepare => .ok (new c.documentationBase)
| .object _ => .ok c
| .function _ method function =>
    if method.isHidden then
      .ok c
    else
      let (tree, result) :=
        addFunction c.tree method.parameters function
      ⟨{ c with tree := tree }, [], result⟩
| .finish success =>
    if success then
      .ok { c with canonical := some c.tree.toJson }
    else
      .ok c

/- The collecting emitter. -/
def emitter : Emitter Collector :=
  ⟨respond⟩

end Collector

end HostBindings
