import HostBindings.Fault
import HostBindings.Keyed

/-
  Lineages of classes.

  Every declared class names its direct base, or none.  The
  lineage of a class is the class followed by its ancestors,
  nearest first.

  Key definitions include:
    * `ClassGraph`
    * `ClassGraph.climb`
    * `ClassGraph.lineage`
    * `ClassGraph.IsLineage`
-/

------------------------------------------------------------
-- Class Graphs
------------------------------------------------------------

namespace HostBindings

/- The declared classes with their direct bases. -/
abbrev ClassGraph :=
  Keyed String (Option String)

namespace ClassGraph

/-
  Climb from a class to its ancestors.  The classes visited
  so far are kept nearest to the present one first.  A climb
  that is longer than there are classes runs in a circle.
-/
def climb
    (graph : ClassGraph)
    (start : String) :
    Nat → List String → String →
      Except Fault (List String)
| 0, _, _ => .error (.hierarchyCycle start)
| steps + 1, visited, current =>
    if current ∈ visited then
      .error (.hierarchyCycle start)
    else
      match Keyed.find? current graph with
      | none =>
          match visited with
          | [] => .error (.unknownClass current)
          | derived :: _ =>
              .error (.unknownBaseClass derived current)
      | some none => .ok (current :: visited).reverse
      | some (some base) =>
          climb graph start steps (current :: visited) base

/- The class followed by its ancestors, nearest first. -/
def lineage
    (graph : ClassGraph)
    (className : String) : Except Fault (List String) :=
  climb graph className (graph.length + 1) [] className

/-
  A list of classes in which each is followed by its declared
  base, and the last one has none.
-/
def IsLineage (graph : ClassGraph) : List String → Prop
| [] => False
| [last] => Keyed.find? last graph = some none
| derived :: base :: rest =>
    Keyed.find? derived graph = some (some base) ∧
      IsLineage graph (base :: rest)

end ClassGraph

end HostBindings
