import HostBindings.Proofs.Elaboration.Stages

/-
  Where the stages of methods are placed.

  Between the stage of a class and that of the next class
  there are only methods of the former.  So an emitter that
  remembers the latest class knows the class of any method.

  Main declarations:
    * `Run.Stage.currentClass`
    * `Run.Placed`
    * `Run.placed_append`
    * `Run.placed_idealStages`
-/

------------------------------------------------------------
-- Placed Stages
------------------------------------------------------------

namespace HostBindings

namespace Run

/- The latest class after a stage, given the one before. -/
def Stage.currentClass
    (current : Option ProxyClass) : Stage → Option ProxyClass
| .object proxyClass => some proxyClass
| _ => current

/- A method is placed where its class is the latest one. -/
def Stage.IsPlaced
    (current : Option ProxyClass) : Stage → Prop
| .function proxyClass _ => current = some proxyClass
| _ => True

/- All stages are placed, given the latest class before. -/
def Placed : Option ProxyClass → List Stage → Prop
| _, [] => True
| current, stage :: rest =>
    stage.IsPlaced current ∧
      Placed (stage.currentClass current) rest

/- The latest class after a list of stages. -/
def classAfter
    (current : Option ProxyClass)
    (stages : List Stage) : Option ProxyClass :=
  stages.foldl Stage.currentClass current

variable {current : Option ProxyClass}

@[simp]
theorem currentClass_describe
    (moduleName : String)
    (outcome : Except Fault Unit) :
    (Stage.describe moduleName outcome).currentClass current =
      current := rfl

@[simp]
theorem currentClass_object (proxyClass : ProxyClass) :
    (Stage.object proxyClass).currentClass current =
      some proxyClass := rfl

@[simp]
theorem currentClass_function
    (proxyClass : ProxyClass)
    (method : Method) :
    (Stage.function proxyClass method).currentClass current =
      current := rfl

/- Stages are placed part by part. -/
theorem placed_append {first second : List Stage} :
    Placed current (first ++ second) ↔
      Placed current first ∧
        Placed (classAfter current first) second := by
  induction first generalizing current with
  | nil => simp [Placed, classAfter]
  | cons stage first ih =>
      rw [List.cons_append, Placed, Placed, ih, and_assoc]
      rfl

------------------------------------------------------------
-- Stages of Modules
------------------------------------------------------------

/- The methods of the latest class are placed. -/
theorem placed_functions
    (proxyClass : ProxyClass)
    (methods : List Method) :
    Placed (some proxyClass)
      (methods.map (.function proxyClass)) := by
  induction methods with
  | nil => trivial
  | cons method methods ih => exact ⟨rfl, ih⟩

/- Classes with their methods are placed anywhere. -/
theorem placed_classes
    (current : Option ProxyClass)
    (classes : List ProxyClass) :
    Placed current (classes.flatMap classStages) := by
  induction classes generalizing current with
  | nil => trivial
  | cons proxyClass classes ih =>
      rw [List.flatMap_cons, placed_append]
      exact
        ⟨⟨trivial, placed_functions proxyClass _⟩, ih _⟩

/- So are modules one after the other. -/
theorem placed_stagesFrom
    (current : Option ProxyClass)
    (session : Session)
    (modules : List ProxyModule) :
    Placed current (stagesFrom session modules) := by
  induction modules generalizing current session with
  | nil => trivial
  | cons module modules ih =>
      rw [stagesFrom, placed_append]
      exact ⟨⟨trivial, placed_classes current _⟩, ih _ _⟩

/- Whatever a run has gone through is placed. -/
theorem placed_of_prefix
    {stages : List Stage}
    {modules : List ProxyModule}
    (hPrefix : stages <+: idealStages modules) :
    Placed none stages := by
  rcases hPrefix with ⟨rest, hRest⟩
  have hPlaced := placed_stagesFrom none Session.start modules
  rw [← idealStages, ← hRest, placed_append] at hPlaced
  exact hPlaced.1

end Run

end HostBindings
