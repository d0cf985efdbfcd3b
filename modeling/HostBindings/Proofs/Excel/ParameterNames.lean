import HostBindings.Proofs.Excel.Names
import HostBindings.Proofs.Excel.Trailing

/-
  The names of the parameters of a wrapper.

  A registration has checked that the parameters of a method
  have distinct names.  Behind them, a wrapper may take the
  context of the call, whose name nobody has checked.  So the
  names are distinct exactly when the context is not taken or
  no parameter of the method has its name.

  Main declarations:
    * `Excel.Wrapper.parameterNames`
    * `Excel.parameterNames_wrapper`
    * `Excel.nodup_parameterNames_iff`
    * `Excel.parameter_names_of_run`
-/

------------------------------------------------------------
-- Parameter Names
------------------------------------------------------------

namespace HostBindings

namespace Excel

/- The names of the parameters of a wrapper, in order. -/
def Wrapper.parameterNames (w : Wrapper) : List String :=
  w.parameters.map (·.name)

/- The name for the context of a call, if it is taken. -/
def invocationNames (method : Method) : List String :=
  if takesInvocation method then [invocation] else []

variable {method : Method}

/- The context of a call has one name, streamed or not. -/
theorem names_invocationParameter
    (method : Method)
    (resultType : String) :
    (invocationParameter method resultType).map (·.name) =
      invocationNames method := by
  unfold invocationParameter invocationNames takesInvocation
  cases method.isStream <;> cases method.needsContext <;> rfl

/- A wrapper has the names of its method and the context. -/
theorem parameterNames_wrapper
    (object : String)
    (method : Method)
    (function : ProxyFunction) :
    (wrapper object method function).parameterNames =
      method.parameters.map (·.effective.name) ++
        invocationNames method := by
  simp only [Wrapper.parameterNames, wrapper, List.map_append,
    List.map_map, names_invocationParameter]
  rfl

/-
  The names of a well-ordered method stay distinct exactly
  when none of them is taken again for the context.
-/
theorem nodup_parameterNames_iff
    (hOrdered : Parameter.WellOrdered method.parameters)
    (object : String)
    (function : ProxyFunction) :
    (wrapper object method function).parameterNames.Nodup ↔
      (takesInvocation method = true →
        invocation ∉
          method.parameters.map (·.effective.name)) := by
  have hNames :
      (method.parameters.map (·.effective.name)).Nodup := by
    simpa using hOrdered.1
  rw [parameterNames_wrapper, invocationNames]
  by_cases hTakes : takesInvocation method = true
  · rw [if_pos hTakes, ← List.concat_eq_append,
      List.nodup_concat]
    simp only [hNames, hTakes, and_true, true_implies]
  · rw [if_neg hTakes, List.append_nil]
    exact
      ⟨fun _ hTaken => absurd hTaken hTakes, fun _ => hNames⟩

------------------------------------------------------------
-- Runs
------------------------------------------------------------

/-
  After any run, the parameters of a wrapper are named as the
  parameters of its method in effect, with the context of the
  call behind them if the method is streamed or needs it.
  These names are distinct unless a parameter of such a method
  is itself named like the context.
-/
theorem parameter_names_of_run
    (options : Options)
    (catalog : Option Catalog)
    (modules : List ProxyModule)
    (workspace : Workspace) :
    let report :=
      run (emitter options) catalog modules workspace
    let emissions := report.calls.filterMap Call.visible?
    List.Forall₂
      (fun e w =>
        let names :=
          e.method.parameters.map (·.effective.name)
        (∃ object, w = wrapper object e.method e.function) ∧
          w.parameterNames =
            names ++ invocationNames e.method ∧
          (w.parameterNames.Nodup ↔
            (takesInvocation e.method = true →
              invocation ∉ names)))
      emissions report.state.bindings.wrappers := by
  intro report emissions
  have hOrdered :
      ∀ e ∈ emissions,
        Parameter.WellOrdered e.method.parameters :=
    fun e hMem => Run.wellOrdered_of_emission hMem
  rcases inStep_of_run options catalog modules workspace with
    ⟨latest, classes, hInStep⟩
  have hWrappers :=
    (List.forall₂_and_left _ _).mpr
      ⟨hOrdered, hInStep.wrappers⟩
  apply hWrappers.imp
  rintro e w ⟨hWell, object, _, _, rfl⟩
  exact
    ⟨⟨object.name, rfl⟩, parameterNames_wrapper _ _ _,
      nodup_parameterNames_iff hWell _ _⟩

/-
  A parameter may be named like the context that its method
  needs.
-/
theorem parameter_names_of_invocation :
    ¬ ∀ (options : Options) (catalog : Option Catalog)
        (modules : List ProxyModule) (workspace : Workspace),
      ∀ w ∈ (run (emitter options) catalog modules
          workspace).state.bindings.wrappers,
        w.parameterNames.Nodup := by
  intro hNodup
  let traits : MethodTraits :=
    { MethodTraits.returns .string .matrix with
      needsContext := true }
  let module : ProxyModule :=
    ⟨"checks",
      .sequence
        [.method "CheckProxy" "check" traits
          [.new "invocation" .string .matrix true],
        .concreteClass "CheckProxy" none ⟨none, none, []⟩]⟩
  have hBoth :=
    hNodup plainOptions none [module] (.new (.empty []))
  revert hBoth
  decide +kernel

end Excel

end HostBindings
