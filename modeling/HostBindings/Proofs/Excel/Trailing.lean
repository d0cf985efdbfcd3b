import HostBindings.Proofs.Excel.Blocks
import HostBindings.Proofs.Excel.Gathered
import HostBindings.Proofs.Registration.Ordered

/-
  Optional parameters come last in what is emitted.

  The parameters of a method that a run comes to are well
  ordered.  So nothing that must be given is written behind
  something that can be left out: neither in a wrapper, where
  the context of the call may come behind the parameters, nor
  in an entry.

  Main declarations:
    * `Run.wellOrdered_of_emission`
    * `Excel.TypedName.IsMarked`
    * `Excel.Wrapper.OptionalTrail`
    * `Excel.FunctionEntry.OptionalTrail`
    * `Excel.optional_parameters_trail`
-/

------------------------------------------------------------
-- Emissions
------------------------------------------------------------

namespace HostBindings

namespace Run

/-
  Whatever the emitter is, a function is emitted only for a
  method whose parameters are well ordered.
-/
theorem wellOrdered_of_emission
    {σ : Type}
    {emitter : Emitter σ}
    {catalog : Option Catalog}
    {modules : List ProxyModule}
    {state : σ}
    {e : Emission}
    (hMem :
      e ∈ (run emitter catalog modules
        state).calls.filterMap Call.visible?) :
    Parameter.WellOrdered e.method.parameters :=
  wellOrdered_of_mem_idealStages (stage_of_emission hMem).1

end Run

------------------------------------------------------------
-- Wrappers
------------------------------------------------------------

namespace Excel

/- A parameter is written with a question mark. -/
def TypedName.IsMarked (p : TypedName) : Prop :=
  p.render = p.name ++ "?: " ++ p.typeText

/- Behind a parameter that is marked, all others are too. -/
def Wrapper.OptionalTrail (w : Wrapper) : Prop :=
  w.parameters.Pairwise fun earlier later =>
    earlier.IsMarked → later.IsMarked

/- The mark is there for what can be left out. -/
theorem isMarked_iff {p : TypedName} :
    p.IsMarked ↔ p.presence = .omittable := by
  unfold TypedName.IsMarked TypedName.render
  rw [← String.toList_inj]
  cases p.presence <;> simp

/-
  A parameter can be left out if it is not required and the
  context of the call does not follow.
-/
theorem isMarked_typedName_iff
    {followed : Bool}
    {p : Parameter} :
    (typedName followed p).IsMarked ↔
      p.isRequired = false ∧ followed = false := by
  rw [isMarked_iff, typedName, Parameter.isRequired_effective]
  cases p.isRequired <;> cases followed <;> simp

/- Nothing follows when the context is not taken. -/
theorem invocationParameter_eq_nil
    {method : Method}
    (hNot : takesInvocation method = false)
    (resultType : String) :
    invocationParameter method resultType = [] := by
  rw [takesInvocation, Bool.or_eq_false_iff] at hNot
  simp [invocationParameter, hNot]

/- At most one parameter is there for the context. -/
theorem pairwise_invocationParameter
    (relation : TypedName → TypedName → Prop)
    (method : Method)
    (resultType : String) :
    (invocationParameter method resultType).Pairwise
      relation := by
  unfold invocationParameter
  split
  · exact List.pairwise_singleton _ _
  · split
    · exact List.pairwise_singleton _ _
    · exact List.Pairwise.nil

/- The wrapper of a well-ordered method has its order. -/
theorem optionalTrail_wrapper
    {method : Method}
    (hOrdered : Parameter.WellOrdered method.parameters)
    (object : String)
    (function : ProxyFunction) :
    (wrapper object method function).OptionalTrail := by
  refine
    List.pairwise_append.mpr
      ⟨?_, pairwise_invocationParameter _ _ _, ?_⟩
  · rw [List.pairwise_map]
    apply hOrdered.2.imp
    intro earlier later hRequired hMarked
    rw [isMarked_typedName_iff] at hMarked ⊢
    refine ⟨?_, hMarked.2⟩
    -- if the later one were required, so would be the earlier
    apply Bool.eq_false_of_not_eq_true
    intro hLater
    rw [hRequired hLater] at hMarked
    cases hMarked.1
  · intro earlier hEarlier later hLater hMarked
    rcases List.mem_map.mp hEarlier with ⟨p, _, rfl⟩
    rw [invocationParameter_eq_nil
      (isMarked_typedName_iff.mp hMarked).2] at hLater
    cases hLater

------------------------------------------------------------
-- Entries
------------------------------------------------------------

/- Behind a parameter that is optional, all others are too. -/
def FunctionEntry.OptionalTrail
    (entry : FunctionEntry) : Prop :=
  entry.parameters.Pairwise fun earlier later =>
    earlier.isOptional = true → later.isOptional = true

/- Entries are optional for parameters that are not required. -/
theorem isOptional_of_forall₂
    {parameters : List Parameter}
    {entries : List ParameterEntry}
    (hEntries :
      List.Forall₂ ParameterEntry.IsOf parameters entries) :
    entries.map (·.isOptional) =
      parameters.map fun p => !p.isRequired := by
  induction hEntries with
  | nil => rfl
  | cons hEntry hRest ih =>
      rcases hEntry with ⟨texts, rfl⟩
      simp [ih, parameterEntry]

/- The entry of a well-ordered method has its order. -/
theorem optionalTrail_entryOf
    {e : Emission}
    (hOrdered : Parameter.WellOrdered e.method.parameters)
    (options : Options) :
    (entryOf options e).OptionalTrail := by
  have hParameters :=
    (isEntryOf_entryOf options e).parameters
  have hPairwise :
      ((entryOf options e).parameters.map
          (·.isOptional)).Pairwise
        fun earlier later =>
          earlier = true → later = true := by
    rw [isOptional_of_forall₂ hParameters, List.pairwise_map]
    apply hOrdered.2.imp
    intro earlier later hRequired
    cases hLater : later.isRequired with
    | false => simp
    | true => simp [hRequired hLater]
  exact List.pairwise_map.mp hPairwise

------------------------------------------------------------
-- Runs
------------------------------------------------------------

/-
  After any run, there is one wrapper and one entry for every
  visible function that has been emitted, and the optional
  parameters come last in each of them.
-/
theorem optional_parameters_trail
    (options : Options)
    (catalog : Option Catalog)
    (modules : List ProxyModule)
    (workspace : Workspace) :
    let report :=
      run (emitter options) catalog modules workspace
    let bindings := report.state.bindings
    let emissions := report.calls.filterMap Call.visible?
    List.Forall₂
        (fun e w =>
          (∃ object, w = wrapper object e.method e.function) ∧
            w.OptionalTrail)
        emissions bindings.wrappers ∧
      List.Forall₂
        (fun e entry =>
          entry = entryOf options e ∧ entry.OptionalTrail)
        emissions bindings.entries := by
  intro report bindings emissions
  have hOrdered :
      ∀ e ∈ emissions,
        Parameter.WellOrdered e.method.parameters :=
    fun e hMem => Run.wellOrdered_of_emission hMem
  rcases inStep_of_run options catalog modules workspace with
    ⟨latest, classes, hInStep⟩
  constructor
  · have hWrappers :=
      (List.forall₂_and_left _ _).mpr
        ⟨hOrdered, hInStep.wrappers⟩
    apply hWrappers.imp
    rintro e w ⟨hWell, object, _, _, rfl⟩
    exact
      ⟨⟨object.name, rfl⟩,
        optionalTrail_wrapper hWell object.name e.function⟩
  · have hEntries :=
      (List.forall₂_and_left _ _).mpr
        ⟨hOrdered, hInStep.isEntryOf⟩
    apply hEntries.imp
    rintro e entry ⟨hWell, rfl, _, _⟩
    exact ⟨rfl, optionalTrail_entryOf hWell options⟩

end Excel

end HostBindings
