import HostBindings.Proofs.Registration.History

/-
  The methods that a class takes over from its lineage.

  A class has one method for every name that is declared
  along its lineage.  The names stand in the order in which
  they were first declared, most distant ancestor first, and
  each stands for its last declaration.  Registering classes
  changes nothing that other classes are resolved from.

  Main declarations:
    * `Session.registerClasses`
    * `Session.names_flatten`
    * `Session.names_flatten_prefix`
    * `Session.resolveClass_of_lineage`
    * `Session.registerClass_flattens`
-/

------------------------------------------------------------
-- Registered Siblings
------------------------------------------------------------

namespace HostBindings

namespace Session

/- Register classes, whether or not each of them resolves. -/
def registerClasses
    (session : Session)
    (siblings : List (String × ClassTraits)) : Session :=
  siblings.foldl
    (fun session sibling =>
      (session.registerClass sibling.1 sibling.2).1)
    session

/- Registering a class changes nothing but the queue. -/
theorem exists_queue_registerClass
    (session : Session)
    (className : String)
    (traits : ClassTraits) :
    ∃ queue,
      (session.registerClass className traits).1 =
        { session with queue := queue } := by
  rw [registerClass_eq]
  cases session.resolveClass className traits with
  | error fault => exact ⟨session.queue, rfl⟩
  | ok proxyClass => exact ⟨_, rfl⟩

/- Nor does registering several classes. -/
theorem exists_queue_registerClasses
    (session : Session)
    (siblings : List (String × ClassTraits)) :
    ∃ queue,
      session.registerClasses siblings =
        { session with queue := queue } := by
  induction siblings generalizing session with
  | nil =>
      exact ⟨session.queue, rfl⟩
  | cons sibling siblings ih =>
      rcases session.exists_queue_registerClass sibling.1
          sibling.2 with
        ⟨first, hFirst⟩
      rcases ih (session.registerClass sibling.1 sibling.2).1
        with ⟨queue, hQueue⟩
      refine ⟨queue, ?_⟩
      rw [registerClasses, List.foldl_cons]
      rw [registerClasses] at hQueue
      rw [hQueue, hFirst]

/- A class resolves after its siblings as it did before. -/
theorem resolveClass_registerClasses
    (session : Session)
    (siblings : List (String × ClassTraits))
    (className : String)
    (traits : ClassTraits) :
    (session.registerClasses siblings).resolveClass className
        traits =
      session.resolveClass className traits := by
  rcases session.exists_queue_registerClasses siblings with
    ⟨queue, hQueue⟩
  rw [hQueue]
  rfl

------------------------------------------------------------
-- Flattened Methods
------------------------------------------------------------

/- The names of flattened methods, as first declared. -/
theorem names_flatten (methods : List Method) :
    (flatten methods).map Method.name =
      (methods.map Method.name).eraseDups :=
  Keyed.map_key_values_collect _ _

/- More methods leave the names before them in place. -/
theorem names_flatten_prefix
    (earlier later : List Method) :
    (flatten earlier).map Method.name <+:
      (flatten (earlier ++ later)).map Method.name := by
  rw [names_flatten, names_flatten, List.map_append,
    List.eraseDups_append]
  exact List.prefix_append _ _

/- The methods of ancestors come before those of a class. -/
theorem inherited_append
    (session : Session)
    (derived ancestors : List String) :
    session.inherited (derived ++ ancestors) =
      session.inherited ancestors ++
        session.inherited derived := by
  rw [inherited, List.reverse_append, List.flatMap_append]
  rfl

/- The methods along a lineage are those declared there. -/
theorem inherited_run
    (operations : List Operation)
    (lineage : List String) :
    (History.run operations).session.inherited lineage =
      lineage.reverse.flatMap fun className =>
        declaredMethods className operations := by
  unfold inherited
  congr 1
  funext className
  exact methodsOf_run className operations

/-
  A class with a lineage and without replacements has the
  flattened methods of its lineage.
-/
theorem resolveClass_of_lineage
    {session : Session}
    {className : String}
    {traits : ClassTraits}
    {lineage : List String}
    (hLineage : session.graph.IsLineage lineage)
    (hHead : lineage.head? = some className)
    (hNone : traits.replacements = []) :
    session.resolveClass className traits =
      .ok
        { traits with
          name := className
          baseName := lineage[1]?
          methods := flatten (session.inherited lineage) } := by
  rw [resolveClass_ok_iff]
  refine
    ⟨lineage, flatten (session.inherited lineage),
      ClassGraph.lineage_ok_iff.mpr ⟨hLineage, hHead⟩, ?_,
      rfl⟩
  rw [substitute_ok_iff, hNone]
  simp [Method.replace_nil]

------------------------------------------------------------
-- Registered Classes
------------------------------------------------------------

/-
  Whatever was done with a session before: a class whose
  lineage resolves, and which replaces no parameters, is
  queued with one method for every name declared along its
  lineage.  The names are in the order of their first
  declarations, each stands for its last declaration, and so
  those of the ancestors come first in their own order.
  Nothing but the queue changes, and the class is the same
  whichever classes were registered before it.
-/
theorem registerClass_flattens
    {operations : List Operation}
    {className : String}
    {traits : ClassTraits}
    {lineage : List String}
    (hLineage :
      (History.run operations).session.graph.IsLineage
        lineage)
    (hHead : lineage.head? = some className)
    (hNone : traits.replacements = []) :
    ∃ methods : List Method,
      (∀ siblings : List (String × ClassTraits),
        let session :=
          (History.run operations).session.registerClasses
            siblings
        session.registerClass className traits =
          ({ session with
              queue :=
                session.queue ++
                  [{ traits with
                      name := className
                      baseName := lineage[1]?
                      methods := methods }] }, .ok ())) ∧
      (let declared :=
        lineage.reverse.flatMap fun level =>
          declaredMethods level operations
      methods.map Method.name =
          (declared.map Method.name).eraseDups ∧
        ∀ method ∈ methods,
          (declared.reverse.find? fun other =>
            other.name = method.name) = some method) ∧
      (∀ derived ancestors,
        lineage = derived ++ ancestors →
          ((ancestors.reverse.flatMap fun level =>
            declaredMethods level operations).map
              Method.name).eraseDups <+:
            methods.map Method.name) := by
  have hResolved :=
    resolveClass_of_lineage hLineage hHead hNone
  refine
    ⟨flatten
        ((History.run operations).session.inherited lineage),
      ?_, ⟨?_, ?_⟩, ?_⟩
  · intro siblings
    apply registerClass_of_resolveClass
    rw [resolveClass_registerClasses]
    exact hResolved
  · rw [names_flatten, inherited_run]
  · intro method hMethod
    rw [← inherited_run]
    exact Keyed.find?_of_mem_values_collect hMethod
  · rintro derived ancestors rfl
    rw [← inherited_run, ← names_flatten, inherited_append]
    exact names_flatten_prefix _ _

/-
  An override of an override keeps the first place, and a
  method that is declared twice counts once.
-/
theorem registerClass_flattens_overrides :
    let plain := MethodTraits.returns .string .matrix
    let hidden := { plain with isHidden := true }
    let operations : List Operation :=
      [.register (.declareClass "Base" none),
        .register (.declareClass "Middle" (some "Base")),
        .register (.declareClass "Leaf" (some "Middle")),
        .register (.method "Base" "check" 0 plain),
        .register (.method "Base" "format" 0 plain),
        .register (.method "Leaf" "parse" 0 plain),
        .register (.method "Leaf" "parse" 0 hidden),
        .register (.method "Middle" "check" 0 hidden),
        .register (.method "Leaf" "check" 0 plain)]
    let lineage := ["Leaf", "Middle", "Base"]
    (History.run operations).session.graph.IsLineage
        lineage ∧
      ∃ methods : List Method,
        methods.map Method.name =
            ["check", "format", "parse"] ∧
          ∀ method ∈ methods,
            ((lineage.reverse.flatMap fun level =>
              declaredMethods level operations).reverse.find?
                fun other => other.name = method.name) =
              some method := by
  intro plain hidden operations lineage
  have hResolves :
      (History.run operations).session.graph.lineage "Leaf" =
        .ok lineage := by
    decide +kernel
  rcases ClassGraph.lineage_ok_iff.mp hResolves with
    ⟨hLineage, hHead⟩
  refine ⟨hLineage, ?_⟩
  rcases registerClass_flattens hLineage hHead
      (rfl : ClassTraits.none.replacements = []) with
    ⟨methods, _, ⟨hNames, hLast⟩, _⟩
  refine ⟨methods, ?_, hLast⟩
  rw [hNames]
  decide +kernel

end Session

end HostBindings
