import HostBindings.Proofs.Keyed.Lookup
import HostBindings.Proofs.Registration.Lineage
import HostBindings.Proofs.Registration.Methods
import HostBindings.Proofs.Registration.Registered

/-
  Histories of sessions.

  A session goes through registrations, which may fail, and
  its classes are taken out now and then.  What the session
  holds afterwards is said in terms of the operations: the
  methods and bases that they declare and the classes that
  they register.

  Main declarations:
    * `Session.Operation`
    * `Session.History`
    * `Session.History.run`
    * `Session.declared?`
    * `Session.declaredMethods`
    * `Session.latestBase?`
    * `Session.Ordered`
    * `Session.methodsOf_run`
    * `Session.find?_graph_run`
    * `Session.lineage_ends_in_one_way`
    * `Session.exists_of_mem_classes`
    * `Session.history_keeps_methods_valid`
-/

------------------------------------------------------------
-- Operations
------------------------------------------------------------

namespace HostBindings

namespace Session

/- What is done with a session. -/
inductive Operation where
| register (registration : Registration)
| takeClasses
deriving DecidableEq, Repr

/- A session, and the classes that were taken out of it. -/
structure History where
  session : Session
  taken : List ProxyClass
deriving DecidableEq, Repr

namespace History

/- Nothing has been done. -/
def start : History :=
  ⟨Session.start, []⟩

/- Go on whether or not the operation fails. -/
def step (history : History) : Operation → History
| .register registration =>
    { history with
      session := (history.session.register registration).1 }
| .takeClasses =>
    let (classes, session) := history.session.takeClasses
    ⟨session, history.taken ++ classes⟩

/- The history of operations from the start. -/
def run (operations : List Operation) : History :=
  operations.foldl step start

/- The classes taken so far and those still in the queue. -/
def classes (history : History) : List ProxyClass :=
  history.taken ++ history.session.queue

/- One more operation is the last step. -/
theorem run_concat
    (operations : List Operation)
    (operation : Operation) :
    run (operations ++ [operation]) =
      (run operations).step operation :=
  List.foldl_append

end History

------------------------------------------------------------
-- Methods
------------------------------------------------------------

/- The parameters that wait at indices below an arity. -/
def waitingBelow
    (session : Session)
    (arity : Nat) : List Parameter :=
  (List.range arity).filterMap fun index =>
    Keyed.find? index session.waiting

/-
  The method that a registration declares, with its class, if
  it is accepted.
-/
def declared?
    (session : Session) : Registration → Option (String × Method)
| .method className methodName arity traits =>
    match
      (session.registerMethod className methodName arity
        traits).2 with
    | .error _ => none
    | .ok () =>
        some
          (className,
            { traits with
              name := methodName
              parameters := session.waitingBelow arity })
| _ => none

/- The methods among pairs that belong to a class. -/
def methodsFor
    (className : String)
    (pairs : List (String × Method)) : List Method :=
  (pairs.filter fun pair => pair.1 = className).map Prod.snd

/- What is there at all indices is all that waits there. -/
theorem waitingBelow_of_map_eq
    {session : Session}
    {arity : Nat}
    {parameters : List Parameter}
    (hTaken :
      (List.range arity).map
          (Keyed.find? · session.waiting) =
        parameters.map some) :
    session.waitingBelow arity = parameters := by
  have hAll :
      ((List.range arity).map
          (Keyed.find? · session.waiting)).filterMap id =
        parameters := by
    rw [hTaken, List.filterMap_map]
    exact List.filterMap_some
  rw [List.filterMap_map] at hAll
  exact hAll

/-
  A method is refused, or it is put behind the methods of its
  class with the parameters that were waiting for it.
-/
theorem registerMethod_cases
    (session : Session)
    (className methodName : String)
    (arity : Nat)
    (traits : MethodTraits) :
    (∃ fault,
      session.registerMethod className methodName arity
          traits =
        ({ session with waiting := [] }, .error fault)) ∨
    (Parameter.WellOrdered (session.waitingBelow arity) ∧
      session.registerMethod className methodName arity
          traits =
        ({ session with
            waiting := []
            declared :=
              Keyed.put className
                (session.methodsOf className ++
                  [{ traits with
                      name := methodName
                      parameters :=
                        session.waitingBelow arity }])
                session.declared }, .ok ())) := by
  cases hOutcome :
      (session.registerMethod className methodName arity
        traits).2 with
  | error fault =>
      have hCleared := (fault_of_registerMethod hOutcome).1
      exact .inl ⟨fault, Prod.ext hCleared hOutcome⟩
  | ok =>
      rcases exists_of_registerMethod_ok hOutcome with
        ⟨parameters, hTaken, hOrdered⟩
      rw [waitingBelow_of_map_eq hTaken]
      exact
        .inr
          ⟨hOrdered,
            registerMethod_of_wellOrdered hTaken hOrdered⟩

/-
  A registration puts what it declares behind the methods of
  its class.
-/
theorem methodsOf_register
    (session : Session)
    (registration : Registration)
    (className : String) :
    (session.register registration).1.methodsOf className =
      session.methodsOf className ++
        methodsFor className
          (session.declared? registration).toList := by
  cases registration with
  | declareClass name base =>
      simp [register, declareClass, methodsOf, declared?,
        methodsFor]
  | parameter index p =>
      simp [register, registerParameter, methodsOf, declared?,
        methodsFor]
  | proxyClass name traits =>
      rw [register, registerClass_eq]
      cases session.resolveClass name traits <;>
        simp [methodsOf, declared?, methodsFor]
  | method name methodName arity traits =>
      rw [register]
      rcases session.registerMethod_cases name methodName
          arity traits with
        ⟨fault, hRefused⟩ | ⟨_, hAccepted⟩
      · simp [hRefused, declared?, methodsOf, methodsFor]
      · by_cases hName : name = className
        · subst hName
          simp [hAccepted, declared?, methodsOf, methodsFor]
        · simp [hAccepted, declared?, methodsOf, methodsFor,
            hName, Keyed.find?_put_of_ne (Ne.symm hName)]

/- What has been declared has well-ordered parameters. -/
theorem wellOrdered_of_declared?
    {session : Session}
    {registration : Registration}
    {className : String}
    {method : Method}
    (hDeclared :
      session.declared? registration =
        some (className, method)) :
    Parameter.WellOrdered method.parameters := by
  cases registration with
  | method name methodName arity traits =>
      rcases session.registerMethod_cases name methodName
          arity traits with
        ⟨fault, hRefused⟩ | ⟨hOrdered, hAccepted⟩
      · simp [declared?, hRefused] at hDeclared
      · rw [declared?, hAccepted] at hDeclared
        cases hDeclared
        exact hOrdered
  | _ => cases hDeclared

/- All methods that are stored have well-ordered parameters. -/
def Ordered (session : Session) : Prop :=
  ∀ className, ∀ method ∈ session.methodsOf className,
    Parameter.WellOrdered method.parameters

/- There are no methods at the start. -/
theorem ordered_start : Session.start.Ordered :=
  fun _ _ hMem => nomatch hMem

/- A registration stores nothing else, even if it fails. -/
theorem Ordered.register
    {session : Session}
    (hOrdered : session.Ordered)
    (registration : Registration) :
    (session.register registration).1.Ordered := by
  intro className method hMem
  rw [methodsOf_register, List.mem_append] at hMem
  rcases hMem with hOld | hNew
  · exact hOrdered className method hOld
  · rcases List.mem_map.mp hNew with ⟨pair, hPair, rfl⟩
    have hDeclared :=
      Option.mem_toList.mp (List.mem_filter.mp hPair).1
    exact wellOrdered_of_declared? hDeclared

namespace History

/- The methods that further operations declare for a class. -/
def declaredAfter
    (className : String) :
    History → List Operation → List Method
| _, [] => []
| history, .register registration :: rest =>
    methodsFor className
        (history.session.declared? registration).toList ++
      declaredAfter className
        (history.step (.register registration)) rest
| history, .takeClasses :: rest =>
    declaredAfter className (history.step .takeClasses) rest

/- Further operations add the methods that they declare. -/
theorem methodsOf_foldl_step
    (className : String)
    (history : History)
    (operations : List Operation) :
    (operations.foldl step history).session.methodsOf
        className =
      history.session.methodsOf className ++
        history.declaredAfter className operations := by
  induction operations generalizing history with
  | nil =>
      simp [declaredAfter]
  | cons operation rest ih =>
      rw [List.foldl_cons, ih]
      cases operation with
      | register registration =>
          rw [declaredAfter, ← List.append_assoc]
          congr 1
          exact
            methodsOf_register history.session registration
              className
      | takeClasses => rfl

end History

/- The methods that operations declare for a class, in order. -/
def declaredMethods
    (className : String)
    (operations : List Operation) : List Method :=
  History.start.declaredAfter className operations

/- A session holds the methods that have been declared. -/
theorem methodsOf_run
    (className : String)
    (operations : List Operation) :
    (History.run operations).session.methodsOf className =
      declaredMethods className operations :=
  History.methodsOf_foldl_step className .start operations

/- Whatever is done with a session, it stays in order. -/
theorem ordered_run (operations : List Operation) :
    (History.run operations).session.Ordered := by
  induction operations using List.reverseRecOn with
  | nil => exact ordered_start
  | append_singleton operations operation ih =>
      rw [History.run_concat]
      cases operation with
      | takeClasses => exact ih
      | register registration => exact ih.register registration

/- What a class declares has well-ordered parameters. -/
theorem wellOrdered_of_mem_methodsOf
    {operations : List Operation}
    {className : String}
    {method : Method}
    (hMem :
      method ∈
        (History.run operations).session.methodsOf
          className) :
    Parameter.WellOrdered method.parameters :=
  ordered_run operations className method hMem

------------------------------------------------------------
-- Bases
------------------------------------------------------------

/- The class that an operation declares, with its base. -/
def Operation.declaration? :
    Operation → Option (String × Option String)
| .register (.declareClass className base) =>
    some (className, base)
| _ => none

/-
  The base that operations declare for a class; of several
  declarations the last one counts.
-/
def latestBase?
    (className : String)
    (operations : List Operation) : Option (Option String) :=
  Keyed.find? className
    (operations.filterMap Operation.declaration?).reverse

/- Only the declaration of a class changes its base. -/
theorem find?_graph_step
    (className : String)
    (history : History)
    (operation : Operation) :
    Keyed.find? className
        (history.step operation).session.graph =
      (Keyed.find? className
          operation.declaration?.toList).or
        (Keyed.find? className history.session.graph) := by
  cases operation with
  | takeClasses => rfl
  | register registration =>
      cases registration with
      | declareClass name base =>
          by_cases hName : name = className
          · subst hName
            simp [History.step, register, declareClass,
              Operation.declaration?, Keyed.find?]
          · simp [History.step, register, declareClass,
              Operation.declaration?, Keyed.find?, hName,
              Keyed.find?_put_of_ne (Ne.symm hName)]
      | parameter index p => rfl
      | method name methodName arity traits =>
          rcases history.session.registerMethod_cases name
              methodName arity traits with
            ⟨fault, hRefused⟩ | ⟨_, hAccepted⟩
          · rw [History.step, register, hRefused]
            rfl
          · rw [History.step, register, hAccepted]
            rfl
      | proxyClass name traits =>
          rw [History.step, register, registerClass_eq]
          cases history.session.resolveClass name traits <;>
            rfl

/- The graph has the bases that have been declared. -/
theorem find?_graph_run
    (className : String)
    (operations : List Operation) :
    Keyed.find? className
        (History.run operations).session.graph =
      latestBase? className operations := by
  induction operations using List.reverseRecOn with
  | nil =>
      rfl
  | append_singleton operations operation ih =>
      rw [History.run_concat, find?_graph_step, ih,
        latestBase?, latestBase?, List.filterMap_append,
        List.reverse_append, Keyed.find?_append]
      cases hDeclaration : operation.declaration? <;>
        simp [hDeclaration]

/-
  Whatever has been declared, with the last declaration of a
  class counting, the climb from a class has exactly one of
  the endings, and the lineage is what it ends with.  More
  steps would not change that, so it is never for want of
  steps that a climb ends.
-/
theorem lineage_ends_in_one_way
    (operations : List Operation)
    (className : String) :
    let graph := (History.run operations).session.graph
    (∀ name,
      Keyed.find? name graph =
        latestBase? name operations) ∧
    (∃! result, graph.Ending className result) ∧
    graph.Ending className (graph.lineage className) ∧
    (∀ more,
      graph.climb className (graph.length + 1 + more) []
          className =
        graph.lineage className) := by
  intro graph
  have hEnding :
      graph.Ending className (graph.lineage className) :=
    ClassGraph.lineage_eq_iff.mp rfl
  refine
    ⟨fun name => find?_graph_run name operations,
      ⟨_, hEnding, ?_⟩, hEnding, ?_⟩
  · intro result hOther
    exact (ClassGraph.lineage_eq_iff.mpr hOther).symm
  · intro more
    have hEnough :
        graph.length < graph.length + 1 + more := by
      omega
    exact ClassGraph.climb_of_ending hEnding hEnough

------------------------------------------------------------
-- Classes
------------------------------------------------------------

/- What a class consists of once it is resolved. -/
theorem resolveClass_ok_iff
    {session : Session}
    {className : String}
    {traits : ClassTraits}
    {proxyClass : ProxyClass} :
    session.resolveClass className traits =
        .ok proxyClass ↔
      ∃ lineage methods,
        session.graph.lineage className = .ok lineage ∧
        substitute className traits.replacements
            (flatten (session.inherited lineage)) =
          .ok methods ∧
        proxyClass =
          { traits with
            name := className
            baseName := lineage[1]?
            methods := methods } := by
  unfold resolveClass
  cases session.graph.lineage className with
  | error fault => simp
  | ok lineage =>
      simp only [Except.ok.injEq, exists_and_left,
        exists_eq_left']
      cases substitute className traits.replacements
          (flatten (session.inherited lineage)) with
      | error fault => simp
      | ok methods => simp [eq_comm]

/- The classes of a history after one more step. -/
theorem mem_classes_step
    {history : History}
    {operation : Operation}
    {proxyClass : ProxyClass}
    (hMem : proxyClass ∈ (history.step operation).classes) :
    proxyClass ∈ history.classes ∨
      ∃ traits,
        operation =
            .register (.proxyClass proxyClass.name traits) ∧
          history.session.resolveClass proxyClass.name
            traits = .ok proxyClass := by
  cases operation with
  | takeClasses =>
      left
      simpa [History.classes, History.step, takeClasses]
        using hMem
  | register registration =>
      rw [History.classes, History.step, queue_register,
        ← List.append_assoc, List.mem_append] at hMem
      refine hMem.imp id ?_
      intro hNew
      cases registration with
      | proxyClass className traits =>
          rw [registered, Option.mem_toList] at hNew
          cases hResolved :
              history.session.resolveClass className traits
            with
          | error fault =>
              rw [hResolved] at hNew
              cases hNew
          | ok resolved =>
              rw [hResolved] at hNew
              cases hNew
              rcases resolveClass_ok_iff.mp hResolved with
                ⟨lineage, methods, _, _, rfl⟩
              exact ⟨traits, rfl, hResolved⟩
      | _ => cases hNew

/- A class that is resolved is queued by its registration. -/
theorem registerClass_of_resolveClass
    {session : Session}
    {className : String}
    {traits : ClassTraits}
    {proxyClass : ProxyClass}
    (hResolved :
      session.resolveClass className traits =
        .ok proxyClass) :
    session.registerClass className traits =
      ({ session with queue := session.queue ++ [proxyClass] },
        .ok ()) := by
  rw [registerClass_eq, hResolved]

/-
  Every class that is queued or has been taken was resolved
  when it was registered.
-/
theorem exists_of_mem_classes
    {operations : List Operation}
    {proxyClass : ProxyClass}
    (hMem : proxyClass ∈ (History.run operations).classes) :
    ∃ before traits after,
      operations =
          before ++
            .register (.proxyClass proxyClass.name traits) ::
              after ∧
        (History.run before).session.resolveClass
          proxyClass.name traits = .ok proxyClass := by
  induction operations using List.reverseRecOn with
  | nil =>
      cases hMem
  | append_singleton operations operation ih =>
      rw [History.run_concat] at hMem
      rcases mem_classes_step hMem with
        hOld | ⟨traits, rfl, hResolved⟩
      · rcases ih hOld with
          ⟨before, traits, after, rfl, hResolved⟩
        exact
          ⟨before, traits, after ++ [operation], by simp,
            hResolved⟩
      · exact ⟨operations, traits, [], rfl, hResolved⟩

/- The methods along a lineage are methods of its classes. -/
theorem exists_of_mem_flatten
    {session : Session}
    {lineage : List String}
    {method : Method}
    (hMem : method ∈ flatten (session.inherited lineage)) :
    ∃ className, method ∈ session.methodsOf className := by
  have hLast := Keyed.find?_of_mem_values_collect hMem
  have hInherited :=
    List.mem_reverse.mp (List.mem_of_find?_eq_some hLast)
  rcases List.mem_flatMap.mp hInherited with
    ⟨className, _, hMethod⟩
  exact ⟨className, hMethod⟩

/- The methods of a resolved class are well ordered. -/
theorem wellOrdered_of_resolveClass
    {session : Session}
    {className : String}
    {traits : ClassTraits}
    {proxyClass : ProxyClass}
    (hDeclared :
      ∀ name, ∀ method ∈ session.methodsOf name,
        Parameter.WellOrdered method.parameters)
    (hResolved :
      session.resolveClass className traits =
        .ok proxyClass) :
    ∀ method ∈ proxyClass.methods,
      Parameter.WellOrdered method.parameters := by
  rcases resolveClass_ok_iff.mp hResolved with
    ⟨lineage, methods, _, hSubstitute, rfl⟩
  rcases substitute_ok_iff.mp hSubstitute with
    ⟨hMethods, hChecked⟩
  intro method hMem
  by_cases hNone : traits.replacements = []
  · -- methods that are not replaced were checked before
    rw [hNone, Method.replace_nil, List.map_id] at hMethods
    subst hMethods
    rcases exists_of_mem_flatten hMem with ⟨name, hMethod⟩
    exact hDeclared name method hMethod
  · exact hChecked hNone method hMem

/- The methods of a resolved class have distinct names. -/
theorem nodup_names_of_resolveClass
    {session : Session}
    {className : String}
    {traits : ClassTraits}
    {proxyClass : ProxyClass}
    (hResolved :
      session.resolveClass className traits =
        .ok proxyClass) :
    (proxyClass.methods.map Method.name).Nodup := by
  rcases resolveClass_ok_iff.mp hResolved with
    ⟨lineage, methods, _, hSubstitute, rfl⟩
  rw [(substitute_ok_iff.mp hSubstitute).1, List.map_map]
  have hNames :
      Method.name ∘ Method.replace traits.replacements =
        Method.name := rfl
  rw [hNames, flatten, Keyed.map_key_values_collect,
    ← Keyed.keys_collect]
  exact Keyed.distinct_collect _ _

------------------------------------------------------------
-- Whole Histories
------------------------------------------------------------

/-
  Whatever is done with a session, and whatever fails on the
  way: methods that are stored for a class, and those of any
  class that is queued or was taken, have well-ordered
  parameters, and such a class has methods of distinct names
  and the base that was declared for it when the registration
  was made that queued it.
-/
theorem history_keeps_methods_valid
    (operations : List Operation) :
    (∀ className,
      ∀ method ∈
          (History.run operations).session.methodsOf
            className,
        Parameter.WellOrdered method.parameters) ∧
    (∀ proxyClass ∈ (History.run operations).classes,
      (∀ method ∈ proxyClass.methods,
        Parameter.WellOrdered method.parameters) ∧
      (proxyClass.methods.map Method.name).Nodup ∧
      ∃ before traits after,
        operations =
            before ++
              .register
                (.proxyClass proxyClass.name traits) ::
                after ∧
          (History.run before).session.registerClass
              proxyClass.name traits =
            ({ (History.run before).session with
                queue :=
                  (History.run before).session.queue ++
                    [proxyClass] }, .ok ()) ∧
          latestBase? proxyClass.name before =
            some proxyClass.baseName) := by
  refine
    ⟨fun _ _ hMem => wellOrdered_of_mem_methodsOf hMem, ?_⟩
  intro proxyClass hMem
  rcases exists_of_mem_classes hMem with
    ⟨before, traits, after, hSplit, hResolved⟩
  refine
    ⟨wellOrdered_of_resolveClass
        (fun _ _ hMem => wellOrdered_of_mem_methodsOf hMem)
        hResolved,
      nodup_names_of_resolveClass hResolved,
      before, traits, after, hSplit,
      registerClass_of_resolveClass hResolved, ?_⟩
  rcases resolveClass_ok_iff.mp hResolved with
    ⟨lineage, methods, hLineage, _, hClass⟩
  rw [← find?_graph_run,
    ClassGraph.base_of_lineage hLineage, hClass]

end Session

end HostBindings
