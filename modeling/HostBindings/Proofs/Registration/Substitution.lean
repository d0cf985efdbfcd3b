import HostBindings.Proofs.Registration.Flattening

/-
  The methods of a class that replaces parameters.

  A class takes over the flattened methods of its lineage with
  every parameter replaced at once, provided that all of them
  are well ordered afterwards.  The declared methods stay as
  they are, and a class that is refused leaves no trace.

  Main declarations:
    * `Replaces`
    * `Method.Substitutes`
    * `Session.Flattens`
    * `Session.ResolvesTo`
    * `Session.resolveClass_ok_iff_resolvesTo`
    * `Session.resolveClass_run_register`
    * `Session.registerClass_substitutes`
-/

------------------------------------------------------------
-- Replaced Parameters
------------------------------------------------------------

namespace HostBindings

/-
  What becomes of a parameter: the first replacement with its
  effective name takes its place, or it is kept if there is
  none.
-/
inductive Replaces
    (replacements : List Replacement)
    (p : Parameter) : Parameter → Prop
| first
    {earlier later : List Replacement}
    {replacement : Replacement}
    (hSplit : replacements = earlier ++ replacement :: later)
    (hName : replacement.name = p.effective.name)
    (hEarlier :
      ∀ other ∈ earlier, other.name ≠ p.effective.name) :
    Replaces replacements p replacement.parameter
| kept
    (hNone :
      ∀ replacement ∈ replacements,
        replacement.name ≠ p.effective.name) :
    Replaces replacements p p

/- Replacing a parameter does just that. -/
theorem replaces_iff
    {replacements : List Replacement}
    {p q : Parameter} :
    Replaces replacements p q ↔
      q = replaceParameter replacements p := by
  unfold replaceParameter
  constructor
  · intro hReplaces
    cases hReplaces with
    | @first earlier later replacement hSplit hName hEarlier =>
        have hFound :
            replacements.find? (·.name = p.name) =
              some replacement := by
          rw [List.find?_eq_some_iff_append]
          exact
            ⟨by simpa using hName, earlier, later, hSplit,
              by simpa using hEarlier⟩
        rw [hFound]
    | kept hNone =>
        have hMissing :
            replacements.find? (·.name = p.name) = none := by
          simpa using hNone
        rw [hMissing]
  · rintro rfl
    cases hFound : replacements.find? (·.name = p.name) with
    | some replacement =>
        rcases List.find?_eq_some_iff_append.mp hFound with
          ⟨hName, earlier, later, hSplit, hEarlier⟩
        exact
          .first hSplit (by simpa using hName)
            (by simpa using hEarlier)
    | none => exact .kept (by simpa using hFound)

/- Lists that a function relates in each place are mapped. -/
theorem forall₂_iff_eq_map
    {α : Type}
    (related : α → α → Prop)
    (f : α → α)
    (hRelated : ∀ x y, related x y ↔ y = f x)
    (first second : List α) :
    List.Forall₂ related first second ↔
      second = first.map f := by
  induction first generalizing second with
  | nil => simp
  | cons x rest ih =>
      cases second with
      | nil => simp
      | cons y others => simp [hRelated, ih others]

/-
  A method with its parameters replaced, and with all that is
  said about it besides.
-/
structure Method.Substitutes
    (replacements : List Replacement)
    (method substituted : Method) : Prop where
  name : substituted.name = method.name
  traits : substituted.toMethodTraits = method.toMethodTraits
  parameters :
    List.Forall₂ (Replaces replacements) method.parameters
      substituted.parameters

/- Replacing the parameters of a method does just that. -/
theorem Method.substitutes_iff
    {replacements : List Replacement}
    {method substituted : Method} :
    method.Substitutes replacements substituted ↔
      substituted = method.replace replacements := by
  have hParameters :
      List.Forall₂ (Replaces replacements) method.parameters
          substituted.parameters ↔
        substituted.parameters =
          method.parameters.map
            (replaceParameter replacements) :=
    forall₂_iff_eq_map (Replaces replacements)
      (replaceParameter replacements) (fun _ _ => replaces_iff)
      _ _
  constructor
  · rintro ⟨hName, hTraits, hReplaced⟩
    rw [hParameters] at hReplaced
    cases substituted
    simp only at hName hTraits hReplaced
    rw [hName, hTraits, hReplaced]
    rfl
  · rintro rfl
    exact ⟨rfl, rfl, hParameters.mpr rfl⟩

/- So does replacing the parameters of several methods. -/
theorem Method.forall₂_substitutes_iff
    {replacements : List Replacement}
    {methods substituted : List Method} :
    List.Forall₂ (Method.Substitutes replacements) methods
        substituted ↔
      substituted =
        methods.map (Method.replace replacements) :=
  forall₂_iff_eq_map (Method.Substitutes replacements)
    (Method.replace replacements)
    (fun _ _ => Method.substitutes_iff) _ _

------------------------------------------------------------
-- Resolved Methods
------------------------------------------------------------

namespace Session

/-
  Flattened methods: one for every declared name, in the order
  of the first declarations, each being the last declaration.
-/
structure Flattens (declared methods : List Method) : Prop where
  names :
    methods.map Method.name =
      (declared.map Method.name).eraseDups
  latest :
    ∀ method ∈ methods,
      (declared.reverse.find? fun other =>
        other.name = method.name) = some method

/- The names determine flattened methods. -/
theorem Flattens.map_some
    {declared methods : List Method}
    (hFlattens : Flattens declared methods) :
    methods.map some =
      (declared.map Method.name).eraseDups.map fun name =>
        declared.reverse.find? fun other =>
          other.name = name := by
  rw [← hFlattens.names, List.map_map]
  apply List.map_congr_left
  intro method hMem
  exact (hFlattens.latest method hMem).symm

/- Flattening leads to flattened methods. -/
theorem flattens_flatten (declared : List Method) :
    Flattens declared (flatten declared) :=
  ⟨names_flatten declared,
    fun _ hMem => Keyed.find?_of_mem_values_collect hMem⟩

/- It leads to the only ones there are. -/
theorem flattens_iff
    {declared methods : List Method} :
    Flattens declared methods ↔
      methods = flatten declared := by
  constructor
  · intro hFlattens
    have hSame :
        methods.map some = (flatten declared).map some := by
      rw [hFlattens.map_some,
        (flattens_flatten declared).map_some]
    exact
      List.map_injective_iff.mpr (Option.some_injective _)
        hSame
  · rintro rfl
    exact flattens_flatten declared

/-
  What a class with replacements resolves to: the lineage of
  the class, and the flattened methods of this lineage with
  their parameters replaced, all of them well ordered.
-/
structure ResolvesTo
    (session : Session)
    (className : String)
    (replacements : List Replacement)
    (lineage : List String)
    (methods : List Method) : Prop where
  isLineage : session.graph.IsLineage lineage
  starts : lineage.head? = some className
  substituted :
    ∃ flattened,
      Flattens (lineage.reverse.flatMap session.methodsOf)
        flattened ∧
      List.Forall₂ (Method.Substitutes replacements)
        flattened methods
  ordered :
    ∀ method ∈ methods,
      Parameter.WellOrdered method.parameters

/-
  Substitution succeeds when the replaced methods are well
  ordered, also where there is nothing to replace and they are
  not looked at, as they have been checked before.
-/
theorem substitute_flatten_ok_iff
    {session : Session}
    {className : String}
    {replacements : List Replacement}
    {lineage : List String}
    {methods : List Method}
    (hOrdered : session.Ordered) :
    substitute className replacements
          (flatten (session.inherited lineage)) =
        .ok methods ↔
      methods =
          (flatten (session.inherited lineage)).map
            (Method.replace replacements) ∧
        ∀ method ∈ methods,
          Parameter.WellOrdered method.parameters := by
  rw [substitute_ok_iff]
  refine and_congr_right fun hMethods => ?_
  by_cases hNone : replacements = []
  · simp only [hNone, ne_eq, not_true_eq_false,
      false_implies, true_iff]
    intro method hMem
    rw [hMethods, hNone, Method.replace_nil, List.map_id]
      at hMem
    rcases exists_of_mem_flatten hMem with ⟨name, hMethod⟩
    exact hOrdered name method hMethod
  · simp [hNone]

/- A class is resolved to what it resolves to. -/
theorem resolveClass_ok_iff_resolvesTo
    {session : Session}
    {className : String}
    {traits : ClassTraits}
    {proxyClass : ProxyClass}
    (hOrdered : session.Ordered) :
    session.resolveClass className traits =
        .ok proxyClass ↔
      ∃ lineage methods,
        session.ResolvesTo className traits.replacements
            lineage methods ∧
          proxyClass =
            { traits with
              name := className
              baseName := lineage[1]?
              methods := methods } := by
  rw [resolveClass_ok_iff]
  refine exists_congr fun lineage => ?_
  refine exists_congr fun methods => ?_
  rw [← and_assoc]
  refine and_congr_left fun _ => ?_
  rw [ClassGraph.lineage_ok_iff,
    substitute_flatten_ok_iff hOrdered]
  constructor
  · rintro ⟨⟨hLineage, hStarts⟩, hMethods, hChecked⟩
    exact
      ⟨hLineage, hStarts,
        ⟨_, flattens_iff.mpr rfl,
          Method.forall₂_substitutes_iff.mpr hMethods⟩,
        hChecked⟩
  · rintro
      ⟨hLineage, hStarts, ⟨flattened, hFlattens, hMethods⟩,
        hChecked⟩
    rw [flattens_iff] at hFlattens
    subst hFlattens
    exact
      ⟨⟨hLineage, hStarts⟩,
        Method.forall₂_substitutes_iff.mp hMethods, hChecked⟩

------------------------------------------------------------
-- Later Classes
------------------------------------------------------------

/- Registrations do not look at the queue. -/
theorem exists_queue_register
    (session : Session)
    (queue : List ProxyClass)
    (registration : Registration) :
    ∃ others,
      ({ session with queue := queue }.register
          registration).1 =
        { (session.register registration).1 with
          queue := others } := by
  cases registration with
  | declareClass className base => exact ⟨queue, rfl⟩
  | parameter index p => exact ⟨queue, rfl⟩
  | method className methodName arity traits =>
      refine ⟨queue, ?_⟩
      simp only [register, registerMethod]
      cases gather session.waiting 0 arity with
      | error index => rfl
      | ok parameters =>
          simp only
          cases checkParameters className methodName
              parameters with
          | error fault => rfl
          | ok => rfl
  | proxyClass className traits =>
      simp only [register]
      rcases session.exists_queue_registerClass className
          traits with
        ⟨first, hFirst⟩
      rcases Session.exists_queue_registerClass
          { session with queue := queue } className traits
        with
        ⟨second, hSecond⟩
      exact ⟨second, by rw [hFirst, hSecond]⟩

namespace History

/- So a difference in the queue stays one in the queue. -/
theorem exists_queue_foldl_step
    {history other : History}
    (operations : List Operation)
    (hQueue :
      ∃ queue,
        other.session =
          { history.session with queue := queue }) :
    ∃ queue,
      (operations.foldl step other).session =
        { (operations.foldl step history).session with
          queue := queue } := by
  induction operations generalizing history other with
  | nil => exact hQueue
  | cons operation rest ih =>
      rw [List.foldl_cons, List.foldl_cons]
      apply ih
      rcases hQueue with ⟨queue, hQueue⟩
      cases operation with
      | takeClasses =>
          refine ⟨[], ?_⟩
          simp only [step, takeClasses, hQueue]
      | register registration =>
          simp only [step, hQueue]
          exact
            history.session.exists_queue_register queue
              registration

end History

/-
  Whatever is done later, it comes to the same session, but
  for the queue, as if a class had not been registered.
-/
theorem exists_queue_run_registerClass
    (operations later : List Operation)
    (className : String)
    (traits : ClassTraits) :
    ∃ queue,
      (History.run
          (operations ++
            Operation.register
                (.proxyClass className traits) ::
              later)).session =
        { (History.run (operations ++ later)).session with
          queue := queue } := by
  unfold History.run
  rw [List.foldl_append, List.foldl_append, List.foldl_cons]
  exact
    History.exists_queue_foldl_step later
      (exists_queue_registerClass _ className traits)

------------------------------------------------------------
-- Registered Classes
------------------------------------------------------------

/- A class is accepted exactly when it is resolved. -/
theorem registerClass_ok_iff
    {session : Session}
    {className : String}
    {traits : ClassTraits} :
    (session.registerClass className traits).2 = .ok () ↔
      ∃ proxyClass,
        session.resolveClass className traits =
          .ok proxyClass := by
  rw [registerClass_eq]
  cases session.resolveClass className traits <;> simp

/- A class that is refused leaves the session as it was. -/
theorem registerClass_of_error
    {session : Session}
    {className : String}
    {traits : ClassTraits}
    {fault : Fault}
    (hError :
      (session.registerClass className traits).2 =
        .error fault) :
    (session.registerClass className traits).1 = session := by
  rw [registerClass_eq] at hError ⊢
  cases hClass : session.resolveClass className traits with
  | error first => rfl
  | ok proxyClass =>
      rw [hClass] at hError
      cases hError

/-
  Whatever was done with a session before: a class is accepted
  exactly when its lineage resolves and the flattened methods
  are well ordered with their parameters replaced, and it is
  then queued with these methods.  If it is refused, the
  session stays what it was.  In no case do the declared
  methods change, and whatever is done later, any class
  resolves as if the first one had never been registered.
-/
theorem registerClass_substitutes
    (operations : List Operation)
    (className : String)
    (traits : ClassTraits) :
    let session := (History.run operations).session
    let outcome := session.registerClass className traits
    (outcome.2 = .ok () ↔
      ∃ lineage methods,
        session.ResolvesTo className traits.replacements
          lineage methods) ∧
    (∀ lineage methods,
      session.ResolvesTo className traits.replacements lineage
          methods →
        outcome.1 =
          { session with
            queue :=
              session.queue ++
                [{ traits with
                    name := className
                    baseName := lineage[1]?
                    methods := methods }] }) ∧
    (∀ fault, outcome.2 = .error fault → outcome.1 = session) ∧
    (∀ later other otherTraits,
      (History.run
          (operations ++
            Operation.register
                (.proxyClass className traits) ::
              later)).session.resolveClass other otherTraits =
        (History.run
          (operations ++ later)).session.resolveClass other
            otherTraits) := by
  intro session outcome
  have hResolves_iff (proxyClass : ProxyClass) :
      session.resolveClass className traits =
          .ok proxyClass ↔ _ :=
    resolveClass_ok_iff_resolvesTo (ordered_run operations)
  refine ⟨?_, ?_, fun _ => registerClass_of_error, ?_⟩
  · rw [registerClass_ok_iff]
    constructor
    · rintro ⟨proxyClass, hClass⟩
      rcases (hResolves_iff proxyClass).mp hClass with
        ⟨lineage, methods, hResolves, _⟩
      exact ⟨lineage, methods, hResolves⟩
    · rintro ⟨lineage, methods, hResolves⟩
      exact
        ⟨_, (hResolves_iff _).mpr
          ⟨lineage, methods, hResolves, rfl⟩⟩
  · intro lineage methods hResolves
    have hClass :=
      (hResolves_iff _).mpr ⟨lineage, methods, hResolves, rfl⟩
    exact
      congrArg Prod.fst (registerClass_of_resolveClass hClass)
  · intro later other otherTraits
    rcases exists_queue_run_registerClass operations later
        className traits with
      ⟨queue, hQueue⟩
    rw [hQueue]
    rfl

/-
  Two parameters may be exchanged, as no replacement is looked
  at twice, and of two replacements for a name the first one
  counts.  The exchange is refused where it would put the
  required parameter behind the optional one.
-/
theorem registerClass_substitutes_exchanges :
    let text := Parameter.new "text" .string .matrix true
    let digits := Parameter.new "digits" .number .matrix true
    let optional := Parameter.new "digits" .any .matrix false
    let traits := MethodTraits.returns .string .matrix
    let exchanges (other : Parameter) : ClassTraits :=
      { ClassTraits.none with
        replacements :=
          [⟨"text", other⟩, ⟨"digits", text⟩,
            ⟨"text", text⟩] }
    let operations : List Operation :=
      [.register (.declareClass "Check" none),
        .register (.parameter 0 text),
        .register (.parameter 1 digits),
        .register (.method "Check" "parse" 2 traits)]
    let session := (History.run operations).session
    let exchanged :=
      session.registerClass "Check" (exchanges digits)
    let refused :=
      session.registerClass "Check" (exchanges optional)
    exchanged.2 = .ok () ∧
      exchanged.1 =
        { session with
          queue :=
            [{ exchanges digits with
                name := "Check"
                baseName := none
                methods :=
                  [{ traits with
                      name := "parse"
                      parameters := [digits, text] }] }] } ∧
      refused.2 =
        .error
          (.orderingViolation "Check" "parse" "text"
            "digits") ∧
      refused.1 = session := by
  intro text digits optional traits exchanges operations
    session exchanged refused
  rcases registerClass_substitutes operations "Check"
      (exchanges digits) with
    ⟨hOk, hQueued, _⟩
  rcases registerClass_substitutes operations "Check"
      (exchanges optional) with
    ⟨_, _, hUnchanged, _⟩
  have hLineage :
      session.graph.lineage "Check" = .ok ["Check"] := by
    decide +kernel
  have hResolves :
      session.ResolvesTo "Check" (exchanges digits).replacements
        ["Check"]
        [{ traits with
            name := "parse"
            parameters := [digits, text] }] :=
    { isLineage := (ClassGraph.lineage_ok_iff.mp hLineage).1
      starts := rfl
      substituted :=
        ⟨_, flattens_iff.mpr rfl,
          Method.forall₂_substitutes_iff.mpr
            (by decide +kernel)⟩
      ordered := by decide +kernel }
  have hRefused :
      refused.2 =
        .error
          (.orderingViolation "Check" "parse" "text"
            "digits") := by
    decide +kernel
  exact
    ⟨hOk.mpr ⟨_, _, hResolves⟩, hQueued _ _ hResolves,
      hRefused, hUnchanged _ hRefused⟩

end Session

end HostBindings
