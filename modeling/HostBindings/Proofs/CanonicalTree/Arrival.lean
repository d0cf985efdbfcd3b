import HostBindings.Proofs.CanonicalTree.Entries
import HostBindings.Proofs.Proxy.Identity

/-
  The order in which parameters arrive in a canonical tree.

  A level of the tree is outlined by the names of its entries
  and their sort orders.  Names stand in the order in which
  parameters first led to them, and each has the sort order
  of the level that brought it in, in the first of these
  parameters.  What comes later changes neither.

  Main declarations:
    * `CanonicalTree.LeadsTo`
    * `CanonicalTree.introducer?`
    * `CanonicalTree.arrival`
    * `CanonicalTree.outlineAt_enterLevels`
    * `CanonicalTree.Outlines`
    * `CanonicalTree.Outlines.enterAll`
-/

------------------------------------------------------------
-- Leading Parameters
------------------------------------------------------------

namespace HostBindings

namespace CanonicalTree

/- A path of names is where a parameter leads, or above it. -/
def LeadsTo (path : List String) (p : Parameter) : Prop :=
  path <+: p.identityPath.map Prod.fst

instance
    (path : List String)
    (p : Parameter) : Decidable (LeadsTo path p) := by
  unfold LeadsTo
  infer_instance

/- The level of a parameter that brings in a path of names. -/
def introducing?
    (path : List String)
    (p : Parameter) : Option Parameter :=
  p.chain.find? fun level =>
    level.identityPath.map Prod.fst = path

/- This level of the first parameter that leads to the path. -/
def introducer?
    (path : List String)
    (parameters : List Parameter) : Option Parameter :=
  (parameters.find? fun p => LeadsTo path p).bind
    (introducing? path)

/- The position of the first parameter that leads to a path. -/
def arrival
    (path : List String)
    (parameters : List Parameter) : Nat :=
  parameters.findIdx fun p => LeadsTo path p

/- The parameters among entries. -/
def parametersOf (entries : List Entry) : List Parameter :=
  entries.filterMap fun entry =>
    match entry with
    | .parameter p => some p
    | .function _ _ => none

/- The parameters among entries are entered as such. -/
theorem mem_parametersOf_iff
    {p : Parameter}
    {entries : List Entry} :
    p ∈ parametersOf entries ↔
      Entry.parameter p ∈ entries := by
  rw [parametersOf, List.mem_filterMap]
  constructor
  · rintro ⟨entry, hEntry, hSome⟩
    cases entry with
    | parameter q =>
        cases hSome
        exact hEntry
    | function nameSpace functionName => cases hSome
  · intro hEntry
    exact ⟨_, hEntry, rfl⟩

------------------------------------------------------------
-- Steps of an Identity
------------------------------------------------------------

/- The step of an identity that comes after a path of names. -/
def nextStep? :
    List String → List IdentityStep → Option IdentityStep
| [], identity => identity.head?
| _ :: _, [] => none
| name :: path, step :: rest =>
    if step.1 = name then nextStep? path rest else none

variable {name : String}
variable {path : List String}
variable {identity : List IdentityStep}

/- The next step goes on along the names of the identity. -/
theorem exists_nextStep?_iff :
    (∃ sortOrder,
        nextStep? path identity = some (name, sortOrder)) ↔
      path ++ [name] <+: identity.map Prod.fst := by
  induction path generalizing identity with
  | nil =>
      cases identity with
      | nil => simp [nextStep?]
      | cons step rest =>
          rcases step with ⟨first, sortOrder⟩
          simp [nextStep?, List.cons_prefix_cons, eq_comm]
  | cons other path ih =>
      cases identity with
      | nil => simp [nextStep?]
      | cons step rest =>
          rw [List.cons_append, List.map_cons,
            List.cons_prefix_cons, ← ih, nextStep?]
          by_cases hStep : step.1 = other
          · simp [hStep]
          · simp [hStep, Ne.symm hStep]

/- One step more is next after all the others. -/
theorem nextStep?_concat
    (path : List String)
    (identity : List IdentityStep)
    (step : IdentityStep) :
    nextStep? path (identity ++ [step]) =
      (nextStep? path identity).or
        (if identity.map Prod.fst = path then some step
        else none) := by
  induction path generalizing identity with
  | nil => cases identity <;> simp [nextStep?]
  | cons name path ih =>
      cases identity with
      | nil => cases path <;> simp [nextStep?]
      | cons first rest =>
          rw [List.cons_append, nextStep?, nextStep?, ih,
            List.map_cons]
          by_cases hFirst : first.1 = name <;> simp [hFirst]

/- A level leads no further than the whole parameter. -/
theorem leadsTo_of_mem_chain
    {level p : Parameter}
    (hLevel : level ∈ p.chain) :
    LeadsTo (level.identityPath.map Prod.fst) p :=
  (Parameter.identityPath_prefix_of_mem_chain hLevel).map
    Prod.fst

/- What brings in a path is found in the base first. -/
theorem introducing?_extension
    (path : List String)
    (base : Parameter)
    (overlay : Overlay) :
    introducing? path (.extension base overlay) =
      (introducing? path base).or
        (if (Parameter.extension base overlay).identityPath.map
              Prod.fst = path then
          some (.extension base overlay)
        else none) := by
  rw [introducing?, Parameter.chain, List.find?_append,
    List.find?_singleton]
  simp only [decide_eq_true_eq]
  rfl

/- A step has the sort order of the level that brings it in. -/
theorem introducing?_of_nextStep?
    {p : Parameter}
    {sortOrder : Option Int}
    (hNext :
      nextStep? path p.identityPath = some (name, sortOrder)) :
    ∃ level,
      introducing? (path ++ [name]) p = some level ∧
        level.sortOrder = sortOrder := by
  induction p with
  | root fields =>
      rw [Parameter.identityPath_root] at hNext
      cases path with
      | nil =>
          cases hNext
          refine ⟨.root fields, ?_, rfl⟩
          simp [introducing?, Parameter.chain,
            Parameter.identityPath_root]
      | cons first path =>
          rw [nextStep?] at hNext
          split at hNext
          · cases path <;> cases hNext
          · cases hNext
  | extension base overlay ih =>
      rw [introducing?_extension]
      rw [Parameter.identityPath_extension,
        Parameter.extendPath] at hNext ⊢
      split at hNext
      · -- the level keeps the name of its base
        rcases ih hNext with ⟨level, hLevel, hOrder⟩
        rw [hLevel]
        exact ⟨level, rfl, hOrder⟩
      · rename_i hName
        rw [nextStep?_concat, Option.or_eq_some_iff] at hNext
        rcases hNext with hBase | ⟨_, hLast⟩
        · rcases ih hBase with ⟨level, hLevel, hOrder⟩
          rw [hLevel]
          exact ⟨level, rfl, hOrder⟩
        · split_ifs at hLast with hPath
          rw [Option.some.injEq, Prod.mk.injEq] at hLast
          rcases hLast with ⟨hSame, hOrder⟩
          have hNone :
              introducing? (path ++ [name]) base = none := by
            rw [introducing?, List.find?_eq_none]
            intro level hLevel hHere
            have hPrefix := leadsTo_of_mem_chain hLevel
            rw [of_decide_eq_true hHere, LeadsTo, hPath]
              at hPrefix
            have hLength := hPrefix.length_le
            simp at hLength
          refine ⟨.extension base overlay, ?_, hOrder⟩
          rw [hNone, if_neg hName, List.map_append, hPath,
            List.map_singleton, hSame]
          simp

------------------------------------------------------------
-- First Parameters
------------------------------------------------------------

variable {parameters : List Parameter}

/- Where a parameter leads, one of its levels brings it in. -/
theorem exists_introducing?
    {p : Parameter}
    (hLeads : LeadsTo (path ++ [name]) p) :
    ∃ level, introducing? (path ++ [name]) p = some level := by
  rcases exists_nextStep?_iff.mpr hLeads with ⟨_, hNext⟩
  rcases introducing?_of_nextStep? hNext with ⟨level, hLevel, _⟩
  exact ⟨level, hLevel⟩

/- A path is brought in where some parameter leads to it. -/
theorem exists_introducer?_iff :
    (∃ level,
        introducer? (path ++ [name]) parameters =
          some level) ↔
      ∃ p ∈ parameters, LeadsTo (path ++ [name]) p := by
  simp only [introducer?, Option.bind_eq_some_iff]
  constructor
  · rintro ⟨level, p, hFirst, _⟩
    have hLeads := List.find?_some hFirst
    exact
      ⟨p, List.mem_of_find?_eq_some hFirst,
        of_decide_eq_true hLeads⟩
  · rintro ⟨p, hMem, hLeads⟩
    have hFound :
        (parameters.find? fun p =>
          LeadsTo (path ++ [name]) p).isSome := by
      rw [List.find?_isSome]
      exact ⟨p, hMem, decide_eq_true hLeads⟩
    rcases Option.isSome_iff_exists.mp hFound with
      ⟨q, hFirst⟩
    have hFirstLeads := List.find?_some hFirst
    rcases exists_introducing?
        (of_decide_eq_true hFirstLeads) with
      ⟨level, hLevel⟩
    exact ⟨level, q, hFirst, hLevel⟩

/- The earlier parameters come first. -/
theorem introducer?_append
    (path : List String)
    (name : String)
    (parameters others : List Parameter) :
    introducer? (path ++ [name]) (parameters ++ others) =
      (introducer? (path ++ [name]) parameters).or
        (introducer? (path ++ [name]) others) := by
  unfold introducer?
  rw [List.find?_append]
  cases hFirst :
      parameters.find? fun p => LeadsTo (path ++ [name]) p with
  | none => rfl
  | some p =>
      have hLeads := List.find?_some hFirst
      rcases exists_introducing? (of_decide_eq_true hLeads) with
        ⟨level, hLevel⟩
      simp [hLevel]

/- A single parameter brings in what its next step names. -/
theorem introducer?_singleton
    (path : List String)
    (name : String)
    (p : Parameter) :
    (introducer? (path ++ [name]) [p]).map
        Parameter.sortOrder =
      (nextStep? path p.identityPath).bind fun step =>
        if name = step.1 then some step.2 else none := by
  by_cases hLeads : LeadsTo (path ++ [name]) p
  · rcases exists_nextStep?_iff.mpr hLeads with
      ⟨sortOrder, hNext⟩
    rcases introducing?_of_nextStep? hNext with
      ⟨level, hLevel, hOrder⟩
    simp [introducer?, hLeads, hLevel, hNext, hOrder]
  · have hOther :
        ∀ step,
          nextStep? path p.identityPath = some step →
            name ≠ step.1 := by
      rintro step hNext rfl
      exact hLeads (exists_nextStep?_iff.mp ⟨step.2, hNext⟩)
    cases hNext : nextStep? path p.identityPath with
    | none => simp [introducer?, hLeads]
    | some step =>
        simp [introducer?, hLeads, hOther step hNext]

/- What has arrived has arrived before what comes later. -/
theorem arrival_lt_length
    {path : List String}
    (hLeads : ∃ p ∈ parameters, LeadsTo path p) :
    arrival path parameters < parameters.length := by
  rw [arrival, List.findIdx_lt_length]
  simpa using hLeads

/- It stays where it is. -/
theorem arrival_append
    {path : List String}
    (hLeads : ∃ p ∈ parameters, LeadsTo path p)
    (others : List Parameter) :
    arrival path (parameters ++ others) =
      arrival path parameters := by
  have hBefore := arrival_lt_length hLeads
  unfold arrival at hBefore ⊢
  rw [List.findIdx_append, if_pos hBefore]

/- What has not arrived does so at the end or later. -/
theorem length_le_arrival_append
    {path : List String}
    (hLeads : ¬ ∃ p ∈ parameters, LeadsTo path p)
    (others : List Parameter) :
    parameters.length ≤
      arrival path (parameters ++ others) := by
  have hAbsent :
      ¬ parameters.findIdx (fun p => LeadsTo path p) <
        parameters.length := by
    rw [List.findIdx_lt_length]
    simpa using hLeads
  unfold arrival
  rw [List.findIdx_append, if_neg hAbsent]
  exact Nat.le_add_left _ _

------------------------------------------------------------
-- Outlines
------------------------------------------------------------

/- The names of a level in their order, with sort orders. -/
def outline
    (level : Keyed String ParameterNode) :
    Keyed String (Option Int) :=
  level.map fun entry => (entry.1, entry.2.sortOrder)

/- What an outline has for a name. -/
theorem find?_outline
    (name : String)
    (level : Keyed String ParameterNode) :
    Keyed.find? name (outline level) =
      (Keyed.find? name level).map ParameterNode.sortOrder :=
  Keyed.find?_map name ParameterNode.sortOrder level

/- The outline of a level to which an entry is written. -/
theorem outline_put
    (name : String)
    (node : ParameterNode)
    (level : Keyed String ParameterNode) :
    outline (Keyed.put name node level) =
      Keyed.put name node.sortOrder (outline level) :=
  Keyed.map_put ParameterNode.sortOrder name node level

/- The outline of the level at the end of a path. -/
def outlineAt
    (path : List String)
    (level : Keyed String ParameterNode) :
    Keyed String (Option Int) :=
  outline ((levelAt? path level).getD [])

/- An outline after a step that leads to its level, if any. -/
def addStep
    (step? : Option IdentityStep)
    (table : Keyed String (Option Int)) :
    Keyed String (Option Int) :=
  match step? with
  | some step => Keyed.putIfNew step.1 step.2 table
  | none => table

/- Below a name is the outline of what is found there. -/
theorem outlineAt_cons
    (name : String)
    (path : List String)
    (level : Keyed String ParameterNode) :
    outlineAt (name :: path) level =
      outlineAt path
        ((Keyed.find? name level).elim []
          ParameterNode.variants) := by
  unfold outlineAt
  rw [levelAt?_cons]
  cases Keyed.find? name level with
  | none => cases path <;> rfl
  | some node => rfl

/- An identity adds its next step to the outline of a level. -/
theorem outlineAt_enterLevels
    (path : List String)
    (identity : List IdentityStep)
    (level : Keyed String ParameterNode) :
    outlineAt path (enterLevels identity level) =
      addStep (nextStep? path identity)
        (outlineAt path level) := by
  induction identity generalizing path level with
  | nil => cases path <;> rfl
  | cons step rest ih =>
      rcases step with ⟨first, sortOrder⟩
      rw [enterLevels_cons]
      cases path with
      | nil =>
          -- an entry that is there keeps its sort order
          change
            outline (Keyed.put first _ level) =
              Keyed.putIfNew first sortOrder (outline level)
          rw [outline_put, ParameterNode.sortOrder]
          have hOutline := find?_outline first level
          cases hFound : Keyed.find? first level with
          | none =>
              rw [hFound] at hOutline
              apply Keyed.put_eq_putIfNew
              simp [hOutline]
          | some node =>
              rw [hFound] at hOutline
              rw [Keyed.putIfNew_of_find? hOutline]
              exact Keyed.put_of_find? hOutline
      | cons name path =>
          rw [outlineAt_cons, outlineAt_cons, nextStep?,
            Keyed.find?_put]
          by_cases hName : first = name
          · subst hName
            rw [if_pos rfl, if_pos rfl, Option.elim_some,
              ParameterNode.variants_node]
            exact ih path _
          · rw [if_neg (Ne.symm hName), if_neg hName]
            rfl

/-
  An outline is that of a level which parameters have come
  by: every name is there that one of them leads to, with the
  sort order that it was brought in with, and the names stand
  in the order of their arrival.
-/
structure Outlines
    (parameters : List Parameter)
    (path : List String)
    (table : Keyed String (Option Int)) : Prop where
  sortOrders :
    ∀ name,
      Keyed.find? name table =
        (introducer? (path ++ [name]) parameters).map
          Parameter.sortOrder
  arrivals :
    (Keyed.keys table).Pairwise fun name other =>
      arrival (path ++ [name]) parameters <
        arrival (path ++ [other]) parameters

variable {table : Keyed String (Option Int)}

/- The names are those that a parameter leads to. -/
theorem Outlines.mem_keys_iff
    (hOutlines : Outlines parameters path table)
    (name : String) :
    name ∈ Keyed.keys table ↔
      ∃ p ∈ parameters, LeadsTo (path ++ [name]) p := by
  rw [← exists_introducer?_iff, ← Keyed.has_iff_mem_keys,
    Keyed.has, hOutlines.sortOrders, Option.isSome_map,
    Option.isSome_iff_exists]

/- Without parameters there are no names. -/
theorem outlines_nil (path : List String) :
    Outlines [] path [] :=
  ⟨fun _ => rfl, List.Pairwise.nil⟩

/- One more parameter adds its step, if it has one here. -/
theorem Outlines.addStep
    (hOutlines : Outlines parameters path table)
    (p : Parameter) :
    Outlines (parameters ++ [p]) path
      (addStep (nextStep? path p.identityPath) table) := by
  have hArrivals :
      (Keyed.keys table).Pairwise fun name other =>
        arrival (path ++ [name]) (parameters ++ [p]) <
          arrival (path ++ [other]) (parameters ++ [p]) := by
    refine hOutlines.arrivals.imp_of_mem ?_
    intro name other hName hOther hBefore
    rw [hOutlines.mem_keys_iff] at hName hOther
    rw [arrival_append hName, arrival_append hOther]
    exact hBefore
  constructor
  · intro name
    rw [introducer?_append, Option.map_or,
      introducer?_singleton, ← hOutlines.sortOrders]
    cases nextStep? path p.identityPath with
    | none => exact Option.or_none.symm
    | some step => exact Keyed.find?_putIfNew _ _ _ _
  · cases hNext : nextStep? path p.identityPath with
    | none => exact hArrivals
    | some step =>
        rw [CanonicalTree.addStep, Keyed.keys_putIfNew]
        split
        · exact hArrivals
        · rename_i hNew
          rw [List.pairwise_append]
          refine ⟨hArrivals, List.pairwise_singleton _ _, ?_⟩
          intro name hName other hOther
          rw [List.mem_singleton] at hOther
          subst hOther
          rw [hOutlines.mem_keys_iff] at hName hNew
          rw [arrival_append hName]
          exact
            (arrival_lt_length hName).trans_le
              (length_le_arrival_append hNew [p])

------------------------------------------------------------
-- Trees
------------------------------------------------------------

variable {tree : CanonicalTree}

/- An accepted entry adds to an outline if it leads there. -/
theorem Outlines.enter
    {entry : Entry}
    (hOutlines :
      Outlines parameters path
        (outlineAt path tree.parameters))
    (hOk : (tree.enter entry).2 = .ok ()) :
    Outlines (parameters ++ parametersOf [entry]) path
      (outlineAt path (tree.enter entry).1.parameters) := by
  cases entry with
  | parameter p =>
      rw [CanonicalTree.enter, (addParameter_ok hOk).1,
        outlineAt_enterLevels]
      exact hOutlines.addStep p
  | function nameSpace functionName =>
      have hEntering :=
        entering_of_addFunction (Prod.ext rfl hOk)
      rw [CanonicalTree.enter, hEntering.parameters]
      simpa [parametersOf] using hOutlines

/- Every level is outlined by the parameters so far. -/
theorem Outlines.enterAll
    {entries : List Entry}
    (hOutlines :
      Outlines parameters path
        (outlineAt path tree.parameters))
    (hAccepts : tree.AcceptsAll entries) :
    Outlines (parameters ++ parametersOf entries) path
      (outlineAt path (tree.enterAll entries).parameters) := by
  induction entries generalizing tree parameters with
  | nil =>
      rw [enterAll_nil, parametersOf, List.filterMap_nil,
        List.append_nil]
      exact hOutlines
  | cons entry rest ih =>
      have hRest := ih (hOutlines.enter hAccepts.1) hAccepts.2
      rw [List.append_assoc, parametersOf, parametersOf,
        ← List.filterMap_append, List.singleton_append]
        at hRest
      exact hRest

end CanonicalTree

end HostBindings
