import HostBindings.Locale.Key
import HostBindings.Proofs.Proxy.Chains

/-
  The identity of a parameter along its chain of extensions.

  The identity of a base ends with the name of the base.  So
  an extension that keeps the name keeps the identity, and one
  that does not adds its own name behind it.

  Main declarations:
    * `Parameter.identityPath_root`
    * `Parameter.identityPath_extension`
    * `Parameter.getLast?_identityPath`
    * `Parameter.identityPath_ne_nil`
    * `Parameter.identityPath_of_sameName`
    * `Parameter.identityPath_of_newName`
    * `Parameter.identityPath_prefix_of_mem_chain`
    * `Parameter.identity_grows_along_chain`
-/

------------------------------------------------------------
-- Identity
------------------------------------------------------------

namespace HostBindings

namespace Parameter

/- The identity of a root is its name. -/
theorem identityPath_root (fields : EffectiveParameter) :
    identityPath (.root fields) = [(fields.name, none)] := rfl

/- An extension adds its level to the identity of its base. -/
theorem identityPath_extension
    (base : Parameter)
    (overlay : Overlay) :
    identityPath (.extension base overlay) =
      extendPath base.identityPath
        (.extension base overlay) := by
  unfold identityPath
  rw [chain, List.foldl_append]
  rfl

/- A path to which a level has been added ends with its name. -/
theorem getLast?_extendPath
    (path : List IdentityStep)
    (level : Parameter) :
    (extendPath path level).getLast?.map Prod.fst =
      some level.name := by
  unfold extendPath
  split
  · assumption
  · rw [List.getLast?_concat]
    rfl

/- An identity ends with the name of its parameter. -/
theorem getLast?_identityPath (p : Parameter) :
    p.identityPath.getLast?.map Prod.fst = some p.name := by
  cases p with
  | root fields => rfl
  | extension base overlay =>
      rw [identityPath_extension]
      exact getLast?_extendPath _ _

/- Every parameter has a name along its identity. -/
theorem identityPath_ne_nil (p : Parameter) :
    p.identityPath ≠ [] := by
  intro hNil
  have hLast := p.getLast?_identityPath
  rw [hNil] at hLast
  cases hLast

------------------------------------------------------------
-- Extensions
------------------------------------------------------------

variable {base : Parameter}
variable {overlay : Overlay}

/- An extension under the same name has the same identity. -/
theorem identityPath_of_sameName
    (hName : name (.extension base overlay) = base.name) :
    identityPath (.extension base overlay) =
      base.identityPath := by
  rw [identityPath_extension, extendPath, hName,
    if_pos base.getLast?_identityPath]

/- A new name comes behind the identity of the base. -/
theorem identityPath_of_newName
    (hName : name (.extension base overlay) ≠ base.name) :
    identityPath (.extension base overlay) =
      base.identityPath ++
        [(name (.extension base overlay),
          overlay.sortOrder)] := by
  -- the name at the end of the path is that of the base
  have hLast :
      base.identityPath.getLast?.map Prod.fst ≠
        some (name (.extension base overlay)) := by
    rw [getLast?_identityPath]
    exact fun h => hName (Option.some.inj h).symm
  rw [identityPath_extension, extendPath, if_neg hLast]
  rfl

/- A new name is one that the extension itself sets. -/
theorem ownName_of_newName
    (hName : name (.extension base overlay) ≠ base.name) :
    overlay.name = some (name (.extension base overlay)) := by
  rw [name] at hName ⊢
  cases hOwn : overlay.name with
  | none =>
      rw [hOwn] at hName
      exact absurd rfl hName
  | some own => rfl

/- The identity of a base begins that of its extensions. -/
theorem identityPath_prefix_extension
    (base : Parameter)
    (overlay : Overlay) :
    base.identityPath <+:
      identityPath (.extension base overlay) := by
  by_cases hName : name (.extension base overlay) = base.name
  · refine ⟨[], ?_⟩
    rw [List.append_nil, identityPath_of_sameName hName]
  · rw [identityPath_of_newName hName]
    exact List.prefix_append _ _

------------------------------------------------------------
-- Chains
------------------------------------------------------------

/- The identity of a level begins that of the parameter. -/
theorem identityPath_prefix_of_mem_chain
    {level p : Parameter}
    (hLevel : level ∈ p.chain) :
    level.identityPath <+: p.identityPath := by
  induction p with
  | root fields =>
      rw [chain, List.mem_singleton] at hLevel
      subst hLevel
      exact List.prefix_rfl
  | extension base overlay ih =>
      rw [chain, List.mem_append, List.mem_singleton]
        at hLevel
      rcases hLevel with hBase | rfl
      · exact
          (ih hBase).trans
            (identityPath_prefix_extension base overlay)
      · exact List.prefix_rfl

/- An identity starts with the name of the root. -/
theorem head?_identityPath
    {p : Parameter}
    {fields : EffectiveParameter}
    (hRoot : p.chain.head? = some (.root fields)) :
    p.identityPath.head? = some (fields.name, none) := by
  have hPrefix :
      identityPath (.root fields) <+: p.identityPath :=
    identityPath_prefix_of_mem_chain
      (List.mem_of_mem_head? hRoot)
  rcases hPrefix with ⟨rest, hRest⟩
  rw [← hRest]
  rfl

/- Neighbours along an identity have different names. -/
theorem isChain_names_identityPath (p : Parameter) :
    (p.identityPath.map Prod.fst).IsChain (· ≠ ·) := by
  induction p with
  | root fields => exact List.isChain_singleton _
  | extension base overlay ih =>
      by_cases hName :
          name (.extension base overlay) = base.name
      · rw [identityPath_of_sameName hName]
        exact ih
      · rw [identityPath_of_newName hName, List.map_append]
        refine
          List.isChain_append.mpr
            ⟨ih, List.isChain_singleton _, ?_⟩
        intro last hLast next hNext
        rw [List.getLast?_map, getLast?_identityPath] at hLast
        cases hLast
        cases hNext
        exact Ne.symm hName

/-
  The identity of a root is its name.  An extension keeps the
  identity of its base as long as it keeps the name, and adds
  its own name with its own sort order if not.  So an identity
  starts with the name of the root, ends with the name of the
  parameter, repeats no name at once, and is found under the
  keys of every level of the chain.
-/
theorem identity_grows_along_chain :
    (∀ fields,
        identityPath (.root fields) = [(fields.name, none)]) ∧
      (∀ base overlay,
        let p := Parameter.extension base overlay
        if p.effective.name = base.effective.name then
          p.identityPath = base.identityPath
        else
          ∃ own,
            overlay.name = some own ∧
              p.identityPath =
                base.identityPath ++
                  [(own, overlay.sortOrder)]) ∧
      ∀ p : Parameter,
        p.identityPath ≠ [] ∧
          (∃ fields,
            p.chain.head? = some (.root fields) ∧
              p.identityPath.head? =
                some (fields.name, none)) ∧
          p.identityPath.getLast?.map Prod.fst =
            some p.effective.name ∧
          (p.identityPath.map Prod.fst).IsChain (· ≠ ·) ∧
          ∀ level ∈ p.chain,
            parameterKey level <+: parameterKey p := by
  refine ⟨identityPath_root, ?_, ?_⟩
  · intro base overlay p
    rw [name_effective, name_effective]
    split
    · next hName => exact identityPath_of_sameName hName
    · next hName =>
        exact
          ⟨p.name, ownName_of_newName hName,
            identityPath_of_newName hName⟩
  · intro p
    rcases (isChainOf_chain p).root with ⟨fields, hRoot⟩
    refine
      ⟨p.identityPath_ne_nil,
        ⟨fields, hRoot, head?_identityPath hRoot⟩, ?_,
        p.isChain_names_identityPath, ?_⟩
    · rw [name_effective]
      exact p.getLast?_identityPath
    · intro level hLevel
      have hPrefix := identityPath_prefix_of_mem_chain hLevel
      exact
        List.cons_prefix_cons.mpr
          ⟨rfl, hPrefix.map Prod.fst⟩

/-
  A level that only drops the requirement and one that repeats
  the name share the keys of the levels that they extend.
-/
theorem identity_grows_along_chain_variant :
    let identifier : Parameter :=
      .new "identifier" .string .matrix true
    let optional : Parameter :=
      .extension identifier
        ⟨none, none, none, some false, some 7⟩
    let gtin : Parameter :=
      .extension optional
        ⟨some "gtin", none, none, none, some 2⟩
    let p : Parameter :=
      .extension gtin
        ⟨some "gtin", none, none, some true, some 5⟩
    optional ∈ p.chain ∧
      parameterKey optional = ["Parameters", "identifier"] ∧
      p.identityPath =
        [("identifier", none), ("gtin", some 2)] ∧
      parameterKey optional <+: parameterKey p := by
  intro identifier optional gtin p
  have hLevel : optional ∈ p.chain := by decide
  rcases identity_grows_along_chain with ⟨_, _, hIdentity⟩
  rcases hIdentity p with ⟨_, _, _, _, hKeys⟩
  exact ⟨hLevel, by decide, by decide, hKeys optional hLevel⟩

end Parameter

end HostBindings
