import HostBindings.Proofs.Excel.Gathered

/-
  Names in the outputs of a run.

  A run has checked that the qualified names of its functions
  are distinct.  Ids, identifiers and the names of objects
  are made by mappings that forget the case of letters, or
  where a namespace ends, so that distinct names may become
  one.  The outputs have distinct names exactly when this
  does not happen.

  Main declarations:
    * `Excel.nodup_map_iff`
    * `Excel.ids_of_run_ok`
    * `Excel.Bindings.declaredNames`
    * `Excel.Bindings.importedNames`
    * `Excel.nodup_identifiers_iff`
    * `Excel.Gathered.nodup_declaredNames_iff`
    * `Excel.names_of_run_ok`
-/

------------------------------------------------------------
-- Images of Lists
------------------------------------------------------------

namespace HostBindings

namespace Excel

/- Lists with equal images item by item have equal images. -/
theorem map_eq_map_of_forall₂
    {α β γ : Type}
    {related : α → β → Prop}
    {items : List α}
    {others : List β}
    {image : α → γ}
    {otherImage : β → γ}
    (hItems : List.Forall₂ related items others)
    (hImage :
      ∀ a b, related a b → otherImage b = image a) :
    others.map otherImage = items.map image := by
  induction hItems with
  | nil => rfl
  | cons hFirst hRest ih =>
      rw [List.map_cons, List.map_cons, hImage _ _ hFirst, ih]

/-
  If items have distinct keys, then their images are distinct
  exactly when items with one image have one key.
-/
theorem nodup_map_iff
    {α β γ : Type}
    {items : List α}
    {key : α → β}
    {image : α → γ}
    (hKeys : (items.map key).Nodup) :
    (items.map image).Nodup ↔
      ∀ a ∈ items, ∀ b ∈ items,
        image a = image b → key a = key b := by
  rw [List.nodup_map_iff_inj_on hKeys.of_map]
  constructor
  · intro hSame a hA b hB hImage
    exact congrArg key (hSame a hA b hB hImage)
  · intro hKey a hA b hB hImage
    have hSame := hKey a hA b hB hImage
    exact List.inj_on_of_nodup_map hKeys hA hB hSame

------------------------------------------------------------
-- Ids
------------------------------------------------------------

variable {options : Options}
variable {catalog : Option Catalog}
variable {modules : List ProxyModule}
variable {workspace : Workspace}
variable {summary : Summary}

/-
  After a run that goes well, the manifest has the id of each
  visible function, which its wrapper is associated to.  The
  qualified names of these functions are distinct, and their
  ids are so exactly when no two of the names differ in case
  alone.
-/
theorem ids_of_run_ok
    (hOk :
      (run (emitter options) catalog modules
        workspace).result = .ok summary) :
    let bindings :=
      (run (emitter options) catalog modules
        workspace).state.bindings
    let names :=
      (Run.documentedFunctions modules).map
        DocumentedFunction.qualifiedName
    bindings.entries.map (·.id) = names.map Text.upper ∧
      bindings.wrappers.map (·.id) = names.map Text.upper ∧
      names.Nodup ∧
      ((bindings.entries.map (·.id)).Nodup ↔
        ∀ first ∈ names, ∀ second ∈ names,
          Text.upper first = Text.upper second →
            first = second) := by
  intro bindings names
  have hGathered := gathered_of_run_ok hOk
  have hDistinct : names.Nodup :=
    Run.nodup_documentedFunctions (Run.clear_of_run_ok hOk)
  have hEntries :
      bindings.entries.map (·.id) = names.map Text.upper := by
    rw [List.map_map]
    exact
      map_eq_map_of_forall₂ hGathered.entries
        fun f entry hEntry => hEntry
  have hWrappers :
      bindings.wrappers.map (·.id) = names.map Text.upper := by
    rw [List.map_map]
    exact
      map_eq_map_of_forall₂ hGathered.wrappers
        fun f wrapper hWrapper => hWrapper.2
  refine ⟨hEntries, hWrappers, hDistinct, ?_⟩
  have hKeys : (names.map id).Nodup := by
    rw [List.map_id]
    exact hDistinct
  rw [hEntries]
  exact nodup_map_iff hKeys

/- A class with two methods. -/
def twoMethods (className first second : String) : ProxyModule :=
  ⟨"checks",
    .sequence
      [.method className first (.returns .string .matrix) [],
        .method className second (.returns .string .matrix) [],
        .concreteClass className none ⟨none, none, []⟩]⟩

/- Outputs in the working directory. -/
def plainOptions : Options where
  sourcePath := "functions.ts"
  manifestPath := "functions.json"
  defaultLocale := "en"
  proxyModule := "./proxies"
  extensionClass := "ExcelAppExtension"
  extensionModule := "./excel-app-extension"

/- Two methods with different names have distinct ids. -/
theorem ids_of_two_methods :
    (run (emitter plainOptions) none
        [twoMethods "CheckProxy" "check" "verify"]
        (.new (.empty []))).result = .ok ⟨1, 1, 2⟩ ∧
      ((run (emitter plainOptions) none
        [twoMethods "CheckProxy" "check" "verify"]
        (.new (.empty []))).state.bindings.entries.map
          (·.id)).Nodup := by
  have hOk :
      (run (emitter plainOptions) none
        [twoMethods "CheckProxy" "check" "verify"]
        (.new (.empty []))).result = .ok ⟨1, 1, 2⟩ := by
    decide +kernel
  have hIds := (ids_of_run_ok hOk).2.2.2
  exact ⟨hOk, hIds.mpr (by decide +kernel)⟩

/- The ids of two methods may be the same. -/
theorem ids_of_methods_in_two_cases :
    ¬ ∀ (options : Options) (catalog : Option Catalog)
        (modules : List ProxyModule) (workspace : Workspace)
        (summary : Summary),
      (run (emitter options) catalog modules
          workspace).result = .ok summary →
        ((run (emitter options) catalog modules
          workspace).state.bindings.entries.map (·.id)).Nodup := by
  intro hNodup
  have hBoth :=
    hNodup plainOptions none
      [twoMethods "CheckProxy" "check" "Check"]
      (.new (.empty [])) ⟨1, 1, 2⟩ (by decide +kernel)
  revert hBoth
  decide +kernel

------------------------------------------------------------
-- Declared Names
------------------------------------------------------------

namespace Bindings

/- The names that the source declares: objects and wrappers. -/
def declaredNames (bindings : Bindings) : List String :=
  bindings.objects.map (·.name) ++
    bindings.wrappers.map (·.identifier)

/- The names that the source imports as classes. -/
def importedNames (bindings : Bindings) : List String :=
  bindings.objects.map (·.className)

end Bindings

/- In one namespace, identifiers are as good as names. -/
theorem qualifiedName_of_identifier
    {f g : DocumentedFunction}
    (hSpace : f.nameSpace = g.nameSpace)
    (hSame :
      functionIdentifier f.bare = functionIdentifier g.bare) :
    f.qualifiedName = g.qualifiedName := by
  rcases f with ⟨space, name, parameters⟩
  rcases g with ⟨otherSpace, other, otherParameters⟩
  cases hSpace
  cases space with
  | none => exact hSame
  | some space =>
      have hName : name = other := by
        simpa [functionIdentifier, DocumentedFunction.bare]
          using hSame
      rw [DocumentedFunction.qualifiedName, hName]
      rfl

/-
  Functions with distinct qualified names have distinct
  identifiers exactly when functions with one identifier have
  one namespace.
-/
theorem nodup_identifiers_iff
    {functions : List DocumentedFunction}
    (hDistinct :
      (functions.map
        DocumentedFunction.qualifiedName).Nodup) :
    (functions.map fun f => functionIdentifier f.bare).Nodup ↔
      ∀ f ∈ functions, ∀ g ∈ functions,
        functionIdentifier f.bare = functionIdentifier g.bare →
          f.nameSpace = g.nameSpace := by
  rw [nodup_map_iff hDistinct]
  constructor
  · intro hNames f hF g hG hSame
    have hItems := List.inj_on_of_nodup_map hDistinct
    rw [hItems hF hG (hNames f hF g hG hSame)]
  · intro hSpaces f hF g hG hSame
    exact
      qualifiedName_of_identifier (hSpaces f hF g hG hSame)
        hSame

section Gathered

variable {bindings : Bindings}
variable {classes : List ProxyClass}
variable {functions : List DocumentedFunction}

/- The objects have the names that their classes give them. -/
theorem Gathered.objectNames
    (hGathered : Gathered bindings classes functions) :
    (bindings.objects.map (·.name)).map Except.ok =
      classes.map fun c => objectName c.name := by
  rw [List.map_map]
  exact
    map_eq_map_of_forall₂ hGathered.objects
      fun c object hObject => hObject.1.symm

/- An object has a name exactly when a class gives it. -/
theorem Gathered.mem_objectNames_iff
    (hGathered : Gathered bindings classes functions)
    (name : String) :
    name ∈ bindings.objects.map (·.name) ↔
      ∃ c ∈ classes, objectName c.name = .ok name := by
  have hMem :
      (.ok name : Except Fault String) ∈
          (bindings.objects.map (·.name)).map Except.ok ↔
        ∃ c ∈ classes, objectName c.name = .ok name := by
    rw [hGathered.objectNames, List.mem_map]
  rw [← hMem, List.mem_map_of_injective]
  exact fun _ _ => Except.ok.inj

/- Wrappers have the identifiers of their functions. -/
theorem Gathered.identifiers
    (hGathered : Gathered bindings classes functions) :
    bindings.wrappers.map (·.identifier) =
      functions.map fun f => functionIdentifier f.bare := by
  exact
    map_eq_map_of_forall₂ hGathered.wrappers
      fun f wrapper hWrapper => hWrapper.1

/- What is imported are the names of the classes. -/
theorem Gathered.importedNames
    (hGathered : Gathered bindings classes functions) :
    bindings.importedNames = classes.map (·.name) := by
  exact
    map_eq_map_of_forall₂ hGathered.objects
      fun c object hObject => hObject.2

/- What is declared is distinct part by part and across. -/
theorem Gathered.nodup_declaredNames_iff
    (hGathered : Gathered bindings classes functions) :
    bindings.declaredNames.Nodup ↔
      (classes.map fun c => objectName c.name).Nodup ∧
        (functions.map fun f =>
          functionIdentifier f.bare).Nodup ∧
        ∀ c ∈ classes, ∀ f ∈ functions,
          objectName c.name ≠
            .ok (functionIdentifier f.bare) := by
  have hObjects :
      (bindings.objects.map (·.name)).Nodup ↔
        (classes.map fun c => objectName c.name).Nodup := by
    rw [← hGathered.objectNames]
    exact
      (List.nodup_map_iff fun _ _ => Except.ok.inj).symm
  rw [Bindings.declaredNames, List.nodup_append, hObjects,
    hGathered.identifiers]
  apply and_congr_right
  intro _
  apply and_congr_right
  intro _
  constructor
  · intro hApart c hClass f hFunction hSame
    have hObject :=
      (hGathered.mem_objectNames_iff _).mpr ⟨c, hClass, hSame⟩
    exact
      hApart _ hObject _ (List.mem_map_of_mem hFunction) rfl
  · rintro hApart name hObject _ hFunction rfl
    rcases (hGathered.mem_objectNames_iff name).mp hObject
      with ⟨c, hClass, hSame⟩
    rcases List.mem_map.mp hFunction with ⟨f, hF, hName⟩
    rw [← hName] at hSame
    exact hApart c hClass f hF hSame

/- Distinct objects are those of classes with distinct names. -/
theorem Gathered.nodup_importedNames
    (hGathered : Gathered bindings classes functions)
    (hDeclared : bindings.declaredNames.Nodup) :
    bindings.importedNames.Nodup := by
  have hObjects :=
    (hGathered.nodup_declaredNames_iff.mp hDeclared).1
  have hMap :
      (classes.map fun c => objectName c.name) =
        (classes.map (·.name)).map objectName := by
    rw [List.map_map]
    rfl
  rw [hMap] at hObjects
  rw [hGathered.importedNames]
  exact hObjects.of_map

end Gathered

/-
  After a run that goes well, the source declares an object
  for each class and a wrapper for each visible function.
  What it declares is distinct exactly when the objects of
  the classes have distinct names, no identifier belongs to
  functions of different namespaces, and no object is named
  like a function.  Then what it imports is distinct as well.
-/
theorem names_of_run_ok
    (hOk :
      (run (emitter options) catalog modules
        workspace).result = .ok summary) :
    let bindings :=
      (run (emitter options) catalog modules
        workspace).state.bindings
    let classes := Run.emittedClasses modules
    let functions := Run.documentedFunctions modules
    bindings.importedNames = classes.map (·.name) ∧
      (bindings.objects.map (·.name)).map Except.ok =
        classes.map (fun c => objectName c.name) ∧
      bindings.wrappers.map (·.identifier) =
        functions.map (fun f => functionIdentifier f.bare) ∧
      (bindings.declaredNames.Nodup ↔
        (classes.map fun c => objectName c.name).Nodup ∧
          (∀ f ∈ functions, ∀ g ∈ functions,
            functionIdentifier f.bare =
                functionIdentifier g.bare →
              f.nameSpace = g.nameSpace) ∧
          ∀ c ∈ classes, ∀ f ∈ functions,
            objectName c.name ≠
              .ok (functionIdentifier f.bare)) ∧
      (bindings.declaredNames.Nodup →
        bindings.importedNames.Nodup) := by
  intro bindings classes functions
  have hGathered := gathered_of_run_ok hOk
  have hIdentifiers :=
    nodup_identifiers_iff
      (Run.nodup_documentedFunctions (Run.clear_of_run_ok hOk))
  refine
    ⟨hGathered.importedNames, hGathered.objectNames,
      hGathered.identifiers, ?_,
      hGathered.nodup_importedNames⟩
  rw [hGathered.nodup_declaredNames_iff, hIdentifiers]

/- A class and its two methods have distinct names. -/
theorem names_of_two_methods :
    (run (emitter plainOptions) none
        [twoMethods "CheckProxy" "check" "Check"]
        (.new (.empty []))).result = .ok ⟨1, 1, 2⟩ ∧
      (run (emitter plainOptions) none
        [twoMethods "CheckProxy" "check" "Check"]
        (.new (.empty []))).state.bindings.declaredNames.Nodup := by
  have hOk :
      (run (emitter plainOptions) none
        [twoMethods "CheckProxy" "check" "Check"]
        (.new (.empty []))).result = .ok ⟨1, 1, 2⟩ := by
    decide +kernel
  have hNames := (names_of_run_ok hOk).2.2.2.1
  exact ⟨hOk, hNames.mpr (by decide +kernel)⟩

/- An object and a wrapper may have the same name. -/
theorem names_of_class_like_method :
    ¬ ∀ (options : Options) (catalog : Option Catalog)
        (modules : List ProxyModule) (workspace : Workspace)
        (summary : Summary),
      (run (emitter options) catalog modules
          workspace).result = .ok summary →
        (run (emitter options) catalog modules
            workspace).state.bindings.declaredNames.Nodup ∧
          (run (emitter options) catalog modules
            workspace).state.bindings.importedNames.Nodup := by
  intro hNodup
  have hBoth :=
    hNodup plainOptions none
      [twoMethods "Check" "check" "verify"]
      (.new (.empty [])) ⟨1, 1, 2⟩ (by decide +kernel)
  have hDeclared := hBoth.1
  revert hDeclared
  decide +kernel

end Excel

end HostBindings
