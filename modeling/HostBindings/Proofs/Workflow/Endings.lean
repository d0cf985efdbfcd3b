import HostBindings.Proofs.Fault.Sequences
import HostBindings.Workflow.Generation

/-
  How a generation ends.

  It goes through its stages up to the first one that fails.
  What it leaves on the disk and what it results in depend on
  the stage at which it ends.

  Main declarations:
    * `Generation.resources`
    * `Generation.synchronization`
    * `Generation.emission`
    * `Generation.Ready`
    * `Generation.Ending`
    * `Generation.ending_of_generate`
-/

------------------------------------------------------------
-- Stages
------------------------------------------------------------

namespace HostBindings

namespace Generation

/- The locale files that a request finds on a disk. -/
def resources
    (request : Request)
    (disk : Disk) : List Resource :=
  (Resource.discover disk
    request.settings.localesDirectory).2

/- Bringing these files in line with a tree. -/
def synchronization
    (request : Request)
    (disk : Disk)
    (tree : Json) :
    Synchronization.Outcome (List Synchronization.Entry) :=
  Synchronization.synchronize tree
    request.settings.logLocaleChanges disk
    (resources request disk)

/- Emitting the bindings with a catalog. -/
def emission
    (request : Request)
    (disk : Disk)
    (defaultLocale : Locale)
    (catalog : Catalog) : Run.Report Excel.Workspace :=
  run (Excel.emitter (options request defaultLocale))
    (some catalog) request.modules (.new disk)

/- Lines in front of the log are no part of the result. -/
@[simp]
theorem after_result
    (log : List LogLine)
    (outcome : Outcome) :
    (outcome.after log).result = outcome.result := rfl

@[simp]
theorem after_disk
    (log : List LogLine)
    (outcome : Outcome) :
    (outcome.after log).disk = outcome.disk := rfl

/-
  What a generation comes by before it emits the bindings: the
  tree of the modules, the default locale, the disk with the
  locale files in line, and the catalog that is loaded.
-/
structure Ready
    (request : Request)
    (disk : Disk)
    (tree : Json)
    (defaultLocale : Locale)
    (inLine : Disk)
    (catalog : Catalog) : Prop where
  collected : ∃ count, (collect request).result = .ok count
  canonical : (collect request).state.canonical = some tree
  locale :
    Locale.ofCode request.settings.defaultLocale =
      .ok defaultLocale
  synchronized :
    ∃ all, (synchronization request disk tree).result = .ok all
  leaves : (synchronization request disk tree).disk = inLine
  loaded :
    Catalog.load inLine (policy request.settings)
        (resources request disk) =
      .ok catalog

------------------------------------------------------------
-- Endings
------------------------------------------------------------

/-
  The stages at which a generation can end, with the disk and
  the result that it has then.
-/
inductive Ending
    (request : Request)
    (disk : Disk) :
    Disk → Except Failure Summary → Prop
| uncollected
    {fault : Fault}
    (hFault : (collect request).result = .error fault) :
    Ending request disk disk
      (.error
        (.ofFault
          ("Failed to elaborate proxies for " ++
            "locale synchronization")
          fault))
| treeless
    (hNone : (collect request).state.canonical = none) :
    Ending request disk disk
      (.error
        (.ofText
          ("Locale synchronization produced no " ++
            "canonical tree")))
| withoutLocale
    {fault : Fault}
    (hFault :
      Locale.ofCode request.settings.defaultLocale =
        .error fault) :
    Ending request disk disk
      (.error
        (.ofFault
          ("Invalid DEFAULT_LOCALE '" ++
            request.settings.defaultLocale ++ "'")
          fault))
| outOfLine
    (tree : Json)
    {fault : Fault}
    (hFault :
      (synchronization request disk tree).result =
        .error fault) :
    Ending request disk
      (synchronization request disk tree).disk
      (.error
        (.ofFault "Failed to synchronize locale resources"
          fault))
| unloaded
    (tree : Json)
    {fault : Fault}
    (hFault :
      Catalog.load (synchronization request disk tree).disk
          (policy request.settings)
          (resources request disk) =
        .error fault) :
    Ending request disk
      (synchronization request disk tree).disk
      (.error
        (.ofFault "Failed to load locale resources" fault))
| emitted
    (tree : Json)
    (defaultLocale : Locale)
    (inLine : Disk)
    (catalog : Catalog)
    (hReady :
      Ready request disk tree defaultLocale inLine catalog) :
    Ending request disk
      (emission request inLine defaultLocale
        catalog).state.disk
      ((emission request inLine defaultLocale
        catalog).result.mapError
          (.ofFault "Failed to generate Excel bindings"))

variable {request : Request}
variable {disk : Disk}
variable {tree : Json}
variable {defaultLocale : Locale}

/- Once the locale files are in line, they are loaded. -/
theorem ending_of_bindLocalized
    {count : Summary}
    {all : List Synchronization.Entry}
    (hCollected : (collect request).result = .ok count)
    (hTree : (collect request).state.canonical = some tree)
    (hLocale :
      Locale.ofCode request.settings.defaultLocale =
        .ok defaultLocale)
    (hAll :
      (synchronization request disk tree).result = .ok all) :
    let outcome :=
      bindLocalized request
        (synchronization request disk tree).disk defaultLocale
        (resources request disk)
    Ending request disk outcome.disk outcome.result := by
  unfold bindLocalized
  cases hLoaded :
      Catalog.load (synchronization request disk tree).disk
        (policy request.settings)
        (resources request disk) with
  | error fault => exact .unloaded tree hLoaded
  | ok catalog =>
      exact
        .emitted tree defaultLocale _ catalog
          ⟨⟨count, hCollected⟩, hTree, hLocale, ⟨all, hAll⟩,
            rfl, hLoaded⟩

/- Once there is a default locale, they are brought in line. -/
theorem ending_of_synchronizeAndBind
    {count : Summary}
    (hCollected : (collect request).result = .ok count)
    (hTree : (collect request).state.canonical = some tree)
    (hLocale :
      Locale.ofCode request.settings.defaultLocale =
        .ok defaultLocale) :
    let outcome :=
      synchronizeAndBind request disk tree defaultLocale
        (resources request disk)
    Ending request disk outcome.disk outcome.result := by
  unfold synchronizeAndBind
  dsimp only [-String.reduceAppend]
  cases hAll :
      (synchronization request disk tree).result with
  | error fault =>
      rw [synchronization] at hAll
      rw [hAll]
      exact .outOfLine tree hAll
  | ok all =>
      have hEnding :=
        ending_of_bindLocalized hCollected hTree hLocale hAll
      rw [synchronization] at hAll
      simp only [hAll, after_disk, after_result]
      exact hEnding

/- Once there is a tree, a default locale is asked for. -/
theorem ending_of_withCanonical
    {count : Summary}
    (hCollected : (collect request).result = .ok count)
    (hTree : (collect request).state.canonical = some tree) :
    let outcome := withCanonical request disk tree
    Ending request disk outcome.disk outcome.result := by
  unfold withCanonical
  dsimp only [-String.reduceAppend]
  cases hLocale :
      Locale.ofCode request.settings.defaultLocale with
  | error fault => exact .withoutLocale hLocale
  | ok defaultLocale =>
      simp only [after_disk, after_result]
      exact
        ending_of_synchronizeAndBind hCollected hTree hLocale

/- Every generation ends at one of its stages. -/
theorem ending_of_generate
    (request : Request)
    (disk : Disk) :
    Ending request disk (generate request disk).disk
      (generate request disk).result := by
  unfold generate
  dsimp only [-String.reduceAppend]
  cases hCollected : (collect request).result with
  | error fault => exact .uncollected hCollected
  | ok count =>
      cases hTree : (collect request).state.canonical with
      | none => exact .treeless hTree
      | some tree =>
          simp only [after_disk, after_result]
          exact ending_of_withCanonical hCollected hTree

/- It ends well only when the bindings are emitted. -/
theorem Ending.exists_of_ok
    {after : Disk}
    {summary : Summary}
    (hEnding : Ending request disk after (.ok summary)) :
    ∃ tree defaultLocale inLine catalog,
      Ready request disk tree defaultLocale inLine catalog ∧
        (emission request inLine defaultLocale
          catalog).result = .ok summary := by
  generalize hResult :
    (Except.ok summary : Except Failure Summary) = result
    at hEnding
  cases hEnding with
  | emitted tree defaultLocale inLine catalog hReady =>
      refine
        ⟨tree, defaultLocale, inLine, catalog, hReady, ?_⟩
      cases hEmitted :
          (emission request inLine defaultLocale
            catalog).result with
      | error fault =>
          rw [hEmitted] at hResult
          cases hResult
      | ok count =>
          rw [hEmitted] at hResult
          cases hResult
          rfl
  | _ => cases hResult

end Generation

end HostBindings
