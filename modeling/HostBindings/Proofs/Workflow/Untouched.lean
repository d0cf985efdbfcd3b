import HostBindings.Proofs.Excel.Endings
import HostBindings.Proofs.Workflow.Regeneration

/-
  What a generation leaves untouched.

  However a generation ends, it changes no files but those of
  the locales and the two outputs.  The outputs are as they
  were when it fails, unless it fails to write them, and when
  it fails early, nothing has happened at all.

  Main declarations:
    * `Generation.InLocaleFile`
    * `Generation.FailsToWrite`
    * `Generation.Ending.keepsFiles`
    * `Generation.Ending.node?_of_error`
    * `Generation.failure_leaves_outputs`
-/

------------------------------------------------------------
-- Places of Files
------------------------------------------------------------

namespace HostBindings

namespace Generation

/- A place is that of a locale file of a request. -/
def InLocaleFile
    (request : Request)
    (disk : Disk)
    (here : Location) : Prop :=
  ∃ resource ∈ resources request disk,
    resource.LeadsTo disk here

/- The places of the two outputs of a request. -/
def outputFiles
    (request : Request)
    (disk : Disk) : List Location :=
  Excel.outputFiles request.sourcePath request.manifestPath
    disk

/-
  A request fails when its outputs are written: all stages
  have gone well before, the emission of the bindings has
  reached its outputs, and a fault of the disk is its result.
-/
def FailsToWrite
    (request : Request)
    (disk : Disk)
    (failure : Failure) : Prop :=
  ∃ tree defaultLocale inLine catalog summary cause,
    Ready request disk tree defaultLocale inLine catalog ∧
      Excel.ReachesOutputs (options request defaultLocale)
        inLine summary
        (emission request inLine defaultLocale catalog) ∧
      (emission request inLine defaultLocale
        catalog).result = .error (.file cause) ∧
      failure =
        .ofFault "Failed to generate Excel bindings"
          (.file cause)

variable {request : Request}
variable {disk after : Disk}

------------------------------------------------------------
-- Endings
------------------------------------------------------------

/- Bringing files in line changes nothing but these files. -/
theorem node?_synchronization
    {here : Location}
    (tree : Json)
    (hNot : ¬ InLocaleFile request disk here) :
    (synchronization request disk tree).disk.node? here =
      disk.node? here := by
  have hElsewhere :=
    (Synchronization.rewritten_synchronizeEach tree
      request.settings.logLocaleChanges disk
      (resources request disk)).2
  apply hElsewhere
  exact fun resource hResource hLeads =>
    hNot ⟨resource, hResource, hLeads⟩

/- So it keeps all other files. -/
theorem keepsFiles_synchronization
    (request : Request)
    (disk : Disk)
    (tree : Json) :
    disk.KeepsFiles (InLocaleFile request disk)
      (synchronization request disk tree).disk :=
  Disk.keepsFiles_of_nodes
    (Synchronization.rewritten_synchronize tree _ disk
      (resources request disk)).home
    fun _ hNot => node?_synchronization tree hNot

/- Nothing else is changed but the outputs, whatever happens. -/
theorem Ending.keepsFiles
    {result : Except Failure Summary}
    (hEnding : Ending request disk after result) :
    disk.KeepsFiles
      (fun here =>
        InLocaleFile request disk here ∨
          here ∈ outputFiles request disk)
      after := by
  have hInLine (tree : Json) :
      disk.KeepsFiles
        (fun here =>
          InLocaleFile request disk here ∨
            here ∈ outputFiles request disk)
        (synchronization request disk tree).disk :=
    (keepsFiles_synchronization request disk tree).mono
      fun _ => .inl
  cases hEnding with
  | uncollected => exact .refl _ disk
  | treeless => exact .refl _ disk
  | withoutLocale => exact .refl _ disk
  | outOfLine tree => exact hInLine tree
  | unloaded tree => exact hInLine tree
  | emitted tree defaultLocale inLine catalog hReady =>
      have hFirst := hInLine tree
      rw [hReady.leaves] at hFirst
      have hOutputs :=
        Excel.keepsFiles_run (options request defaultLocale)
          (some catalog) request.modules (.new inLine)
      refine hFirst.trans (hOutputs.mono ?_)
      intro here hHere
      right
      rw [outputFiles, ← Excel.outputFiles_eq hFirst.home]
      exact hHere

/-
  A generation that fails otherwise than in writing leaves all
  places as they are but those of locale files.
-/
theorem Ending.node?_of_error
    {failure : Failure}
    {here : Location}
    (hEnding : Ending request disk after (.error failure))
    (hOther : ¬ FailsToWrite request disk failure)
    (hNot : ¬ InLocaleFile request disk here) :
    after.node? here = disk.node? here := by
  generalize hResult :
    (Except.error failure : Except Failure Summary) = result
    at hEnding
  cases hEnding with
  | uncollected => rfl
  | treeless => rfl
  | withoutLocale => rfl
  | outOfLine tree => exact node?_synchronization tree hNot
  | unloaded tree => exact node?_synchronization tree hNot
  | emitted tree defaultLocale inLine catalog hReady =>
      cases hEmitted :
          (emission request inLine defaultLocale
            catalog).result with
      | ok summary =>
          rw [hEmitted] at hResult
          cases hResult
      | error fault =>
          rw [hEmitted] at hResult
          cases hResult
          rcases Excel.disk_of_run_error hEmitted with
            hDisk | ⟨hReaches, cause, rfl⟩
          · have hSame :
                (emission request inLine defaultLocale
                  catalog).state.disk = inLine := hDisk
            rw [hSame, ← hReady.leaves]
            exact node?_synchronization tree hNot
          · exact
              absurd
                ⟨tree, defaultLocale, inLine, catalog, _,
                  cause, hReady, hReaches, hEmitted, rfl⟩
                hOther

------------------------------------------------------------
-- Early Failures
------------------------------------------------------------

/- Without a tree of the modules nothing happens. -/
theorem generate_of_uncollected
    {fault : Fault}
    (hFault : (collect request).result = .error fault) :
    (generate request disk).disk = disk ∧
      ∃ failure,
        (generate request disk).result = .error failure := by
  unfold generate
  dsimp only [-String.reduceAppend]
  rw [hFault]
  exact ⟨rfl, _, rfl⟩

/- Nor does it without a default locale. -/
theorem generate_of_withoutLocale
    {fault : Fault}
    (hFault :
      Locale.ofCode request.settings.defaultLocale =
        .error fault) :
    (generate request disk).disk = disk ∧
      ∃ failure,
        (generate request disk).result = .error failure := by
  unfold generate
  dsimp only [-String.reduceAppend]
  split
  · exact ⟨rfl, _, rfl⟩
  · split
    · exact ⟨rfl, _, rfl⟩
    · unfold withCanonical
      dsimp only [-String.reduceAppend]
      rw [hFault]
      exact ⟨rfl, _, rfl⟩

------------------------------------------------------------
-- All Failures
------------------------------------------------------------

/-
  Let the outputs be no locale files.  Then a generation
  changes no files but the locale files and the outputs.  When
  it fails otherwise than in writing them, the outputs are as
  they were.  When it fails with the first elaboration or the
  default locale, so is the whole disk.
-/
theorem failure_leaves_outputs
    (hApart :
      ∀ here ∈ outputFiles request disk,
        ¬ InLocaleFile request disk here) :
    let outcome := generate request disk
    disk.KeepsFiles
        (fun here =>
          InLocaleFile request disk here ∨
            here ∈ outputFiles request disk)
        outcome.disk ∧
      (∀ failure,
        outcome.result = .error failure →
          ¬ FailsToWrite request disk failure →
            ∀ here ∈ outputFiles request disk,
              outcome.disk.node? here = disk.node? here) ∧
      (∀ fault,
        (collect request).result = .error fault ∨
            Locale.ofCode request.settings.defaultLocale =
              .error fault →
          outcome.disk = disk ∧
            ∃ failure, outcome.result = .error failure) := by
  intro outcome
  have hEnding := ending_of_generate request disk
  refine ⟨hEnding.keepsFiles, ?_, ?_⟩
  · intro failure hFailure hOther here hHere
    rw [hFailure] at hEnding
    exact hEnding.node?_of_error hOther (hApart here hHere)
  · rintro fault (hFault | hFault)
    · exact generate_of_uncollected hFault
    · exact generate_of_withoutLocale hFault

/- A text that is missing does not touch the outputs. -/
theorem failure_leaves_outputs_strict :
    let check := checkRequest "locales"
    let request : Request :=
      { check with
        settings :=
          { check.settings with strictLocalization := true } }
    let outcome := generate request checkDisk
    outcome.result =
        .error
          (.ofFault "Failed to generate Excel bindings"
            (.missingLocalization "en"
              "Functions.check.name")) ∧
      ∀ here ∈ outputFiles request checkDisk,
        outcome.disk.node? here = checkDisk.node? here := by
  intro check request outcome
  have hApart :
      ∀ here ∈ outputFiles request checkDisk,
        ¬ InLocaleFile request checkDisk here := by
    unfold InLocaleFile Resource.LeadsTo
    decide +kernel
  have hFailure :
      outcome.result =
        .error
          (.ofFault "Failed to generate Excel bindings"
            (.missingLocalization "en"
              "Functions.check.name")) := by
    decide +kernel
  have hOther :
      ¬ FailsToWrite request checkDisk
        (.ofFault "Failed to generate Excel bindings"
          (.missingLocalization "en"
            "Functions.check.name")) := by
    rintro ⟨_, _, _, _, _, cause, _, _, _, hCause⟩
    cases hCause
  exact
    ⟨hFailure,
      (failure_leaves_outputs hApart).2.1 _ hFailure hOther⟩

end Generation

end HostBindings
