import HostBindings.Proofs.Disk.Joined
import HostBindings.Proofs.Locale.Codes
import HostBindings.Proofs.Synchronization.Schedules

/-
  Locale files that are found in a directory.

  The name of such a file is a locale code with an extension,
  which is a plain name.  So files with different paths are
  at different places.

  Main declarations:
    * `FileName.splitExtension_eq_some_iff`
    * `Resource.classify_eq_ok_iff`
    * `Resource.mem_ofEntries_iff`
    * `Resource.isIn_of_mem_ofEntries`
    * `Resource.apart_of_nodup`
    * `Resource.apart_discover`
-/

------------------------------------------------------------
-- Names of Locale Files
------------------------------------------------------------

namespace HostBindings

namespace FileName

/- A name splits at its last dot, if that is not in front. -/
theorem splitChars_eq_some_iff
    {cs stem suffix : List Char} :
    splitChars cs = some (stem, suffix) ↔
      stem ≠ [] ∧ '.' ∉ suffix ∧
        cs = stem ++ '.' :: suffix := by
  constructor
  · intro hSplit
    have hParts :
        cs.reverse.takeWhile (· != '.') ++
            cs.reverse.dropWhile (· != '.') =
          cs.reverse :=
      List.takeWhile_append_dropWhile
    have hHead :=
      List.head?_dropWhile_not (· != '.') cs.reverse
    have hAll :=
      List.all_takeWhile (p := (· != '.')) (l := cs.reverse)
    unfold splitChars at hSplit
    cases hRest : cs.reverse.dropWhile (· != '.') with
    | nil => simp [hRest] at hSplit
    | cons dot front =>
        rw [hRest] at hHead hParts
        have hDot : dot = '.' := by
          simpa using hHead
        by_cases hEmpty : front = []
        · simp [hRest, hEmpty] at hSplit
        · simp only [hRest, if_neg hEmpty, Option.some.injEq,
            Prod.mk.injEq] at hSplit
          have hWhole := congrArg List.reverse hParts
          rw [hDot, List.reverse_append,
            List.reverse_cons, List.append_assoc,
            List.reverse_reverse] at hWhole
          rw [← hSplit.1, ← hSplit.2]
          refine ⟨by simpa using hEmpty, ?_, hWhole.symm⟩
          intro hMem
          have hNot :=
            List.all_eq_true.mp hAll '.'
              (List.mem_reverse.mp hMem)
          cases hNot
  · rintro ⟨hStem, hNone, rfl⟩
    have hAll : ∀ c ∈ suffix.reverse, (c != '.') = true := by
      intro c hMem
      rw [bne_iff_ne]
      rintro rfl
      exact hNone (List.mem_reverse.mp hMem)
    have hReverse :
        (stem ++ '.' :: suffix).reverse =
          suffix.reverse ++ '.' :: stem.reverse := by
      simp
    simp only [splitChars, hReverse,
      List.takeWhile_append_of_pos hAll,
      List.dropWhile_append_of_pos hAll]
    simp [hStem]

/- A name with an extension is put together from both. -/
theorem splitExtension_eq_some_iff
    {name stem suffix : String} :
    splitExtension name = some (stem, suffix) ↔
      stem ≠ "" ∧ '.' ∉ suffix.toList ∧
        name = stem ++ "." ++ suffix := by
  have hName :
      name = stem ++ "." ++ suffix ↔
        name.toList = stem.toList ++ '.' :: suffix.toList := by
    rw [← String.toList_inj]
    simp
  have hStem : stem ≠ "" ↔ stem.toList ≠ [] := by
    simp
  rw [hName, hStem, ← splitChars_eq_some_iff, splitExtension,
    Option.map_eq_some_iff]
  constructor
  · rintro ⟨parts, hParts, hSame⟩
    rw [Prod.mk.injEq] at hSame
    rw [hParts, ← hSame.1, ← hSame.2]
    simp
  · intro hParts
    exact ⟨_, hParts, by simp⟩

end FileName

namespace Resource

/- A locale file is a plain name in its directory. -/
structure IsIn
    (directory : String)
    (resource : Resource)
    (name : String) : Prop where
  plain : Path.IsPlain name
  path : resource.path = Path.join directory name

/- A code with the extension is a plain name. -/
theorem isPlain_name (locale : Locale) :
    Path.IsPlain (locale.code ++ "." ++ extension) := by
  constructor
  · simp [extension, locale.noSlash_code]
  · have hLong :
        5 ≤ (locale.code ++ "." ++ extension).toList.length := by
      simp [extension]
    have hNe :
        ∀ short : String,
          short.toList.length < 5 →
            FileName.text (locale.code ++ "." ++ extension) ≠
              .text short := by
      intro short hShort hSame
      rw [FileName.text.inj hSame] at hLong
      omega
    rw [Path.step?, if_neg, if_neg (hNe ".." (by decide))]
    rintro (hEmpty | hDot)
    · exact hNe "" (by decide) hEmpty
    · exact hNe "." (by decide) hDot

/- Locale files are the names with a code and the extension. -/
theorem classify_eq_ok_iff
    {directory : String}
    {name : FileName}
    {resource : Resource} :
    classify directory name = some (.ok resource) ↔
      name = .text (resource.locale.code ++ "." ++ extension) ∧
        resource.path =
          Path.join directory
            (resource.locale.code ++ "." ++ extension) := by
  constructor
  · intro hClassify
    cases name with
    | bytes bytes =>
        cases hClassify
    | text name =>
        unfold classify at hClassify
        cases hSplit : FileName.splitExtension name with
        | none =>
            simp [hSplit] at hClassify
        | some parts =>
            rcases parts with ⟨stem, suffix⟩
            simp only [hSplit] at hClassify
            by_cases hSuffix : suffix = extension
            · rw [if_pos hSuffix] at hClassify
              cases hCode : Locale.ofCode stem with
              | error fault =>
                  simp [hCode] at hClassify
              | ok locale =>
                  simp only [hCode, Option.some.injEq,
                    Except.ok.injEq] at hClassify
                  subst hClassify hSuffix
                  have hName :=
                    (FileName.splitExtension_eq_some_iff.mp
                      hSplit).2.2
                  rw [Locale.code_of_ofCode hCode, ← hName]
                  exact ⟨rfl, rfl⟩
            · rw [if_neg hSuffix] at hClassify
              cases hClassify
  · rintro ⟨rfl, hPath⟩
    have hSplit :
        FileName.splitExtension
            (resource.locale.code ++ "." ++ extension) =
          some (resource.locale.code, extension) :=
      FileName.splitExtension_eq_some_iff.mpr
        ⟨resource.locale.code_ne_empty, by decide, rfl⟩
    simp only [classify, hSplit, if_true, Locale.ofCode_code]
    rw [← hPath]

/- Only these names are found. -/
theorem bind_classify_eq_some_iff
    {directory : String}
    {name : FileName}
    {resource : Resource} :
    (classify directory name).bind found? =
        some resource ↔
      name = .text (resource.locale.code ++ "." ++ extension) ∧
        resource.path =
          Path.join directory
            (resource.locale.code ++ "." ++ extension) := by
  rw [← classify_eq_ok_iff]
  rcases classify directory name with _ | _ | other <;>
    simp [found?]

/- The resources of a directory are those of its names. -/
theorem perm_ofEntries
    (directory : String)
    (names : List FileName) :
    (ofEntries directory names).Perm
      (names.filterMap fun name =>
        (classify directory name).bind found?) := by
  rw [← List.filterMap_filterMap]
  exact List.mergeSort_perm _ _

/- These are its locale files. -/
theorem mem_ofEntries_iff
    {directory : String}
    {names : List FileName}
    {resource : Resource} :
    resource ∈ ofEntries directory names ↔
      .text (resource.locale.code ++ "." ++ extension) ∈
          names ∧
        resource.path =
          Path.join directory
            (resource.locale.code ++ "." ++ extension) := by
  rw [(perm_ofEntries directory names).mem_iff,
    List.mem_filterMap]
  simp only [bind_classify_eq_some_iff]
  constructor
  · rintro ⟨name, hName, rfl, hPath⟩
    exact ⟨hName, hPath⟩
  · rintro ⟨hName, hPath⟩
    exact ⟨_, hName, rfl, hPath⟩

/- All resources of a directory are files in it. -/
theorem isIn_of_mem_ofEntries
    {directory : String}
    {names : List FileName}
    {resource : Resource}
    (hResource : resource ∈ ofEntries directory names) :
    resource.IsIn directory
      (resource.locale.code ++ "." ++ extension) := by
  exact
    ⟨isPlain_name _, (mem_ofEntries_iff.mp hResource).2⟩

------------------------------------------------------------
-- Places of Locale Files
------------------------------------------------------------

/- Files of one directory with different paths are apart. -/
theorem apart_of_nodup
    {directory : String}
    {resources : List Resource}
    (disk : Disk)
    (hIn :
      ∀ resource ∈ resources,
        ∃ name, resource.IsIn directory name)
    (hNodup : (resources.map Resource.path).Nodup) :
    Apart disk resources := by
  rw [List.Nodup, List.pairwise_map] at hNodup
  refine hNodup.imp_of_mem ?_
  intro first second hFirst hSecond hNe here hHere hThere
  rcases hIn first hFirst with ⟨name, hName, hPath⟩
  rcases hIn second hSecond with ⟨other, hOther, hOtherPath⟩
  rw [LeadsTo, hPath] at hHere
  rw [LeadsTo, hOtherPath] at hThere
  have hLast := Disk.getLast?_of_resolve_join hName hHere
  rw [Disk.getLast?_of_resolve_join hOther hThere] at hLast
  simp only [Option.some.injEq, FileName.text.injEq] at hLast
  rw [hPath, hOtherPath, hLast] at hNe
  exact hNe rfl

/- The resources that are found on a disk are apart. -/
theorem apart_discover
    {found : Disk}
    {directory : String}
    (disk : Disk)
    (hNodup :
      ((discover found directory).2.map
        Resource.path).Nodup) :
    Apart disk (discover found directory).2 := by
  have hIn :
      ∀ resource ∈ (discover found directory).2,
        ∃ name, resource.IsIn directory name := by
    intro resource hResource
    by_cases hThere :
        found.isDirectory (Path.ofString directory) = true
    · simp only [discover, hThere, if_true] at hResource
      exact ⟨_, isIn_of_mem_ofEntries hResource⟩
    · simp [discover, hThere] at hResource
  exact apart_of_nodup disk hIn hNodup

end Resource

end HostBindings
