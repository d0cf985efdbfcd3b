import HostBindings.Proofs.Text.Occurrence
import HostBindings.Proxy.FunctionName

/-
  Names of emitted functions with an infix.

  The infix stands in front of the first place of the anchor.
  So the name of the method is what is left when the infix is
  taken out again.

  Main declarations:
    * `Spliced`
    * `spliceName_eq_some_iff`
    * `spliceName_eq_none_iff`
    * `functionName_splices`
-/

------------------------------------------------------------
-- Spliced Names
------------------------------------------------------------

namespace HostBindings

/- A text without some of its characters. -/
def removeAt (s : String) (start count : Nat) : String :=
  String.ofList
    (s.toList.take start ++ s.toList.drop (start + count))

/-
  A name with an infix between two parts.  The anchor is in
  front of the second part, and neither its characters nor
  its bytes occur at an earlier position.  Taking out the
  infix restores the name.
-/
structure Spliced
    (name inserted anchor before after emitted : String) :
    Prop where
  parts : before ++ after = name
  result : emitted = before ++ inserted ++ after
  anchored : anchor.toList <+: after.toList
  first :
    ∀ n < before.length,
      ¬ anchor.toList <+: name.toList.drop n
  firstByte :
    ∀ n < before.utf8ByteSize,
      ¬ Text.bytes anchor <+: (Text.bytes name).drop n
  restored :
    removeAt emitted before.length inserted.length = name

variable {name inserted anchor before after emitted : String}

/- What was put between two texts can be taken out again. -/
theorem removeAt_append (before inserted after : String) :
    removeAt (before ++ inserted ++ after) before.length
        inserted.length =
      before ++ after := by
  have hLength :
      before.length + inserted.length =
        (before.toList ++ inserted.toList).length := by
    rw [List.length_append, String.length_toList,
      String.length_toList]
  rw [removeAt, String.toList_append, String.toList_append,
    hLength, List.drop_left, List.append_assoc,
    ← String.length_toList, List.take_left,
    String.ofList_append, String.ofList_toList,
    String.ofList_toList]

/- Names are spliced at the first place of the anchor. -/
theorem spliced_iff :
    Spliced name inserted anchor before after emitted ↔
      Text.FirstPlace anchor.toList name.toList before.toList
          after.toList ∧
        emitted = before ++ inserted ++ after := by
  constructor
  · intro hSpliced
    refine ⟨⟨?_, hSpliced.anchored, ?_⟩, hSpliced.result⟩
    · rw [← hSpliced.parts, String.toList_append]
    · rw [String.length_toList]
      exact hSpliced.first
  · rintro ⟨hPlace, rfl⟩
    have hParts : before ++ after = name := by
      rw [← String.toList_inj, String.toList_append,
        hPlace.parts]
    refine ⟨hParts, rfl, hPlace.here, ?_, ?_, ?_⟩
    · rw [← String.length_toList]
      exact hPlace.first
    · intro n hEarlier
      rw [← Text.length_bytes, Text.bytes_eq_encode] at hEarlier
      rw [Text.bytes_eq_encode, Text.bytes_eq_encode]
      exact hPlace.not_encode_prefix hEarlier
    · rw [removeAt_append, hParts]

/- A name is spliced if the anchor occurs in it. -/
theorem spliceName_eq_some_iff :
    spliceName name inserted anchor = some emitted ↔
      ∃ before after,
        Spliced name inserted anchor before after emitted := by
  simp only [spliceName, Option.map_eq_some_iff,
    Prod.exists, Text.splitAtFirst_eq_some_iff, spliced_iff]
  constructor
  · rintro ⟨before, after, hPlace, rfl⟩
    refine
      ⟨String.ofList before, String.ofList after, ?_, rfl⟩
    rwa [String.toList_ofList, String.toList_ofList]
  · rintro ⟨before, after, hPlace, rfl⟩
    exact ⟨_, _, hPlace, by simp⟩

/- Else there is no such name. -/
theorem spliceName_eq_none_iff
    (name inserted anchor : String) :
    spliceName name inserted anchor = none ↔
      ¬ anchor.toList <:+: name.toList := by
  rw [spliceName, Option.map_eq_none_iff,
    Text.splitAtFirst_eq_none_iff]

/- Of overlapping places the first one counts. -/
example : spliceName "papapa" "X" "apa" = some "pXapapa" := by
  decide +kernel

------------------------------------------------------------
-- Function Names
------------------------------------------------------------

/-
  Without an infix, or if the method keeps its name, the
  function has the name of the method.  An infix goes to the
  end of the name if there is no anchor.  Else it goes in
  front of the first place of the anchor, and only if there
  is none the anchor is at fault.
-/
theorem functionName_splices (method : Method) :
    functionName none method = .ok method.name ∧
    ∀ inserted : String,
      (method.keepsName = true →
        functionName (some inserted) method =
          .ok method.name) ∧
      (method.keepsName = false →
        (method.anchor = none →
          functionName (some inserted) method =
            .ok (method.name ++ inserted)) ∧
        ∀ anchor,
          method.anchor = some anchor →
            (∀ fault,
              functionName (some inserted) method =
                  .error fault ↔
                fault = .anchorNotFound method.name anchor ∧
                  ¬ anchor.toList <:+: method.name.toList) ∧
            ∀ emitted,
              functionName (some inserted) method =
                  .ok emitted ↔
                ∃ before after,
                  Spliced method.name inserted anchor before
                    after emitted) := by
  refine ⟨rfl, fun inserted => ⟨?_, ?_⟩⟩
  · intro hKeeps
    simp only [functionName, hKeeps, if_true]
  · intro hKeeps
    refine ⟨?_, ?_⟩
    · intro hAnchor
      simp [functionName, hKeeps, hAnchor]
    · intro anchor hAnchor
      rw [← spliceName_eq_none_iff method.name inserted]
      simp only [functionName, hKeeps, hAnchor,
        Bool.false_eq_true, if_false, ← spliceName_eq_some_iff]
      cases spliceName method.name inserted anchor <;>
        simp [eq_comm]

end HostBindings
