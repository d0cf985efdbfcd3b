import Mathlib.Data.String.Basic

/-
  Texts as bytes.

  The first byte of a character can be told from all other
  bytes.  So the bytes of a text occur in those of another
  only where the text itself occurs.  Texts of ASCII have one
  byte for each character and are ordered like their bytes.

  Main declarations:
    * `Text.bytes`
    * `Text.encode`
    * `Text.exists_split_of_encode_prefix`
    * `Text.bytes_le_bytes_iff`
-/

------------------------------------------------------------
-- Bytes
------------------------------------------------------------

namespace HostBindings

namespace Text

/- The bytes of a text. -/
def bytes (s : String) : List UInt8 :=
  s.toByteArray.data.toList

/- The bytes of characters, one after the other. -/
def encode (cs : List Char) : List UInt8 :=
  cs.flatMap String.utf8EncodeChar

/- The bytes of a text are those of its characters. -/
theorem bytes_eq_encode (s : String) :
    bytes s = encode s.toList := by
  rw [bytes, ← String.utf8Encode_toList]
  simp [List.utf8Encode, encode]

/- The size of a text is the number of its bytes. -/
theorem length_bytes (s : String) :
    (bytes s).length = s.utf8ByteSize :=
  Array.length_toList

/- Every character adds its own bytes. -/
theorem encode_cons (c : Char) (cs : List Char) :
    encode (c :: cs) =
      String.utf8EncodeChar c ++ encode cs :=
  rfl

/- Characters one after the other have their bytes so. -/
theorem encode_append (cs ds : List Char) :
    encode (cs ++ ds) = encode cs ++ encode ds :=
  List.flatMap_append

------------------------------------------------------------
-- Occurrences
------------------------------------------------------------

variable {sought cs ds : List Char}

/- Bytes in front belong to characters in front. -/
theorem prefix_of_encode_prefix
    (hBytes : encode sought <+: encode cs) :
    sought <+: cs := by
  rcases hBytes with ⟨rest, hRest⟩
  apply List.isPrefix_of_utf8Encode_append_eq_utf8Encode
    rest.toByteArray
  rw [List.utf8Encode, List.utf8Encode,
    ← List.toByteArray_append]
  exact congrArg List.toByteArray hRest

/- A character is found only where a character starts. -/
theorem exists_split_of_encode_prefix
    {c : Char}
    {more : List Char}
    {n : Nat}
    (hBytes : encode (c :: more) <+: (encode cs).drop n) :
    ∃ front rest,
      front ++ rest = cs ∧
        (encode front).length = n ∧ c :: more <+: rest := by
  have hPos : 0 < (String.utf8EncodeChar c).length :=
    List.length_pos_of_ne_nil String.utf8EncodeChar_ne_nil
  induction cs generalizing n with
  | nil =>
      have hLength := hBytes.length_le
      rw [encode_cons, List.length_append] at hLength
      simp only [encode, List.flatMap_nil, List.drop_nil,
        List.length_nil] at hLength
      omega
  | cons d cs ih =>
      rcases Nat.eq_zero_or_pos n with rfl | hLater
      · exact
          ⟨[], d :: cs, rfl, rfl,
            prefix_of_encode_prefix hBytes⟩
      rw [encode_cons d, List.drop_append] at hBytes
      by_cases hWithin : n < (String.utf8EncodeChar d).length
      · -- the first byte of `c` cannot be inside of `d`
        have hFirst :
            (String.utf8EncodeChar c)[0] =
              (String.utf8EncodeChar d)[n] := by
          have hHead := List.drop_eq_getElem_cons hPos
          rw [List.drop_zero] at hHead
          rw [encode_cons, hHead,
            List.drop_eq_getElem_cons hWithin] at hBytes
          exact (List.cons_prefix_cons.mp hBytes).1
        have hStart :=
          UInt8.isUTF8FirstByte_getElem_utf8EncodeChar.mp
            (hFirst ▸
              UInt8.isUTF8FirstByte_getElem_zero_utf8EncodeChar)
        omega
      · rw [List.drop_eq_nil_of_le (by omega),
          List.nil_append] at hBytes
        rcases ih hBytes with
          ⟨front, rest, rfl, hLength, hPrefix⟩
        refine ⟨d :: front, rest, rfl, ?_, hPrefix⟩
        rw [encode_cons, List.length_append, hLength]
        omega

------------------------------------------------------------
-- Order
------------------------------------------------------------

/- Characters of a single byte. -/
def IsAscii (cs : List Char) : Prop :=
  ∀ c ∈ cs, c.toNat < 128

/- Such a character is a byte by itself. -/
theorem utf8EncodeChar_of_ascii
    {c : Char}
    (hAscii : c.toNat < 128) :
    String.utf8EncodeChar c = [UInt8.ofNat c.toNat] := by
  have hSmall : c.val.toNat ≤ 127 := Nat.le_of_lt_succ hAscii
  exact if_pos hSmall

/- Bytes of ASCII are in the order of their characters. -/
theorem encode_lt_encode_iff
    (hFirst : IsAscii cs)
    (hSecond : IsAscii ds) :
    encode cs < encode ds ↔ cs < ds := by
  induction cs generalizing ds with
  | nil =>
      cases ds with
      | nil => simp [encode]
      | cons d ds =>
          have hOne :=
            utf8EncodeChar_of_ascii
              (hSecond d List.mem_cons_self)
          simp [encode, hOne]
  | cons c cs ih =>
      rw [IsAscii, List.forall_mem_cons] at hFirst
      cases ds with
      | nil => simp [encode]
      | cons d ds =>
          rw [IsAscii, List.forall_mem_cons] at hSecond
          have hC : c.toNat < UInt8.size :=
            Nat.lt_trans hFirst.1 (by decide)
          have hD : d.toNat < UInt8.size :=
            Nat.lt_trans hSecond.1 (by decide)
          have hLt :
              UInt8.ofNat c.toNat < UInt8.ofNat d.toNat ↔
                c < d :=
            UInt8.ofNat_lt_iff_lt hC hD
          have hEq :
              UInt8.ofNat c.toNat = UInt8.ofNat d.toNat ↔
                c = d := by
            rw [← UInt8.toNat_inj,
              UInt8.toNat_ofNat_of_lt' hC,
              UInt8.toNat_ofNat_of_lt' hD, Char.toNat_inj]
          rw [encode_cons, encode_cons,
            utf8EncodeChar_of_ascii hFirst.1,
            utf8EncodeChar_of_ascii hSecond.1,
            List.singleton_append, List.singleton_append,
            List.cons_lt_cons_iff, List.cons_lt_cons_iff, hLt,
            hEq, ih hFirst.2 hSecond.2]

/- Texts of ASCII are in the order of their bytes. -/
theorem bytes_le_bytes_iff
    {s t : String}
    (hFirst : IsAscii s.toList)
    (hSecond : IsAscii t.toList) :
    bytes s ≤ bytes t ↔ s ≤ t := by
  rw [bytes_eq_encode, bytes_eq_encode,
    String.le_iff_toList_le, ← not_lt,
    ← encode_lt_encode_iff hSecond hFirst]
  rfl

end Text

end HostBindings
