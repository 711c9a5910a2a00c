import RsmpGateway.Crypt.Base64

/-!
# The language of base64

A text is canonical when it is the encoding of some bytes. A grammar says the same of its
characters: groups of four of the alphabet, the last of which may end with one or two `'='`, the
bits that these leave unused being zeros.

The grammar looks at a text only, and can be decided; the encoder and the decoder do not occur in
it. It is what tells apart the texts that the decoder of a password should have refused
(`Auth/Atomic.lean`).
-/

namespace RsmpGateway.Crypt

open RsmpGateway.Lib

/-- What an encoder writes. -/
inductive Canonical : Bytes → Prop
  | nil : Canonical []
  | one {c1 c2 : UInt8} : c1 ∈ base64Chars → c2 ∈ base64Chars → base64Index c2 &&& 0x0F = 0 →
      Canonical [c1, c2, padChar, padChar]
  | two {c1 c2 c3 : UInt8} : c1 ∈ base64Chars → c2 ∈ base64Chars → c3 ∈ base64Chars →
      base64Index c3 &&& 0x03 = 0 → Canonical [c1, c2, c3, padChar]
  | group {c1 c2 c3 c4 : UInt8} {rest : Bytes} : c1 ∈ base64Chars → c2 ∈ base64Chars →
      c3 ∈ base64Chars → c4 ∈ base64Chars → Canonical rest →
      Canonical (c1 :: c2 :: c3 :: c4 :: rest)

/-! ## Characters

The characters of the alphabet are those with an index. -/

theorem base64Index_lt {c : UInt8} (h : c ∈ base64Chars) : base64Index c < 64 := by
  have hlt : base64Chars.idxOf c < 64 := by
    rw [← base64Chars_spec.1]
    exact List.idxOf_lt_length_iff.mpr h
  rw [base64Index, if_pos h, UInt8.lt_iff_toNat_lt]
  exact (Nat.mod_le _ _).trans_lt hlt

theorem base64Char_base64Index {c : UInt8} (h : c ∈ base64Chars) :
    base64Char (base64Index c) = c := by
  have hlt := List.idxOf_lt_length_iff.mpr h
  have hnat : (base64Chars.idxOf c).toUInt8.toNat = base64Chars.idxOf c := by
    rw [base64Chars_spec.1] at hlt
    exact Nat.mod_eq_of_lt (by omega)
  rw [base64Index, if_pos h, base64Char, hnat, ← List.getElem_eq_getD (h := hlt),
    List.getElem_idxOf]

/-! ## Bits

The bits that a group leaves unused are the low ones of its last character. -/

theorem and_3F_of_lt : ∀ a : UInt8, a < 64 → a &&& 0x3F = a :=
  forall_byte (P := fun a => a < 64 → a &&& 0x3F = a) (by decide +kernel)

/-- The index of each character is found again in the bytes that the four give. -/
theorem first_index (a b : UInt8) :
    (((a &&& 0x3F) <<< 2) ||| ((b &&& 0x3F) >>> 4)) >>> 2 = a &&& 0x3F := by
  apply byte_ext
  intro i
  fin_cases i <;> simp

theorem join_second_index (a b c : UInt8) :
    ((((a &&& 0x3F) <<< 2) ||| ((b &&& 0x3F) >>> 4)) &&& (0x03 : UInt8)) <<< 4 |||
        ((((b &&& 0x3F) &&& 0x0F) <<< 4) ||| ((c &&& 0x3F) >>> 2)) >>> 4 = b &&& 0x3F := by
  apply byte_ext
  intro i
  fin_cases i <;> simp

theorem join_third_index (b c d : UInt8) :
    (((((b &&& 0x3F) &&& 0x0F) <<< 4) ||| ((c &&& 0x3F) >>> 2)) &&& (0x0F : UInt8)) <<< 2 |||
        ((((c &&& 0x3F) &&& 0x03) <<< 6) ||| (d &&& 0x3F)) >>> 6 = c &&& 0x3F := by
  apply byte_ext
  intro i
  fin_cases i <;> simp

theorem fourth_index (c d : UInt8) :
    ((((c &&& 0x3F) &&& 0x03) <<< 6) ||| (d &&& 0x3F)) &&& 0x3F = d &&& 0x3F := by
  apply byte_ext
  intro i
  fin_cases i <;> simp

/-- The bits that a missing byte leaves unused. -/
theorem unused_one (a : UInt8) : ((a &&& 0x03) <<< 4) &&& (0x0F : UInt8) = 0 := by
  apply byte_ext
  intro i
  fin_cases i <;> simp

theorem unused_two (b : UInt8) : ((b &&& 0x0F) <<< 2) &&& (0x03 : UInt8) = 0 := by
  apply byte_ext
  intro i
  fin_cases i <;> simp

/-! ## Texts

Group by group, from the encoding to the grammar and back. -/

theorem canonical_base64Encode (x : Bytes) : Canonical (base64Encode x) := by
  induction x using base64Encode.induct with
  | case1 => exact .nil
  | case2 o1 =>
    obtain ⟨hlt, -⟩ := second_index_last o1
    apply Canonical.one
    · exact base64Char_mem (shiftRight_two_lt o1)
    · exact base64Char_mem hlt
    · rw [base64Index_base64Char hlt, unused_one]
  | case3 o1 o2 =>
    obtain ⟨hlt, -⟩ := third_index_last o2
    apply Canonical.two
    · exact base64Char_mem (shiftRight_two_lt o1)
    · exact base64Char_mem (second_index o1 o2).1
    · exact base64Char_mem hlt
    · rw [base64Index_base64Char hlt, unused_two]
  | case4 o1 o2 o3 rest ih =>
    apply Canonical.group
    · exact base64Char_mem (shiftRight_two_lt o1)
    · exact base64Char_mem (second_index o1 o2).1
    · exact base64Char_mem (third_index o2 o3).1
    · exact base64Char_mem (and_3F_lt o3)
    · exact ih

/-- The bytes whose encoding a canonical text is. -/
theorem Canonical.exists_encode {s : Bytes} (h : Canonical s) : ∃ x, base64Encode x = s := by
  induction h with
  | nil => exact ⟨[], rfl⟩
  | @one c1 c2 h1 h2 hlow =>
    have e1 := and_3F_of_lt _ (base64Index_lt h1)
    have e2 := and_3F_of_lt _ (base64Index_lt h2)
    refine ⟨[(base64Index c1 <<< 2) ||| (base64Index c2 >>> 4)], ?_⟩
    have hfirst := first_index (base64Index c1) (base64Index c2)
    have hsecond := join_second_index (base64Index c1) (base64Index c2) 0
    simp only [e1, e2, hlow] at hfirst hsecond
    simp at hsecond
    rw [base64Encode, hfirst, hsecond, base64Char_base64Index h1, base64Char_base64Index h2]
  | @two c1 c2 c3 h1 h2 h3 hlow =>
    have e1 := and_3F_of_lt _ (base64Index_lt h1)
    have e2 := and_3F_of_lt _ (base64Index_lt h2)
    have e3 := and_3F_of_lt _ (base64Index_lt h3)
    refine ⟨[(base64Index c1 <<< 2) ||| (base64Index c2 >>> 4),
      ((base64Index c2 &&& 0x0F) <<< 4) ||| (base64Index c3 >>> 2)], ?_⟩
    have hfirst := first_index (base64Index c1) (base64Index c2)
    have hsecond := join_second_index (base64Index c1) (base64Index c2) (base64Index c3)
    have hthird := join_third_index (base64Index c2) (base64Index c3) 0
    simp only [e1, e2, e3, hlow] at hfirst hsecond hthird
    simp at hthird
    rw [base64Encode, hfirst, hsecond, hthird, base64Char_base64Index h1,
      base64Char_base64Index h2, base64Char_base64Index h3]
  | @group c1 c2 c3 c4 rest h1 h2 h3 h4 _ ih =>
    obtain ⟨x, rfl⟩ := ih
    have e1 := and_3F_of_lt _ (base64Index_lt h1)
    have e2 := and_3F_of_lt _ (base64Index_lt h2)
    have e3 := and_3F_of_lt _ (base64Index_lt h3)
    have e4 := and_3F_of_lt _ (base64Index_lt h4)
    refine ⟨((base64Index c1 <<< 2) ||| (base64Index c2 >>> 4)) ::
      (((base64Index c2 &&& 0x0F) <<< 4) ||| (base64Index c3 >>> 2)) ::
      (((base64Index c3 &&& 0x03) <<< 6) ||| base64Index c4) :: x, ?_⟩
    have hfirst := first_index (base64Index c1) (base64Index c2)
    have hsecond := join_second_index (base64Index c1) (base64Index c2) (base64Index c3)
    have hthird := join_third_index (base64Index c2) (base64Index c3) (base64Index c4)
    have hfourth := fourth_index (base64Index c3) (base64Index c4)
    simp only [e1, e2, e3, e4] at hfirst hsecond hthird hfourth
    rw [base64Encode, hfirst, hsecond, hthird, hfourth, base64Char_base64Index h1,
      base64Char_base64Index h2, base64Char_base64Index h3, base64Char_base64Index h4]

/-- **The grammar is that of what is encoded.** -/
theorem canonical_iff {s : Bytes} : Canonical s ↔ ∃ x, base64Encode x = s := by
  constructor
  · exact Canonical.exists_encode
  · rintro ⟨x, rfl⟩
    exact canonical_base64Encode x

theorem Canonical.length_mod {s : Bytes} (h : Canonical s) : s.length % 4 = 0 := by
  obtain ⟨x, rfl⟩ := h.exists_encode
  rw [length_base64Encode]
  omega

/-- A canonical text is the encoding of what it is decoded to. -/
theorem Canonical.encode_decode {s x : Bytes} (h : Canonical s) (hx : base64Decode s = some x) :
    base64Encode x = s := by
  obtain ⟨y, rfl⟩ := h.exists_encode
  rw [base64Decode_base64Encode] at hx
  rw [Option.some.inj hx]

end RsmpGateway.Crypt
