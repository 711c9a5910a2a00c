import Mathlib.Tactic.FinCases
import RsmpGateway.Lib.Text

/-!
# Base64

`base64_encode` and `base64_decode`. The decoder writes each group of four characters over three
zeroed bytes, whatever the characters are: one that is not in the alphabet counts for index 0.

These are the functions on bytes. Encoding followed by decoding gives the bytes back
(`base64_roundTrip`); decoding followed by encoding does not, for the texts that are not
canonical (`Crypt/Base64Canonical.lean`). The two functions with their blocks are in
`Crypt/Base64Memory.lean`.
-/

namespace RsmpGateway.Crypt

open RsmpGateway.Lib

/-- `_base64_chars` -/
def base64Chars : Bytes :=
  ascii "ABCDEFGHIJKLMNOPQRSTUVWXYZabcdefghijklmnopqrstuvwxyz0123456789+/"

/-- `_base64_chars[k]` -/
def base64Char (k : UInt8) : UInt8 := base64Chars.getD k.toNat 0

/-- `'='` -/
def padChar : UInt8 := 0x3D

/-- `base64_encode`, three bytes at a time. -/
def base64Encode : Bytes → Bytes
  | [] => []
  | [o1] => [base64Char (o1 >>> 2), base64Char ((o1 &&& 0x03) <<< 4), padChar, padChar]
  | [o1, o2] =>
    [base64Char (o1 >>> 2), base64Char (((o1 &&& 0x03) <<< 4) ||| (o2 >>> 4)),
      base64Char ((o2 &&& 0x0F) <<< 2), padChar]
  | o1 :: o2 :: o3 :: rest =>
    base64Char (o1 >>> 2) :: base64Char (((o1 &&& 0x03) <<< 4) ||| (o2 >>> 4)) ::
      base64Char (((o2 &&& 0x0F) <<< 2) ||| (o3 >>> 6)) :: base64Char (o3 &&& 0x3F) ::
      base64Encode rest

/-- The search of a character in `_base64_chars`: 0 when it is not there. -/
def base64Index (c : UInt8) : UInt8 :=
  if c ∈ base64Chars then (base64Chars.idxOf c).toUInt8 else 0

/-- The groups of `base64_decode`, over a zeroed buffer. -/
def base64Groups : Bytes → Bytes
  | c1 :: c2 :: c3 :: c4 :: rest =>
    ((base64Index c1 <<< 2) ||| (base64Index c2 >>> 4)) ::
    (if c3 ≠ padChar then ((base64Index c2 &&& 0x0F) <<< 4) ||| (base64Index c3 >>> 2) else 0) ::
    (if c4 ≠ padChar then ((base64Index c3 &&& 0x03) <<< 6) ||| base64Index c4 else 0) ::
    base64Groups rest
  | _ => []

/-- How much `decoded_length` is reduced for the final `'='`. -/
def base64Pad (input : Bytes) : Nat :=
  match input.reverse with
  | c :: d :: _ => if c = padChar then (if d = padChar then 2 else 1) else 0
  | _ => 0

/-- `base64_decode`, `none` for the return value `-1`. -/
def base64Decode (input : Bytes) : Option Bytes :=
  if input.length % 4 ≠ 0 then none
  else some ((base64Groups input).take (input.length / 4 * 3 - base64Pad input))

/-! ## Round trip

Three bytes are four characters. The last group is shorter, and the padding says by how much. -/

/-- The alphabet: 64 characters, all different, and none of them ends a text. -/
theorem base64Chars_spec :
    base64Chars.length = 64 ∧ base64Chars.Nodup ∧ padChar ∉ base64Chars ∧
      (0 : UInt8) ∉ base64Chars := by
  decide

theorem base64Char_eq {k : UInt8} (h : k < 64) :
    ∃ hk : k.toNat < base64Chars.length, base64Char k = base64Chars[k.toNat] := by
  have hk : k.toNat < base64Chars.length := by
    rw [base64Chars_spec.1]
    exact UInt8.lt_iff_toNat_lt.mp h
  exact ⟨hk, (List.getElem_eq_getD 0).symm⟩

theorem base64Char_mem {k : UInt8} (h : k < 64) : base64Char k ∈ base64Chars := by
  obtain ⟨hk, hchar⟩ := base64Char_eq h
  rw [hchar]
  exact List.getElem_mem hk

theorem base64Index_base64Char {k : UInt8} (h : k < 64) : base64Index (base64Char k) = k := by
  obtain ⟨hk, hchar⟩ := base64Char_eq h
  rw [base64Index, if_pos (base64Char_mem h), hchar, base64Chars_spec.2.1.idxOf_getElem]
  exact UInt8.ofNat_toNat

theorem base64Char_ne_padChar {k : UInt8} (h : k < 64) : base64Char k ≠ padChar := by
  intro heq
  exact base64Chars_spec.2.2.1 (heq ▸ base64Char_mem h)

/-! ### Bits -/

/-- Bytes with the same bits are equal. -/
theorem byte_ext {a b : UInt8} (h : ∀ i : Fin 8, a.toBitVec[i.val] = b.toBitVec[i.val]) :
    a = b := by
  apply UInt8.toBitVec_inj.mp
  ext i hi
  exact h ⟨i, hi⟩

/-- The two high bits are not set. -/
theorem lt_64_of_and {a : UInt8} (h : a &&& 0x3F = a) : a < 64 := by
  rw [UInt8.lt_iff_toNat_lt, ← h, UInt8.toNat_and]
  exact Nat.lt_of_le_of_lt Nat.and_le_right (by decide)

theorem shiftRight_two_lt (a : UInt8) : a >>> 2 < 64 := by
  apply lt_64_of_and
  apply byte_ext
  intro i
  fin_cases i <;> simp

theorem and_3F_lt (a : UInt8) : a &&& 0x3F < 64 := by
  apply lt_64_of_and
  rw [UInt8.and_assoc]
  rfl

/-- Two bits of the first byte, four bits of the second. -/
theorem second_index (a b : UInt8) :
    ((a &&& 0x03) <<< 4) ||| (b >>> 4) < 64 ∧
      (((a &&& 0x03) <<< 4) ||| (b >>> 4)) >>> 4 = a &&& 0x03 ∧
      (((a &&& 0x03) <<< 4) ||| (b >>> 4)) &&& (0x0F : UInt8) = b >>> 4 := by
  refine ⟨lt_64_of_and ?_, ?_, ?_⟩
  · apply byte_ext
    intro i
    fin_cases i <;> simp
  · apply byte_ext
    intro i
    fin_cases i <;> simp
  · apply byte_ext
    intro i
    fin_cases i <;> simp

/-- Four bits of the second byte, two bits of the third. -/
theorem third_index (b c : UInt8) :
    ((b &&& 0x0F) <<< 2) ||| (c >>> 6) < 64 ∧
      (((b &&& 0x0F) <<< 2) ||| (c >>> 6)) >>> 2 = b &&& 0x0F ∧
      (((b &&& 0x0F) <<< 2) ||| (c >>> 6)) &&& (0x03 : UInt8) = c >>> 6 := by
  refine ⟨lt_64_of_and ?_, ?_, ?_⟩
  · apply byte_ext
    intro i
    fin_cases i <;> simp
  · apply byte_ext
    intro i
    fin_cases i <;> simp
  · apply byte_ext
    intro i
    fin_cases i <;> simp

theorem join_first (a : UInt8) : (a >>> 2) <<< 2 ||| (a &&& 0x03) = a := by
  apply byte_ext
  intro i
  fin_cases i <;> simp

theorem join_second (b : UInt8) : (b >>> 4) <<< 4 ||| (b &&& 0x0F) = b := by
  apply byte_ext
  intro i
  fin_cases i <;> simp

theorem join_third (c : UInt8) : (c >>> 6) <<< 6 ||| (c &&& 0x3F) = c := by
  apply byte_ext
  intro i
  fin_cases i <;> simp

/-- A padded last group has the index of the missing byte taken as 0. -/
theorem second_index_last (a : UInt8) :
    (a &&& 0x03) <<< 4 < 64 ∧ ((a &&& 0x03) <<< 4) >>> 4 = a &&& 0x03 := by
  obtain ⟨hlt, hhi, -⟩ := second_index a 0
  simp only [UInt8.zero_shiftRight, UInt8.or_zero] at hlt hhi
  exact ⟨hlt, hhi⟩

theorem third_index_last (b : UInt8) :
    (b &&& 0x0F) <<< 2 < 64 ∧ ((b &&& 0x0F) <<< 2) >>> 2 = b &&& 0x0F := by
  obtain ⟨hlt, hhi, -⟩ := third_index b 0
  simp only [UInt8.zero_shiftRight, UInt8.or_zero] at hlt hhi
  exact ⟨hlt, hhi⟩

theorem length_base64Encode (x : Bytes) :
    (base64Encode x).length = (x.length + 2) / 3 * 4 := by
  induction x using base64Encode.induct with
  | case1 => rfl
  | case2 => simp [base64Encode]
  | case3 => simp [base64Encode]
  | case4 o1 o2 o3 rest ih => simp only [base64Encode, List.length_cons, ih]; omega

theorem base64Char_ne_zero {k : UInt8} (h : k < 64) : base64Char k ≠ 0 := by
  intro heq
  exact base64Chars_spec.2.2.2 (heq ▸ base64Char_mem h)

/-- The text is a C string. -/
theorem nul_not_mem_base64Encode (x : Bytes) : (0 : UInt8) ∉ base64Encode x := by
  have hpad : (0 : UInt8) ≠ padChar := by decide
  induction x using base64Encode.induct with
  | case1 => exact List.not_mem_nil
  | case2 o1 =>
    have h1 := base64Char_ne_zero (shiftRight_two_lt o1)
    have h2 := base64Char_ne_zero (second_index_last o1).1
    simp [base64Encode, h1.symm, h2.symm, hpad]
  | case3 o1 o2 =>
    have h1 := base64Char_ne_zero (shiftRight_two_lt o1)
    have h2 := base64Char_ne_zero (second_index o1 o2).1
    have h3 := base64Char_ne_zero (third_index_last o2).1
    simp [base64Encode, h1.symm, h2.symm, h3.symm, hpad]
  | case4 o1 o2 o3 rest ih =>
    have h1 := base64Char_ne_zero (shiftRight_two_lt o1)
    have h2 := base64Char_ne_zero (second_index o1 o2).1
    have h3 := base64Char_ne_zero (third_index o2 o3).1
    have h4 := base64Char_ne_zero (and_3F_lt o3)
    simp [base64Encode, h1.symm, h2.symm, h3.symm, h4.symm, ih]

/-- The padding is that of the last group. -/
theorem base64Pad_append {p s : Bytes} (hs : 2 ≤ s.length) : base64Pad (p ++ s) = base64Pad s := by
  obtain ⟨c, d, r, hr⟩ : ∃ c d r, s.reverse = c :: d :: r := by
    have hlen : 2 ≤ s.reverse.length := by simpa using hs
    match s.reverse, hlen with
    | c :: d :: r, _ => exact ⟨c, d, r, rfl⟩
  simp only [base64Pad, List.reverse_append, hr, List.cons_append]

/-- The groups give the text back, then a zero for each missing byte. -/
theorem base64Groups_base64Encode (x : Bytes) :
    base64Groups (base64Encode x) = x ++ List.replicate (base64Pad (base64Encode x)) 0 := by
  induction x using base64Encode.induct with
  | case1 => rfl
  | case2 o1 =>
    obtain ⟨hlt, hhi⟩ := second_index_last o1
    simp only [base64Encode, base64Groups, base64Index_base64Char hlt, hhi,
      base64Index_base64Char (shiftRight_two_lt o1), join_first]
    rfl
  | case3 o1 o2 =>
    obtain ⟨hlt, hhi, hlo⟩ := second_index o1 o2
    obtain ⟨hlt', hhi'⟩ := third_index_last o2
    have hpad := base64Char_ne_padChar hlt'
    simp only [base64Encode, base64Groups, base64Index_base64Char hlt, hhi, hlo,
      base64Index_base64Char hlt', hhi', base64Index_base64Char (shiftRight_two_lt o1),
      join_first, join_second, hpad, if_true, ne_eq, not_false_eq_true]
    simp [base64Pad, hpad]
  | case4 o1 o2 o3 rest ih =>
    obtain ⟨hlt, hhi, hlo⟩ := second_index o1 o2
    obtain ⟨hlt', hhi', hlo'⟩ := third_index o2 o3
    have hthird := base64Char_ne_padChar hlt'
    have hfourth := base64Char_ne_padChar (and_3F_lt o3)
    have hpad : base64Pad (base64Encode (o1 :: o2 :: o3 :: rest))
        = base64Pad (base64Encode rest) := by
      cases rest with
      | nil => simp [base64Encode, base64Pad, hfourth]
      | cons r rs =>
        have hlen : 2 ≤ (base64Encode (r :: rs)).length := by
          rw [length_base64Encode, List.length_cons]; omega
        rw [base64Encode]
        exact base64Pad_append (p := [_, _, _, _]) hlen
    rw [hpad]
    simp only [base64Encode, base64Groups, base64Index_base64Char hlt, hhi, hlo,
      base64Index_base64Char hlt', hhi', hlo', base64Index_base64Char (shiftRight_two_lt o1),
      base64Index_base64Char (and_3F_lt o3), join_first, join_second, join_third, hthird, hfourth,
      if_true, ne_eq, not_false_eq_true, ih, List.cons_append]

/-- Every group of four characters gives three bytes. -/
theorem length_base64Groups (s : Bytes) : (base64Groups s).length = s.length / 4 * 3 := by
  induction s using base64Groups.induct with
  | case1 c1 c2 c3 c4 rest ih => simp only [base64Groups, List.length_cons, ih]; omega
  | case2 s h =>
    match s with
    | [] => rfl
    | [_] => simp [base64Groups]
    | [_, _] => simp [base64Groups]
    | [_, _, _] => simp [base64Groups]
    | c1 :: c2 :: c3 :: c4 :: rest => exact absurd rfl (h c1 c2 c3 c4 rest)

/-- **Base64 round trip.** -/
theorem base64Decode_base64Encode (x : Bytes) : base64Decode (base64Encode x) = some x := by
  have hgroups := base64Groups_base64Encode x
  have hcount := congrArg List.length hgroups
  rw [length_base64Groups, List.length_append, List.length_replicate] at hcount
  have hmod : (base64Encode x).length % 4 = 0 := by rw [length_base64Encode]; omega
  rw [base64Decode, if_neg (by omega), hgroups, List.take_append_of_le_length (by omega),
    List.take_of_length_le (by omega)]

end RsmpGateway.Crypt
