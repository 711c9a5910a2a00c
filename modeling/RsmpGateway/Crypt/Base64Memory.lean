import RsmpGateway.Crypt.Base64
import RsmpGateway.Lib.Memory

/-!
# Base64 in memory

`base64_encode` and `base64_decode` with their two indices and the blocks they allocate. An
access that leaves a block is a fault, and an allocation may be refused.

* What encoding comes to: the text of `Crypt/Base64.lean` with its NUL, or an error when there is
  no memory.
* What decoding comes to: the bytes of the function of the same name, in a block of their length.
* The round trip, and the bounds. Only the decoding of an empty text leaves its text: it looks for
  a final `'='` in front of it.
-/

namespace RsmpGateway.Crypt.Memory

open RsmpGateway.Lib Block

/-! ## Encoding

The loop takes three octets at a time, and 0 for those after the last one, for which the padding
is written. -/

/-- The octet of an index, 0 after the last one. -/
def octet (input : Block) (length i : Nat) : Run UInt8 := loadIf (i < length) input i

/-- The loop of `base64_encode`: the index it ends at, and the text so far. -/
def encodeLoop (input : Block) (length i j : Nat) (encoded : Block) : Run (Nat × Block) :=
  if i < length then do
    let octet1 ← input.load i
    let octet2 ← octet input length (i + 1)
    let octet3 ← octet input length (i + 2)
    let encoded ← encoded.store j (base64Char (octet1 >>> 2))
    let encoded ← encoded.store (j + 1) (base64Char (((octet1 &&& 0x03) <<< 4) ||| (octet2 >>> 4)))
    let encoded ← encoded.store (j + 2)
      (if i + 1 < length then base64Char (((octet2 &&& 0x0F) <<< 2) ||| (octet3 >>> 6))
        else padChar)
    let encoded ← encoded.store (j + 3)
      (if i + 2 < length then base64Char (octet3 &&& 0x3F) else padChar)
    encodeLoop input length (i + 3) (j + 4) encoded
  else pure (j, encoded)
termination_by length - i

/-- `base64_encode`: the block that holds the text. It is granted eight bytes a character. -/
def base64Encode (A : Allocator) (input : Block) (length : Nat) : Run Block := do
  let outputLength := sizeT (4 * (sizeT (length + 2) / 3))
  let encoded ← Run.orError (A.calloc (sizeT (outputLength + 1)) 8)
  let (j, encoded) ← encodeLoop input length 0 0 encoded
  encoded.store j 0

/-! ## Decoding

The loop takes four characters at a time. A length that is no multiple of four is refused before
it. -/

/-- The search of a character in `_base64_chars`: the last index that has it. -/
def base64Search (c : UInt8) : UInt8 :=
  (List.range 64).foldl (fun index k => if base64Chars.getD k 0 = c then k.toUInt8 else index) 0

/-- `decoded_length` -/
def decodedLength (input : CString) : Run Nat := do
  let length := input.strlen / 4 * 3
  let last ← input.char (input.strlen - 1)
  if last = padChar then do
    let last ← input.char (input.strlen - 2)
    if last = padChar then pure (length - 1 - 1) else pure (length - 1)
  else pure length

/-- The loop of `base64_decode`. -/
def decodeLoop (input : CString) (i j : Nat) (decoded : Block) : Run Block :=
  if i < input.strlen then do
    let char1 ← input.char i
    let char2 ← input.char (i + 1)
    let char3 ← input.char (i + 2)
    let char4 ← input.char (i + 3)
    let index1 := base64Search char1
    let index2 := base64Search char2
    let index3 := base64Search char3
    let index4 := base64Search char4
    let decoded ← decoded.store j ((index1 <<< 2) ||| (index2 >>> 4))
    let decoded ← decoded.storeIf (char3 ≠ padChar) (j + 1)
      (((index2 &&& 0x0F) <<< 4) ||| (index3 >>> 2))
    let decoded ← decoded.storeIf (char4 ≠ padChar) (j + 2) (((index3 &&& 0x03) <<< 6) ||| index4)
    decodeLoop input (i + 4) (j + 3) decoded
  else pure decoded
termination_by input.strlen - i

/-- `base64_decode`: the decoded data and their length. -/
def base64Decode (A : Allocator) (input : CString) : Run (Block × Nat) :=
  if input.strlen % 4 ≠ 0 then .error .error
  else do
    let decodedLength ← decodedLength input
    let decoded ← Run.orError (A.calloc decodedLength 1)
    let decoded ← decodeLoop input 0 0 decoded
    pure (decoded, decodedLength)

/-! ## What encoding comes to

By induction on the octets that are left: the text that is written so far is that of the octets
before them. -/

theorem encodeLoop_end (input encoded : Block) {length i j : Nat} (h : length ≤ i) :
    encodeLoop input length i j encoded = .ok (j, encoded) := by
  rw [encodeLoop, if_neg (Nat.not_lt.mpr h)]
  rfl

/-- Four items, and what follows them. -/
theorem exists_four {α : Type} {l : List α} (h : 4 ≤ l.length) :
    ∃ c1 c2 c3 c4 rest, l = c1 :: c2 :: c3 :: c4 :: rest := by
  rcases l with _ | ⟨c1, _ | ⟨c2, _ | ⟨c3, _ | ⟨c4, rest⟩⟩⟩⟩
  · simp at h
  · simp at h
  · simp at h
  · simp at h
  · exact ⟨c1, c2, c3, c4, rest, rfl⟩

theorem encodeLoop_ofBytes (rest : Bytes) {p done hole tail : Block}
    (hhole : hole.length = (Crypt.base64Encode rest).length) :
    encodeLoop (p ++ ofBytes rest) (p.length + rest.length) p.length done.length
        (done ++ (hole ++ tail)) =
      .ok (done.length + hole.length, done ++ (ofBytes (Crypt.base64Encode rest) ++ tail)) := by
  -- `p` has been read and `done` written; the text of the rest fills the hole
  induction rest using Crypt.base64Encode.induct generalizing p done hole with
  | case1 =>
    rw [encodeLoop_end _ _ (by simp), List.length_eq_zero_iff.mp hhole]
    rfl
  | case2 o1 =>
    -- one byte gives two characters, and the loop ends
    obtain ⟨c1, c2, c3, c4, hole, rfl⟩ := exists_four (Nat.le_of_eq hhole.symm)
    obtain rfl : hole = [] := by simpa [Crypt.base64Encode] using hhole
    rw [encodeLoop, if_pos (by simp)]
    simp [octet, loadIf, ofBytes, load_append_zero, store_append, store_append_zero,
      encodeLoop_end, Crypt.base64Encode]
  | case3 o1 o2 =>
    -- two bytes give three
    obtain ⟨c1, c2, c3, c4, hole, rfl⟩ := exists_four (Nat.le_of_eq hhole.symm)
    obtain rfl : hole = [] := by simpa [Crypt.base64Encode] using hhole
    rw [encodeLoop, if_pos (by simp)]
    simp [octet, loadIf, ofBytes, load_append, load_append_zero, store_append, store_append_zero,
      encodeLoop_end, Crypt.base64Encode]
  | case4 o1 o2 o3 rest ih =>
    obtain ⟨c1, c2, c3, c4, hole, rfl⟩ := exists_four
      (by rw [hhole, Crypt.base64Encode]; exact Nat.le_add_left 4 _)
    have hrest : hole.length = (Crypt.base64Encode rest).length := by
      simpa [Crypt.base64Encode] using hhole
    rw [encodeLoop, if_pos (by simp)]
    -- the four characters of the group, and the loop on what follows the three bytes
    have hnext := @ih (p ++ [some o1, some o2, some o3])
      (done ++ [some (base64Char (o1 >>> 2)),
        some (base64Char (((o1 &&& 0x03) <<< 4) ||| (o2 >>> 4))),
        some (base64Char (((o2 &&& 0x0F) <<< 2) ||| (o3 >>> 6))), some (base64Char (o3 &&& 0x3F))])
      hole hrest
    have hlen : p.length + (o1 :: o2 :: o3 :: rest).length = p.length + 3 + rest.length := by
      simp only [List.length_cons]
      omega
    have hsecond : 1 < 3 + rest.length := by omega
    have hthird : 2 < 3 + rest.length := by omega
    rw [hlen]
    simp only [List.length_append, List.length_cons, List.length_nil] at hnext
    simp [octet, loadIf, ofBytes, load_append, load_append_zero, store_append, store_append_zero,
      Nat.add_assoc, hsecond, hthird] at hnext ⊢
    rw [hnext, Crypt.base64Encode, Nat.add_comm 4]
    rfl

/-- What `base64_encode` asks for. -/
def encodedBytes (length : Nat) : Nat := (4 * ((length + 2) / 3) + 1) * 8

/-- The requests that are not too large are what the text takes. -/
theorem request_eq {n : Nat} (hn : n < 2 ^ 63) :
    sizeT (sizeT (4 * (sizeT (n + 2) / 3)) + 1) * 8 = encodedBytes n := by
  rw [sizeT_of_lt (n := n + 2) (by omega), sizeT_of_lt (n := 4 * _) (by omega),
    sizeT_of_lt (by omega), encodedBytes]

variable {A : Allocator} {x : Bytes} {s : CString}

/-! ### The whole encoder -/

/-- **The text is written with its NUL.** -/
theorem base64Encode_granted (hx : x.length < 2 ^ 63)
    (hA : A.grants (encodedBytes x.length) = true) :
    ∃ rest, base64Encode A (ofBytes x) x.length =
      .ok (ofBytes (Crypt.base64Encode x) ++ some 0 :: rest) := by
  have hlen := length_base64Encode x
  obtain ⟨k, hk⟩ : ∃ k, encodedBytes x.length = (Crypt.base64Encode x).length + (k + 1) :=
    ⟨encodedBytes x.length - (Crypt.base64Encode x).length - 1, by rw [encodedBytes]; omega⟩
  -- the block is long enough for the text and its NUL
  have hblock : List.replicate (encodedBytes x.length) (some (0 : UInt8)) =
      [] ++ (List.replicate (Crypt.base64Encode x).length (some 0) ++
        some 0 :: List.replicate k (some 0)) := by
    rw [hk, List.replicate_add, List.replicate_succ]
    rfl
  have hloop := @encodeLoop_ofBytes x [] [] _ (some 0 :: List.replicate k (some 0))
    (List.length_replicate (a := some 0))
  simp only [List.length_nil, Nat.zero_add, List.nil_append, List.length_replicate] at hloop hblock
  refine ⟨List.replicate k (some 0), ?_⟩
  rw [base64Encode, Allocator.calloc, request_eq hx, if_pos hA, hblock]
  simp only [Run.orError_some, Run.ok_bind, hloop]
  rw [← length_ofBytes, store_append_zero, store_cons_zero]
  rfl

theorem base64Encode_refused (hx : x.length < 2 ^ 63)
    (hA : A.grants (encodedBytes x.length) = false) :
    base64Encode A (ofBytes x) x.length = .error .error := by
  rw [base64Encode, Allocator.calloc, request_eq hx, hA]
  rfl

/-! ## What decoding comes to

The search of a character goes over the whole table, and finds what `Crypt/Base64.lean` finds;
the loop is followed by groups of four characters. -/

/-- As far as it has gone, the search has found what is among the characters it has seen. -/
theorem base64Search_upTo (c : UInt8) {n : Nat} (hn : n ≤ base64Chars.length) :
    (List.range n).foldl (fun index k => if base64Chars.getD k 0 = c then k.toUInt8 else index) 0 =
      if c ∈ base64Chars.take n then (base64Chars.idxOf c).toUInt8 else 0 := by
  induction n with
  | zero => rfl
  | succ n ih =>
    have hlt : n < base64Chars.length := hn
    have hget : base64Chars.getD n 0 = base64Chars[n] := (List.getElem_eq_getD 0).symm
    rw [List.range_succ, List.foldl_append, ih (Nat.le_of_lt hlt),
      List.take_succ_eq_append_getElem hlt]
    show (if base64Chars.getD n 0 = c then _ else _) = _
    rw [hget]
    by_cases hc : base64Chars[n] = c
    · subst hc
      rw [if_pos rfl, if_pos (List.mem_append_right _ List.mem_cons_self),
        base64Chars_spec.2.1.idxOf_getElem]
    · have hmem : c ∈ base64Chars.take n ++ [base64Chars[n]] ↔ c ∈ base64Chars.take n := by
        rw [List.mem_append, List.mem_singleton]
        exact or_iff_left (Ne.symm hc)
      rw [if_neg hc]
      simp only [hmem]

theorem base64Search_eq (c : UInt8) : base64Search c = base64Index c := by
  have hlen := base64Chars_spec.1
  have h := base64Search_upTo c hlen.symm.le
  rw [List.take_of_length_le hlen.le] at h
  exact h

/-! ### The loop of the decoder

By induction on the characters that are left. Bytes that would come after the decoded length are
not written, and a group is always whole. -/

theorem decodeLoop_end (decoded : Block) {input : CString} {i j : Nat} (h : input.strlen ≤ i) :
    decodeLoop input i j decoded = .ok decoded := by
  rw [decodeLoop, if_neg (Nat.not_lt.mpr h)]
  rfl

theorem base64Pad_le (s : Bytes) : base64Pad s ≤ 2 := by
  rw [base64Pad]
  split
  · split
    · split <;> decide
    · decide
  · decide

theorem decodeLoop_string (rest : Bytes) {input : CString} {p : Bytes} {done : Block} {n : Nat}
    (hinput : input.val = p ++ rest) (hmod : rest.length % 4 = 0)
    (hn : n = rest.length / 4 * 3 - base64Pad rest) :
    decodeLoop input p.length done.length (done ++ List.replicate n (some 0)) =
      .ok (done ++ ofBytes ((base64Groups rest).take n)) := by
  -- `p` has been read and `done` written; `n` zeros are left for what the rest gives
  induction rest using base64Groups.induct generalizing p done n with
  | case1 c1 c2 c3 c4 rest ih =>
    have hlen : input.strlen = p.length + (rest.length + 4) := by
      rw [CString.strlen, hinput, List.length_append]
      rfl
    have h1 : input.char p.length = .ok c1 := CString.char_append hinput (i := 0) (by simp)
    have h2 : input.char (p.length + 1) = .ok c2 :=
      CString.char_append hinput (i := 1) (by simp)
    have h3 : input.char (p.length + 2) = .ok c3 :=
      CString.char_append hinput (i := 2) (by simp)
    have h4 : input.char (p.length + 3) = .ok c4 :=
      CString.char_append hinput (i := 3) (by simp)
    rw [decodeLoop, if_pos (by omega), h1, h2, h3, h4]
    simp only [Run.ok_bind]
    have hgroups : base64Groups (c1 :: c2 :: c3 :: c4 :: rest) =
      ((base64Index c1 <<< 2) ||| (base64Index c2 >>> 4)) ::
      (if c3 ≠ padChar then ((base64Index c2 &&& 0x0F) <<< 4) ||| (base64Index c3 >>> 2) else 0) ::
      (if c4 ≠ padChar then ((base64Index c3 &&& 0x03) <<< 6) ||| base64Index c4 else 0) ::
      base64Groups rest := rfl
    by_cases hrest : rest = []
    · -- the last group writes as far as its padding, where the block ends
      subst hrest
      have hend : input.strlen ≤ p.length + 4 := by simp [hlen]
      have hnext := fun d : Block => @decodeLoop_end d input (p.length + 4) (done.length + 3) hend
      by_cases hc4 : c4 = padChar
      · by_cases hc3 : c3 = padChar
        · subst hc3 hc4
          have hn : n = 1 := by simpa [base64Pad] using hn
          subst hn
          simp [storeIf, hnext, List.replicate, base64Search_eq, base64Groups, store_append_zero,
            ofBytes]
        · have hn : n = 2 := by simpa [base64Pad, hc3, hc4] using hn
          subst hn hc4
          simp [storeIf, hnext, List.replicate, base64Search_eq, base64Groups, store_append_zero,
            store_append, ofBytes, hc3]
      · have hn : n = 3 := by simpa [base64Pad, hc4] using hn
        subst hn
        simp [storeIf_append, storeIf_cons_zero, hnext, List.replicate, base64Search_eq,
          base64Groups, store_append_zero, ofBytes, hc4]
    · -- a group before it has room for three bytes, whatever its characters are
      have hmod' : rest.length % 4 = 0 := by
        simp only [List.length_cons] at hmod
        omega
      have hfour : 4 ≤ rest.length := by
        have := List.length_pos_iff.mpr hrest
        omega
      have hpad : base64Pad (c1 :: c2 :: c3 :: c4 :: rest) = base64Pad rest :=
        base64Pad_append (p := [c1, c2, c3, c4]) (by omega)
      have hle := base64Pad_le rest
      obtain ⟨m, rfl⟩ : ∃ m, n = m + 3 := ⟨n - 3, by simp only [List.length_cons] at hn; omega⟩
      have hm : m = rest.length / 4 * 3 - base64Pad rest := by
        rw [hpad] at hn
        simp only [List.length_cons] at hn
        omega
      have hnext := @ih (p ++ [c1, c2, c3, c4])
        (done ++ ofBytes ((base64Groups (c1 :: c2 :: c3 :: c4 :: rest)).take 3)) m
        (by simp [hinput]) hmod' hm
      rw [hgroups] at hnext ⊢
      simpa [storeIf_append, storeIf_cons_zero, store_append_zero, base64Search_eq, ofBytes,
        List.replicate] using hnext
  | case2 rest hshort =>
    have hrest : rest = [] := by
      by_contra hne
      have hpos := List.length_pos_iff.mpr hne
      obtain ⟨c1, c2, c3, c4, rest, rfl⟩ := exists_four (show 4 ≤ rest.length by omega)
      exact hshort c1 c2 c3 c4 rest rfl
    subst hrest hn
    rw [decodeLoop_end _ (by simp [CString.strlen, hinput])]
    rfl

theorem decodedLength_eq (hne : s.val ≠ []) (hmod : s.strlen % 4 = 0) :
    decodedLength s = .ok (s.strlen / 4 * 3 - base64Pad s.val) := by
  obtain ⟨p, c, d, hs⟩ : ∃ p c d, s.val = p ++ [c, d] := by
    have hlen : 2 ≤ s.val.length := by
      have hpos := List.length_pos_iff.mpr hne
      have : s.strlen = s.val.length := rfl
      omega
    obtain ⟨p, q, hpq, hq⟩ : ∃ p q, s.val = p ++ q ∧ q.length = 2 :=
      ⟨s.val.take (s.val.length - 2), s.val.drop (s.val.length - 2),
        (List.take_append_drop _ _).symm, by rw [List.length_drop]; omega⟩
    obtain ⟨c, d, rfl⟩ := List.length_eq_two.mp hq
    exact ⟨p, c, d, hpq⟩
  have hlen : s.strlen = p.length + 2 := by rw [CString.strlen, hs]; simp
  have hd : s.char (s.strlen - 1) = .ok d := by
    have h := CString.char_append hs (i := 1) (by simp)
    have hi : (s.strlen : Int) - 1 = p.length + (1 : Nat) := by omega
    rw [hi, h]
    rfl
  have hc : s.char (s.strlen - 2) = .ok c := by
    have h := CString.char_append hs (i := 0) (by simp)
    have hi : (s.strlen : Int) - 2 = p.length + (0 : Nat) := by omega
    rw [hi, h]
    rfl
  have hpad : base64Pad s.val = if d = padChar then (if c = padChar then 2 else 1) else 0 := by
    simp [base64Pad, hs]
  rw [decodedLength, hd, hc, hpad]
  simp only [Run.ok_bind]
  split
  · split <;> rfl
  · rfl

/-! ### The whole decoder

What is returned is the block of the decoded length. An empty text is read before its start for
the padding; any other text is decoded, or refused with nothing allocated. -/

/-- A text is decoded in the block it needs. -/
theorem base64Decode_of_some (hne : s.val ≠ []) (h : Crypt.base64Decode s.val = some x) :
    base64Decode A s =
      if A.grants x.length then .ok (ofBytes x, x.length) else .error .error := by
  rw [Crypt.base64Decode] at h
  split at h
  · cases h
  · next hmod =>
    have hmod : s.strlen % 4 = 0 := not_not.mp hmod
    have hx := Option.some.inj h
    have hlen : x.length = s.strlen / 4 * 3 - base64Pad s.val := by
      rw [← hx, List.length_take, length_base64Groups]
      exact Nat.min_eq_left (Nat.sub_le _ _)
    rw [base64Decode, if_neg (not_not.mpr hmod), decodedLength_eq hne hmod, ← hlen, Run.ok_bind,
      Allocator.calloc, Nat.mul_one]
    by_cases hA : A.grants x.length
    · have hloop := @decodeLoop_string s.val s [] [] _ rfl hmod hlen
      have htake : (base64Groups s.val).take x.length = x := by
        rw [hlen]
        exact hx
      rw [htake] at hloop
      simp only [List.length_nil, List.nil_append] at hloop
      rw [if_pos hA, if_pos hA, Run.orError_some, Run.ok_bind, hloop]
      rfl
    · rw [if_neg hA, if_neg hA]
      rfl

theorem base64Decode_of_none (h : Crypt.base64Decode s.val = none) :
    base64Decode A s = .error .error := by
  rw [Crypt.base64Decode] at h
  split at h
  · next hmod => exact if_pos hmod
  · cases h

/-- The last character of an empty text is the one before it. -/
theorem base64Decode_empty (h : s.val = []) : base64Decode A s = .error .read := by
  have hlen : s.strlen = 0 := by rw [CString.strlen, h]; rfl
  rw [base64Decode, hlen, if_neg (by simp), decodedLength, hlen,
    CString.char_eq_read (.inl (by simp))]
  rfl

/-- How many bytes a base64 text gives. -/
def decodedSize (s : CString) : Nat := s.strlen / 4 * 3 - base64Pad s.val

theorem length_of_base64Decode {s : CString} (h : Crypt.base64Decode s.val = some x) :
    s.strlen % 4 = 0 ∧ x.length = decodedSize s := by
  rw [Crypt.base64Decode] at h
  split at h
  · cases h
  · next hmod =>
    refine ⟨not_not.mp hmod, ?_⟩
    rw [← Option.some.inj h, List.length_take, length_base64Groups]
    exact Nat.min_eq_left (Nat.sub_le _ _)

theorem decodedSize_pos {s : CString} (hne : s.val ≠ []) (hmod : s.strlen % 4 = 0) :
    0 < decodedSize s := by
  have hlen : 0 < s.strlen := List.length_pos_iff.mpr hne
  have hpad := base64Pad_le s.val
  rw [decodedSize]
  omega

theorem decodedSize_le (s : CString) : decodedSize s ≤ s.strlen := by
  rw [decodedSize]
  omega

theorem base64Decode_size {s : CString} (hne : s.val ≠ []) (hmod : s.strlen % 4 = 0)
    (hA : A.grants (decodedSize s) = true) :
    ∃ x, x.length = decodedSize s ∧ base64Decode A s = .ok (ofBytes x, x.length) := by
  have hdecode : Crypt.base64Decode s.val =
      some ((base64Groups s.val).take (s.val.length / 4 * 3 - base64Pad s.val)) :=
    if_neg (not_not.mpr hmod)
  have hlen := (length_of_base64Decode hdecode).2
  refine ⟨_, hlen, ?_⟩
  rw [base64Decode_of_some hne hdecode, hlen, if_pos hA]

theorem base64Decode_ok_iff {s : CString} :
    (∃ r, base64Decode A s = .ok r) ↔
      s.val ≠ [] ∧ s.strlen % 4 = 0 ∧ A.grants (decodedSize s) = true := by
  constructor
  · rintro ⟨r, hr⟩
    have hne : s.val ≠ [] := by
      intro h
      rw [base64Decode_empty h] at hr
      cases hr
    cases h : Crypt.base64Decode s.val with
    | none =>
      rw [base64Decode_of_none h] at hr
      cases hr
    | some x =>
      obtain ⟨hmod, hlen⟩ := length_of_base64Decode h
      rw [base64Decode_of_some hne h, hlen] at hr
      split at hr
      · next hA => exact ⟨hne, hmod, hA⟩
      · cases hr
  · rintro ⟨hne, hmod, hA⟩
    obtain ⟨x, -, hx⟩ := base64Decode_size hne hmod hA
    exact ⟨_, hx⟩

/-! ## The round trip and the bounds -/

/-- Without a fault, the decoder succeeds or reports an error. -/
theorem base64Decode_cases (A : Allocator) (s : CString) :
    (∃ r, base64Decode A s = .ok r) ∨ base64Decode A s = .error .error ∨
      (s.val = [] ∧ base64Decode A s = .error .read) := by
  by_cases hne : s.val = []
  · exact .inr (.inr ⟨hne, base64Decode_empty hne⟩)
  · cases h : Crypt.base64Decode s.val with
    | none => exact .inr (.inl (base64Decode_of_none h))
    | some x =>
      rw [base64Decode_of_some hne h]
      split
      · exact .inl ⟨_, rfl⟩
      · exact .inr (.inl rfl)

/-- **Base64 round trip in memory.** With the memory that the text and the data take, what is
encoded is decoded; and nothing is written out of the blocks, whatever is encoded or decoded. -/
theorem base64_roundTrip (A : Allocator) (x : Object) :
    (x.val ≠ [] → A.grants (encodedBytes x.val.length) = true → A.grants x.val.length = true →
      ∃ encoded text, base64Encode A (ofBytes x.val) x.val.length = .ok encoded ∧
        encoded.string = .ok text ∧ base64Decode A text = .ok (ofBytes x.val, x.val.length)) ∧
      base64Encode A (ofBytes x.val) x.val.length ≠ .error .write ∧
      ∀ text, base64Decode A text ≠ .error .write := by
  refine ⟨?_, ?_, ?_⟩
  · intro hne hencode hdecode
    obtain ⟨rest, hencoded⟩ := base64Encode_granted x.2 hencode
    refine ⟨_, ⟨Crypt.base64Encode x.val, nul_not_mem_base64Encode _⟩, hencoded,
      string_ofBytes ⟨_, nul_not_mem_base64Encode x.val⟩ rest, ?_⟩
    have htext : Crypt.base64Encode x.val ≠ [] := by
      intro h
      have hlen := length_base64Encode x.val
      have hpos := List.length_pos_iff.mpr hne
      rw [h, List.length_nil] at hlen
      omega
    rw [base64Decode_of_some htext (base64Decode_base64Encode x.val), if_pos hdecode]
  · cases hA : A.grants (encodedBytes x.val.length) with
    | false =>
      rw [base64Encode_refused x.2 hA]
      exact nofun
    | true =>
      obtain ⟨rest, hencoded⟩ := base64Encode_granted x.2 hA
      rw [hencoded]
      exact nofun
  · intro text
    rcases base64Decode_cases A text with ⟨r, h⟩ | h | ⟨-, h⟩
    · rw [h]
      exact nofun
    · rw [h]
      exact nofun
    · rw [h]
      exact nofun

theorem base64_roundTrip_oneByte :
    ∃ encoded text, base64Encode Allocator.all (ofBytes [0xFF]) 1 = .ok encoded ∧
      encoded.string = .ok text ∧ base64Decode Allocator.all text = .ok (ofBytes [0xFF], 1) :=
  (base64_roundTrip Allocator.all ⟨[0xFF], by decide⟩).1 (by decide) (by decide) (by decide)

end RsmpGateway.Crypt.Memory
