import RsmpGateway.Crypt.Bcd
import RsmpGateway.Lib.Memory

/-!
# BCD texts in memory

`bcd_encode_sep` and `bcd_decode` with their indices and the blocks they allocate. The decoder
takes two characters at a time and looks at the next one: it leaves its text, and its block, when
two characters start on the last one.

* `bcdText` is the text that is written, with its separator; `bcd_roundTrip` says that it is
  decoded to the bytes it was made of, whatever the separator.
* `bcdDecode_contained_iff` says exactly which texts are decoded in bounds: those without a group
  of two characters that starts on the last one (`Paired`), among the texts that start with a
  digit pair. The others are refused at once.
-/

namespace RsmpGateway.Crypt.Memory

open RsmpGateway.Lib Block

/-! ## Encoding

Two loops, with a separator and without. The separator after the last byte stands where the NUL
is written. -/

/-- The loop of `bcd_encode_sep` that writes a separator after each byte. -/
def encodeSepLoop (buf : Block) (sep : UInt8) (max i j : Nat) (out : Block) : Run Block :=
  if i < max then do
    let hi ← buf.load j
    let out ← out.store i (c2a (hi >>> 4))
    let lo ← buf.load j
    let out ← out.store (i + 1) (c2a (lo &&& 0x0F))
    let out ← out.store (i + 2) sep
    encodeSepLoop buf sep max (i + 3) (j + 1) out
  else pure out
termination_by max - i

/-- The loop that writes none. -/
def encodePlainLoop (buf : Block) (max i j : Nat) (out : Block) : Run Block :=
  if i < max then do
    let hi ← buf.load j
    let out ← out.store i (c2a (hi >>> 4))
    let lo ← buf.load j
    let out ← out.store (i + 1) (c2a (lo &&& 0x0F))
    encodePlainLoop buf max (i + 2) (j + 1) out
  else pure out
termination_by max - i

/-- What is written through the pointer that `calloc` returns: there is no block behind `NULL`. -/
def orNull (out : Option Block) : Run Block :=
  match out with
  | some out => .ok out
  | none => .error .write

/-- `bcd_encode_sep`, `none` for `NULL`. What `calloc` returns is not tested. -/
def bcdEncodeSep (A : Allocator) (buf : Option Block) (len : Nat) (sep : UInt8) :
    Run (Option Block) :=
  match buf with
  | none => .ok none
  | some buf =>
    if len = 0 then .ok none
    else if sep ≠ 0 ∧ ¬ isXDigit sep then do
      let max := sizeT (len * 3)
      let out ← orNull (A.calloc max 1)
      let out ← encodeSepLoop buf sep max 0 0 out
      let out ← out.store (max - 1) 0
      pure (some out)
    else do
      let max := sizeT (len * 2)
      let out ← orNull (A.calloc (sizeT (max + 1)) 1)
      let out ← encodePlainLoop buf max 0 0 out
      pure (some out)

/-! ## Decoding

After two characters, one that is no digit is skipped, and a digit is the first one of the next
two. -/

/-- The loop of `bcd_decode`: the number of bytes, and the bytes. -/
def bcdDecodeLoop (buf : CString) (len i lout : Nat) (out : Block) : Run (Block × Nat) :=
  if i < len then do
    let hi ← buf.char i
    let out ← out.store lout ((a2c hi <<< 4) &&& 0xF0)
    let lo ← buf.char (i + 1)
    let half ← out.load lout
    let out ← out.store lout (half ||| a2c lo)
    let next ← buf.char (i + 2)
    if isXDigit next then bcdDecodeLoop buf len (i + 2) (lout + 1) out
    else bcdDecodeLoop buf len (i + 3) (lout + 1) out
  else pure (out, lout)
termination_by len - i

/-- `bcd_decode`, `none` for `NULL`. -/
def bcdDecode (A : Allocator) (buf : Option CString) : Run (Option (Block × Nat)) :=
  match buf with
  | none => .ok none
  | some buf =>
    let len := buf.strlen
    if 1 < len then do
      let c0 ← buf.char 0
      let c1 ← buf.char 1
      if isXDigit c0 && isXDigit c1 then
        match A.calloc (len / 2) 1 with
        | none => pure none
        | some out => do
          let r ← bcdDecodeLoop buf len 0 0 out
          pure (some r)
      else pure none
    else .ok none

/-! ## What encoding comes to

The loops write two digits for each byte and then the separator; the text is what is left when
the last separator is taken away. -/

/-- The two digits of a byte. -/
def digits (b : UInt8) : Bytes := [c2a (b >>> 4), c2a (b &&& 0x0F)]

/-- The digits of each byte, with a separator between them. -/
def separated (sep : UInt8) : Bytes → Bytes
  | [] => []
  | [b] => digits b
  | b :: bs => digits b ++ sep :: separated sep bs

/-- The text of `bcd_encode_sep`: a separator that is a digit counts for none. -/
def bcdText (buf : Bytes) (sep : UInt8) : Bytes :=
  if sep ≠ 0 ∧ ¬ isXDigit sep then separated sep buf else bcdEncode buf

/-- The bytes that the text takes, with its NUL. -/
def textBytes (len : Nat) (sep : UInt8) : Nat :=
  if sep ≠ 0 ∧ ¬ isXDigit sep then len * 3 else len * 2 + 1

/-! ### The loops of the encoder

By induction on the bytes that are left, with what was written before them. A loop writes two
digits and, in the one of the two, a separator. -/

theorem encodeSepLoop_end (buf out : Block) (sep : UInt8) {max i j : Nat} (h : max ≤ i) :
    encodeSepLoop buf sep max i j out = .ok out := by
  rw [encodeSepLoop, if_neg (Nat.not_lt.mpr h)]
  rfl

theorem encodePlainLoop_end (buf out : Block) {max i j : Nat} (h : max ≤ i) :
    encodePlainLoop buf max i j out = .ok out := by
  rw [encodePlainLoop, if_neg (Nat.not_lt.mpr h)]
  rfl

theorem encodeSepLoop_ofBytes (sep : UInt8) (rest : Bytes) {p done hole : Block}
    (hhole : hole.length = rest.length * 3) :
    encodeSepLoop (p ++ ofBytes rest) sep (done.length + rest.length * 3) done.length p.length
        (done ++ hole) =
      .ok (done ++ ofBytes (rest.flatMap fun b => digits b ++ [sep])) := by
  -- `p` has been read and `done` written; each byte of the rest fills three places
  induction rest generalizing p done hole with
  | nil =>
    rw [encodeSepLoop_end _ _ _ (by simp), List.length_eq_zero_iff.mp hhole]
    rfl
  | cons b rest ih =>
    obtain ⟨c1, c2, c3, hole, rfl⟩ : ∃ c1 c2 c3 hole', hole = c1 :: c2 :: c3 :: hole' := by
      match hole, hhole with
      | c1 :: c2 :: c3 :: hole', _ => exact ⟨c1, c2, c3, hole', rfl⟩
      | [_], h => simp at h; omega
      | [_, _], h => simp at h; omega
    have hnext := @ih (p ++ [some b])
      (done ++ [some (c2a (b >>> 4)), some (c2a (b &&& 0x0F)), some sep]) hole
      (by simp only [List.length_cons] at hhole; omega)
    have hmax : done.length + (b :: rest).length * 3 = done.length + 3 + rest.length * 3 := by
      simp only [List.length_cons]
      omega
    rw [encodeSepLoop, if_pos (by simp), hmax]
    simpa [ofBytes, digits, load_append_zero, store_append, store_append_zero] using hnext

theorem encodePlainLoop_ofBytes (rest : Bytes) {p done hole tail : Block}
    (hhole : hole.length = rest.length * 2) :
    encodePlainLoop (p ++ ofBytes rest) (done.length + rest.length * 2) done.length p.length
        (done ++ (hole ++ tail)) =
      .ok (done ++ (ofBytes (bcdEncode rest) ++ tail)) := by
  induction rest generalizing p done hole with
  | nil =>
    rw [encodePlainLoop_end _ _ (by simp), List.length_eq_zero_iff.mp hhole]
    rfl
  | cons b rest ih =>
    obtain ⟨c1, c2, hole, rfl⟩ : ∃ c1 c2 hole', hole = c1 :: c2 :: hole' := by
      match hole, hhole with
      | c1 :: c2 :: hole', _ => exact ⟨c1, c2, hole', rfl⟩
      | [_], h => simp at h; omega
    have hnext := @ih (p ++ [some b])
      (done ++ [some (c2a (b >>> 4)), some (c2a (b &&& 0x0F))]) hole
      (by simp only [List.length_cons] at hhole; omega)
    have hmax : done.length + (b :: rest).length * 2 = done.length + 2 + rest.length * 2 := by
      simp only [List.length_cons]
      omega
    rw [encodePlainLoop, if_pos (by simp), hmax]
    simpa [ofBytes, load_append_zero, store_append, store_append_zero] using hnext

variable {A : Allocator} {buf : Bytes} {sep : UInt8}

/-- The separator after the last byte gives its place to the NUL. -/
theorem flatMap_digits (sep : UInt8) (hne : buf ≠ []) :
    (buf.flatMap fun b => digits b ++ [sep]) = separated sep buf ++ [sep] := by
  induction buf with
  | nil => exact absurd rfl hne
  | cons b bs ih =>
    cases bs with
    | nil => rfl
    | cons b' bs =>
      have hsep : separated sep (b :: b' :: bs) = digits b ++ sep :: separated sep (b' :: bs) := rfl
      rw [List.flatMap_cons, ih (List.cons_ne_nil _ _), hsep]
      simp only [List.append_assoc, List.cons_append, List.nil_append]

theorem length_separated (sep : UInt8) (hne : buf ≠ []) :
    (separated sep buf).length + 1 = buf.length * 3 := by
  have h := congrArg List.length (flatMap_digits sep hne)
  rw [List.length_append, List.length_singleton] at h
  rw [← h, List.length_flatMap]
  simp [digits]

/-- **The text is written with its NUL.** -/
theorem bcdEncodeSep_granted (hne : buf ≠ []) (hA : A.grants (textBytes buf.length sep) = true) :
    ∃ rest, bcdEncodeSep A (some (ofBytes buf)) buf.length sep =
      .ok (some (ofBytes (bcdText buf sep) ++ some 0 :: rest)) := by
  have hbound := A.bounded hA
  have hlen : buf.length ≠ 0 := fun h => hne (List.length_eq_zero_iff.mp h)
  by_cases hsep : sep ≠ 0 ∧ ¬ isXDigit sep = true
  · -- the last separator is overwritten
    rw [textBytes, if_pos hsep] at hA hbound
    have hsize : sizeT (buf.length * 3) = buf.length * 3 := sizeT_of_lt (by omega)
    have hloop := @encodeSepLoop_ofBytes sep buf [] [] _
      (List.length_replicate (n := buf.length * 3) (a := some 0))
    simp only [List.length_nil, Nat.zero_add, List.nil_append] at hloop
    rw [flatMap_digits sep hne, ofBytes_append] at hloop
    have hlast : buf.length * 3 - 1 = (ofBytes (separated sep buf)).length := by
      have hcount := length_separated sep hne
      rw [length_ofBytes]
      omega
    refine ⟨[], ?_⟩
    rw [bcdEncodeSep, bcdText, if_neg hlen, if_pos hsep, if_pos hsep]
    simp only [hsize, Allocator.calloc, Nat.mul_one, if_pos hA, orNull, Run.ok_bind, hloop]
    rw [hlast, store_append_zero]
    rfl
  · -- the block has one more byte than the digits
    rw [textBytes, if_neg hsep] at hA hbound
    have hsize : sizeT (buf.length * 2) = buf.length * 2 := sizeT_of_lt (by omega)
    have hsize' : sizeT (buf.length * 2 + 1) = buf.length * 2 + 1 := sizeT_of_lt (by omega)
    have hloop := @encodePlainLoop_ofBytes buf [] [] _ [some 0]
      (List.length_replicate (n := buf.length * 2) (a := some 0))
    simp only [List.length_nil, Nat.zero_add, List.nil_append] at hloop
    refine ⟨[], ?_⟩
    rw [bcdEncodeSep, bcdText, if_neg hlen, if_neg hsep, if_neg hsep]
    simp only [hsize, hsize', Allocator.calloc, Nat.mul_one, if_pos hA, List.replicate_succ',
      orNull, Run.ok_bind, hloop]
    rfl

/-! ## What decoding comes to

`Paired` follows the loop: two characters are taken, then one that is no digit, or none. -/

/-- Two characters, then one that is no digit, or the next two: no group of two starts on the last
character. -/
inductive Paired : Bytes → Prop
  | nil : Paired []
  | last {hi lo : UInt8} : Paired [hi, lo]
  | next {hi lo c : UInt8} {rest : Bytes} : isXDigit c = true → Paired (c :: rest) →
      Paired (hi :: lo :: c :: rest)
  | skip {hi lo c : UInt8} {rest : Bytes} : ¬ isXDigit c = true → Paired rest →
      Paired (hi :: lo :: c :: rest)

/-- An even number of digits, without any separator. -/
theorem paired_of_digits {t : Bytes} (hdigits : ∀ c ∈ t, isXDigit c = true)
    (heven : t.length % 2 = 0) :
    Paired t ∧ (Crypt.bcdDecodeLoop t).length = t.length / 2 := by
  induction t using Crypt.bcdDecodeLoop.induct with
  | case1 => exact ⟨.nil, rfl⟩
  | case2 hi => exact absurd heven (by simp)
  | case3 hi lo rest ih =>
    cases rest with
    | nil => exact ⟨.last, by simp [Crypt.bcdDecodeLoop]⟩
    | cons c rest =>
      have hc := hdigits c (by simp)
      obtain ⟨hpaired, hlen⟩ := ih.1
        (fun d hd => hdigits d (List.mem_cons_of_mem _ (List.mem_cons_of_mem _ hd)))
        (by simp only [List.length_cons] at heven ⊢; omega)
      refine ⟨.next hc hpaired, ?_⟩
      rw [Crypt.bcdDecodeLoop]
      simp only [if_pos hc, List.length_cons, hlen]
      omega

/-! ### The loop of the decoder

The same for the characters that are left. One round takes two of them, whatever they are, and
then at most one that is no digit. -/

theorem bcdDecodeLoop_end (out : Block) {buf : CString} {i lout : Nat} (h : buf.strlen ≤ i) :
    bcdDecodeLoop buf buf.strlen i lout out = .ok (out, lout) := by
  rw [bcdDecodeLoop, if_neg (Nat.not_lt.mpr h)]
  rfl

/-- One round of the loop: two characters give a byte. -/
theorem bcdDecodeLoop_round {buf : CString} {p rest : Bytes} {hi lo : UInt8} {done tail : Block}
    (hbuf : buf.val = p ++ hi :: lo :: rest) :
    bcdDecodeLoop buf buf.strlen p.length done.length (done ++ some 0 :: tail) =
      bcdDecodeLoop buf buf.strlen (p.length + if isXDigit (rest.getD 0 0) then 2 else 3)
        (done.length + 1) (done ++ some (bcdByte hi lo) :: tail) := by
  have hlen : p.length < buf.strlen := by
    rw [CString.strlen, hbuf, List.length_append]
    simp
  have h0 : buf.char p.length = .ok hi := CString.char_append hbuf (i := 0) (by simp)
  have h1 : buf.char (p.length + 1) = .ok lo := CString.char_append hbuf (i := 1) (by simp)
  have h2 : buf.char (p.length + 2) = .ok (rest.getD 0 0) :=
    CString.char_append hbuf (i := 2) (by simp)
  rw [bcdDecodeLoop, if_pos hlen, h0, h1, h2]
  simp only [Run.ok_bind, store_append_zero, store_cons_zero, Run.map_ok, load_append_zero,
    load_cons_zero]
  show (if isXDigit (rest.getD 0 0) = true then _ else _) = _
  split
  · rfl
  · rfl

theorem bcdDecodeLoop_paired {rest : Bytes} (h : Paired rest) {buf : CString} {p : Bytes}
    {done : Block} {n : Nat} (hbuf : buf.val = p ++ rest) (hn : rest.length / 2 ≤ n) :
    bcdDecodeLoop buf buf.strlen p.length done.length (done ++ List.replicate n (some 0)) =
      .ok (done ++ ofBytes (Crypt.bcdDecodeLoop rest) ++
        List.replicate (n - (Crypt.bcdDecodeLoop rest).length) (some 0),
        done.length + (Crypt.bcdDecodeLoop rest).length) := by
  -- one round for each group of the cut
  induction h generalizing p done n with
  | nil =>
    have hlen : buf.strlen = p.length := by rw [CString.strlen, hbuf, List.append_nil]
    rw [bcdDecodeLoop_end _ hlen.le]
    simp [Crypt.bcdDecodeLoop, ofBytes]
  | @last hi lo =>
    obtain ⟨m, rfl⟩ : ∃ m, n = m + 1 := ⟨n - 1, by simp only [List.length_cons] at hn; omega⟩
    have hlen : buf.strlen = p.length + 2 := by rw [CString.strlen, hbuf]; simp
    rw [List.replicate_succ, bcdDecodeLoop_round hbuf, bcdDecodeLoop_end _ (by split <;> omega)]
    simp [Crypt.bcdDecodeLoop, ofBytes]
  | @next hi lo c rest hc _ ih =>
    obtain ⟨m, rfl⟩ : ∃ m, n = m + 1 := ⟨n - 1, by simp only [List.length_cons] at hn; omega⟩
    have hbuf' : buf.val = (p ++ [hi, lo]) ++ c :: rest := by simp [hbuf]
    have hrest := @ih (p ++ [hi, lo]) (done ++ [some (bcdByte hi lo)]) m hbuf'
      (by simp only [List.length_cons] at hn ⊢; omega)
    rw [List.replicate_succ, bcdDecodeLoop_round hbuf, List.getD_cons_zero, if_pos hc]
    simpa [Crypt.bcdDecodeLoop, ofBytes, hc, Nat.add_assoc, Nat.add_comm 1] using hrest
  | @skip hi lo c rest hc _ ih =>
    obtain ⟨m, rfl⟩ : ∃ m, n = m + 1 := ⟨n - 1, by simp only [List.length_cons] at hn; omega⟩
    have hbuf' : buf.val = (p ++ [hi, lo, c]) ++ rest := by simp [hbuf]
    have hrest := @ih (p ++ [hi, lo, c]) (done ++ [some (bcdByte hi lo)]) m hbuf'
      (by simp only [List.length_cons] at hn ⊢; omega)
    rw [List.replicate_succ, bcdDecodeLoop_round hbuf, List.getD_cons_zero, if_neg hc]
    simpa [Crypt.bcdDecodeLoop, ofBytes, hc, Nat.add_assoc, Nat.add_comm 1] using hrest

/-- A group that starts on the last character leaves the text or the block. -/
theorem bcdDecodeLoop_unpaired {rest : Bytes} (h : ¬ Paired rest) {buf : CString} {p : Bytes}
    {done : Block} {n : Nat} (hbuf : buf.val = p ++ rest) (hn : rest.length / 2 ≤ n) :
    bcdDecodeLoop buf buf.strlen p.length done.length (done ++ List.replicate n (some 0)) =
        .error .read ∨
      bcdDecodeLoop buf buf.strlen p.length done.length (done ++ List.replicate n (some 0)) =
        .error .write := by
  induction rest using Crypt.bcdDecodeLoop.induct generalizing p done n with
  | case1 => exact absurd .nil h
  | case2 hi =>
    -- the NUL is read as a digit, then what follows it
    have hlen : buf.strlen = p.length + 1 := by rw [CString.strlen, hbuf]; simp
    have h0 : buf.char p.length = .ok hi := CString.char_append hbuf (i := 0) (by simp)
    have h1 : buf.char (p.length + 1) = .ok 0 := CString.char_append hbuf (i := 1) (by simp)
    have h2 : buf.char (p.length + 2) = .error .read := CString.char_eq_read (by omega)
    rw [bcdDecodeLoop, if_pos (by omega), h0, h1, h2]
    cases n with
    | zero =>
      -- the block is full by then
      right
      rw [List.replicate_zero, List.append_nil, Run.ok_bind, store_eq_write le_rfl]
      rfl
    | succ n =>
      left
      rw [List.replicate_succ]
      simp only [Run.ok_bind, store_append_zero, store_cons_zero, Run.map_ok, load_append_zero,
        load_cons_zero, Run.error_bind]
  | case3 hi lo rest ih =>
    obtain ⟨m, rfl⟩ : ∃ m, n = m + 1 := ⟨n - 1, by simp only [List.length_cons] at hn; omega⟩
    simp only [List.length_cons] at hn
    cases rest with
    | nil => exact absurd .last h
    | cons c rest =>
      rw [List.replicate_succ, bcdDecodeLoop_round hbuf, List.getD_cons_zero]
      simp only [List.length_cons] at hn
      by_cases hc : isXDigit c = true
      · have hrest := @ih.1 (fun hp => h (.next hc hp)) (p ++ [hi, lo])
          (done ++ [some (bcdByte hi lo)]) m (by simp [hbuf])
          (by simp only [List.length_cons]; omega)
        rw [if_pos hc]
        simpa using hrest
      · have hrest := @ih.2 (fun hp => h (.skip hc hp)) (p ++ [hi, lo, c])
          (done ++ [some (bcdByte hi lo)]) m (by simp [hbuf]) (by omega)
        rw [if_neg hc]
        simpa using hrest

/-! ### The whole decoder

The function looks at the first two characters before it asks for memory, half as many bytes as
there are characters. -/

/-- `isxdigit` of the first two characters. -/
def startsHex : Bytes → Bool
  | c0 :: c1 :: _ => isXDigit c0 && isXDigit c1
  | _ => false

variable {s : CString}

theorem bcdDecode_of_startsHex (h : startsHex s.val = true) :
    bcdDecode A (some s) =
      match A.calloc (s.strlen / 2) 1 with
      | none => .ok none
      | some out => some <$> bcdDecodeLoop s s.strlen 0 0 out := by
  obtain ⟨c0, c1, rest, hs⟩ : ∃ c0 c1 rest, s.val = c0 :: c1 :: rest := by
    match hs : s.val, h with
    | c0 :: c1 :: rest, _ => exact ⟨c0, c1, rest, rfl⟩
  have hlen : 1 < s.strlen := by rw [CString.strlen, hs]; simp
  have h0 : s.char 0 = .ok c0 := CString.char_append (p := []) hs (i := 0) (by simp)
  have h1 : s.char 1 = .ok c1 := CString.char_append (p := []) hs (i := 1) (by simp)
  rw [hs] at h
  have h' : (isXDigit c0 && isXDigit c1) = true := h
  rw [bcdDecode]
  simp only [if_pos hlen, h0, h1, Run.ok_bind, if_pos h']
  cases A.calloc (s.strlen / 2) 1 <;> rfl

theorem bcdDecode_of_not_startsHex (h : startsHex s.val = false) :
    bcdDecode A (some s) = .ok none := by
  by_cases hlen : 1 < s.strlen
  · obtain ⟨c0, c1, rest, hs⟩ : ∃ c0 c1 rest, s.val = c0 :: c1 :: rest := by
      match hs : s.val with
      | c0 :: c1 :: rest => exact ⟨c0, c1, rest, rfl⟩
      | [] => simp [CString.strlen, hs] at hlen
      | [_] => simp [CString.strlen, hs] at hlen
    have h0 : s.char 0 = .ok c0 := CString.char_append (p := []) hs (i := 0) (by simp)
    have h1 : s.char 1 = .ok c1 := CString.char_append (p := []) hs (i := 1) (by simp)
    rw [hs] at h
    have h' : ¬ (isXDigit c0 && isXDigit c1) = true := ne_true_of_eq_false h
    rw [bcdDecode]
    simp only [if_pos hlen, h0, h1, Run.ok_bind, if_neg h']
    rfl
  · rw [bcdDecode]
    exact if_neg hlen

theorem bcdDecode_refused (h : startsHex s.val = true) (hA : A.grants (s.strlen / 2) = false) :
    bcdDecode A (some s) = .ok none := by
  rw [bcdDecode_of_startsHex h, Allocator.calloc, Nat.mul_one, hA]
  rfl

theorem bcdDecode_paired (h : startsHex s.val = true) (hA : A.grants (s.strlen / 2) = true)
    (hs : Paired s.val) :
    bcdDecode A (some s) =
      .ok (some (ofBytes (Crypt.bcdDecodeLoop s.val) ++
        List.replicate (s.strlen / 2 - (Crypt.bcdDecodeLoop s.val).length) (some 0),
        (Crypt.bcdDecodeLoop s.val).length)) := by
  have hloop := @bcdDecodeLoop_paired _ hs s [] [] (s.strlen / 2) rfl le_rfl
  simp only [List.length_nil, Nat.zero_add, List.nil_append] at hloop
  rw [bcdDecode_of_startsHex h, Allocator.calloc, Nat.mul_one, if_pos hA]
  show some <$> bcdDecodeLoop s s.strlen 0 0 _ = _
  rw [hloop]
  rfl

theorem bcdDecode_unpaired (h : startsHex s.val = true) (hA : A.grants (s.strlen / 2) = true)
    (hs : ¬ Paired s.val) :
    bcdDecode A (some s) = .error .read ∨ bcdDecode A (some s) = .error .write := by
  have hloop := @bcdDecodeLoop_unpaired _ hs s [] [] (s.strlen / 2) rfl le_rfl
  simp only [List.length_nil, List.nil_append] at hloop
  rw [bcdDecode_of_startsHex h, Allocator.calloc, Nat.mul_one, if_pos hA]
  rcases hloop with hloop | hloop
  · left
    show some <$> bcdDecodeLoop s s.strlen 0 0 _ = _
    rw [hloop]
    rfl
  · right
    show some <$> bcdDecodeLoop s s.strlen 0 0 _ = _
    rw [hloop]
    rfl

/-! ## The round trip -/

theorem ne_zero_of_isXDigit {c : UInt8} (h : isXDigit c = true) : c ≠ 0 := by
  rintro rfl
  exact absurd h (by decide)

theorem nul_not_mem_separated (hsep : sep ≠ 0) (buf : Bytes) : (0 : UInt8) ∉ separated sep buf := by
  have hdigits : ∀ b, (0 : UInt8) ∉ digits b := by
    intro b
    have h1 := ne_zero_of_isXDigit (isXDigit_c2a (b >>> 4))
    have h2 := ne_zero_of_isXDigit (isXDigit_c2a (b &&& 0x0F))
    simp [digits, h1.symm, h2.symm]
  induction buf using separated.induct with
  | case1 => exact List.not_mem_nil
  | case2 b => exact hdigits b
  | case3 b bs hne ih =>
    rw [separated]
    · simp [hdigits b, hsep.symm, ih]
    · exact hne

/-- What is encoded starts with digits, is cut into groups of two, and gives the bytes back. -/
theorem separated_decodes (hsep : ¬ isXDigit sep = true) (hne : buf ≠ []) :
    startsHex (separated sep buf) = true ∧ Paired (separated sep buf) ∧
      Crypt.bcdDecodeLoop (separated sep buf) = buf := by
  induction buf with
  | nil => exact absurd rfl hne
  | cons b bs ih =>
    cases bs with
    | nil =>
      refine ⟨?_, .last, ?_⟩
      · simp [separated, digits, startsHex, isXDigit_c2a]
      · simp [separated, digits, Crypt.bcdDecodeLoop, bcdByte_c2a]
    | cons b' bs =>
      obtain ⟨-, hpaired, hloop⟩ := ih (List.cons_ne_nil _ _)
      refine ⟨?_, .skip hsep hpaired, ?_⟩
      · simp [separated, digits, startsHex, isXDigit_c2a]
      · show Crypt.bcdDecodeLoop
          (c2a (b >>> 4) :: c2a (b &&& 0x0F) :: sep :: separated sep (b' :: bs)) = _
        rw [Crypt.bcdDecodeLoop, bcdByte_c2a]
        simp only [if_neg hsep, hloop]

theorem bcdEncode_paired (buf : Bytes) : Paired (bcdEncode buf) := by
  induction buf with
  | nil => exact .nil
  | cons b bs ih =>
    cases bs with
    | nil => exact .last
    | cons b' bs => exact .next (isXDigit_c2a _) ih

/-- The text of some bytes, as the decoder reads it. -/
theorem bcdText_decodes (sep : UInt8) (hne : buf ≠ []) :
    (0 : UInt8) ∉ bcdText buf sep ∧ startsHex (bcdText buf sep) = true ∧
      Paired (bcdText buf sep) ∧ Crypt.bcdDecodeLoop (bcdText buf sep) = buf ∧
      (bcdText buf sep).length + 1 = textBytes buf.length sep := by
  rw [bcdText, textBytes]
  split
  · next hsep =>
    obtain ⟨hstart, hpaired, hloop⟩ := separated_decodes hsep.2 hne
    exact ⟨nul_not_mem_separated hsep.1 buf, hstart, hpaired, hloop, length_separated sep hne⟩
  · refine ⟨?_, ?_, bcdEncode_paired buf, bcdDecodeLoop_bcdEncode buf, ?_⟩
    · intro h
      exact ne_zero_of_isXDigit (isXDigit_of_mem_bcdEncode h) rfl
    · obtain ⟨b, bs, rfl⟩ := List.exists_cons_of_ne_nil hne
      simp [startsHex, isXDigit_c2a]
    · rw [length_bcdEncode, Nat.mul_comm]

/-- **BCD round trip in memory.** With the memory that the text and the bytes take, what is encoded
is decoded, whatever the separator, and every access of both functions is in its block. -/
theorem bcd_roundTrip (A : Allocator) (buf : Bytes) (sep : UInt8) (hne : buf ≠ [])
    (hencode : A.grants (textBytes buf.length sep) = true)
    (hdecode : A.grants ((textBytes buf.length sep - 1) / 2) = true) :
    ∃ out text rest, bcdEncodeSep A (some (ofBytes buf)) buf.length sep = .ok (some out) ∧
      out.string = .ok text ∧
      bcdDecode A (some text) = .ok (some (ofBytes buf ++ rest, buf.length)) := by
  obtain ⟨hnul, hstart, hpaired, hloop, hlen⟩ := bcdText_decodes sep hne
  obtain ⟨rest, hout⟩ := bcdEncodeSep_granted hne hencode
  have hlen' : CString.strlen ⟨bcdText buf sep, hnul⟩ = textBytes buf.length sep - 1 := by
    show (bcdText buf sep).length = _
    omega
  rw [← hlen'] at hdecode
  have hbytes := bcdDecode_paired (s := ⟨bcdText buf sep, hnul⟩) hstart hdecode hpaired
  rw [hloop] at hbytes
  exact ⟨_, ⟨bcdText buf sep, hnul⟩, _, hout, string_ofBytes ⟨bcdText buf sep, hnul⟩ rest, hbytes⟩

theorem bcd_roundTrip_colon :
    ∃ out text rest, bcdEncodeSep Allocator.all (some (ofBytes [0xAB, 0x01])) 2 0x3A =
        .ok (some out) ∧ out.string = .ok text ∧
      bcdDecode Allocator.all (some text) = .ok (some (ofBytes [0xAB, 0x01] ++ rest, 2)) :=
  bcd_roundTrip Allocator.all [0xAB, 0x01] 0x3A (by decide) (by decide) (by decide)

/-! ## The bounds of decoding

Both directions come from the same induction: as long as the groups are whole the loop stays in
the text, and the first that is not takes it out. -/

/-- The decoding of a text stays in the text and in its block, and ends. -/
structure Contained (A : Allocator) (s : CString) : Prop where
  reads : bcdDecode A (some s) ≠ .error .read
  writes : bcdDecode A (some s) ≠ .error .write
  ends : ∃ r, bcdDecode A (some s) = .ok r

theorem Contained.of_ok {r : Option (Block × Nat)} (h : bcdDecode A (some s) = .ok r) :
    Contained A s where
  reads := by rw [h]; exact nofun
  writes := by rw [h]; exact nofun
  ends := ⟨r, h⟩

/-- **Bounds of the decoding.** A text that starts with two digits is decoded in its bounds
exactly when no group of two characters starts on its last one. -/
theorem bcdDecode_contained_iff (A : Allocator) (s : CString) :
    Contained A s ↔
      (startsHex s.val = true → A.grants (s.strlen / 2) = true → Paired s.val) := by
  constructor
  · intro h hstart hA
    by_contra hs
    rcases bcdDecode_unpaired hstart hA hs with hfault | hfault
    · exact h.reads hfault
    · exact h.writes hfault
  · intro h
    cases hstart : startsHex s.val with
    | false => exact .of_ok (bcdDecode_of_not_startsHex hstart)
    | true =>
      cases hA : A.grants (s.strlen / 2) with
      | false => exact .of_ok (bcdDecode_refused hstart hA)
      | true =>
        exact .of_ok (bcdDecode_paired hstart hA (h hstart hA))

/-- `12:3`: the third group starts on the last character. -/
theorem not_contained_oddDigits :
    ¬ Contained Allocator.all ⟨ascii "12:3", by decide⟩ := by
  intro h
  have hunpaired : ¬ Paired (ascii "12:3") := by
    intro hp
    cases hp with
    | next hc _ => exact absurd hc (by decide)
    | skip _ hrest => cases hrest
  rcases bcdDecode_unpaired (A := Allocator.all) (s := ⟨ascii "12:3", by decide⟩) (by decide)
    (by decide) hunpaired with hfault | hfault
  · exact h.reads hfault
  · exact h.writes hfault

end RsmpGateway.Crypt.Memory
