import RsmpGateway.Auth.Pwd
import RsmpGateway.Crypt.BcdMemory
import RsmpGateway.Lib.System

/-!
# Passwords in memory

A password is a pointer and a length, which the functions of `auth-pwd.c` set one after the
other. A run of these functions on any number of passwords keeps the two together as long as no
password is released that has a buffer, none is copied to itself, and the memory that a random
password or a decoded one takes is there (`passwords_represented`).

* `RawPwd` is the pair, with a block of bytes that may be freed. `Represented` says that the
  pointer is `NULL` exactly for a length of 0, and otherwise that of a buffer of this length.
* `PwdOp.Allowed` is the condition on a call. It names the calls that break the pair: a release
  keeps the length, a copy to itself reads what it has freed, and an allocation that fails leaves
  one of the two as it was.
* On represented passwords the functions are those on lists of bytes of `Auth/Pwd.lean`, and
  `auth_pwd_cmp` tells passwords apart as long as their lengths differ by less than an `int`
  counts.
-/

namespace RsmpGateway.Auth.Memory

open RsmpGateway.Lib RsmpGateway.Crypt Block

/-- `auth_pwd_t` -/
structure RawPwd where
  buf : Option Block
  len : Nat
  deriving DecidableEq

namespace RawPwd

/-- `_auth_pwd_null_` -/
def null : RawPwd := ⟨none, 0⟩

/-- A password that owns a buffer of its length, but for an empty one. -/
def of (x : AuthPwd) : RawPwd := if x = [] then null else ⟨some (ofBytes x), x.length⟩

end RawPwd

/-- What the system draws for a new password: `auth_pwd_len_get` bytes, which are
`_auth_pwd_len_delta` more than `AUTH_PWD_LEN_MIN` at most. -/
structure PwdDraw where
  bytes : Bytes
  min : authPwdLenMin ≤ bytes.length
  max : bytes.length < authPwdLenMin + 22

variable (A : Allocator) (draw : PwdDraw)

/-! ## Functions

In the order of `auth-pwd.c`. What an allocation and a draw come to is given with each call. -/

/-- `auth_pwd_release`: the buffer is overwritten, then freed. The length stays. -/
def authPwdRelease (item : RawPwd) : Run RawPwd :=
  match item.buf with
  | none => .ok item
  | some buf => if item.len ≤ buf.length then .ok { item with buf := none } else .error .write

/-- `auth_pwd_auto_set` -/
def authPwdAutoSet (pwd : RawPwd) : Run RawPwd := do
  let pwd ← authPwdRelease pwd
  let pwd := { pwd with len := draw.bytes.length }
  match A.malloc pwd.len with
  | none => pure { pwd with buf := none }
  | some buf => do
    let buf ← buf.paste 0 draw.bytes
    pure { pwd with buf := some buf }

/-- `auth_pwd_set` -/
def authPwdSet (pwd : RawPwd) (buf : Option Block) (len : Nat) : Run RawPwd :=
  match buf with
  | none => authPwdAutoSet A draw pwd
  | some buf =>
    if len = 0 then authPwdAutoSet A draw pwd
    else do
      let pwd ← authPwdRelease pwd
      let pwd := { pwd with len := len }
      let copy ← Run.orAbort (A.malloc pwd.len)
      let bytes ← buf.slice 0 pwd.len
      let copy ← copy.paste 0 bytes
      pure { pwd with buf := some copy }

/-- `auth_pwd_cpy` -/
def authPwdCpy (dest src : RawPwd) : Run RawPwd := authPwdSet A draw dest src.buf src.len

/-- `auth_pwd_cpy` of a password to itself: what is copied was freed. -/
def authPwdCpySelf (pwd : RawPwd) : Run RawPwd :=
  match pwd.buf with
  | none => authPwdAutoSet A draw pwd
  | some _ =>
    if pwd.len = 0 then authPwdAutoSet A draw pwd
    else do
      let pwd ← authPwdRelease pwd
      let _ ← Run.orAbort (A.malloc pwd.len)
      .error .read

/-- `auth_pwd_from_str_set`, `none` for `NULL`: the password is left as it is. -/
def authPwdFromStrSet (pwd : RawPwd) (str : Option CString) : Run (Option RawPwd) :=
  match str with
  | none => some <$> authPwdAutoSet A draw pwd
  | some str =>
    if str.strlen < authPwdLenMin then .ok none
    else some <$> authPwdSet A draw pwd (some (ofBytes str.val)) str.strlen

/-- `auth_pwd_from_hex_set`: where there is no memory the length is left as it is. -/
def authPwdFromHexSet (pwd : RawPwd) (str : Option CString) : Run (Option RawPwd) :=
  match str with
  | none => some <$> authPwdAutoSet A draw pwd
  | some str =>
    if authPwdStrIsHex str.val then do
      let pwd ← authPwdRelease pwd
      match ← Crypt.Memory.bcdDecode A (some str) with
      | none => pure (some { pwd with buf := none })
      | some (buf, len) => pure (some ⟨some buf, len⟩)
    else .ok none

/-- `auth_pwd_decode` -/
def authPwdDecode (pwd : RawPwd) (str : CString) : Run (Option RawPwd) :=
  if 2 < str.strlen then
    if str.val.getD 0 0 = 0x24 ∧ str.val.getD 2 0 = 0x24 then
      if str.val.getD 1 0 = 0x30 then
        if str.val.getD 3 0 = 0x2A then some <$> authPwdRelease pwd
        else authPwdFromHexSet A draw pwd (some (str.drop 3))
      else .ok none
    else if authPwdLenMin ≤ str.strlen then authPwdFromStrSet A draw pwd (some str)
    else .ok none
  else .ok none

/-- What `memcmp` reads. -/
def compared (buf : Option Block) (n : Nat) : Run Bytes :=
  if n = 0 then .ok []
  else
    match buf with
    | none => .error .read
    | some buf => buf.slice 0 n

/-- `memcmp` -/
def memcmp : Bytes → Bytes → Int
  | a :: x, b :: y => if a = b then memcmp x y else (a.toNat : Int) - b.toNat
  | _, _ => 0

/-- `auth_pwd_cmp`: the difference of the lengths is kept in an `int`. -/
def authPwdCmp (pwd1 pwd2 : Option RawPwd) : Run Int :=
  match pwd1, pwd2 with
  | none, none => .ok 0
  | none, some _ => .ok 1
  | some _, none => .ok (-1)
  | some pwd1, some pwd2 =>
    let ret := toInt32 (sizeSub pwd1.len pwd2.len)
    if ret = 0 then do
      let x ← compared pwd1.buf pwd1.len
      let y ← compared pwd2.buf pwd1.len
      pure (memcmp x y)
    else .ok ret

/-! ## Runs

A program has a family of passwords, and `auth_pwd_set` a static one of its own, which it copies
from for `NULL`. -/

/-- The passwords of a program, and the one that `auth_pwd_set` has for `NULL`. -/
abbrev PwdId := Option Nat

/-- A call of one of the functions. -/
inductive PwdOp
  | release (pwd : PwdId)
  | set (pwd : PwdId) (buf : Option Bytes)
  | autoSet (pwd : PwdId)
  | fromStrSet (pwd : PwdId) (str : Option CString)
  | fromHexSet (pwd : PwdId) (str : Option CString)
  | decode (pwd : PwdId) (str : CString)
  | cpy (dest src : PwdId)

/-- The password that a call changes. -/
def PwdOp.target : PwdOp → PwdId
  | release pwd | set pwd _ | autoSet pwd | fromStrSet pwd _ | fromHexSet pwd _
  | decode pwd _ => pwd
  | cpy dest _ => dest

/-- The values of the passwords. -/
abbrev Passwords := PwdId → RawPwd

/-- What the call makes of its password. -/
def PwdOp.result (σ : Passwords) : PwdOp → Run RawPwd
  | release pwd => authPwdRelease (σ pwd)
  | set pwd buf => authPwdSet A draw (σ pwd) (buf.map ofBytes) (buf.getD []).length
  | autoSet pwd => authPwdAutoSet A draw (σ pwd)
  | fromStrSet pwd str => (·.getD (σ pwd)) <$> authPwdFromStrSet A draw (σ pwd) str
  | fromHexSet pwd str => (·.getD (σ pwd)) <$> authPwdFromHexSet A draw (σ pwd) str
  | decode pwd str => (·.getD (σ pwd)) <$> authPwdDecode A draw (σ pwd) str
  | cpy dest src =>
    if dest = src then authPwdCpySelf A draw (σ dest) else authPwdCpy A draw (σ dest) (σ src)

/-- A call with what its allocations and its draws come to. -/
structure PwdCall where
  alloc : Allocator
  draw : PwdDraw
  op : PwdOp

/-- The state after a call. -/
def PwdCall.run (σ : Passwords) (c : PwdCall) : Run Passwords :=
  (Function.update σ c.op.target ·) <$> c.op.result c.alloc c.draw σ

/-- Calls one after the other, from null passwords. -/
def pwdSystem : System Passwords PwdCall where
  init σ := ∀ i, σ i = .null
  step σ c σ' := c.run σ = .ok σ'

/-! ## The functions on represented passwords

One lemma for each function: what it makes of its password, or which way it fails. -/

/-- `NULL` exactly for a length of 0, and otherwise a buffer of exactly that length. -/
structure RawPwd.Represented (p : RawPwd) : Prop where
  null_iff : p.buf = none ↔ p.len = 0
  owns : ∀ buf, p.buf = some buf → buf.length = p.len

namespace RawPwd

@[simp] theorem of_nil : of [] = null := rfl

theorem of_ne_nil {x : AuthPwd} (h : x ≠ []) : of x = ⟨some (ofBytes x), x.length⟩ := if_neg h

@[simp] theorem of_len (x : AuthPwd) : (of x).len = x.length := by
  rw [of]
  split
  · next h => rw [h]; rfl
  · rfl

theorem of_buf_eq_none {x : AuthPwd} : (of x).buf = none ↔ x = [] := by
  rw [of]
  split
  · next h => exact ⟨fun _ => h, fun _ => rfl⟩
  · next h => exact ⟨nofun, fun hx => absurd hx h⟩

theorem of_represented (x : AuthPwd) : (of x).Represented where
  null_iff := by rw [of_buf_eq_none, of_len, List.length_eq_zero_iff]
  owns buf hbuf := by
    by_cases hx : x = []
    · rw [hx] at hbuf
      cases hbuf
    · rw [of_ne_nil hx] at hbuf ⊢
      rw [← Option.some.inj hbuf, length_ofBytes]

theorem of_injective {x y : AuthPwd} (h : of x = of y) : x = y := by
  by_cases hx : x = []
  · rw [hx] at h ⊢
    exact (of_buf_eq_none.mp (congrArg RawPwd.buf h.symm)).symm
  · by_cases hy : y = []
    · rw [hy] at h ⊢
      exact of_buf_eq_none.mp (congrArg RawPwd.buf h)
    · rw [of_ne_nil hx, of_ne_nil hy] at h
      exact ofBytes_injective (Option.some.inj (RawPwd.mk.inj h).1)

end RawPwd

variable {A : Allocator} {draw : PwdDraw} {x y : AuthPwd}

/-! ### The calls

What is said of a password that stands for a list of bytes. A call that has no memory stops the
process with an assertion or leaves part of the password, and each lemma says which. -/

theorem PwdDraw.bytes_ne_nil (draw : PwdDraw) : draw.bytes ≠ [] := by
  intro h
  have hmin := draw.min
  rw [h] at hmin
  exact absurd hmin (by decide)

/-- The length is left. -/
theorem authPwdRelease_of (x : AuthPwd) : authPwdRelease (.of x) = .ok ⟨none, x.length⟩ := by
  by_cases hx : x = []
  · rw [hx]
    rfl
  · rw [RawPwd.of_ne_nil hx, authPwdRelease]
    exact if_pos (length_ofBytes x).ge

theorem authPwdAutoSet_of (hA : A.grants draw.bytes.length = true) (x : AuthPwd) :
    authPwdAutoSet A draw (.of x) = .ok (.of draw.bytes) := by
  rw [authPwdAutoSet, authPwdRelease_of, Run.ok_bind]
  dsimp only
  rw [Allocator.malloc_eq hA]
  dsimp only
  rw [paste_whole List.length_replicate, RawPwd.of_ne_nil draw.bytes_ne_nil]
  rfl

/-- A copy of some bytes, unless the process stops for want of memory. -/
theorem authPwdSet_of (hy : y ≠ []) (x : AuthPwd) :
    authPwdSet A draw (.of x) (some (ofBytes y)) y.length =
      if A.grants y.length then .ok (.of y) else .error .abort := by
  have hlen : y.length ≠ 0 := fun h => hy (List.length_eq_zero_iff.mp h)
  rw [authPwdSet]
  simp only [if_neg hlen]
  rw [authPwdRelease_of, Run.ok_bind]
  rw [Allocator.malloc]
  split
  · rw [Run.orAbort_some, Run.ok_bind, slice_ofBytes (by omega), Run.ok_bind, List.drop_zero,
      List.take_length, paste_whole List.length_replicate, RawPwd.of_ne_nil hy]
    rfl
  · rfl

/-! ### Hexadecimal texts

The memory for the bytes of a hexadecimal text is asked for after the buffer was freed, and where
it is not there only the pointer is cleared. So such a text is safe with memory, and for a
password that is null. -/

theorem isHex_digits {s : Bytes} (h : authPwdStrIsHex s = true) :
    s.length % 2 = 0 ∧ 16 ≤ s.length ∧ ∀ c ∈ s, isXDigit c = true := by
  rw [authPwdStrIsHex, Bool.and_eq_true, Bool.and_eq_true, List.all_eq_true] at h
  obtain ⟨⟨heven, hlong⟩, hdigits⟩ := h
  exact ⟨of_decide_eq_true heven, of_decide_eq_true hlong, hdigits⟩

/-- A hexadecimal text is decoded to a byte for each two digits. -/
theorem isHex_decodes {s : Bytes} (h : authPwdStrIsHex s = true) :
    Crypt.Memory.startsHex s = true ∧ Crypt.Memory.Paired s ∧
      (Crypt.bcdDecodeLoop s).length = s.length / 2 ∧ Crypt.bcdDecodeLoop s ≠ [] ∧
      Crypt.bcdDecode s = some (Crypt.bcdDecodeLoop s) := by
  obtain ⟨heven, hlong, hdigits⟩ := isHex_digits h
  obtain ⟨hpaired, hlen⟩ := Crypt.Memory.paired_of_digits hdigits heven
  have hne : Crypt.bcdDecodeLoop s ≠ [] := by
    intro hnil
    rw [hnil, List.length_nil] at hlen
    omega
  obtain ⟨c0, c1, rest, rfl⟩ : ∃ c0 c1 rest, s = c0 :: c1 :: rest := by
    match s, hlong with
    | c0 :: c1 :: rest, _ => exact ⟨c0, c1, rest, rfl⟩
  have hfirst : (isXDigit c0 && isXDigit c1) = true := by
    rw [hdigits c0 (by simp), hdigits c1 (by simp)]
    rfl
  exact ⟨hfirst, hpaired, hlen, hne, if_pos hfirst⟩

/-- The bytes of a hexadecimal text, or the length that was there. -/
theorem authPwdFromHexSet_of {str : CString} (h : authPwdStrIsHex str.val = true) (x : AuthPwd) :
    authPwdFromHexSet A draw (.of x) (some str) =
      if A.grants (str.strlen / 2) then .ok (some (.of (Crypt.bcdDecodeLoop str.val)))
      else .ok (some ⟨none, x.length⟩) := by
  obtain ⟨hstart, hpaired, hlen, hne, -⟩ := isHex_decodes h
  have hsize : str.strlen / 2 = (Crypt.bcdDecodeLoop str.val).length := hlen.symm
  rw [authPwdFromHexSet]
  simp only [if_pos h]
  rw [authPwdRelease_of, Run.ok_bind]
  cases hA : A.grants (str.strlen / 2) with
  | false =>
    rw [Crypt.Memory.bcdDecode_refused hstart hA]
    rfl
  | true =>
    rw [Crypt.Memory.bcdDecode_paired hstart hA hpaired, hsize, Nat.sub_self, List.replicate_zero,
      List.append_nil, RawPwd.of_ne_nil hne]
    rfl

/-- **Decoding a password is that of its bytes**, with the memory it takes; but for the text of no
password, whose length is left. -/
theorem authPwdDecode_refines {str : CString} (hA : ∀ n ≤ str.strlen, A.grants n = true)
    (x : AuthPwd) :
    authPwdDecode A draw (.of x) str =
      match Auth.authPwdDecode str.val with
      | none => .ok none
      | some [] => .ok (some ⟨none, x.length⟩)
      | some (b :: y) => .ok (some (.of (b :: y))) := by
  rw [authPwdDecode]
  -- a text of less than three characters, an encoded one, a plain one
  by_cases hshort : str.val.length < 3
  · have hlen : ¬ 2 < str.strlen := by rw [CString.strlen]; omega
    rw [if_neg hlen]
    rcases hs : str.val with _ | ⟨c0, _ | ⟨c1, _ | ⟨c2, rest⟩⟩⟩
    · rfl
    · rfl
    · rfl
    · rw [hs] at hshort
      simp only [List.length_cons] at hshort
      omega
  · obtain ⟨c0, c1, c2, rest, hs⟩ : ∃ c0 c1 c2 rest, str.val = c0 :: c1 :: c2 :: rest := by
      rcases hs : str.val with _ | ⟨c0, _ | ⟨c1, _ | ⟨c2, rest⟩⟩⟩
      · simp [hs] at hshort
      · simp [hs] at hshort
      · simp [hs] at hshort
      · exact ⟨c0, c1, c2, rest, rfl⟩
    rw [hs]
    have hlen : str.strlen = rest.length + 3 := by rw [CString.strlen, hs]; rfl
    have hdrop : (str.drop 3).val = rest := by
      show str.val.drop 3 = rest
      rw [hs]
      rfl
    have hrest : (str.drop 3).strlen = rest.length := by rw [CString.strlen, hdrop]
    rw [if_pos (by omega)]
    simp only [Auth.authPwdDecode, List.getD_cons_zero, List.getD_cons_succ]
    split
    · split
      · -- behind the mark, the end of the text is no star either
        have hstar : rest.getD 0 0 = 0x2A ↔ rest.head? = some 0x2A := by
          cases rest with
          | nil => exact ⟨fun h => absurd h (by decide), fun h => absurd h (by simp)⟩
          | cons c rest => simp
        simp only [hstar]
        split
        · rw [authPwdRelease_of]
          rfl
        · by_cases hhex : authPwdStrIsHex rest = true
          · rw [authPwdFromHexSet_of (by rw [hdrop]; exact hhex), hrest, if_pos (hA _ (by omega)),
              hdrop]
            obtain ⟨-, -, -, hne, hdecode⟩ := isHex_decodes hhex
            obtain ⟨b, y, hy⟩ := List.exists_cons_of_ne_nil hne
            rw [Auth.authPwdFromHexSet, if_pos hhex, hdecode, hy]
          · rw [authPwdFromHexSet, hdrop, Auth.authPwdFromHexSet]
            simp only [if_neg hhex]
      · rfl
    · rw [← hs]
      split
      · next hlong =>
        have hlong' : authPwdLenMin ≤ str.val.length := hlong
        have hne : str.val ≠ [] := by rw [hs]; exact List.cons_ne_nil _ _
        have hset : authPwdSet A draw (.of x) (some (ofBytes str.val)) str.strlen =
            .ok (.of str.val) := by
          show authPwdSet A draw (.of x) (some (ofBytes str.val)) str.val.length = _
          rw [authPwdSet_of hne]
          exact if_pos (hA _ le_rfl)
        have htext : Auth.authPwdFromStrSet str.val = some str.val := if_neg (not_lt.mpr hlong')
        rw [authPwdFromStrSet, if_neg (not_lt.mpr hlong), hset, if_pos hlong', htext, hs]
        rfl
      · next hshort =>
        have hshort' : ¬ authPwdLenMin ≤ str.val.length := hshort
        rw [if_neg hshort']

/-! ## Comparison

The difference of two lengths is kept in an `int`, and a difference of a multiple of `2 ^ 32` is
none. -/

theorem memcmp_eq_zero {x y : Bytes} (h : x.length = y.length) : memcmp x y = 0 ↔ x = y := by
  induction x generalizing y with
  | nil =>
    rw [List.length_eq_zero_iff.mp h.symm]
    exact ⟨fun _ => rfl, fun _ => rfl⟩
  | cons a x ih =>
    cases y with
    | nil => cases h
    | cons b y =>
      have hlen : x.length = y.length := Nat.succ.inj h
      rw [memcmp]
      split
      · next hab => rw [ih hlen, hab, List.cons.injEq, and_iff_right rfl]
      · next hab =>
        have hnat : a.toNat ≠ b.toNat := fun h => hab (UInt8.toNat_inj.mp h)
        constructor
        · intro hdiff
          omega
        · intro heq
          exact absurd (List.cons.inj heq).1 hab

theorem compared_of (x : AuthPwd) : compared (RawPwd.of x).buf x.length = .ok x := by
  by_cases hx : x = []
  · rw [hx]
    rfl
  · have hlen : x.length ≠ 0 := fun h => hx (List.length_eq_zero_iff.mp h)
    rw [RawPwd.of_ne_nil hx, compared, if_neg hlen]
    rw [slice_ofBytes (by omega), List.drop_zero, List.take_length]

theorem toInt32_eq_zero {n : Nat} : toInt32 n = 0 ↔ n % 2 ^ 32 = 0 := by
  rw [toInt32, BitVec.toInt_ofNat', Int.bmod]
  omega

/-- Lengths that differ by less than an `int` can count are told apart. -/
theorem authPwdCmp_of (h : x.length % 2 ^ 32 = y.length % 2 ^ 32 → x.length = y.length) :
    ∃ c, authPwdCmp (some (.of x)) (some (.of y)) = .ok c ∧ (c = 0 ↔ x = y) := by
  have hzero : toInt32 (sizeSub x.length y.length) = 0 ↔ x.length % 2 ^ 32 = y.length % 2 ^ 32 := by
    rw [toInt32_eq_zero, sizeSub]
    omega
  rw [authPwdCmp]
  simp only [RawPwd.of_len]
  split
  · next hret =>
    have hlen := h (hzero.mp hret)
    rw [compared_of, hlen, compared_of]
    exact ⟨_, rfl, memcmp_eq_zero hlen⟩
  · next hret =>
    refine ⟨_, rfl, ?_⟩
    constructor
    · intro h0
      exact absurd h0 hret
    · intro hxy
      exact absurd (hzero.mpr (by rw [hxy])) hret

/-! ## The runs that keep passwords represented

The step lemma, then the runs. The condition on a call depends on the state before it, since a
password may be null. -/

/-- The `int` of `auth_pwd_cmp` tells a length from those of the other passwords. -/
def Apart (σ : Passwords) (i : PwdId) (n : Nat) : Prop :=
  ∀ j ≠ i, n % 2 ^ 32 = (σ j).len % 2 ^ 32 → n = (σ j).len

/-- A random password has its memory. -/
def Drawn (A : Allocator) (draw : PwdDraw) (σ : Passwords) (i : PwdId) : Prop :=
  A.grants draw.bytes.length = true ∧ Apart σ i draw.bytes.length

/-- A hexadecimal text has the memory of its bytes, or is for a null password. -/
def HexAllowed (A : Allocator) (σ : Passwords) (i : PwdId) (str : CString) : Prop :=
  authPwdStrIsHex str.val = true →
    (A.grants (str.strlen / 2) = true ∧ Apart σ i (str.strlen / 2)) ∨
      (A.grants (str.strlen / 2) = false ∧ (σ i).len = 0)

/-- The calls that keep passwords represented. -/
def PwdOp.Allowed (A : Allocator) (draw : PwdDraw) (σ : Passwords) : PwdOp → Prop
  | release pwd => (σ pwd).buf = none
  | set pwd buf =>
    match buf with
    | none => Drawn A draw σ pwd
    | some buf => if buf = [] then Drawn A draw σ pwd else Apart σ pwd buf.length
  | autoSet pwd => Drawn A draw σ pwd
  | fromStrSet pwd str =>
    match str with
    | none => Drawn A draw σ pwd
    | some str => authPwdLenMin ≤ str.strlen → Apart σ pwd str.strlen
  | fromHexSet pwd str =>
    match str with
    | none => Drawn A draw σ pwd
    | some str => HexAllowed A σ pwd str
  | decode pwd str =>
    if 2 < str.strlen then
      if str.val.getD 0 0 = 0x24 ∧ str.val.getD 2 0 = 0x24 then
        if str.val.getD 1 0 = 0x30 then
          if str.val.getD 3 0 = 0x2A then (σ pwd).buf = none
          else HexAllowed A σ pwd (str.drop 3)
        else True
      else authPwdLenMin ≤ str.strlen → Apart σ pwd str.strlen
    else True
  | cpy dest src =>
    if (σ src).buf = none then Drawn A draw σ dest else dest ≠ src

/-! ### The invariant

That lengths are told apart is needed for the comparison: `auth_pwd_cmp` keeps their difference
in an `int`. It is a relation between all passwords of the program, so that a call has to look at
the others too. -/

/-- The passwords are represented, and their lengths told apart. -/
structure PwdInv (σ : Passwords) : Prop where
  represented : ∀ i, ∃ x, σ i = .of x
  apart : ∀ i, Apart σ i (σ i).len

/-- What a call that is allowed makes of its password. -/
def Settled (σ : Passwords) (i : PwdId) (r : Run RawPwd) : Prop :=
  (∃ x, r = .ok (.of x) ∧ Apart σ i x.length) ∨ r = .error .abort

variable {σ : Passwords} {i : PwdId}

/-! ### The calls that are allowed

One lemma for each kind of call, and one for all of them. A call that stops the process leaves no
state to speak of. -/

theorem PwdInv.same (hσ : PwdInv σ) (i : PwdId) : Settled σ i (.ok (σ i)) := by
  obtain ⟨x, hx⟩ := hσ.represented i
  have hapart := hσ.apart i
  rw [hx, RawPwd.of_len] at hapart
  exact .inl ⟨x, by rw [hx], hapart⟩

theorem settled_autoSet (hσ : PwdInv σ) (h : Drawn A draw σ i) :
    Settled σ i (authPwdAutoSet A draw (σ i)) := by
  obtain ⟨x, hx⟩ := hσ.represented i
  rw [hx, authPwdAutoSet_of h.1]
  exact .inl ⟨draw.bytes, rfl, h.2⟩

theorem settled_set (hσ : PwdInv σ) (hy : y ≠ []) (h : Apart σ i y.length) :
    Settled σ i (authPwdSet A draw (σ i) (some (ofBytes y)) y.length) := by
  obtain ⟨x, hx⟩ := hσ.represented i
  rw [hx, authPwdSet_of hy]
  split
  · exact .inl ⟨y, rfl, h⟩
  · exact .inr rfl

theorem settled_release (hσ : PwdInv σ) (h : (σ i).buf = none) :
    Settled σ i (authPwdRelease (σ i)) := by
  have hsame : authPwdRelease (σ i) = .ok (σ i) := by rw [authPwdRelease, h]
  rw [hsame]
  exact hσ.same i

theorem settled_fromStrSet (hσ : PwdInv σ) {str : CString}
    (h : authPwdLenMin ≤ str.strlen → Apart σ i str.strlen) :
    Settled σ i ((·.getD (σ i)) <$> authPwdFromStrSet A draw (σ i) (some str)) := by
  rw [authPwdFromStrSet]
  split
  · exact hσ.same i
  · next hlong =>
    have hlong : authPwdLenMin ≤ str.strlen := not_lt.mp hlong
    have hne : str.val ≠ [] := by
      intro hnil
      rw [CString.strlen, hnil] at hlong
      exact absurd hlong (by decide)
    have hset : Settled σ i (authPwdSet A draw (σ i) (some (ofBytes str.val)) str.val.length) :=
      settled_set hσ hne (h hlong)
    rw [← comp_map]
    show Settled σ i (id <$> _)
    rw [id_map]
    exact hset

theorem settled_fromHexSet (hσ : PwdInv σ) {str : CString} (h : HexAllowed A σ i str) :
    Settled σ i ((·.getD (σ i)) <$> authPwdFromHexSet A draw (σ i) (some str)) := by
  by_cases hhex : authPwdStrIsHex str.val = true
  · obtain ⟨x, hx⟩ := hσ.represented i
    obtain ⟨-, -, hlen, -, -⟩ := isHex_decodes hhex
    rcases h hhex with ⟨hA, hapart⟩ | ⟨hA, hnull⟩
    · rw [hx, authPwdFromHexSet_of hhex, if_pos hA]
      refine .inl ⟨_, rfl, ?_⟩
      rw [hlen]
      exact hapart
    · -- no memory, and the length that is left is that of a null password
      rw [hx, RawPwd.of_len] at hnull
      rw [hx, authPwdFromHexSet_of hhex, if_neg (ne_true_of_eq_false hA), hnull]
      have hnil : x = [] := List.length_eq_zero_iff.mp hnull
      have hsame := hσ.same i
      rw [hx, hnil] at hsame
      exact hsame
  · rw [authPwdFromHexSet]
    simp only [if_neg hhex]
    exact hσ.same i

/-- **One call.** -/
theorem settled_result (hσ : PwdInv σ) {op : PwdOp} (h : op.Allowed A draw σ) :
    Settled σ op.target (op.result A draw σ) := by
  have hauto : ∀ i, Drawn A draw σ i →
      Settled σ i ((·.getD (σ i)) <$> (some <$> authPwdAutoSet A draw (σ i))) := by
    intro i hdrawn
    rw [← comp_map]
    show Settled σ i (id <$> _)
    rw [id_map]
    exact settled_autoSet hσ hdrawn
  cases op with
  | release pwd => exact settled_release hσ h
  | set pwd buf =>
    cases buf with
    | none => exact settled_autoSet hσ h
    | some buf =>
      simp only [PwdOp.Allowed] at h
      split at h
      · next hnil =>
        subst hnil
        exact settled_autoSet hσ h
      · next hne => exact settled_set hσ hne h
  | autoSet pwd => exact settled_autoSet hσ h
  | fromStrSet pwd str =>
    cases str with
    | none => exact hauto pwd h
    | some str => exact settled_fromStrSet hσ h
  | fromHexSet pwd str =>
    cases str with
    | none => exact hauto pwd h
    | some str => exact settled_fromHexSet hσ h
  | decode pwd str =>
    simp only [PwdOp.Allowed] at h
    show Settled σ pwd ((·.getD (σ pwd)) <$> authPwdDecode A draw (σ pwd) str)
    rw [authPwdDecode]
    split
    · next hlen =>
      rw [if_pos hlen] at h
      split
      · next hcode =>
        rw [if_pos hcode] at h
        split
        · next hzero =>
          rw [if_pos hzero] at h
          split
          · next hstar =>
            rw [if_pos hstar] at h
            rw [← comp_map]
            show Settled σ pwd (id <$> _)
            rw [id_map]
            exact settled_release hσ h
          · next hstar =>
            rw [if_neg hstar] at h
            exact settled_fromHexSet hσ h
        · exact hσ.same pwd
      · next hcode =>
        rw [if_neg hcode] at h
        split
        · exact settled_fromStrSet hσ h
        · exact hσ.same pwd
    · exact hσ.same pwd
  | cpy dest src =>
    simp only [PwdOp.Allowed] at h
    show Settled σ dest (if dest = src then _ else _)
    obtain ⟨y, hy⟩ := hσ.represented src
    split at h
    · next hnone =>
      split
      · next heq =>
        subst heq
        have hself : authPwdCpySelf A draw (σ dest) = authPwdAutoSet A draw (σ dest) := by
          rw [authPwdCpySelf, hnone]
        rw [hself]
        exact settled_autoSet hσ h
      · have hcpy : authPwdCpy A draw (σ dest) (σ src) = authPwdAutoSet A draw (σ dest) := by
          rw [authPwdCpy, hnone]
          rfl
        rw [hcpy]
        exact settled_autoSet hσ h
    · next hsome =>
      rw [if_neg h]
      have hne : y ≠ [] := by
        rw [hy, RawPwd.of_buf_eq_none] at hsome
        exact hsome
      -- the copy has the length of another password
      have hapart : Apart σ dest y.length := by
        have hlen : (σ src).len = y.length := by rw [hy, RawPwd.of_len]
        intro j _ hmod
        by_cases hj : j = src
        · rw [hj, hlen]
        · rw [← hlen] at hmod ⊢
          exact hσ.apart src j hj hmod
      rw [authPwdCpy, hy, RawPwd.of_ne_nil hne]
      exact settled_set hσ hne hapart

/-- A step. -/
theorem PwdInv.step (hσ : PwdInv σ) {c : PwdCall} {σ' : Passwords}
    (h : c.op.Allowed c.alloc c.draw σ) (hrun : c.run σ = .ok σ') : PwdInv σ' := by
  rcases settled_result hσ h with ⟨x, hx, hapart⟩ | habort
  · rw [PwdCall.run, hx] at hrun
    obtain rfl : Function.update σ c.op.target (.of x) = σ' := Except.ok.inj hrun
    constructor
    · intro i
      by_cases hi : i = c.op.target
      · rw [hi, Function.update_self]
        exact ⟨x, rfl⟩
      · rw [Function.update_of_ne hi]
        exact hσ.represented i
    · intro i j hj
      by_cases hi : i = c.op.target
      · subst hi
        rw [Function.update_self, Function.update_of_ne hj, RawPwd.of_len]
        exact hapart j hj
      · rw [Function.update_of_ne hi]
        by_cases hjt : j = c.op.target
        · subst hjt
          rw [Function.update_self, RawPwd.of_len]
          intro hmod
          exact (hapart i hi hmod.symm).symm
        · rw [Function.update_of_ne hjt]
          exact hσ.apart i j hj
  · rw [PwdCall.run, habort] at hrun
    cases hrun

/-- The calls that are allowed, from null passwords. -/
def allowedPwdSystem : System Passwords PwdCall :=
  pwdSystem.restrict fun σ c => c.op.Allowed c.alloc c.draw σ

theorem pwdInv_of_reachable (h : allowedPwdSystem.Reachable σ) : PwdInv σ := by
  apply h.invariant (P := PwdInv)
  · intro σ hinit
    have hnull : ∀ i, (σ i).len = 0 := fun i => by rw [hinit i]; rfl
    refine ⟨fun i => ⟨[], hinit i⟩, fun i j _ _ => ?_⟩
    rw [hnull i, hnull j]
  · intro σ c σ' hσ hstep
    exact hσ.step hstep.2 hstep.1

/-- **Passwords stay represented**, along every run of allowed calls: a buffer goes with its length,
comparing tells passwords apart by their bytes, and the next call that is allowed reads and writes
in its buffers, unless a failed assertion stops the process. -/
theorem passwords_represented (h : allowedPwdSystem.Reachable σ) :
    (∀ i, (σ i).Represented) ∧
      (∀ i j, ∃ c, authPwdCmp (some (σ i)) (some (σ j)) = .ok c ∧
        (c = 0 ↔ (σ i).buf = (σ j).buf)) ∧
      ∀ c : PwdCall, c.op.Allowed c.alloc c.draw σ →
        (∃ σ', c.run σ = .ok σ') ∨ c.run σ = .error .abort := by
  have hσ := pwdInv_of_reachable h
  refine ⟨?_, ?_, ?_⟩
  · intro i
    obtain ⟨x, hx⟩ := hσ.represented i
    rw [hx]
    exact RawPwd.of_represented x
  · intro i j
    obtain ⟨x, hx⟩ := hσ.represented i
    obtain ⟨y, hy⟩ := hσ.represented j
    -- two passwords are different ones, or one and the same
    have happart : x.length % 2 ^ 32 = y.length % 2 ^ 32 → x.length = y.length := by
      by_cases hij : j = i
      · rw [hij, hx] at hy
        rw [RawPwd.of_injective hy]
        exact fun _ => rfl
      · have := hσ.apart i j hij
        rw [hx, hy, RawPwd.of_len, RawPwd.of_len] at this
        exact this
    obtain ⟨c, hc, hzero⟩ := authPwdCmp_of happart
    refine ⟨c, by rw [hx, hy, hc], hzero.trans ?_⟩
    rw [hx, hy]
    constructor
    · intro hxy
      rw [hxy]
    · intro hbuf
      -- the empty password has no buffer
      by_cases hxnil : x = []
      · rw [hxnil] at hbuf ⊢
        exact (RawPwd.of_buf_eq_none.mp hbuf.symm).symm
      · rw [RawPwd.of_ne_nil hxnil] at hbuf
        have hynil : y ≠ [] := by
          intro hynil
          rw [hynil] at hbuf
          cases hbuf
        rw [RawPwd.of_ne_nil hynil] at hbuf
        exact ofBytes_injective (Option.some.inj hbuf)
  · intro c hallowed
    rcases settled_result hσ hallowed with ⟨x, hx, -⟩ | habort
    · left
      rw [PwdCall.run, hx]
      exact ⟨_, rfl⟩
    · right
      rw [PwdCall.run, habort]
      rfl

/-! ### Two runs

A password that is set, and one that is released. -/

def sampleDraw : PwdDraw := ⟨ascii "8 random", by decide, by decide⟩

def nullPasswords : Passwords := fun _ => .null

/-- `auth_pwd_set` of a password of eight characters. -/
def setCall : PwdCall := ⟨Allocator.all, sampleDraw, .set (some 0) (some (ascii "password"))⟩

def onePassword : Passwords := Function.update nullPasswords (some 0) (.of (ascii "password"))

theorem setCall_run : setCall.run nullPasswords = .ok onePassword := by
  have hset := @authPwdSet_of Allocator.all sampleDraw (ascii "password") (by decide) []
  rw [if_pos (by decide), RawPwd.of_nil] at hset
  show (Function.update nullPasswords (some 0) ·) <$> authPwdSet Allocator.all sampleDraw .null
    (some (ofBytes (ascii "password"))) (ascii "password").length = _
  rw [hset]
  rfl

theorem onePassword_reachable : allowedPwdSystem.Reachable onePassword := by
  refine .step (.init fun _ => rfl) (e := setCall) ⟨setCall_run, ?_⟩
  have hallowed : Apart nullPasswords (some 0) (ascii "password").length := by
    intro j _ hmod
    have hdiffer : ¬ (ascii "password").length % 2 ^ 32 = RawPwd.null.len % 2 ^ 32 := by decide
    exact absurd hmod hdiffer
  exact hallowed

theorem onePassword_represented :
    (∀ i, (onePassword i).Represented) ∧
      (∀ i j, ∃ c, authPwdCmp (some (onePassword i)) (some (onePassword j)) = .ok c ∧
        (c = 0 ↔ (onePassword i).buf = (onePassword j).buf)) ∧
      ∀ c : PwdCall, c.op.Allowed c.alloc c.draw onePassword →
        (∃ σ', c.run onePassword = .ok σ') ∨ c.run onePassword = .error .abort :=
  passwords_represented onePassword_reachable

/-- A password that is released keeps its length. -/
theorem not_represented_released :
    ∃ σ, pwdSystem.Reachable σ ∧ ¬ (σ (some 0)).Represented := by
  refine ⟨Function.update onePassword (some 0) ⟨none, 8⟩, ?_, ?_⟩
  · refine .step (s := onePassword) (e := ⟨Allocator.all, sampleDraw, .release (some 0)⟩)
      (.of_restrict onePassword_reachable) ?_
    show (Function.update onePassword (some 0) ·) <$> authPwdRelease (onePassword (some 0)) = _
    rw [onePassword, Function.update_self, authPwdRelease_of]
    rfl
  · intro h
    rw [Function.update_self] at h
    exact absurd (h.null_iff.mp rfl) (by decide)

end RsmpGateway.Auth.Memory
