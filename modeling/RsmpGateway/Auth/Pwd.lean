import RsmpGateway.Auth.Store
import RsmpGateway.Crypt.Base64
import RsmpGateway.Crypt.Bcd

/-!
# Passwords

Setting, generating, switching and decoding passwords, as operations on an entry. Buffers play no
part here: a password is its bytes. What the functions do with their buffers, and what a failed
allocation leaves, is in `Auth/PwdMemory.lean` and `Auth/Atomic.lean`.

An entry has a current password and a new one, which is pending from the moment it is drawn or
received until the entry is switched to it or forgets it. Random numbers come from outside: an
operation that draws a password takes what it draws as an argument.
-/

namespace RsmpGateway.Auth

open RsmpGateway.Lib RsmpGateway.Crypt

/-- `AUTH_PWD_LEN_MIN` -/
def authPwdLenMin : Nat := 8

/-- `AUTH_PWD_LEN_MAX` -/
def authPwdLenMax : Nat := 256

/-! ## Texts of passwords

A text that starts with `$0$` is hexadecimal, or `*` for no password; one without such a start is
the password itself. A password of less than eight bytes is refused. -/

/-- `auth_pwd_str_is_hex` -/
def authPwdStrIsHex (str : Bytes) : Bool :=
  str.length % 2 = 0 && authPwdLenMin * 2 ≤ str.length && str.all isXDigit

/-- `auth_pwd_set`: no bytes draw a random password. -/
def authPwdSet (auto : AuthPwd) (buf : Bytes) : AuthPwd := if buf = [] then auto else buf

/-- `auth_pwd_from_str_set` -/
def authPwdFromStrSet (str : Bytes) : Option AuthPwd :=
  if str.length < authPwdLenMin then none else some str

/-- `auth_pwd_from_hex_set` -/
def authPwdFromHexSet (str : Bytes) : Option AuthPwd :=
  if authPwdStrIsHex str then bcdDecode str else none

/-- `auth_pwd_decode`: a text that starts with `$0$` is hexadecimal, or `*` for no
password; another encoding is refused; a text without encoding is the password. -/
def authPwdDecode (str : Bytes) : Option AuthPwd :=
  match str with
  | c0 :: c1 :: c2 :: rest =>
    if c0 = 0x24 ∧ c2 = 0x24 then
      if c1 = 0x30 then
        if rest.head? = some 0x2A then some [] else authPwdFromHexSet rest
      else none
    else if authPwdLenMin ≤ str.length then authPwdFromStrSet str
    else none
  | _ => none

/-- Passwords of 8 bytes or more are found again from their hexadecimal text, shorter
ones are not. -/
theorem authPwdFromHexSet_bcdEncode (pwd : AuthPwd) :
    authPwdFromHexSet (bcdEncode pwd) = if authPwdLenMin ≤ pwd.length then some pwd else none := by
  have hall : (bcdEncode pwd).all isXDigit = true := by
    rw [List.all_eq_true]
    intro c hc
    exact isXDigit_of_mem_bcdEncode hc
  rw [authPwdFromHexSet, authPwdStrIsHex, hall, length_bcdEncode]
  by_cases h : authPwdLenMin ≤ pwd.length
  · have hne : pwd ≠ [] := by
      rintro rfl
      exact absurd h (by decide)
    rw [if_pos h, if_pos (by simp; omega), bcdDecode_bcdEncode hne]
  · rw [if_neg h, if_neg (by simp; omega)]

theorem authPwdDecode_hex {pwd : AuthPwd} (h : pwd ≠ []) :
    authPwdDecode (ascii "$0$" ++ bcdEncode pwd) =
      if authPwdLenMin ≤ pwd.length then some pwd else none := by
  obtain ⟨b, bs, rfl⟩ := List.exists_cons_of_ne_nil h
  have hstar : c2a (b >>> 4) ≠ 0x2A := by
    intro hc
    have := isXDigit_c2a (b >>> 4)
    rw [hc] at this
    exact absurd this (by decide)
  rw [← authPwdFromHexSet_bcdEncode]
  show authPwdDecode (0x24 :: 0x30 :: 0x24 :: bcdEncode (b :: bs)) = _
  rw [authPwdDecode, if_pos ⟨rfl, rfl⟩, if_pos rfl, if_neg]
  simpa using hstar

/-! ## Operations on an entry

They return an entry, or an error, or are stopped by an assertion; an error may leave the entry
changed. -/

/-- How an operation of `auth.c` ends: a failed assertion stops the process. -/
inductive AuthRes (α : Type)
  | /-- `_rsmp_no_error_` -/ ok (a : α)
  | /-- `_rsmp_errcod_cyber_generic_` -/ err
  | abort
  deriving Repr, DecidableEq

/-- The characters drawn for a new password: `rand() % (127 - 32) + 32`. -/
def newPwdBytes (rand : Nat → Nat) (len : Nat) : AuthPwd :=
  (List.range len).map fun i => (rand i % (127 - 32) + 32).toUInt8

@[simp] theorem length_newPwdBytes (rand : Nat → Nat) (len : Nat) :
    (newPwdBytes rand len).length = len := by
  simp [newPwdBytes]

/-- `auth_gen_new_pwd` -/
def authGenNewPwd (rand : Nat → Nat) (auth : AuthEntry) (len : Nat) : AuthRes AuthEntry :=
  if len < authPwdLenMin ∨ authPwdLenMax < len then .abort
  else if auth.newPwdPending then .ok auth
  else .ok { auth with newPwd := newPwdBytes rand len }

/-- `auth_get_new_pwd_b64`: the entry and the new password in base64. Its success saves
the store, as does that of the next two operations. -/
def authGetNewPwdB64 (rand : Nat → Nat) (auth : AuthEntry) : AuthRes (AuthEntry × Bytes) :=
  if ¬ auth.active then .err
  else if auth.newPwdPending then .ok (auth, base64Encode auth.newPwd)
  else
    match authGenNewPwd rand auth auth.pwd.length with
    | .ok auth => .ok ({ auth with newPwdPending := true }, base64Encode auth.newPwd)
    | .err => .err
    | .abort => .abort

/-- `auth_set_pwd_b64` -/
def authSetPwdB64 (now : HoroDate) (auth : AuthEntry) (input : Bytes) : AuthRes AuthEntry :=
  if ¬ auth.active then .err
  else
    match base64Decode input with
    | none => .err
    | some pwd => .ok { auth with pwd := pwd, timestamp := now }

/-- `auth_forget_new_pwd` -/
def authForgetNewPwd (auth : AuthEntry) : AuthRes AuthEntry :=
  if ¬ auth.active then .err
  else .ok { auth with newPwd := [], newPwdPending := false }

/-- `auth_switch_to_new_pwd` -/
def authSwitchToNewPwd (now : HoroDate) (auth : AuthEntry) : AuthRes AuthEntry :=
  if ¬ auth.active then .err
  -- the log call for no new password stops the process: its text turns the prefix of the format
  -- into a conversion that writes through a pointer which was not given
  else if ¬ auth.newPwdPending then .abort
  else if auth.newPwd = [] then .abort
  else authForgetNewPwd { auth with pwd := auth.newPwd, timestamp := now }

/-- `auth_db_pwd_change`: `auto` is drawn when `buf` is empty. -/
def authDbPwdChange (now : HoroDate) (auto : AuthPwd) (auth : AuthEntry) (buf : Bytes) :
    AuthEntry :=
  { auth with pwd := authPwdSet auto buf, timestamp := now }

/-! ## What the operations do to the passwords

An operation that succeeds does one thing: it records a new password, or makes it the current
one. -/

/-- A new password is generated once: a pending one is given again. Either way the
current password stays and the entry is pending on the password handed out. -/
theorem authGetNewPwdB64_ok {rand : Nat → Nat} {auth auth' : AuthEntry} {out : Bytes}
    (h : authGetNewPwdB64 rand auth = .ok (auth', out)) :
    auth.active = true ∧ out = base64Encode auth'.newPwd ∧
      auth' = { auth with newPwd := auth'.newPwd, newPwdPending := true } ∧
      (auth.newPwdPending = true → auth'.newPwd = auth.newPwd) := by
  rw [authGetNewPwdB64] at h
  split at h
  · cases h
  · next hactive =>
    have hactive : auth.active = true := by simpa using hactive
    split at h
    · next hpending =>
      cases h
      refine ⟨hactive, rfl, ?_, fun _ => rfl⟩
      rw [← hpending]
    · next hpending =>
      rw [authGenNewPwd, if_neg hpending] at h
      split at h
      · next hgen =>
        split at hgen
        · cases hgen
        · cases hgen
          cases h
          exact ⟨hactive, rfl, rfl, fun hp => absurd hp hpending⟩
      · cases h
      · cases h

theorem authSetPwdB64_ok {now : HoroDate} {auth auth' : AuthEntry} {input : Bytes}
    (h : authSetPwdB64 now auth input = .ok auth') :
    auth.active = true ∧
      ∃ pwd, base64Decode input = some pwd ∧
        auth' = { auth with pwd := pwd, timestamp := now } := by
  rw [authSetPwdB64] at h
  split at h
  · cases h
  · next hactive =>
    split at h
    · cases h
    · next pwd hpwd =>
      cases h
      exact ⟨by simpa using hactive, pwd, hpwd, rfl⟩

/-- The switch makes the pending password the current one. -/
theorem authSwitchToNewPwd_ok {now : HoroDate} {auth auth' : AuthEntry}
    (h : authSwitchToNewPwd now auth = .ok auth') :
    auth.active = true ∧ auth.newPwdPending = true ∧ auth.newPwd ≠ [] ∧
      auth' = { auth with
        pwd := auth.newPwd, timestamp := now, newPwd := [], newPwdPending := false } := by
  rw [authSwitchToNewPwd] at h
  split at h
  · cases h
  · next hactive =>
    split at h
    · cases h
    · next hpending =>
      split at h
      · cases h
      · next hne =>
        rw [authForgetNewPwd, if_neg hactive] at h
        cases h
        exact ⟨by simpa using hactive, by simpa using hpending, hne, rfl⟩

end RsmpGateway.Auth
