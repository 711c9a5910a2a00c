import RsmpGateway.Auth.PwdMemory
import RsmpGateway.Crypt.Base64Canonical
import RsmpGateway.Crypt.Base64Memory

/-!
# Changes of passwords in memory

The operations of `auth.c` with the buffers they free and allocate, and the entry that each
leaves when it returns an error.

* `atomic_iff`: when an error leaves the entry as it was. A current password is lost by a switch
  that gets no memory, and a new one stays pending when its text gets none.
* `canonicalOnly_iff`: when a text that is accepted is the encoding of the password that it gives.
  The text of a password that is received is decoded, not checked.
* The operations that succeed do to the entry what those of `Auth/Secret.lean` do, which have no
  memory (`Refines`).
-/

namespace RsmpGateway.Auth.Memory

open RsmpGateway.Lib RsmpGateway.Crypt RsmpGateway.Crypt.Memory Block

/-! ## Operations

The order of the assignments matters: what is freed and what is set before an allocation is what
an error leaves behind. -/

/-- `auth_t`, with the database of its key. -/
structure RawAuth where
  dbId : Bytes
  active : Bool
  pwd : RawPwd
  timestamp : HoroDate
  newPwd : RawPwd
  newPwdPending : Bool
  deriving DecidableEq

/-- What a call returns: `_rsmp_no_error_` or `_rsmp_errcod_cyber_generic_`, the entry it leaves,
and the text that it gives. -/
structure Returned where
  noError : Bool
  auth : RawAuth
  out : Option Block
  deriving DecidableEq

/-- An error, with the entry as it is by then. -/
def Returned.failed (auth : RawAuth) : Returned := ⟨false, auth, none⟩

/-- No error, and no text. -/
def Returned.done (auth : RawAuth) : Returned := ⟨true, auth, none⟩

variable (A : Allocator) (rand : Nat → Nat) (now : HoroDate)

/-- `auth_gen_new_pwd` -/
def authGenNewPwd (auth : RawAuth) (len : Nat) : Run Returned :=
  if len < authPwdLenMin ∨ authPwdLenMax < len then .error .abort
  else if auth.newPwdPending then .ok (.done auth)
  else
    match A.calloc len 1 with
    | none => .ok (.failed { auth with newPwd := .null, newPwdPending := false })
    | some buf => do
      let buf ← buf.paste 0 (newPwdBytes rand len)
      pure (.done { auth with newPwd := ⟨some buf, len⟩ })

/-- The text of the new password in `auth_get_new_pwd_b64`. -/
def encodeNewPwd (auth : RawAuth) : Run Returned :=
  match base64Encode A (auth.newPwd.buf.getD []) auth.newPwd.len with
  | .ok out => .ok ⟨true, auth, some out⟩
  | .error .error => .ok (.failed auth)
  | .error stop => .error stop

/-- `auth_get_new_pwd_b64` -/
def authGetNewPwdB64 (auth : RawAuth) : Run Returned :=
  if ¬ auth.active then .ok (.failed auth)
  else if auth.dbId ≠ authToDbId then .error .abort
  else if auth.newPwdPending then encodeNewPwd A auth
  else do
    let r ← authGenNewPwd A rand auth auth.pwd.len
    if r.noError then encodeNewPwd A { r.auth with newPwdPending := true }
    else pure r

/-- `auth_set_pwd_b64` -/
def authSetPwdB64 (auth : RawAuth) (input : CString) : Run Returned :=
  if ¬ auth.active then .ok (.failed auth)
  else if auth.dbId ≠ authFromDbId then .error .abort
  else
    match base64Decode A input with
    | .ok (buf, len) => .ok (.done { auth with pwd := ⟨some buf, len⟩, timestamp := now })
    | .error .error => .ok (.failed auth)
    | .error stop => .error stop

/-- `auth_forget_new_pwd` -/
def authForgetNewPwd (auth : RawAuth) : Run Returned :=
  if ¬ auth.active then .ok (.failed auth)
  else if auth.dbId ≠ authToDbId then .error .abort
  else .ok (.done { auth with newPwd := .null, newPwdPending := false })

/-- `auth_switch_to_new_pwd`: the current password is freed first. -/
def authSwitchToNewPwd (auth : RawAuth) : Run Returned :=
  if ¬ auth.active then .ok (.failed auth)
  else if auth.dbId ≠ authToDbId then .error .abort
  -- the log call for no new password stops the process, as a failed assertion does
  else if ¬ auth.newPwdPending then .error .abort
  else
    match auth.newPwd.buf with
    | none => .error .abort
    | some new =>
      if auth.newPwd.len = 0 then .error .abort
      else
        match A.calloc auth.newPwd.len 1 with
        | none => .ok (.failed { auth with pwd := { auth.pwd with buf := none } })
        | some buf => do
          let bytes ← new.slice 0 auth.newPwd.len
          let buf ← buf.paste 0 bytes
          authForgetNewPwd { auth with pwd := ⟨some buf, auth.newPwd.len⟩, timestamp := now }

/-- A change of password. -/
inductive PwdChange
  | getNew
  | set (input : CString)
  | switch

def PwdChange.run (auth : RawAuth) : PwdChange → Run Returned
  | getNew => authGetNewPwdB64 A rand auth
  | set input => authSetPwdB64 A now auth input
  | switch => authSwitchToNewPwd A now auth

/-! ## Errors -/

/-- An error leaves the passwords, the flag and the timestamp as they were. -/
def Atomic (r : Run Returned) (auth : RawAuth) : Prop :=
  ∀ ret, r = .ok ret → ret.noError = false → ret.auth.pwd = auth.pwd ∧
    ret.auth.newPwd = auth.newPwd ∧ ret.auth.newPwdPending = auth.newPwdPending ∧
      ret.auth.timestamp = auth.timestamp

/-- A new password is drawn with its text, or there was none to lose; a switch has the memory of
the new password, or no current one to lose. -/
def PwdChange.Kept (A : Allocator) (auth : RawAuth) : PwdChange → Prop
  | getNew =>
    auth.active = true → auth.dbId = authToDbId → auth.newPwdPending = false →
      authPwdLenMin ≤ auth.pwd.len → auth.pwd.len ≤ authPwdLenMax →
        if A.grants auth.pwd.len then A.grants (encodedBytes auth.pwd.len) = true
        else auth.newPwd = .null
  | set _ => True
  | switch =>
    auth.active = true → auth.dbId = authToDbId → auth.newPwdPending = true →
      auth.newPwd.buf ≠ none → auth.newPwd.len ≠ 0 →
        A.grants auth.newPwd.len = true ∨ auth.pwd.buf = none

variable {A rand now} {auth : RawAuth}

/-! ### Calls that leave the entry

A call that returns its error before the first assignment is atomic, and so are one that succeeds
and one that does not return. The text of a new password is made after the password was drawn,
from the entry, which it leaves. -/

theorem Atomic.failed : Atomic (.ok (.failed auth)) auth := by
  intro ret hret _
  cases hret
  exact ⟨rfl, rfl, rfl, rfl⟩

theorem Atomic.stop (stop : Stop) : Atomic (.error stop) auth := nofun

theorem Atomic.of_noError {ret : Returned} (h : ret.noError = true) : Atomic (.ok ret) auth := by
  intro ret' hret herror
  cases hret
  rw [h] at herror
  cases herror

/-- The text of a new password leaves the entry. -/
theorem Atomic.encodeNewPwd (auth : RawAuth) : Atomic (encodeNewPwd A auth) auth := by
  rw [Memory.encodeNewPwd]
  split
  · exact .of_noError rfl
  · exact .failed
  · exact .stop _

theorem atomic_set (auth : RawAuth) (input : CString) :
    Atomic (authSetPwdB64 A now auth input) auth := by
  rw [authSetPwdB64]
  split
  · exact .failed
  · split
    · exact .stop _
    · split
      · exact .of_noError rfl
      · exact .failed
      · exact .stop _

theorem atomic_switch_iff : Atomic (authSwitchToNewPwd A now auth) auth ↔
    PwdChange.Kept A auth .switch := by
  rw [authSwitchToNewPwd]
  by_cases hactive : auth.active = true
  · rw [if_neg (not_not.mpr hactive)]
    by_cases hto : auth.dbId = authToDbId
    · rw [if_neg (not_not.mpr hto)]
      by_cases hpending : auth.newPwdPending = true
      · rw [if_neg (not_not.mpr hpending)]
        cases hnew : auth.newPwd.buf with
        | none =>
          apply iff_of_true (.stop _)
          intro _ _ _ hbuf
          exact absurd hnew hbuf
        | some new =>
          dsimp only
          by_cases hlen : auth.newPwd.len = 0
          · rw [if_pos hlen]
            exact iff_of_true (.stop _) fun _ _ _ _ hne => absurd hlen hne
          · rw [if_neg hlen, Allocator.calloc, Nat.mul_one]
            cases hA : A.grants auth.newPwd.len with
            | false =>
              -- the current password was freed
              simp only [Bool.false_eq_true, if_false]
              constructor
              · intro h _ _ _ _ _
                right
                exact (congrArg RawPwd.buf (h _ rfl rfl).1).symm
              · intro h ret hret _
                obtain rfl := Except.ok.inj hret
                have hnone : auth.pwd.buf = none :=
                  (h hactive hto hpending (hnew ▸ Option.some_ne_none new) hlen).resolve_left
                    (ne_true_of_eq_false hA)
                refine ⟨?_, rfl, rfl, rfl⟩
                show { auth.pwd with buf := none } = auth.pwd
                rw [← hnone]
            | true =>
              rw [if_pos rfl]
              refine iff_of_true ?_ fun _ _ _ _ _ => .inl hA
              intro ret hret herror
              obtain ⟨bytes, -, hret⟩ := Except.bind_eq_ok.mp hret
              obtain ⟨buf, -, hret⟩ := Except.bind_eq_ok.mp hret
              rw [authForgetNewPwd, if_neg (not_not.mpr hactive), if_neg (not_not.mpr hto)] at hret
              obtain rfl := Except.ok.inj hret
              cases herror
      · rw [if_pos hpending]
        exact iff_of_true (.stop _) fun _ _ h => absurd h hpending
    · rw [if_pos hto]
      exact iff_of_true (.stop _) fun _ h => absurd h hto
  · rw [if_pos hactive]
    exact iff_of_true .failed fun h => absurd h hactive

/-! ### A password that is drawn

`auth_get_new_pwd_b64` draws a password of the length of the current one and sets the flag before
it has the text. If there is no memory for the text, the error leaves the new password and the
flag; if there is none for the password, what the entry had of a new one is cleared. -/

theorem paste_newPwdBytes (rand : Nat → Nat) (n : Nat) :
    paste (List.replicate n (some 0)) 0 (newPwdBytes rand n) = .ok (ofBytes (newPwdBytes rand n)) :=
  paste_whole (by rw [List.length_replicate, length_newPwdBytes])

/-- The entry for which a new password was drawn. -/
def RawAuth.drawn (rand : Nat → Nat) (auth : RawAuth) : RawAuth :=
  { auth with newPwd := .of (newPwdBytes rand auth.pwd.len), newPwdPending := true }

/-- The text of a password takes memory only. -/
theorem encodeNewPwd_of {x : AuthPwd} (hx : x.length < 2 ^ 63) (hnew : auth.newPwd = .of x) :
    ∃ rest, encodeNewPwd A auth =
      if A.grants (encodedBytes x.length) then
        .ok ⟨true, auth, some (ofBytes (Crypt.base64Encode x) ++ some 0 :: rest)⟩
      else .ok (.failed auth) := by
  have hbuf : (RawPwd.of x).buf.getD [] = ofBytes x := by
    by_cases hnil : x = []
    · rw [hnil]
      rfl
    · rw [RawPwd.of_ne_nil hnil]
      rfl
  rw [encodeNewPwd, hnew, hbuf, RawPwd.of_len]
  cases hA : A.grants (encodedBytes x.length) with
  | false =>
    rw [base64Encode_refused hx hA]
    exact ⟨[], rfl⟩
  | true =>
    obtain ⟨rest, hgranted⟩ := base64Encode_granted hx hA
    rw [hgranted]
    exact ⟨rest, rfl⟩

theorem of_newPwdBytes (rand : Nat → Nat) {n : Nat} (hn : authPwdLenMin ≤ n) :
    RawPwd.of (newPwdBytes rand n) = ⟨some (ofBytes (newPwdBytes rand n)), n⟩ := by
  have hne : newPwdBytes rand n ≠ [] := by
    intro hnil
    have hlen := length_newPwdBytes rand n
    rw [hnil] at hlen
    rw [← hlen] at hn
    exact absurd hn (by decide)
  rw [RawPwd.of_ne_nil hne, length_newPwdBytes]

/-- Where no new password is pending, one is drawn of the length of the current one. -/
theorem authGetNewPwdB64_idle (hactive : auth.active = true) (hto : auth.dbId = authToDbId)
    (hidle : auth.newPwdPending = false) (hmin : authPwdLenMin ≤ auth.pwd.len)
    (hmax : auth.pwd.len ≤ authPwdLenMax) :
    authGetNewPwdB64 A rand auth =
      if A.grants auth.pwd.len then encodeNewPwd A (auth.drawn rand)
      else .ok (.failed { auth with newPwd := .null, newPwdPending := false }) := by
  rw [authGetNewPwdB64, if_neg (not_not.mpr hactive), if_neg (not_not.mpr hto),
    if_neg (ne_true_of_eq_false hidle), authGenNewPwd,
    if_neg (not_or.mpr ⟨hmin.not_gt, hmax.not_gt⟩), if_neg (ne_true_of_eq_false hidle),
    Allocator.calloc, Nat.mul_one]
  cases A.grants auth.pwd.len with
  | false => rfl
  | true =>
    simp only [if_true]
    rw [paste_newPwdBytes, RawAuth.drawn, of_newPwdBytes rand hmin]
    rfl

theorem atomic_getNew_iff : Atomic (authGetNewPwdB64 A rand auth) auth ↔
    PwdChange.Kept A auth .getNew := by
  by_cases hactive : auth.active = true
  · by_cases hto : auth.dbId = authToDbId
    · by_cases hpending : auth.newPwdPending = true
      · rw [authGetNewPwdB64, if_neg (not_not.mpr hactive), if_neg (not_not.mpr hto),
          if_pos hpending]
        apply iff_of_true (.encodeNewPwd auth)
        intro _ _ h
        rw [hpending] at h
        cases h
      · have hidle : auth.newPwdPending = false := eq_false_of_ne_true hpending
        by_cases hlen : auth.pwd.len < authPwdLenMin ∨ authPwdLenMax < auth.pwd.len
        · rw [authGetNewPwdB64, if_neg (not_not.mpr hactive), if_neg (not_not.mpr hto),
            if_neg hpending, authGenNewPwd, if_pos hlen]
          apply iff_of_true (.stop _)
          intro _ _ _ hmin hmax
          omega
        · have hmin := not_lt.mp (not_or.mp hlen).1
          have hmax := not_lt.mp (not_or.mp hlen).2
          rw [authGetNewPwdB64_idle hactive hto hidle hmin hmax]
          cases hA : A.grants auth.pwd.len with
          | false =>
            -- what the entry had of a new password was freed
            constructor
            · intro h _ _ _ _ _
              rw [if_neg (ne_true_of_eq_false hA)]
              exact (h _ rfl rfl).2.1.symm
            · intro h ret hret _
              have hnull := h hactive hto hidle hmin hmax
              rw [if_neg (ne_true_of_eq_false hA)] at hnull
              obtain rfl := Except.ok.inj hret
              exact ⟨rfl, hnull.symm, hidle.symm, rfl⟩
          | true =>
            have hdrawn : (newPwdBytes rand auth.pwd.len).length = auth.pwd.len :=
              length_newPwdBytes rand _
            have hmax' : auth.pwd.len ≤ 256 := hmax
            obtain ⟨rest, hout⟩ := @encodeNewPwd_of A (auth.drawn rand) _ (by omega) rfl
            rw [if_pos rfl, hout, hdrawn]
            cases hB : A.grants (encodedBytes auth.pwd.len) with
            | false =>
              -- the new password is already pending
              constructor
              · intro h
                have hflag : true = auth.newPwdPending := (h _ rfl rfl).2.2.1
                rw [hidle] at hflag
                cases hflag
              · intro h
                have hkept := h hactive hto hidle hmin hmax
                rw [if_pos hA, hB] at hkept
                cases hkept
            | true =>
              apply iff_of_true (.of_noError rfl)
              intro _ _ _ _ _
              rw [if_pos hA]
              exact hB
    · rw [authGetNewPwdB64, if_neg (not_not.mpr hactive), if_pos hto]
      exact iff_of_true (.stop _) fun _ h => absurd h hto
  · rw [authGetNewPwdB64, if_pos hactive]
    exact iff_of_true .failed fun h => absurd h hactive

/-- **When a change that fails changes nothing.** -/
theorem atomic_iff (A : Allocator) (rand : Nat → Nat) (now : HoroDate) (auth : RawAuth)
    (change : PwdChange) : Atomic (change.run A rand now auth) auth ↔ change.Kept A auth := by
  cases change with
  | getNew => exact atomic_getNew_iff
  | set input => exact iff_of_true (atomic_set auth input) trivial
  | switch => exact atomic_switch_iff

/-! ### A switch without memory

The smallest entry on which an error loses something. -/

/-- A new password that waits to be switched to. -/
def pendingAuth : RawAuth where
  dbId := authToDbId
  active := true
  pwd := .of (ascii "password")
  timestamp := ⟨0, 0⟩
  newPwd := .of (ascii "new word")
  newPwdPending := true

/-- A switch without memory loses the current password, and keeps its length. -/
theorem not_atomic_switch :
    ¬ Atomic (PwdChange.switch.run ⟨fun _ => false, nofun⟩ (fun _ => 0) ⟨1, 0⟩ pendingAuth)
      pendingAuth := by
  intro h
  have hbuf := congrArg RawPwd.buf (h _ rfl rfl).1
  cases hbuf

/-! ## The operations on represented passwords

With memory the operations succeed or fail as those without. The allocations are named by their
sizes. -/

/-- An entry of a database, with its passwords in memory. -/
def RawAuth.of (dbId : Bytes) (auth : AuthEntry) : RawAuth where
  dbId := dbId
  active := auth.active
  pwd := .of auth.pwd
  timestamp := auth.timestamp
  newPwd := .of auth.newPwd
  newPwdPending := auth.newPwdPending

/-- A call does to an entry in memory what an operation does to the entry. -/
def Refines (dbId : Bytes) (auth : AuthEntry) (r : Run Returned) : AuthRes AuthEntry → Prop
  | .ok auth' => ∃ out, r = .ok ⟨true, .of dbId auth', out⟩
  | .err => r = .ok (.failed (.of dbId auth))
  | .abort => r = .error .abort

variable {auth : AuthEntry}

/-- The text of the new password, or an error. -/
theorem authGetNewPwdB64_refines (hA : ∀ n < 2 ^ 36, A.grants n = true)
    (hnew : auth.newPwd.length < 2 ^ 32) :
    match Auth.authGetNewPwdB64 rand auth with
    | .ok (auth', text) => ∃ rest, authGetNewPwdB64 A rand (.of authToDbId auth) =
        .ok ⟨true, .of authToDbId auth', some (ofBytes text ++ some 0 :: rest)⟩
    | .err => authGetNewPwdB64 A rand (.of authToDbId auth) = .ok (.failed (.of authToDbId auth))
    | .abort => authGetNewPwdB64 A rand (.of authToDbId auth) = .error .abort := by
  have hto : (RawAuth.of authToDbId auth).dbId = authToDbId := rfl
  have hencoded : ∀ n < 2 ^ 32, A.grants (encodedBytes n) = true := by
    intro n hn
    apply hA
    rw [encodedBytes]
    omega
  rw [Auth.authGetNewPwdB64]
  by_cases hactive : auth.active = true
  · have hraw : (RawAuth.of authToDbId auth).active = true := hactive
    rw [if_neg (not_not.mpr hactive)]
    by_cases hpending : auth.newPwdPending = true
    · -- the pending password is handed out again
      have hrawPending : (RawAuth.of authToDbId auth).newPwdPending = true := hpending
      obtain ⟨rest, hout⟩ := @encodeNewPwd_of A (.of authToDbId auth) auth.newPwd (by omega) rfl
      rw [if_pos hpending, authGetNewPwdB64, if_neg (not_not.mpr hraw), if_neg (not_not.mpr hto),
        if_pos hrawPending, hout, if_pos (hencoded _ hnew)]
      exact ⟨rest, rfl⟩
    · -- another one is drawn, of the length of the current one
      have hrawPending : ¬ (RawAuth.of authToDbId auth).newPwdPending = true := hpending
      have hpwd : (RawAuth.of authToDbId auth).pwd.len = auth.pwd.length := RawPwd.of_len _
      rw [if_neg hpending, Auth.authGenNewPwd]
      by_cases hlen : auth.pwd.length < authPwdLenMin ∨ authPwdLenMax < auth.pwd.length
      · rw [if_pos hlen, authGetNewPwdB64, if_neg (not_not.mpr hraw), if_neg (not_not.mpr hto),
          if_neg hrawPending, authGenNewPwd, hpwd, if_pos hlen]
        rfl
      · have hmin := not_lt.mp (not_or.mp hlen).1
        have hmax := not_lt.mp (not_or.mp hlen).2
        have hmax' : auth.pwd.length ≤ 256 := hmax
        have hdrawn := length_newPwdBytes rand auth.pwd.length
        obtain ⟨rest, hout⟩ := @encodeNewPwd_of A ((RawAuth.of authToDbId auth).drawn rand)
          (newPwdBytes rand auth.pwd.length) (by omega) (by rw [RawAuth.drawn, hpwd])
        rw [if_neg hlen, if_neg hpending,
          authGetNewPwdB64_idle hraw hto (eq_false_of_ne_true hrawPending) (hpwd ▸ hmin)
            (hpwd ▸ hmax), hpwd, if_pos (hA _ (by omega)), hout, hdrawn,
          if_pos (hencoded _ (by omega)), RawAuth.drawn, hpwd]
        exact ⟨rest, rfl⟩
  · have hraw : ¬ (RawAuth.of authToDbId auth).active = true := hactive
    rw [if_pos hactive, authGetNewPwdB64, if_pos hraw]

theorem authSetPwdB64_refines {input : CString} (hinput : input.val ≠ [])
    (hA : ∀ n ≤ input.strlen, A.grants n = true) :
    Refines authFromDbId auth (authSetPwdB64 A now (.of authFromDbId auth) input)
      (Auth.authSetPwdB64 now auth input.val) := by
  have hfrom : (RawAuth.of authFromDbId auth).dbId = authFromDbId := rfl
  rw [authSetPwdB64, Auth.authSetPwdB64]
  by_cases hactive : auth.active = true
  · have hraw : (RawAuth.of authFromDbId auth).active = true := hactive
    rw [if_neg (not_not.mpr hactive), if_neg (not_not.mpr hraw), if_neg (not_not.mpr hfrom)]
    cases h : Crypt.base64Decode input.val with
    | none =>
      rw [base64Decode_of_none h]
      exact rfl
    | some x =>
      obtain ⟨hmod, hlen⟩ := length_of_base64Decode h
      have hne : x ≠ [] := by
        intro hnil
        rw [hnil, List.length_nil] at hlen
        exact absurd hlen (decodedSize_pos hinput hmod).ne
      have hmemory : A.grants x.length = true := hA _ (hlen ▸ decodedSize_le input)
      rw [base64Decode_of_some hinput h, if_pos hmemory]
      dsimp only
      rw [← RawPwd.of_ne_nil hne]
      exact ⟨none, rfl⟩
  · have hraw : ¬ (RawAuth.of authFromDbId auth).active = true := hactive
    rw [if_pos hactive, if_pos hraw]
    exact rfl

theorem authSwitchToNewPwd_refines (hA : A.grants auth.newPwd.length = true) :
    Refines authToDbId auth (authSwitchToNewPwd A now (.of authToDbId auth))
      (Auth.authSwitchToNewPwd now auth) := by
  have hto : (RawAuth.of authToDbId auth).dbId = authToDbId := rfl
  rw [authSwitchToNewPwd, Auth.authSwitchToNewPwd]
  by_cases hactive : auth.active = true
  · have hraw : (RawAuth.of authToDbId auth).active = true := hactive
    rw [if_neg (not_not.mpr hactive), if_neg (not_not.mpr hraw), if_neg (not_not.mpr hto)]
    by_cases hpending : auth.newPwdPending = true
    · have hrawPending : (RawAuth.of authToDbId auth).newPwdPending = true := hpending
      rw [if_neg (not_not.mpr hpending), if_neg (not_not.mpr hrawPending)]
      by_cases hnew : auth.newPwd = []
      · rw [if_pos hnew, RawAuth.of, hnew]
        exact rfl
      · have hlen : auth.newPwd.length ≠ 0 := fun h => hnew (List.length_eq_zero_iff.mp h)
        have hrawNew : (RawAuth.of authToDbId auth).newPwd =
            ⟨some (ofBytes auth.newPwd), auth.newPwd.length⟩ := RawPwd.of_ne_nil hnew
        rw [if_neg hnew, hrawNew]
        dsimp only
        rw [if_neg hlen, Allocator.calloc, Nat.mul_one, if_pos hA]
        dsimp only
        rw [slice_ofBytes (by omega), Run.ok_bind, List.drop_zero, List.take_length,
          paste_whole List.length_replicate, Run.ok_bind, authForgetNewPwd,
          if_neg (not_not.mpr hraw), if_neg (not_not.mpr hto), Auth.authForgetNewPwd,
          if_neg (not_not.mpr hactive), ← RawPwd.of_ne_nil hnew]
        exact ⟨none, rfl⟩
    · have hrawPending : ¬ (RawAuth.of authToDbId auth).newPwdPending = true := hpending
      rw [if_pos hpending, if_pos hrawPending]
      exact rfl
  · have hraw : ¬ (RawAuth.of authToDbId auth).active = true := hactive
    rw [if_pos hactive, if_pos hraw]
    exact rfl

/-! ## Texts that are accepted

The decoder of `Crypt/Base64Memory.lean` takes characters out of the alphabet for zeros, and does
not look at the bits that the padding leaves. -/

/-- Exactly the encodings are decoded, to the bytes that they encode, without a character read out
of the text; and what becomes the password is what the text encodes. -/
structure CanonicalOnly (A : Allocator) (s : CString) : Prop where
  accepts_iff : (∃ r, Memory.base64Decode A s = .ok r) ↔ ∃ x, Crypt.base64Encode x = s.val
  encodes : ∀ {buf len}, Memory.base64Decode A s = .ok (buf, len) →
    ∃ x, buf = ofBytes x ∧ len = x.length ∧ Crypt.base64Encode x = s.val
  reads : Memory.base64Decode A s ≠ .error .read
  installed : ∀ {now auth ret}, authSetPwdB64 A now auth s = .ok ret → ret.auth.pwd ≠ auth.pwd →
    ∃ x, ret.auth.pwd = ⟨some (ofBytes x), x.length⟩ ∧ Crypt.base64Encode x = s.val

/-- A password changes to what the text was decoded to. -/
theorem authSetPwdB64_changed {auth : RawAuth} {input : CString} {ret : Returned}
    (h : authSetPwdB64 A now auth input = .ok ret) (hchanged : ret.auth.pwd ≠ auth.pwd) :
    ∃ buf len, Memory.base64Decode A input = .ok (buf, len) ∧
      ret.auth.pwd = ⟨some buf, len⟩ := by
  rw [authSetPwdB64] at h
  split at h
  · cases h
    exact absurd rfl hchanged
  · split at h
    · cases h
    · split at h
      · next buf len hdecoded =>
        cases h
        exact ⟨buf, len, hdecoded, rfl⟩
      · cases h
        exact absurd rfl hchanged
      · cases h

/-- **When only encodings are accepted**: a text is not empty, and where its length would let it
through, it follows the grammar exactly when there is memory for its bytes. -/
theorem canonicalOnly_iff (A : Allocator) (s : CString) : CanonicalOnly A s ↔
    s.val ≠ [] ∧ (s.strlen % 4 = 0 → (Canonical s.val ↔ A.grants (decodedSize s) = true)) := by
  constructor
  · intro h
    have hne : s.val ≠ [] := fun hnil => h.reads (base64Decode_empty hnil)
    have haccepts := h.accepts_iff
    rw [base64Decode_ok_iff, ← canonical_iff] at haccepts
    refine ⟨hne, fun hmod => ?_⟩
    constructor
    · intro hcanonical
      exact (haccepts.mpr hcanonical).2.2
    · intro hA
      exact haccepts.mp ⟨hne, hmod, hA⟩
  · rintro ⟨hne, hgranted⟩
    -- what is decoded of a canonical text is what it encodes
    have hencodes : ∀ {buf len}, Memory.base64Decode A s = .ok (buf, len) →
        ∃ x, buf = ofBytes x ∧ len = x.length ∧ Crypt.base64Encode x = s.val := by
      intro buf len hdecoded
      obtain ⟨-, hmod, hA⟩ := base64Decode_ok_iff.mp ⟨_, hdecoded⟩
      cases h : Crypt.base64Decode s.val with
      | none =>
        rw [base64Decode_of_none h] at hdecoded
        cases hdecoded
      | some x =>
        rw [base64Decode_of_some hne h, (length_of_base64Decode h).2, if_pos hA] at hdecoded
        cases hdecoded
        exact ⟨x, rfl, (length_of_base64Decode h).2.symm,
          ((hgranted hmod).mpr hA).encode_decode h⟩
    constructor
    · rw [base64Decode_ok_iff, ← canonical_iff]
      constructor
      · rintro ⟨-, hmod, hA⟩
        exact (hgranted hmod).mpr hA
      · intro hcanonical
        exact ⟨hne, hcanonical.length_mod, (hgranted hcanonical.length_mod).mp hcanonical⟩
    · exact hencodes
    · rcases base64Decode_cases A s with ⟨r, h⟩ | h | ⟨hnil, -⟩
      · rw [h]
        exact nofun
      · rw [h]
        exact nofun
      · exact absurd hnil hne
    · intro now auth ret hret hchanged
      obtain ⟨buf, len, hdecoded, hpwd⟩ := authSetPwdB64_changed hret hchanged
      obtain ⟨x, rfl, rfl, hx⟩ := hencodes hdecoded
      exact ⟨x, hpwd, hx⟩

/-- Four characters out of the alphabet are a password of three zeros. -/
theorem not_canonicalOnly_marks :
    ¬ CanonicalOnly Allocator.all ⟨ascii "????", by decide⟩ := by
  intro h
  have hdecoded : ∃ r, Memory.base64Decode Allocator.all ⟨ascii "????", by decide⟩ = .ok r :=
    base64Decode_ok_iff.mpr ⟨by decide, by decide, by decide⟩
  obtain ⟨x, hx⟩ := h.accepts_iff.mp hdecoded
  have hcanonical := canonical_base64Encode x
  rw [hx] at hcanonical
  have hmark : (0x3F : UInt8) ∉ base64Chars := by decide
  cases hcanonical with
  | group h1 => exact hmark h1

end RsmpGateway.Auth.Memory
