import RsmpGateway.Auth.RoundTrip
import RsmpGateway.Crypt.Cipher

/-!
# The cache of secrets

The key of a message is derived from a passphrase made of the ids, the login and the password of
an entry. `coder_secret_get` caches it on the entry, under the name of the cipher of the
connection. A password that changes in an exchange purges the secret of one cipher, that of the
connection at hand; a password changed otherwise purges nothing.

So a secret may be left that is not of the current password: that of another cipher, or that of a
password which was replaced outside an exchange. It is found again by the next connection with
this cipher. `secrets_coherent` settles which runs keep the cache coherent with the passwords:
the condition is on each step, and a run that breaks it is given at the end.
-/

namespace RsmpGateway.Auth

open RsmpGateway.Lib RsmpGateway.Crypt

/-- `coder_enum_action_t` -/
inductive CoderAction
  | decrypt
  | encrypt
  deriving Repr, DecidableEq

/-- `_coder_iterations` -/
def coderIterations : Nat := 1000

/-- `_getPassphraseForPwd`: the identity of the sender comes first. -/
def getPassphraseForPwd (sId : Bytes) (key : AuthKey) (action : CoderAction) (pwd : AuthPwd) :
    Bytes :=
  match action with
  | .decrypt => key.sId ++ key.login ++ pwd ++ sId
  | .encrypt => sId ++ key.login ++ pwd ++ key.sId

/-- The action that the entries of a database are for. -/
def actionOf (key : AuthKey) : CoderAction :=
  if key.dbId = authFromDbId then .decrypt else .encrypt

/-- The key that an entry gives for a cipher. -/
def derivedSecret (pbkdf2 : Pbkdf2) (sIdLocal : Bytes) (cipher : Cipher) (key : AuthKey)
    (action : CoderAction) (pwd : AuthPwd) : Option Bytes :=
  cipher.keyGen pbkdf2 (getPassphraseForPwd sIdLocal key action pwd) coderIterations

namespace AuthItem

/-- `auth_secret_get` -/
def authSecretGet (it : AuthItem) (ref : Bytes) : Option Bytes :=
  (it.secrets.find ref).map AuthSecret.secret

/-- `__auth_secret_add_or_update` -/
def authSecretAddOrUpdate (it : AuthItem) (ref secret : Bytes) : AuthItem :=
  { it with
    secrets := it.secrets.upsert ref ⟨ref, secret⟩ (fun s => { s with secret := secret }) rfl
      fun _ => rfl }

end AuthItem

namespace AuthDbs

/-- `auth_secret_delete_by_key` -/
def authSecretDeleteByKey (s : AuthDbs) (key : AuthKey) (ref : Bytes) : AuthDbs :=
  s.modify key (fun it => { it with secrets := it.secrets.remove ref }) fun _ => rfl

/-- `coder_secret_get` on the entry under `key`: the secret, and the store with it
cached. -/
def coderSecretGet (pbkdf2 : Pbkdf2) (sIdLocal : Bytes) (cipher : Cipher) (s : AuthDbs)
    (key : AuthKey) (action : CoderAction) : Option Bytes × AuthDbs :=
  match s.authFindByKey key with
  | none => (none, s)
  | some it =>
    match it.authSecretGet cipher.lib with
    | some secret => (some secret, s)
    | none =>
      match derivedSecret pbkdf2 sIdLocal cipher key action it.auth.pwd with
      | none => (none, s)
      | some secret =>
        (some secret,
          s.modify key (fun it => it.authSecretAddOrUpdate cipher.lib secret) fun _ => rfl)

end AuthDbs

/-! ## The process

What changes passwords and what caches secrets, in any order, with any cipher. -/

/-- What the tasks of the connections do to the store, each with the cipher of its own
connection, and what the rest of the process does to it. -/
inductive SecretOp
  | /-- a message is encoded or decoded with an entry -/
    secretGet (cipher : Cipher) (key : AuthKey)
  | /-- `ChangePwdResponse` or `Pong` is accepted -/
    passwordSwitch (cipher : Cipher) (now : HoroDate) (key : AuthKey)
  | /-- `ChangePwdRequest` is accepted -/
    passwordSet (cipher : Cipher) (now : HoroDate) (key : AuthKey) (pwd : Bytes)
  | /-- outside of the exchanges -/
    store (op : StoreOp)

variable (X : PersistExt) (pbkdf2 : Pbkdf2) (sIdLocal : Bytes)

/-- An operation of `auth.c` on an entry and, when it succeeds, the purge of the secret
of one cipher. -/
def onEntryPurge (s : AuthDbs) (key : AuthKey) (cipher : Cipher)
    (op : AuthEntry → AuthRes AuthEntry) : Option AuthDbs :=
  match s.authFindByKey key with
  | none => some s
  | some it =>
    match op it.auth with
    | .ok auth => some ((s.modifyAuth key fun _ => auth).authSecretDeleteByKey key cipher.lib)
    | .err => some s
    | .abort => none

def applySecretOp (s : AuthDbs) : SecretOp → Option AuthDbs
  | .secretGet cipher key =>
    some (s.coderSecretGet pbkdf2 sIdLocal cipher key (actionOf key)).2
  | .passwordSwitch cipher now key => onEntryPurge s key cipher (authSwitchToNewPwd now)
  | .passwordSet cipher now key pwd =>
    onEntryPurge s key cipher fun auth => authSetPwdB64 now auth pwd
  | .store op => applyOp X s op

/-- The runs of the process, from an empty store. -/
def secretSystem : System AuthDbs SecretOp where
  init s := s = .empty
  step s op s' := applySecretOp X pbkdf2 sIdLocal s op = some s'

/-- **Coherence.** A cached secret is the key derived from the current password. -/
structure Coherent (s : AuthDbs) : Prop where
  derived : ∀ {key it}, s.authFindByKey key = some it → ∀ {cipher : Cipher} {secret},
    it.authSecretGet cipher.lib = some secret →
      derivedSecret pbkdf2 sIdLocal cipher key (actionOf key) it.auth.pwd = some secret

/-- The only secret cached on the entry is for `cipher`. -/
def CachesOnly (it : AuthItem) (cipher : Cipher) : Prop :=
  ∀ cipher' secret, it.authSecretGet cipher'.lib = some secret → cipher' = cipher

/-- No secret is cached on the entry. -/
def CachesNone (it : AuthItem) : Prop := ∀ cipher : Cipher, it.authSecretGet cipher.lib = none

/-! ### What a purge must cover

The connection purges the secret of its own cipher after a change of password. The calls of the
store itself (a change by key, the load of a file) purge nothing. A change to the same password
needs no purge. -/

/-- The condition on a step: when it changes the password of an entry, the entry caches
no secret but the one that the step purges. -/
def PurgeCovers (s : AuthDbs) : SecretOp → Prop
  | .passwordSwitch cipher _ key =>
    ∀ it, s.authFindByKey key = some it → it.auth.active → it.auth.newPwdPending →
      it.auth.newPwd ≠ it.auth.pwd → CachesOnly it cipher
  | .passwordSet cipher _ key input =>
    ∀ it, s.authFindByKey key = some it → it.auth.active →
      ∀ pwd, base64Decode input = some pwd → pwd ≠ it.auth.pwd → CachesOnly it cipher
  | .store (.authDbPwdChange _ auto key buf) =>
    ∀ it, s.authFindByKey key = some it → authPwdSet auto buf ≠ it.auth.pwd → CachesNone it
  | .store (.authSetPwdB64 _ key input) =>
    ∀ it, s.authFindByKey key = some it → it.auth.active →
      ∀ pwd, base64Decode input = some pwd → pwd ≠ it.auth.pwd → CachesNone it
  | .store (.authSwitchToNewPwd _ key) =>
    ∀ it, s.authFindByKey key = some it → it.auth.active → it.auth.newPwdPending →
      it.auth.newPwd ≠ it.auth.pwd → CachesNone it
  | .store (.authUnserializeFromFile _ _ _ _ file) =>
    ∀ line ∈ strtok (· == 0x0A) (cstr file), ∀ it, s.authFindByKey (lineKey X line) = some it →
      authPwdDecode ((X.decodeparam line).getD 4 []) ≠ some it.auth.pwd → CachesNone it
  | _ => True

/-! ## One step

A step caches a secret of the current password, purges one, or changes a password. -/

variable {X pbkdf2 sIdLocal}

theorem Coherent.modify {s : AuthDbs} (hs : Coherent pbkdf2 sIdLocal s) {key : AuthKey}
    {f : AuthItem → AuthItem} {hf : ∀ it, (f it).login = it.login}
    (h : ∀ it, s.authFindByKey key = some it → ∀ cipher secret,
      (f it).authSecretGet cipher.lib = some secret →
        derivedSecret pbkdf2 sIdLocal cipher key (actionOf key) (f it).auth.pwd = some secret) :
    Coherent pbkdf2 sIdLocal (s.modify key f hf) := by
  constructor
  intro key' it' hit' cipher secret
  rw [AuthDbs.authFindByKey_modify] at hit'
  split at hit'
  · next hk =>
    subst hk
    obtain ⟨it, hit, rfl⟩ := Option.map_eq_some_iff.mp hit'
    exact h it hit cipher secret
  · exact hs.derived hit'

/-- An entry may change as long as its password does not, or it caches nothing. -/
theorem Coherent.modifyAuth {s : AuthDbs} (hs : Coherent pbkdf2 sIdLocal s) {key : AuthKey}
    {f : AuthEntry → AuthEntry}
    (h : ∀ it, s.authFindByKey key = some it → (f it.auth).pwd ≠ it.auth.pwd → CachesNone it) :
    Coherent pbkdf2 sIdLocal (s.modifyAuth key f) := by
  refine Coherent.modify hs fun it hit cipher secret hsecret => ?_
  by_cases hpwd : (f it.auth).pwd = it.auth.pwd
  · have := hs.derived hit hsecret
    simpa only [hpwd] using this
  · have hnone : it.authSecretGet cipher.lib = none := h it hit hpwd cipher
    have hsome : it.authSecretGet cipher.lib = some secret := hsecret
    rw [hnone] at hsome
    cases hsome

theorem authSecretGet_addOrUpdate (it : AuthItem) (ref secret ref' : Bytes) :
    (it.authSecretAddOrUpdate ref secret).authSecretGet ref' =
      if ref' = ref then some secret else it.authSecretGet ref' := by
  simp only [AuthItem.authSecretGet, AuthItem.authSecretAddOrUpdate, KeyedList.find_upsert]
  split <;> rfl

/-- The cache is filled from the current password. -/
theorem Coherent.coderSecretGet {s : AuthDbs} (hs : Coherent pbkdf2 sIdLocal s) (cipher : Cipher)
    (key : AuthKey) :
    Coherent pbkdf2 sIdLocal (s.coderSecretGet pbkdf2 sIdLocal cipher key (actionOf key)).2 := by
  unfold AuthDbs.coderSecretGet
  split
  · exact hs
  · next it hit =>
    split
    · exact hs
    · split
      · exact hs
      · next secret hderived =>
        refine Coherent.modify hs fun it' hit' cipher' secret' hsecret => ?_
        rw [hit] at hit'
        cases hit'
        rw [authSecretGet_addOrUpdate] at hsecret
        split at hsecret
        · next hlib =>
          cases Cipher.lib_injective hlib
          cases hsecret
          exact hderived
        · exact hs.derived hit hsecret

/-! ### Changes of passwords

A change of password and the purge of one secret are one step of the process, so that the entry is
looked at before the change and after the purge: it caches nothing then, or only what it is
allowed to. -/

/-- A password operation followed by the purge of one cipher. -/
theorem Coherent.onEntryPurge {s s' : AuthDbs} (hs : Coherent pbkdf2 sIdLocal s) {key : AuthKey}
    {cipher : Cipher} {op : AuthEntry → AuthRes AuthEntry}
    (hop : ∀ it auth, s.authFindByKey key = some it → op it.auth = .ok auth →
      auth.pwd ≠ it.auth.pwd → CachesOnly it cipher)
    (h : onEntryPurge s key cipher op = some s') : Coherent pbkdf2 sIdLocal s' := by
  unfold RsmpGateway.Auth.onEntryPurge at h
  split at h
  · cases h; exact hs
  · next it hit =>
    split at h
    · next auth hauth =>
      cases h
      constructor
      intro key' it' hit' cipher' secret hsecret
      rw [AuthDbs.authSecretDeleteByKey, AuthDbs.authFindByKey_modify] at hit'
      simp only [AuthDbs.authFindByKey_modifyAuth, if_true] at hit'
      split at hit'
      · next hk =>
        subst hk
        rw [hit] at hit'
        cases hit'
        simp only [AuthItem.authSecretGet, KeyedList.find_remove] at hsecret
        split at hsecret
        · cases hsecret
        · next hne =>
          by_cases hpwd : auth.pwd = it.auth.pwd
          · rw [hpwd]
            exact hs.derived hit hsecret
          · -- the other ciphers have no secret on an entry whose password changes
            have := hop it auth hit hauth hpwd cipher' secret hsecret
            exact absurd (congrArg Cipher.lib this) hne
      · exact hs.derived hit' hsecret
    · cases h; exact hs
    · cases h

theorem Coherent.onEntry {s s' : AuthDbs} (hs : Coherent pbkdf2 sIdLocal s) {key : AuthKey}
    {op : AuthEntry → AuthRes AuthEntry}
    (hop : ∀ it auth, s.authFindByKey key = some it → op it.auth = .ok auth →
      auth.pwd ≠ it.auth.pwd → CachesNone it)
    (h : onEntry s key op = some s') : Coherent pbkdf2 sIdLocal s' := by
  unfold RsmpGateway.Auth.onEntry at h
  split at h
  · cases h; exact hs
  · next it hit =>
    split at h
    · next auth hauth =>
      cases h
      refine hs.modifyAuth fun it' hit' hpwd => ?_
      rw [hit] at hit'
      cases hit'
      exact hop it auth hit hauth hpwd
    · cases h; exact hs
    · cases h

theorem Coherent.authNew {s : AuthDbs} (hs : Coherent pbkdf2 sIdLocal s) (now : HoroDate)
    (key : AuthKey) (pwd : AuthPwd) (ts : Option HoroDate) (active : Bool) (newPwd : AuthPwd)
    (pending : Bool) :
    Coherent pbkdf2 sIdLocal (s.authNew now key pwd ts active newPwd pending) := by
  constructor
  intro key' it' hit' cipher secret hsecret
  rw [AuthDbs.authFindByKey_authNew] at hit'
  split at hit'
  · next hk =>
    subst hk
    cases hf : s.authFindByKey key' with
    | none =>
      rw [hf] at hit'
      cases hit'
      cases hsecret
    | some it =>
      rw [hf] at hit'
      cases hit'
      exact hs.derived hf hsecret
  · exact hs.derived hit' hsecret

/-- The lines leave the secrets of an entry alone; those that name one which caches a
secret carry its password. -/
theorem Coherent.loadLines {now : HoroDate} {draws : Nat → AuthPwd × AuthPwd}
    {checkDb : Bytes → Bool} {ls : List Bytes} :
    ∀ {n : Nat} {s : AuthDbs}, Coherent pbkdf2 sIdLocal s →
      (∀ l ∈ ls, ∀ it, s.authFindByKey (lineKey X l) = some it →
        authPwdDecode ((X.decodeparam l).getD 4 []) ≠ some it.auth.pwd → CachesNone it) →
      Coherent pbkdf2 sIdLocal (loadLines X now draws checkDb n s ls).2 := by
  induction ls with
  | nil => intro n s hs _; exact hs
  | cons l ls ih =>
    intro n s hs hls
    rw [RsmpGateway.Auth.loadLines]
    split
    · exact ih hs fun l' hl' => hls l' (by simp [hl'])
    · next s' hline =>
      obtain ⟨hset, pwd, ts, hpwd, rfl⟩ := unserializeLine_some hline
      have hfind := AuthDbs.authFindByKey_authSearchByKey now s hset
      have hl := hls l (by simp)
      -- an entry that caches a secret keeps its password through the line
      have hkeep : ∀ it, s.authFindByKey (lineKey X l) = some it → ¬ CachesNone it →
          pwdCopy (draws n).1 it.auth.pwd pwd = it.auth.pwd := by
        intro it hit hcaches
        have hsame : authPwdDecode ((X.decodeparam l).getD 4 []) = some it.auth.pwd := by
          by_contra hne
          exact hcaches (hl it hit hne)
        rw [hpwd] at hsame
        rw [pwdCopy, if_pos (Option.some.inj hsame).symm]
      apply ih
      · have hcreate : Coherent pbkdf2 sIdLocal (s.authSearchByKey now (lineKey X l)) := by
          rw [AuthDbs.authSearchByKey, if_pos hset]
          exact hs.authNew ..
        refine hcreate.modifyAuth fun it hit hne => ?_
        rw [hfind, if_pos rfl] at hit
        cases hold : s.authFindByKey (lineKey X l) with
        | none =>
          rw [hold] at hit
          cases hit
          intro cipher
          rfl
        | some it₀ =>
          rw [hold] at hit
          cases hit
          by_contra hcaches
          rw [pwd_assignLine] at hne
          exact hne (hkeep it₀ hold hcaches)
      · intro l' hl' it' hit' hne
        rw [AuthDbs.authFindByKey_modifyAuth, hfind, if_pos rfl, hfind] at hit'
        split at hit'
        · next hk =>
          cases hold : s.authFindByKey (lineKey X l) with
          | none =>
            rw [hold] at hit'
            cases hit'
            intro cipher
            rfl
          | some it₀ =>
            rw [hold] at hit'
            cases hit'
            rw [pwd_assignLine, Option.getD_some] at hne
            by_contra hcaches
            have hcaches : ¬ CachesNone it₀ := hcaches
            rw [hkeep it₀ hold hcaches] at hne
            exact hcaches (hls l' (by simp [hl']) it₀ (hk ▸ hold) hne)
        · exact hls l' (by simp [hl']) it' hit' hne

/-- Every step that meets the condition keeps the cache coherent. -/
theorem Coherent.step {s s' : AuthDbs} {op : SecretOp} (hs : Coherent pbkdf2 sIdLocal s)
    (hok : PurgeCovers X s op) (h : applySecretOp X pbkdf2 sIdLocal s op = some s') :
    Coherent pbkdf2 sIdLocal s' := by
  cases op with
  | secretGet cipher key =>
    cases h
    exact hs.coderSecretGet cipher key
  | passwordSwitch cipher now key =>
    rw [applySecretOp] at h
    refine hs.onEntryPurge (fun it auth hit hop hne => ?_) h
    obtain ⟨hactive, hpending, -, rfl⟩ := authSwitchToNewPwd_ok hop
    exact hok it hit hactive hpending hne
  | passwordSet cipher now key input =>
    rw [applySecretOp] at h
    refine hs.onEntryPurge (fun it auth hit hop hne => ?_) h
    obtain ⟨hactive, pwd, hpwd, rfl⟩ := authSetPwdB64_ok hop
    exact hok it hit hactive pwd hpwd hne
  -- the other operations purge nothing: the condition is that no secret is cached, or no password
  -- changes
  | store op =>
    cases op with
    | authNew now key pwd ts active newPwd pending =>
      cases h
      exact hs.authNew ..
    | authSearchByKey now key =>
      cases h
      unfold AuthDbs.authSearchByKey
      split
      · exact hs.authNew ..
      · exact hs
    | authDeleteByKey key =>
      cases h
      constructor
      intro key' it' hit' cipher secret hsecret
      rw [AuthDbs.authFindByKey_authDeleteByKey] at hit'
      split at hit'
      · cases hit'
      · exact hs.derived hit' hsecret
    | authDbPwdChange now auto key buf =>
      cases h
      exact hs.modifyAuth hok
    | authGetNewPwdB64 rand key =>
      rw [applySecretOp, applyOp] at h
      refine hs.onEntry (fun it auth hit hop hne => ?_) h
      split at hop
      · next auth' out hget =>
        cases hop
        -- a password that is pending is not the current one
        obtain ⟨-, -, hauth, -⟩ := authGetNewPwdB64_ok hget
        rw [hauth] at hne
        exact absurd rfl hne
      · cases hop
      · cases hop
    | authSetPwdB64 now key input =>
      rw [applySecretOp, applyOp] at h
      refine hs.onEntry (fun it auth hit hop hne => ?_) h
      obtain ⟨hactive, pwd, hpwd, rfl⟩ := authSetPwdB64_ok hop
      exact hok it hit hactive pwd hpwd hne
    | authSwitchToNewPwd now key =>
      rw [applySecretOp, applyOp] at h
      refine hs.onEntry (fun it auth hit hop hne => ?_) h
      obtain ⟨hactive, hpending, -, rfl⟩ := authSwitchToNewPwd_ok hop
      exact hok it hit hactive hpending hne
    | authForgetNewPwd key =>
      rw [applySecretOp, applyOp] at h
      refine hs.onEntry (fun it auth hit hop hne => ?_) h
      unfold authForgetNewPwd at hop
      split at hop
      · cases hop
      · cases hop
        exact absurd rfl hne
    | authUnserializeFromFile pageSize now draws checkDb file =>
      obtain ⟨r, hload, rfl⟩ := Option.map_eq_some_iff.mp h
      rw [authUnserializeFromFile] at hload
      split at hload
      · cases hload; exact hs
      · split at hload
        · cases hload
        · cases hload
          exact hs.loadLines hok

/-- **Coherence of the cache.** In every state reached by a run whose password changes
each act on an entry that caches no secret but the one purged, every cached secret is
the key derived from the current password, for every cipher. -/
theorem secrets_coherent {s : AuthDbs}
    (h : ((secretSystem X pbkdf2 sIdLocal).restrict (PurgeCovers X)).Reachable s) :
    Coherent pbkdf2 sIdLocal s := by
  apply h.invariant
  · rintro _ rfl
    constructor
    intro key it hit
    cases hit
  · intro s op s' hs ⟨hstep, hok⟩
    exact hs.step hok hstep

/-! ### A switch with one cipher, and with two

The secret of the second cipher outlives the switch. -/

/-- A derivation that keeps the passphrases apart. -/
def passphraseKdf : Pbkdf2 := fun passphrase _ _ _ => some passphrase

/-- An entry pending on a new password. -/
def pendingEntry : AuthDbs :=
  AuthDbs.authNew ⟨0, 0⟩ .empty oneKey (ascii "password") none true (ascii "PASSWORD") true

/-- The store after a message was encoded with each cipher of the list. -/
def cached (ciphers : List Cipher) : AuthDbs :=
  ciphers.foldl (fun s cipher =>
    (s.coderSecretGet passphraseKdf (ascii "sId-1") cipher oneKey .encrypt).2) pendingEntry

/-- The store after the switch on a connection that uses AES-256-GCM. -/
def switched (ciphers : List Cipher) : AuthDbs :=
  ((onEntryPurge (cached ciphers) oneKey .aes256Gcm (authSwitchToNewPwd ⟨0, 0⟩)).getD .empty)

/-- The process with that derivation. -/
def passphraseSystem : System AuthDbs SecretOp :=
  secretSystem oneDateExt passphraseKdf (ascii "sId-1")

/-- One cipher: its secret is purged with the switch. -/
theorem coherent_switched :
    Coherent passphraseKdf (ascii "sId-1") (switched [.aes256Gcm]) := by
  have h0 : (passphraseSystem.restrict (PurgeCovers oneDateExt)).Reachable .empty := .init rfl
  have h1 : (passphraseSystem.restrict (PurgeCovers oneDateExt)).Reachable pendingEntry :=
    h0.next
      (.store (.authNew ⟨0, 0⟩ oneKey (ascii "password") none true (ascii "PASSWORD") true))
      ⟨rfl, trivial⟩
  have h2 : (passphraseSystem.restrict (PurgeCovers oneDateExt)).Reachable
      (cached [.aes256Gcm]) :=
    h1.next (.secretGet .aes256Gcm oneKey) ⟨rfl, trivial⟩
  have hcaches : ∀ it, (cached [.aes256Gcm]).authFindByKey oneKey = some it →
      CachesOnly it .aes256Gcm := by
    intro it hit cipher secret hsecret
    have hother : ((cached [.aes256Gcm]).authFindByKey oneKey).bind
        (fun it => it.authSecretGet cipher.lib) = some secret := by rw [hit]; exact hsecret
    by_contra hne
    have hnone : ((cached [.aes256Gcm]).authFindByKey oneKey).bind
        (fun it => it.authSecretGet cipher.lib) = none := by
      cases cipher with
      | aes256Gcm => exact absurd rfl hne
      | aes128Ctr => decide
      | aes256Ctr => decide
    rw [hnone] at hother
    cases hother
  have h3 : (passphraseSystem.restrict (PurgeCovers oneDateExt)).Reachable
      (switched [.aes256Gcm]) :=
    h2.next (.passwordSwitch .aes256Gcm ⟨0, 0⟩ oneKey)
      ⟨rfl, fun it hit _ _ _ => hcaches it hit⟩
  exact secrets_coherent h3

/-- Two ciphers: a connection that uses the other one goes on with the old secret. -/
theorem stale_switched :
    ∃ s, passphraseSystem.Reachable s ∧ ¬ Coherent passphraseKdf (ascii "sId-1") s := by
  have h0 : passphraseSystem.Reachable .empty := .init rfl
  have h1 : passphraseSystem.Reachable pendingEntry := h0.next
    (.store (.authNew ⟨0, 0⟩ oneKey (ascii "password") none true (ascii "PASSWORD") true)) rfl
  have h2 : passphraseSystem.Reachable (cached [.aes256Ctr]) :=
    h1.next (.secretGet .aes256Ctr oneKey) rfl
  have h3 : passphraseSystem.Reachable (cached [.aes256Ctr, .aes256Gcm]) :=
    h2.next (.secretGet .aes256Gcm oneKey) rfl
  have h4 : passphraseSystem.Reachable (switched [.aes256Ctr, .aes256Gcm]) :=
    h3.next (.passwordSwitch .aes256Gcm ⟨0, 0⟩ oneKey) rfl
  refine ⟨_, h4, fun hs => ?_⟩
  obtain ⟨it, hit⟩ : ∃ it, (switched [.aes256Ctr, .aes256Gcm]).authFindByKey oneKey = some it :=
    Option.isSome_iff_exists.mp (by decide)
  have hpwd : ((switched [.aes256Ctr, .aes256Gcm]).authFindByKey oneKey).map
      (fun it => it.auth.pwd) = some (ascii "PASSWORD") := by decide
  have hsecret : ((switched [.aes256Ctr, .aes256Gcm]).authFindByKey oneKey).bind
      (fun it => it.authSecretGet Cipher.aes256Ctr.lib)
        = some (ascii "sId-1log-001passwordsId-2") := by decide
  rw [hit] at hpwd hsecret
  have hderived := hs.derived hit hsecret
  rw [Option.map_some, Option.some.injEq] at hpwd
  rw [hpwd] at hderived
  exact absurd hderived (by decide)

end RsmpGateway.Auth
