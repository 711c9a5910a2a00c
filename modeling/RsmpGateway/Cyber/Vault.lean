import RsmpGateway.Cyber.Reply

/-!
# The secrets of a connection

`coder_secret_get` derives the secret of an entry once and caches it on the entry under the name of
the cipher. So what a message is sealed with, and read with, is the secret of the password that the
entry had when it was first used; `auth_secret_delete_by_key` forgets it each time the exchange of
a connection has changed the password. A `Vault` is what a process caches for the cipher of one
connection.

The forgetting has two limits. It knows one cipher, that of the connection at hand, so a connection
may begin with secrets of its cipher that are of an old password (`NoStale` excludes it). And it
takes the lock of the entry for writing, and never releases it: from then on each task that looks
for a secret of this entry waits for ever. The connection goes on for the other entries, and here a
step that waits for such a lock is no step.

A task is not stopped by a lock that it holds itself. `Auth/Locks.lean` counts it against a call
that it asks for such a lock; but `auth_secret_add_or_update`, which caches every secret, is one of
these calls, so that nothing would ever be sealed with locks that stop their holder. In particular
the task that purges, which is the one that encodes challenges, goes on.

This module has what one turn does with a vault. With nothing stale, a turn under the secrets that
are cached is the turn that derives them, as long as the purge comes before the next challenge is
encoded (`Peer.cyberReceiveInternal_follows`); `Cyber/VaultNet.lean` carries this to runs.
-/

namespace RsmpGateway.Cyber

open RsmpGateway.Lib RsmpGateway.Auth RsmpGateway.Coder

/-- What a process keeps on its entries for the cipher of a connection: the password that the cached
secret was derived from, and whether the lock of the entry is kept. -/
structure Vault where
  cached : AuthKey → Option AuthPwd
  locked : AuthKey → Bool

namespace Vault

/-- A process that has just started. -/
def empty : Vault := ⟨fun _ => none, fun _ => false⟩

/-- `coder_secret_get`: the secret that is cached comes before that of the current password. -/
def secret (sIdLocal : Bytes) (V : Vault) : SecretGet := fun key action pwd =>
  getPassphraseForPwd sIdLocal key action ((V.cached key).getD pwd)

/-- `coder_secret_get` leaves the secret that it gives on the entry. -/
def get (V : Vault) (key : AuthKey) (pwd : AuthPwd) : Vault :=
  { V with cached := Function.update V.cached key (some ((V.cached key).getD pwd)) }

/-- `auth_secret_delete_by_key`: when there is a secret, the lock is taken and never released. -/
def purge (V : Vault) (key : AuthKey) : Vault :=
  if (V.cached key).isSome then
    ⟨Function.update V.cached key none, Function.update V.locked key true⟩
  else V

end Vault

/-- The current password of an entry. -/
def pwdOf (db : AuthDbs) (key : AuthKey) : Option AuthPwd :=
  (db.authFindByKey key).map fun it => it.auth.pwd

/-- **Nothing stale**: what is cached is of the current password. -/
def Vault.NoStale (V : Vault) (db : AuthDbs) : Prop :=
  ∀ key pwd, pwdOf db key = some pwd → ∀ old, V.cached key = some old → old = pwd

/-! ## What a step does to a vault

The entries whose secret is asked for, and those whose secret is purged, are read off the state
before and after the step. -/

namespace Peer

/-- The entry of a challenge, when its switch succeeds. -/
def switches (E : Env) (p : Peer) (ctxt : ChallengeContext) : Option AuthKey :=
  ctxt.auth.filter fun key =>
    match p.onAuth key (authSwitchToNewPwd E.now) with
    | .ok _ => true
    | _ => false

/-- The entry whose secret `cyber_process_internal_msg` purges. -/
def purgedBy (E : Env) (p : Peer) (authFrom : AuthKey) : Message → Option AuthKey
  | .changePwdRequest _ pwd =>
    if p.responseBusy E then none
    else
      match p.onAuth authFrom fun auth => authSetPwdB64 E.now auth pwd with
      | .ok _ => some authFrom
      | _ => none
  | .changePwdResponse _ oMId status =>
    p.challengeCtxt.bind fun ctxt =>
      if ctxt.running ∧ ctxt.mIdChangePwdRequest = some oMId then
        if status then p.switches E ctxt else none
      else none
  | .pong _ oMId _ =>
    p.challengeCtxt.bind fun ctxt =>
      if ctxt.running ∧ ctxt.mIdPing = some oMId then p.switches E ctxt else none
  | _ => none

/-- The entry whose secret `cyber_receive_internal` purges. -/
def purges (E : Env) (p : Peer) : Option AuthKey :=
  match p.internalQ with
  | [] => none
  | (authFrom, msg) :: rest =>
    if messageCheckFields msg then { p with internalQ := rest }.purgedBy E authFrom msg else none

end Peer

/-! ### Steps of two peers

A step of one side asks its own process for secrets. A step that has to wait for a lock is not
taken; a purge keeps the lock of the entry, if there was a secret to purge. -/

/-- What a step of a side does with the vault: the entry whose secret it purges, before anything
else, and the one whose secret a task of the queues looks for. -/
structure SecretUse where
  side : Side
  purged : Option AuthKey
  looked : Option (AuthKey × AuthEntry)

/-- A step with the secrets of the vaults, when the lock that it needs is free. A process that dies
of it (`died`) has nothing cached when it starts again. -/
def withVaults {α : Type} (C : Site) (vault : Side → Vault) (u : SecretUse) (died : α → Bool)
    (step : (Side → SecretGet) → Option α) : Option (α × (Side → Vault)) :=
  let V := u.purged.elim (vault u.side) (vault u.side).purge
  if u.looked.any fun e => V.locked e.1 then none
  else
    (step fun s => (Function.update vault u.side V s).secret (C.sId s)).map fun a =>
      (a, Function.update vault u.side <|
        if died a then .empty else u.looked.elim V fun e => V.get e.1 e.2.pwd)

def NetOp.side : NetOp → Side
  | process s _ => s
  | initiate s _ => s
  | send s _ => s
  | receive s _ => s
  | stop s => s
  | restart s => s
  | connect => .a

/-- After a step that is not a stop, a side that is down has died. -/
def NetOp.died (n : Net) : NetOp → Bool
  | stop _ => false
  | op => !(n.peer op.side).up

/-- What a step of the two peers does with the vaults. -/
def Net.secretUse (C : Site) (n : Net) (op : NetOp) : SecretUse where
  side := op.side
  purged :=
    match op with
    | .process s i => (n.peer s).purges (n.env C s i)
    | _ => none
  looked :=
    match op with
    | .send s i =>
      match (n.peer s).sendQ with
      | .message _ login :: _ =>
        if i.encodes then coderAuthGet (n.peer s).db login (C.sId s.remote) .encrypt else none
      | _ => none
    | .receive s _ =>
      (n.chan s.remote).head?.bind fun f =>
        coderAuthGet (n.peer s).db (some f.login) f.sId .decrypt
    | _ => none

/-- Two peers with what they cache for the cipher of their connection. -/
structure VaultNet where
  net : Net
  vault : Side → Vault

/-- A step, or the secret that the internal task looks for when it encodes a challenge. -/
inductive VaultOp (ε : Type)
  | step (op : ε)
  | cache (s : Side) (key : AuthKey)

/-- The internal task caches the secret of an entry. It is the one that purges: a lock that is kept
does not hold it up. -/
def cacheSecret (n : Net) (vault : Side → Vault) (s : Side) (key : AuthKey) :
    Option (Side → Vault) :=
  (pwdOf (n.peer s).db key).map fun pwd => Function.update vault s ((vault s).get key pwd)

def VaultNet.apply (C : Site) (v : VaultNet) : VaultOp NetOp → Option VaultNet
  | .step op =>
    (withVaults C v.vault (v.net.secretUse C op) op.died fun secret =>
      applyNetOpWith C secret v.net op).map fun r => ⟨r.1, r.2⟩
  | .cache s key => (cacheSecret v.net v.vault s key).map fun vault => ⟨v.net, vault⟩

/-! ## Nothing becomes stale

A secret is cached of the current password, and purged when the password changes. -/

namespace Vault

variable {V : Vault} {db db' : AuthDbs} {key : AuthKey}

theorem empty_noStale (db : AuthDbs) : empty.NoStale db := by
  intro key pwd _ old h
  cases h

theorem NoStale.secret_eq (h : V.NoStale db) {pwd : AuthPwd} (hpwd : pwdOf db key = some pwd)
    (sIdLocal : Bytes) (action : CoderAction) :
    V.secret sIdLocal key action pwd = getPassphraseForPwd sIdLocal key action pwd := by
  rw [secret]
  cases hcached : V.cached key with
  | none => rfl
  | some old =>
    obtain rfl := h key pwd hpwd old hcached
    rfl

/-- The secret of the current password is cached. -/
theorem NoStale.get (h : V.NoStale db) {pwd : AuthPwd} (hpwd : pwdOf db key = some pwd) :
    (V.get key pwd).NoStale db := by
  intro key' pwd' hpwd' old hcached
  rw [Vault.get] at hcached
  dsimp only at hcached
  by_cases hkey : key' = key
  · subst hkey
    rw [Function.update_self, Option.some.injEq] at hcached
    obtain rfl : pwd = pwd' := Option.some.inj (hpwd.symm.trans hpwd')
    rw [← hcached]
    cases hold : V.cached key' with
    | none => rfl
    | some old => exact h key' pwd hpwd old hold
  · rw [Function.update_of_ne hkey] at hcached
    exact h key' pwd' hpwd' old hcached

theorem cached_purge (V : Vault) (key : AuthKey) :
    (V.purge key).cached = Function.update V.cached key none := by
  rw [purge]
  split
  · rfl
  · next hnone =>
    have hkey : V.cached key = none := by simpa using hnone
    rw [← hkey, Function.update_eq_self]

/-- The other entries may keep what they cache. -/
theorem NoStale.purge (h : V.NoStale db) (hpwd : ∀ k, k ≠ key → pwdOf db' k = pwdOf db k) :
    (V.purge key).NoStale db' := by
  intro k pwd hk old hcached
  rw [cached_purge] at hcached
  by_cases hkey : k = key
  · subst hkey
    rw [Function.update_self] at hcached
    cases hcached
  · rw [Function.update_of_ne hkey] at hcached
    rw [hpwd k hkey] at hk
    exact h k pwd hk old hcached

theorem NoStale.of_pwd (h : V.NoStale db) (hpwd : pwdOf db' = pwdOf db) : V.NoStale db' := by
  rw [NoStale, hpwd]
  exact h

end Vault

/-! ## What a turn does to the passwords

A turn that starts a challenge records a new password, and leaves the current ones. -/

theorem pwdOf_of_find {db : AuthDbs} {key : AuthKey} {it : AuthItem}
    (h : db.authFindByKey key = some it) : pwdOf db key = some it.auth.pwd := by
  rw [pwdOf, h]
  rfl

theorem pwdOf_modifyAuth_of_ne {db : AuthDbs} {key k : AuthKey} (f : AuthEntry → AuthEntry)
    (h : k ≠ key) : pwdOf (db.modifyAuth key f) k = pwdOf db k := by
  rw [pwdOf, AuthDbs.authFindByKey_modifyAuth, if_neg h]
  rfl

theorem pwdOf_modifyAuth {db : AuthDbs} {key : AuthKey} {it : AuthItem} {auth : AuthEntry}
    (hit : db.authFindByKey key = some it) (hpwd : auth.pwd = it.auth.pwd) :
    pwdOf (db.modifyAuth key fun _ => auth) = pwdOf db := by
  funext k
  by_cases hk : k = key
  · subst hk
    rw [pwdOf, AuthDbs.authFindByKey_modifyAuth, if_pos rfl, pwdOf_of_find hit, hit]
    exact congrArg some hpwd
  · exact pwdOf_modifyAuth_of_ne _ hk

/-- A new challenge changes no current password. -/
theorem Initiated.pwdOf {E : Env} {p p' : Peer} (hi : Initiated E p (.ok p')) :
    RsmpGateway.Cyber.pwdOf p'.db = RsmpGateway.Cyber.pwdOf p.db := by
  have hnew : ∀ {key it auth pwdB64}, p.db.authFindByKey key = some it →
      authGetNewPwdB64 E.rand it.auth = .ok (auth, pwdB64) →
      RsmpGateway.Cyber.pwdOf (p.db.modifyAuth key fun _ => auth) =
        RsmpGateway.Cyber.pwdOf p.db := by
    intro key it auth pwdB64 hit hauth
    obtain ⟨-, -, heq, -⟩ := authGetNewPwdB64_ok hauth
    have hpwd : auth.pwd = it.auth.pwd := by rw [heq]
    exact pwdOf_modifyAuth hit hpwd
  cases hi with
  | running => rfl
  | quiet => rfl
  | allClear =>
    rw [Peer.sendAllClear, db_sendMessage]
  | kept => rfl
  | recorded _ hit hauth => exact hnew hit hauth
  | unqueued _ _ hit hauth => exact hnew hit hauth
  | sent _ hit hauth => exact hnew hit hauth

/-! ## Turns with the secrets of a vault

A turn asks for the secrets of a few entries. Two ways to answer that agree on these make the
same turn. -/

/-- What a turn reads, with the secrets that `secret` gives. -/
def Env.under (E : Env) (secret : SecretGet) : Env := { E with secret }

@[simp] theorem Env.now_under (E : Env) (secret : SecretGet) : (E.under secret).now = E.now := rfl

@[simp] theorem Env.uuid_under (E : Env) (secret : SecretGet) :
    (E.under secret).uuid = E.uuid := rfl

section Secrets

variable {E : Env} {secret : SecretGet} {p : Peer}

/-- The two give the same secrets of the current passwords. -/
def AgreeOn (db : AuthDbs) (secret secret' : SecretGet) : Prop :=
  ∀ key pwd action, pwdOf db key = some pwd → secret key action pwd = secret' key action pwd

theorem pwdOf_coderAuthFind {db : AuthDbs} {login : Option Bytes} {sId : Bytes}
    {action : CoderAction} {key : AuthKey} {auth : AuthEntry}
    (h : coderAuthFind db login sId action = some (key, auth)) :
    pwdOf db key = some auth.pwd := by
  obtain ⟨it, hit, rfl⟩ : ∃ it, db.authFindByKey key = some it ∧ it.auth = auth := by
    cases action with
    | decrypt =>
      cases login with
      | none => cases h
      | some login =>
        obtain ⟨it, hit, heq⟩ := Option.map_eq_some_iff.mp h
        cases heq
        exact ⟨it, hit, rfl⟩
    | encrypt =>
      cases login with
      | some login =>
        obtain ⟨it, hit, heq⟩ := Option.map_eq_some_iff.mp h
        cases heq
        exact ⟨it, hit, rfl⟩
      | none =>
        -- the first entry of the remote
        obtain ⟨⟨k, it⟩, hit, heq⟩ := Option.map_eq_some_iff.mp h
        cases heq
        rw [AuthDbs.authGetFirst_eq] at hit
        obtain ⟨_, hlast, heq⟩ := Option.map_eq_some_iff.mp hit
        cases heq
        exact ⟨it, AuthDbs.mem_logins.mp (List.mem_of_getLast? hlast), rfl⟩
  exact pwdOf_of_find hit

theorem pwdOf_coderAuthGet {db : AuthDbs} {login : Option Bytes} {sId : Bytes}
    {action : CoderAction} {key : AuthKey} {auth : AuthEntry}
    (h : coderAuthGet db login sId action = some (key, auth)) : pwdOf db key = some auth.pwd :=
  pwdOf_coderAuthFind (Option.filter_eq_some_iff.mp h).1

theorem encryptedEncode_congr {secret' : SecretGet} {db : AuthDbs}
    (h : AgreeOn db secret secret') (sIdLocal : Bytes) (login : Option Bytes) (sId : Bytes)
    (msg : Message) :
    encryptedEncode secret db sIdLocal login sId msg =
      encryptedEncode secret' db sIdLocal login sId msg := by
  rw [encryptedEncode, encryptedEncode]
  cases hget : coderAuthGet db login sId .encrypt with
  | none => rfl
  | some r =>
    obtain ⟨key, auth⟩ := r
    rw [Option.map_some, Option.map_some]
    dsimp only
    rw [h key auth.pwd .encrypt (pwdOf_coderAuthGet hget)]

theorem encryptedDecode_congr {secret' : SecretGet} {db : AuthDbs}
    (h : AgreeOn db secret secret') (valid : Message → Bool) (f : Frame) :
    encryptedDecode valid secret db f = encryptedDecode valid secret' db f := by
  rw [encryptedDecode, encryptedDecode]
  cases hget : coderAuthGet db (some f.login) f.sId .decrypt with
  | none => rfl
  | some r =>
    obtain ⟨key, auth⟩ := r
    dsimp only
    rw [h key auth.pwd .decrypt (pwdOf_coderAuthGet hget)]

namespace Peer

theorem challengeEncode_congr (h : AgreeOn p.db secret E.secret) (ctxt : ChallengeContext)
    (login : Bytes) :
    p.challengeEncode (E.under secret) ctxt login = p.challengeEncode E ctxt login := by
  unfold challengeEncode Env.under
  split
  · rfl
  · dsimp only
    cases hfind : coderAuthFind p.db (some login) E.sIdRemote .encrypt with
    | none => rfl
    | some r =>
      obtain ⟨key, auth⟩ := r
      dsimp only
      split
      · rfl
      · cases hget : authGetNewPwdB64 E.rand auth with
        | abort => rfl
        | err => rfl
        | ok r =>
          obtain ⟨auth', pwdB64⟩ := r
          obtain ⟨-, -, heq, -⟩ := authGetNewPwdB64_ok hget
          have hpwd : auth'.pwd = auth.pwd := by rw [heq]
          have hsecret := h key auth.pwd .encrypt (pwdOf_coderAuthFind hfind)
          rw [← hpwd] at hsecret
          dsimp only
          rw [hsecret]

theorem sendChallenge_congr (h : AgreeOn p.db secret E.secret) :
    p.sendChallenge (E.under secret) = p.sendChallenge E := by
  rw [sendChallenge, sendChallenge]
  simp only [challengeEncode_congr h]
  rfl

theorem initiateChallenge_congr (h : AgreeOn p.db secret E.secret) :
    p.initiateChallenge (E.under secret) = p.initiateChallenge E := by
  have hsearch : p.searchChallenge (E.under secret) = p.searchChallenge E := rfl
  have hdb : (p.searchChallenge E).db = p.db := by
    rw [searchChallenge]
    split <;> rfl
  rw [initiateChallenge, initiateChallenge, hsearch]
  apply sendChallenge_congr
  rw [hdb]
  exact h

end Peer

end Secrets

/-! ### The internal task

What the turns of the internal task come to with nothing stale: the turn that derives the
secrets, and nothing stale afterwards. -/

/-- A turn under the secrets of a vault is the one that derives them, and leaves nothing stale. -/
structure Vault.Follows (V : Vault) (sIdLocal : Bytes) (turn : SecretGet → Turn) : Prop where
  same : turn (V.secret sIdLocal) = turn (getPassphraseForPwd sIdLocal)
  noStale : ∀ p, turn (getPassphraseForPwd sIdLocal) = .ok p → V.NoStale p.db

theorem Vault.NoStale.agreeOn {V : Vault} {db : AuthDbs} (h : V.NoStale db) (sIdLocal : Bytes) :
    AgreeOn db (V.secret sIdLocal) (getPassphraseForPwd sIdLocal) :=
  fun _ _ action hpwd => h.secret_eq hpwd sIdLocal action

/-- A turn that looks for no secret. -/
theorem Vault.NoStale.follows {V : Vault} {p : Peer} (h : V.NoStale p.db) (sIdLocal : Bytes)
    {r : Turn} (hr : r = .error p.saved ∨ ∃ p', r = .ok p' ∧ p'.db = p.db) :
    V.Follows sIdLocal fun _ => r where
  same := rfl
  noStale := by
    intro p' hp'
    rcases hr with rfl | ⟨_, rfl, hdb⟩
    · cases hp'
    · cases hp'
      rw [hdb]
      exact h

namespace Peer

variable {E : Env} {p : Peer} {V : Vault}

theorem initiateChallenge_follows (hV : V.NoStale p.db)
    (h : ∀ c, p.challengeCtxt = some c → CtxtOk E.sIdRemote c) :
    V.Follows E.sIdLocal fun secret => p.initiateChallenge (E.under secret) where
  same :=
    initiateChallenge_congr (E := E.under (getPassphraseForPwd E.sIdLocal))
      (hV.agreeOn E.sIdLocal)
  noStale := by
    intro p' hp'
    have hi := initiateChallenge_cases (E := E.under (getPassphraseForPwd E.sIdLocal)) h
    rw [hp'] at hi
    exact hV.of_pwd hi.pwdOf

/-- The secret of the entry goes before the next challenge looks for it. -/
theorem challengeSucceeds_follows (hV : V.NoStale p.db) {ctxt : ChallengeContext}
    (hok : CtxtOk E.sIdRemote ctxt) :
    ((p.switches E ctxt).elim V V.purge).Follows E.sIdLocal fun secret =>
      p.challengeSucceeds (E.under secret) ctxt := by
  cases hauth : ctxt.auth with
  | none =>
    simp only [switches, challengeSucceeds, hauth, Option.filter_none, Option.elim_none]
    exact hV.follows _ (.inl rfl)
  | some key =>
    cases hon : p.onAuth key (authSwitchToNewPwd E.now) with
    | abort =>
      simp only [switches, challengeSucceeds, Env.now_under, hauth, hon, Option.filter_some,
        Option.elim_none, Bool.false_eq_true, if_false]
      exact hV.follows _ (.inl rfl)
    | err =>
      simp only [switches, challengeSucceeds, Env.now_under, hauth, hon, Option.filter_some,
        Option.elim_none, Bool.false_eq_true, if_false]
      exact hV.follows _ (.inr ⟨p, rfl, rfl⟩)
    | ok p' =>
      obtain ⟨it, auth, -, -, rfl⟩ := onAuth_ok hon
      simp only [switches, challengeSucceeds, Env.now_under, hauth, hon, Option.filter_some,
        Option.elim_some, if_true]
      apply initiateChallenge_follows
      · exact hV.purge fun k hk => pwdOf_modifyAuth_of_ne _ hk
      · have hended := hok.ended
        rw [hauth] at hended
        intro c hc
        exact (hended c hc).1

theorem cyberProcessInternalMsg_follows (hV : V.NoStale p.db)
    (h : ∀ c, p.challengeCtxt = some c → CtxtOk E.sIdRemote c) (authFrom : AuthKey)
    (msg : Message) :
    ((p.purgedBy E authFrom msg).elim V V.purge).Follows E.sIdLocal fun secret =>
      p.cyberProcessInternalMsg (E.under secret) authFrom msg := by
  cases msg with
  | allClear mId => exact hV.follows _ (.inr ⟨_, rfl, rfl⟩)
  | ping mId padding =>
    exact hV.follows _
      (.inr ⟨p.sendMessage (.pong E.uuid mId padding) none, rfl, db_sendMessage ..⟩)
  | changePwdRequest mId pwd =>
    have hbusy : ∀ secret, p.responseBusy (E.under secret) = p.responseBusy E := fun _ => rfl
    simp only [purgedBy, cyberProcessInternalMsg, Env.now_under, Env.uuid_under, hbusy]
    by_cases hb : p.responseBusy E = true
    · simp only [hb, if_true, Option.elim_none]
      exact hV.follows _ (.inr ⟨_, rfl, db_sendMessage ..⟩)
    · simp only [hb, if_false, Bool.false_eq_true]
      cases hon : p.onAuth authFrom fun auth => authSetPwdB64 E.now auth pwd with
      | abort => exact hV.follows _ (.inl rfl)
      | err =>
        dsimp only
        exact hV.follows _ (.inr ⟨_, rfl, db_sendMessage ..⟩)
      | ok p' =>
        obtain ⟨it, auth, -, -, rfl⟩ := onAuth_ok hon
        dsimp only
        refine Vault.NoStale.follows ?_ _ (.inr ⟨_, rfl, db_sendMessage ..⟩)
        exact hV.purge fun k hk => pwdOf_modifyAuth_of_ne _ hk
  | changePwdResponse mId oMId status =>
    cases hctxt : p.challengeCtxt with
    | none =>
      simp only [purgedBy, cyberProcessInternalMsg, hctxt, Option.bind_none, Option.elim_none]
      exact hV.follows _ (.inr ⟨p, rfl, rfl⟩)
    | some ctxt =>
      have hok := h ctxt hctxt
      simp only [purgedBy, cyberProcessInternalMsg, hctxt, Option.bind_some]
      by_cases hid : ctxt.running = true ∧ ctxt.mIdChangePwdRequest = some oMId
      · simp only [if_pos hid]
        cases status with
        | true => exact challengeSucceeds_follows hV hok
        | false =>
          -- the remote was busy: the challenge is encoded again, and no password has changed
          apply initiateChallenge_follows
          · exact hV
          · intro c hc
            exact (hok.ended c hc).1
      · simp only [if_neg hid, Option.elim_none]
        exact hV.follows _ (.inr ⟨p, rfl, rfl⟩)
  | pong mId oMId padding =>
    cases hctxt : p.challengeCtxt with
    | none =>
      simp only [purgedBy, cyberProcessInternalMsg, hctxt, Option.bind_none, Option.elim_none]
      exact hV.follows _ (.inr ⟨p, rfl, rfl⟩)
    | some ctxt =>
      simp only [purgedBy, cyberProcessInternalMsg, hctxt, Option.bind_some]
      by_cases hid : ctxt.running = true ∧ ctxt.mIdPing = some oMId
      · simp only [if_pos hid]
        exact challengeSucceeds_follows hV (h ctxt hctxt)
      · simp only [if_neg hid, Option.elim_none]
        exact hV.follows _ (.inr ⟨p, rfl, rfl⟩)

theorem cyberReceiveInternal_follows (hV : V.NoStale p.db)
    (h : ∀ c, p.challengeCtxt = some c → CtxtOk E.sIdRemote c) :
    ((p.purges E).elim V V.purge).Follows E.sIdLocal fun secret =>
      p.cyberReceiveInternal (E.under secret) := by
  cases hq : p.internalQ with
  | nil =>
    simp only [purges, cyberReceiveInternal, hq, Option.elim_none]
    exact hV.follows _ (.inr ⟨p, rfl, rfl⟩)
  | cons e rest =>
    obtain ⟨authFrom, msg⟩ := e
    simp only [purges, cyberReceiveInternal, hq]
    by_cases hmsg : messageCheckFields msg = true
    · simp only [hmsg, if_true]
      exact cyberProcessInternalMsg_follows (p := { p with internalQ := rest }) hV h authFrom msg
    · simp only [hmsg, if_false, Bool.false_eq_true, Option.elim_none]
      exact hV.follows _ (.inr ⟨_, rfl, rfl⟩)

theorem cyberSend_congr {secret : SecretGet} (h : AgreeOn p.db secret E.secret) :
    p.cyberSend (E.under secret) = p.cyberSend E := by
  rw [cyberSend, cyberSend]
  split
  · rfl
  · rfl
  · have hencode := encryptedEncode_congr h E.sIdLocal
    simp only [Env.under, hencode]

theorem db_cyberSend (E : Env) (p : Peer) : (p.cyberSend E).1.db = p.db := by
  have h := p.cyberSend_cases E
  generalize p.cyberSend E = r at h
  cases h <;> rfl

end Peer

end RsmpGateway.Cyber
