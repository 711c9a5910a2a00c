import RsmpGateway.Cyber.Message

/-!
# A connection

The state of a peer: its store, the copy saved in `auth.db`, and what the tasks of its connection
share (the challenge, the queues, the flags). The tasks take turns: one message of the internal
queue is processed, a challenge is looked for, a frame is read or written. A turn is a function
of the state and of what it reads from outside (`Env`): the time, random draws, what fails.

A failed assertion or a null pointer stops the process, which leaves the file; that is an outcome
of a turn like the others (`Turn`).

The last part says what each turn does, without its conditions being evaluated again: inductive
relations with a case for each thing that may happen (`Initiated`, `Processed`, `Sent`), which
the invariants of the later modules are shown over.
-/

namespace RsmpGateway.Cyber

open RsmpGateway.Lib RsmpGateway.Auth RsmpGateway.Coder

/-! ## The state of a peer

What `cyber_priv_t` holds of a connection, and the store with the file that it is saved in. A
change of password is saved at once. The events are what the rest of the program is told. -/

/-- `ChallengeContext_t` -/
structure ChallengeContext where
  auth : Option AuthKey
  toSend : Bool
  running : Bool
  mIdChangePwdRequest : Option Nat
  mIdPing : Option Nat
  deriving Repr, DecidableEq

/-- `challenge_ctxt_new` -/
def challengeCtxtNew : ChallengeContext := ⟨none, false, false, none, none⟩

/-- `freeChallengeContextMembers` -/
def freeChallengeContextMembers (ctxt : ChallengeContext) : ChallengeContext :=
  { ctxt with auth := none, mIdChangePwdRequest := none, mIdPing := none }

/-- `queue_msg_t` of the send queue: a challenge is queued encrypted, another message is
encrypted when it leaves the queue, with the login given or one chosen then. -/
inductive QueueMsg
  | challenge (f : Frame)
  | message (msg : Message) (login : Option Bytes)
  deriving Repr, DecidableEq

/-- What a connection tells the rest of the program. -/
inductive Event
  | /-- `EVENT_TYPE_ALLCLEAR_EXCHANGED` -/
    allClearExchanged
  | /-- `auth_switch_to_new_pwd` succeeds for the challenge of a context -/
    switched (ctxt : ChallengeContext)
  deriving Repr, DecidableEq

/-- The store of a peer and `cyber_priv_t`. `internalQ` keeps the entry that each message
was read with, `events` what the connection told since its start. -/
structure Peer where
  db : AuthDbs
  saved : AuthDbs
  up : Bool
  challengeCtxt : Option ChallengeContext
  allClearSent : Bool
  allClearRxed : Bool
  sendQ : List QueueMsg
  internalQ : List (AuthKey × Message)
  events : List Event

/-- A turn of a task: the peer afterwards, or the file that a process that stops leaves. -/
abbrev Turn := Except AuthDbs Peer

/-- Where the sending of a challenge fails, once its new password is recorded. -/
inductive Failure
  | /-- `coder_secret_get` or `_computeNewSecretAuthTo` -/
    secret
  | /-- the encoding of the request -/
    request
  | /-- that of the ping -/
    ping
  | /-- `serializeMessage` of the frame -/
    frame
  | /-- an allocation of `Challenge_encode` -/
    memory
  | /-- that of `_send_optional_encryption` -/
    queue
  deriving Repr, DecidableEq

/-- What an operation of a connection reads from outside: the ids of the peers, the secrets of the
entries, the time, random draws, whether the encryption succeeds and where a challenge fails.
`uuid` is the next identifier. -/
structure Env where
  sIdLocal : Bytes
  sIdRemote : Bytes
  secret : SecretGet
  diffHorodateSec : HoroDate → HoroDate → Int
  now : HoroDate
  rand : Nat → Nat
  pad : Bytes
  uuid : Nat
  encodes : Bool
  failure : Option Failure

namespace Peer

/-- `_sendMessage` -/
def sendMessage (p : Peer) (msg : Message) (login : Option Bytes) : Peer :=
  if messageCheckFields msg then { p with sendQ := p.sendQ ++ [.message msg login] } else p

/-- An operation of `auth.c` on an entry; its success saves the store. -/
def onAuth (p : Peer) (key : AuthKey) (op : AuthEntry → AuthRes AuthEntry) : AuthRes Peer :=
  match p.db.authFindByKey key with
  | none => .abort
  | some it =>
    match op it.auth with
    | .ok auth =>
      let db := p.db.modifyAuth key fun _ => auth
      .ok { p with db, saved := db }
    | .err => .err
    | .abort => .abort

/-! ## Challenges

A challenge is looked for among the logins of the remote, encoded in a frame with the change and
a ping, and queued. -/

/-- A challenge is to be sent, or runs. -/
def challengeBusy (p : Peer) : Bool := p.challengeCtxt.any fun c => c.toSend || c.running

/-- `triggerPeriod_sec` -/
def triggerPeriodSec : Int := 3600 * 24 * 3 / 4 * 0 + 135 * 3 / 4

/-- The condition of `searchLoginForChallenge`: the entry is pending, or its password is
near its end. -/
def challengeDue (E : Env) (auth : AuthEntry) : Bool :=
  auth.newPwdPending ||
    (decide (0 < triggerPeriodSec) &&
      decide (triggerPeriodSec < E.diffHorodateSec E.now auth.timestamp))

/-- `searchLoginForChallenge`. Where the source stops the walk over the logins, the
context found stays to the end of it. -/
def searchLoginForChallenge (E : Env) (ctxt : Option ChallengeContext) (it : AuthItem) :
    Option ChallengeContext :=
  if ctxt.any fun c => c.auth.isSome && (c.running || c.toSend) then ctxt
  else
    let ctxt := if ctxt.any fun c => c.auth.isSome && !c.running && !c.toSend then none else ctxt
    if challengeDue E it.auth then
      some { ctxt.getD challengeCtxtNew with
        auth := some ⟨authToDbId, it.login, E.sIdRemote⟩, toSend := true }
    else ctxt

/-- `sendAllClear` -/
def sendAllClear (E : Env) (p : Peer) : Peer :=
  { p.sendMessage (.allClear E.uuid) none with
    allClearSent := true
    events := p.events ++ if p.allClearRxed then [.allClearExchanged] else [] }

/-- `Challenge_encode`: the frame, when it succeeds. -/
def challengeEncode (E : Env) (p : Peer) (ctxt : ChallengeContext) (login : Bytes) :
    Except AuthDbs (Peer × Option Frame) :=
  if ctxt.running then .ok (p, none)
  else
    let ctxt := freeChallengeContextMembers ctxt
    match coderAuthFind p.db (some login) E.sIdRemote .encrypt with
    | none => .ok ({ p with challengeCtxt := some ctxt }, none)
    | some (key, auth) =>
      let ctxt := { ctxt with auth := some key }
      if ¬ auth.active then .ok ({ p with challengeCtxt := some ctxt }, none)
      else
        match authGetNewPwdB64 E.rand auth with
        | .abort => .error p.saved
        | .err => .ok ({ p with challengeCtxt := some ctxt }, none)
        | .ok (auth, pwdB64) =>
          let db := p.db.modifyAuth key fun _ => auth
          let p := { p with db, saved := db }
          let request := Message.changePwdRequest E.uuid pwdB64
          let ping := Message.ping (E.uuid + 1) E.pad
          let ctxtRequest := { ctxt with mIdChangePwdRequest := some E.uuid }
          let ctxtPing := { ctxtRequest with mIdPing := some (E.uuid + 1) }
          -- the exit of a failed allocation takes the length of a null payload
          if E.failure = some .memory then .error db
          else if E.failure = some .secret then .ok ({ p with challengeCtxt := some ctxt }, none)
          else if E.failure = some .request ∨ ¬ messageCheckFields request then
            .ok ({ p with challengeCtxt := some ctxtRequest }, none)
          else if E.failure = some .ping ∨ ¬ messageCheckFields ping ∨ E.failure = some .frame then
            .ok ({ p with challengeCtxt := some ctxtPing }, none)
          else
            -- the request is under the secret of the entry; for the ping, one is derived from the
            -- new password, and not cached
            .ok ({ p with challengeCtxt := some { ctxtPing with running := true } },
              some ⟨E.sIdLocal, key.login, [
                ⟨E.secret key .encrypt auth.pwd, request⟩,
                ⟨getPassphraseForPwd E.sIdLocal key .encrypt auth.newPwd, ping⟩]⟩)

/-- The search of `initiateChallenge`, when no challenge is to be sent or runs. -/
def searchChallenge (E : Env) (p : Peer) : Peer :=
  if p.challengeBusy then p
  else { p with challengeCtxt :=
    (p.db.logins authToDbId E.sIdRemote).foldl (searchLoginForChallenge E) p.challengeCtxt }

/-- `initiateChallenge` after the search. -/
def sendChallenge (E : Env) (p : Peer) : Turn :=
  if ¬ p.challengeBusy then
    if p.allClearSent then .ok p else .ok (p.sendAllClear E)
  else
    match p.challengeCtxt with
    | none => .ok p
    | some ctxt =>
      if ctxt.toSend then
        match ctxt.auth with
        | none => .error p.saved
        | some key =>
          match p.challengeEncode E ctxt key.login with
          | .error db => .error db
          | .ok (p, none) => .ok p
          | .ok (p, some f) =>
            if E.failure = some .queue then .ok p
            else
              .ok { p with
                sendQ := p.sendQ ++ [.challenge f]
                challengeCtxt :=
                  p.challengeCtxt.map fun c => { c with running := true, toSend := false } }
      else .ok p

/-- `initiateChallenge` -/
def initiateChallenge (E : Env) (p : Peer) : Turn := (p.searchChallenge E).sendChallenge E

/-! ## Messages received

The reply to a request, and the end of a challenge, which comes with the reply of the remote. -/

/-- The test of `ChangePwdRequest` before it accepts: no login for the way back. -/
def responseBusy (E : Env) (p : Peer) : Bool :=
  p.challengeBusy &&
    match p.db.authGetFirst (some authToDbId) (some E.sIdRemote) with
    | none => true
    | some (key, it) =>
      it.auth.newPwdPending &&
        match p.db.authGetNextFromAuth key with
        | none => true
        | some next => next.auth.newPwdPending

/-- The end of a challenge that succeeds: the switch, then the next challenge. -/
def challengeSucceeds (E : Env) (p : Peer) (ctxt : ChallengeContext) : Turn :=
  match ctxt.auth with
  | none => .error p.saved
  | some key =>
    match p.onAuth key (authSwitchToNewPwd E.now) with
    | .abort => .error p.saved
    | .err => .ok p
    | .ok p =>
      initiateChallenge E { p with
        challengeCtxt := some { ctxt with running := false }
        events := p.events ++ [.switched ctxt] }

/-- `cyber_process_internal_msg` -/
def cyberProcessInternalMsg (E : Env) (p : Peer) (authFrom : AuthKey) : Message → Turn
  | .allClear _ =>
    .ok { p with
      allClearRxed := true
      events := p.events ++ if p.allClearSent then [.allClearExchanged] else [] }
  | .changePwdRequest mId pwd =>
    if p.responseBusy E then
      .ok (p.sendMessage (.changePwdResponse E.uuid mId false) none)
    else
      match p.onAuth authFrom fun auth => authSetPwdB64 E.now auth pwd with
      | .abort => .error p.saved
      | .err => .ok (p.sendMessage (.changePwdResponse E.uuid mId false) none)
      | .ok p => .ok (p.sendMessage (.changePwdResponse E.uuid mId true) none)
  | .changePwdResponse _ oMId status =>
    match p.challengeCtxt with
    | none => .ok p
    | some ctxt =>
      if ctxt.running ∧ ctxt.mIdChangePwdRequest = some oMId then
        if status then p.challengeSucceeds E ctxt
        else initiateChallenge E { p with challengeCtxt := some { ctxt with running := false } }
      else .ok p
  | .ping mId padding => .ok (p.sendMessage (.pong E.uuid mId padding) none)
  | .pong _ oMId _ =>
    match p.challengeCtxt with
    | none => .ok p
    | some ctxt =>
      if ctxt.running ∧ ctxt.mIdPing = some oMId then p.challengeSucceeds E ctxt else .ok p

/-- A message of the queue in `cyber_receive_internal`: `deserializeMessage` and the
process. -/
def cyberReceiveInternal (E : Env) (p : Peer) : Turn :=
  match p.internalQ with
  | [] => .ok p
  | (authFrom, msg) :: rest =>
    let p := { p with internalQ := rest }
    if messageCheckFields msg then p.cyberProcessInternalMsg E authFrom msg else .ok p

/-- A frame in `cyber_receive`. -/
def cyberReceive (secret : SecretGet) (valid : Message → Bool) (p : Peer) (f : Frame) : Peer :=
  { p with internalQ := p.internalQ ++ encryptedDecode valid secret p.db f }

/-- A message of the queue in `cyber_send`: the frame written, if it is. -/
def cyberSend (E : Env) (p : Peer) : Peer × Option Frame :=
  match p.sendQ with
  | [] => (p, none)
  | .challenge f :: rest => ({ p with sendQ := rest }, some f)
  | .message msg login :: rest =>
    ({ p with sendQ := rest },
      if E.encodes then encryptedEncode E.secret p.db E.sIdLocal login E.sIdRemote msg else none)

/-! ## The life of a connection

A connection starts with empty queues and without a challenge, and ends by a stop. -/

/-- `_start`, once the cipher is agreed on. -/
def start (p : Peer) : Peer where
  db := p.db
  saved := p.saved
  up := true
  challengeCtxt := some challengeCtxtNew
  allClearSent := false
  allClearRxed := false
  sendQ := []
  internalQ := []
  events := []

/-- `_stop`, and the connection is freed. -/
def stop (p : Peer) : Peer := { p.start with up := false, challengeCtxt := none }

/-- The process starts again from what its file holds. -/
def restart (file : AuthDbs) : Peer where
  db := file
  saved := file
  up := false
  challengeCtxt := none
  allClearSent := false
  allClearRxed := false
  sendQ := []
  internalQ := []
  events := []

/-! ## What the turns do

The relations are proved of the functions once; nothing further up unfolds a turn. -/

theorem onAuth_ok {p p' : Peer} {key : AuthKey} {op : AuthEntry → AuthRes AuthEntry}
    (h : p.onAuth key op = .ok p') :
    ∃ it auth, p.db.authFindByKey key = some it ∧ op it.auth = .ok auth ∧
      p' = { p with
        db := p.db.modifyAuth key fun _ => auth, saved := p.db.modifyAuth key fun _ => auth } := by
  unfold onAuth at h
  split at h
  · cases h
  · next it hit =>
    split at h
    · next auth hauth =>
      cases h
      exact ⟨it, auth, hit, hauth, rfl⟩
    · cases h
    · cases h

end Peer

/-! ### The context of a challenge

A context names an entry for sending to the remote, and has the identifiers of the messages that
it waits to be answered. There is one context, and so at most one challenge that runs. -/

/-- A context of a challenge with the remote. -/
structure CtxtOk (sIdRemote : Bytes) (c : ChallengeContext) : Prop where
  auth : ∀ key, c.auth = some key → key = ⟨authToDbId, key.login, sIdRemote⟩
  running : c.running = true →
    c.auth.isSome ∧ c.mIdChangePwdRequest.isSome ∧ c.mIdPing.isSome

/-- A context whose challenge does not run. -/
def CtxtIdle (sIdRemote : Bytes) (ctxt : Option ChallengeContext) : Prop :=
  ∀ c, ctxt = some c → CtxtOk sIdRemote c ∧ c.running = false

/-- No challenge is to be sent. -/
def CtxtQuiet (ctxt : Option ChallengeContext) : Prop := ∀ c, ctxt = some c → c.toSend = false

theorem CtxtOk.idle {sIdRemote : Bytes} {c : ChallengeContext}
    (hauth : ∀ key, c.auth = some key → key = ⟨authToDbId, key.login, sIdRemote⟩)
    (hrun : c.running = false) : CtxtIdle sIdRemote (some c) := by
  intro c' hc
  cases hc
  refine ⟨⟨hauth, ?_⟩, hrun⟩
  intro h
  rw [hrun] at h
  cases h

theorem CtxtIdle.ofNone (sIdRemote : Bytes) : CtxtIdle sIdRemote none := by
  intro c h
  cases h

/-! ### The search -/

/-- What the search over the logins comes to. -/
inductive Searched (E : Env) (its : List AuthItem) : Option ChallengeContext → Prop
  | /-- no challenge is due -/
    quiet {ctxt} (hctxt : CtxtIdle E.sIdRemote ctxt) (hquiet : CtxtQuiet ctxt)
      (hdue : ∀ it ∈ its, Peer.challengeDue E it.auth = false) : Searched E its ctxt
  | found {c it} (hit : it ∈ its) (hdue : Peer.challengeDue E it.auth = true)
      (hauth : c.auth = some ⟨authToDbId, it.login, E.sIdRemote⟩) (hto : c.toSend = true)
      (hrun : c.running = false) : Searched E its (some c)

theorem Searched.cons {E : Env} {it : AuthItem} {its : List AuthItem}
    {ctxt : Option ChallengeContext} (hdue : Peer.challengeDue E it.auth = false)
    (h : Searched E its ctxt) : Searched E (it :: its) ctxt := by
  cases h with
  | quiet hctxt hquiet hnone =>
    refine .quiet hctxt hquiet ?_
    intro it' hit'
    rcases List.mem_cons.mp hit' with rfl | hit'
    · exact hdue
    · exact hnone it' hit'
  | found hit hd hauth hto hrun => exact .found (List.mem_cons_of_mem _ hit) hd hauth hto hrun

/-- A login that was found stays. -/
theorem search_found {E : Env} {c : ChallengeContext} (hauth : c.auth.isSome)
    (hto : c.toSend = true) (its : List AuthItem) :
    its.foldl (Peer.searchLoginForChallenge E) (some c) = some c := by
  induction its with
  | nil => rfl
  | cons it its ih =>
    have hstep : Peer.searchLoginForChallenge E (some c) it = some c := by
      simp [Peer.searchLoginForChallenge, hauth, hto]
    rw [List.foldl_cons, hstep]
    exact ih

theorem searched {E : Env} {ctxt : Option ChallengeContext} (h : CtxtIdle E.sIdRemote ctxt)
    (hquiet : CtxtQuiet ctxt) (its : List AuthItem) :
    Searched E its (its.foldl (Peer.searchLoginForChallenge E) ctxt) := by
  induction its generalizing ctxt with
  | nil => exact .quiet h hquiet fun _ hit => nomatch hit
  | cons it its ih =>
    -- the context is freed or kept, and does not run either way
    obtain ⟨ctxt', hidle, hquiet', hstep⟩ : ∃ ctxt', CtxtIdle E.sIdRemote ctxt' ∧
        CtxtQuiet ctxt' ∧ Peer.searchLoginForChallenge E ctxt it =
          if Peer.challengeDue E it.auth then
            some { ctxt'.getD challengeCtxtNew with
              auth := some ⟨authToDbId, it.login, E.sIdRemote⟩, toSend := true }
          else ctxt' := by
      cases ctxt with
      | none => exact ⟨none, h, hquiet, rfl⟩
      | some c =>
        have hrun := (h c rfl).2
        have hto := hquiet c rfl
        by_cases hauth : c.auth.isSome
        · refine ⟨none, .ofNone _, ?_, ?_⟩
          · intro c h
            cases h
          · simp [Peer.searchLoginForChallenge, hrun, hto, hauth]
        · refine ⟨some c, h, hquiet, ?_⟩
          simp [Peer.searchLoginForChallenge, hauth]
    rw [List.foldl_cons, hstep]
    by_cases hdue : Peer.challengeDue E it.auth = true
    · rw [if_pos hdue, search_found rfl rfl]
      refine .found List.mem_cons_self hdue rfl rfl ?_
      cases ctxt' with
      | none => rfl
      | some c => exact (hidle c rfl).2
    · rw [if_neg hdue]
      exact (ih hidle hquiet').cons (by simpa using hdue)

/-! ### The challenge -/

/-- The challenge that `initiateChallenge` sends: one left to send, or one that it finds. -/
structure ToSend (E : Env) (p : Peer) (c : ChallengeContext) (key : AuthKey) : Prop where
  idle : CtxtIdle E.sIdRemote p.challengeCtxt
  running : c.running = false
  toSend : c.toSend = true
  auth : c.auth = some key
  remote : key = ⟨authToDbId, key.login, E.sIdRemote⟩
  origin : p.challengeCtxt = some c ∨
    ∃ it, p.db.authFindByKey key = some it ∧ Peer.challengeDue E it.auth = true

/-- A context for the entry, whose challenge does not run. -/
theorem ToSend.kept {E : Env} {p : Peer} {c c' : ChallengeContext} {key : AuthKey}
    (h : ToSend E p c key) (hauth : ∀ k, c'.auth = some k → k = key)
    (hrun : c'.running = c.running) : CtxtIdle E.sIdRemote (some c') := by
  apply CtxtOk.idle
  · intro k hk
    rw [hauth k hk]
    exact h.remote
  · rw [hrun]
    exact h.running

theorem ToSend.found {E : Env} {p : Peer} {c : ChallengeContext} {key : AuthKey}
    (h : ToSend E p c key) :
    CtxtIdle E.sIdRemote (some { freeChallengeContextMembers c with
      auth := (p.db.authFindByKey key).map fun _ => key }) := by
  apply h.kept
  · intro k hk
    obtain ⟨_, -, rfl⟩ := Option.map_eq_some_iff.mp hk
    rfl
  · rfl

theorem ToSend.recorded {E : Env} {p : Peer} {c : ChallengeContext} {key : AuthKey}
    (h : ToSend E p c key) (request ping : Option Nat) :
    CtxtIdle E.sIdRemote (some { c with
      auth := some key, mIdChangePwdRequest := request, mIdPing := ping }) := by
  apply h.kept
  · intro k hk
    cases hk
    rfl
  · rfl

/-- The frame that carries a challenge. -/
def challengeFrame (E : Env) (key : AuthKey) (auth : AuthEntry) (pwdB64 : Bytes) : Frame :=
  ⟨E.sIdLocal, key.login, [
    ⟨E.secret key .encrypt auth.pwd, .changePwdRequest E.uuid pwdB64⟩,
    ⟨getPassphraseForPwd E.sIdLocal key .encrypt auth.newPwd, .ping (E.uuid + 1) E.pad⟩]⟩

/-! ### What a challenge leaves

The context, the send queue and the entry after `initiateChallenge`: nothing, an `AllClear`, or a
challenge with its frame. Where it fails it may have recorded a new password, or marked the
context as running. -/

/-- What `initiateChallenge` does. -/
inductive Initiated (E : Env) (p : Peer) : Turn → Prop
  | /-- a challenge runs already -/
    running {c} (hctxt : p.challengeCtxt = some c) (hrun : c.running = true) :
      Initiated E p (.ok p)
  | /-- the process stops -/
    stopped : Initiated E p (.error p.saved)
  | /-- no challenge is due, and `AllClear` was sent -/
    quiet {ctxt} (hidle : CtxtIdle E.sIdRemote p.challengeCtxt)
      (hctxt : CtxtIdle E.sIdRemote ctxt) (hquiet : CtxtQuiet ctxt)
      (hsent : p.allClearSent = true) :
      Initiated E p (.ok { p with challengeCtxt := ctxt })
  | /-- no challenge is due -/
    allClear {ctxt} (hidle : CtxtIdle E.sIdRemote p.challengeCtxt)
      (hctxt : CtxtIdle E.sIdRemote ctxt) (hquiet : CtxtQuiet ctxt)
      (hsent : p.allClearSent = false)
      (hdue : ∀ it ∈ p.db.logins authToDbId E.sIdRemote, Peer.challengeDue E it.auth = false) :
      Initiated E p (.ok ({ p with challengeCtxt := ctxt }.sendAllClear E))
  | /-- the entry is unknown, inactive, or has no new password -/
    kept {c key} (hto : ToSend E p c key) :
      Initiated E p (.ok { p with
        challengeCtxt := some { freeChallengeContextMembers c with
          auth := (p.db.authFindByKey key).map fun _ => key } })
  | /-- the new password is saved, and the encoding fails -/
    recorded {c key it auth pwdB64 request ping} (hto : ToSend E p c key)
      (hit : p.db.authFindByKey key = some it)
      (hauth : authGetNewPwdB64 E.rand it.auth = .ok (auth, pwdB64)) :
      Initiated E p (.ok { p with
        db := p.db.modifyAuth key fun _ => auth, saved := p.db.modifyAuth key fun _ => auth
        challengeCtxt := some { c with
          auth := some key, mIdChangePwdRequest := request, mIdPing := ping } })
  | /-- an allocation of the encoding fails -/
    memory {key it auth pwdB64} (hE : E.failure = some .memory)
      (hit : p.db.authFindByKey key = some it)
      (hauth : authGetNewPwdB64 E.rand it.auth = .ok (auth, pwdB64)) :
      Initiated E p (.error (p.db.modifyAuth key fun _ => auth))
  | /-- the challenge is encoded, and not queued -/
    unqueued {c key it auth pwdB64} (hE : E.failure = some .queue) (hto : ToSend E p c key)
      (hit : p.db.authFindByKey key = some it)
      (hauth : authGetNewPwdB64 E.rand it.auth = .ok (auth, pwdB64)) :
      Initiated E p (.ok { p with
        db := p.db.modifyAuth key fun _ => auth, saved := p.db.modifyAuth key fun _ => auth
        challengeCtxt := some ⟨some key, true, true, some E.uuid, some (E.uuid + 1)⟩ })
  | /-- the challenge is queued -/
    sent {c key it auth pwdB64} (hto : ToSend E p c key)
      (hit : p.db.authFindByKey key = some it)
      (hauth : authGetNewPwdB64 E.rand it.auth = .ok (auth, pwdB64)) :
      Initiated E p (.ok { p with
        db := p.db.modifyAuth key fun _ => auth, saved := p.db.modifyAuth key fun _ => auth
        challengeCtxt := some ⟨some key, false, true, some E.uuid, some (E.uuid + 1)⟩
        sendQ := p.sendQ ++ [.challenge (challengeFrame E key auth pwdB64)] })

/-- What `initiateChallenge` does after the search. -/
theorem Peer.sendChallenge_toSend {E : Env} {p : Peer} {c : ChallengeContext} {key : AuthKey}
    (hto : ToSend E p c key) :
    Initiated E p ({ p with challengeCtxt := some c }.sendChallenge E) := by
  obtain ⟨auth?, toSend, running, mIdChangePwdRequest, mIdPing⟩ := c
  obtain rfl : toSend = true := hto.toSend
  obtain rfl : running = false := hto.running
  obtain rfl : auth? = some key := hto.auth
  have hfind : coderAuthFind p.db (some key.login) E.sIdRemote .encrypt =
      (p.db.authFindByKey key).map fun it => (key, it.auth) := by
    rw [hto.remote]
    rfl
  have hbusy : challengeBusy
      { p with challengeCtxt := some ⟨some key, true, false, mIdChangePwdRequest, mIdPing⟩ } =
        true := rfl
  rw [sendChallenge, hbusy, if_neg (not_not_intro rfl)]
  dsimp only
  rw [if_pos rfl, challengeEncode, if_neg Bool.false_ne_true]
  dsimp only
  rw [hfind]
  -- up to the new password, an error leaves the challenge to be sent
  have hkept := Initiated.kept hto
  cases hit : p.db.authFindByKey key with
  | none =>
    rw [hit] at hkept
    exact hkept
  | some it =>
    rw [hit] at hkept
    dsimp only [Option.map_some]
    by_cases hactive : it.auth.active = true
    · rw [if_neg (not_not_intro hactive)]
      cases hget : authGetNewPwdB64 E.rand it.auth with
      | abort => exact .stopped
      | err => exact hkept
      | ok r =>
        obtain ⟨auth, pwdB64⟩ := r
        dsimp only
        -- from here on the password is recorded, whatever fails
        have hrecorded := fun request ping =>
          @Initiated.recorded E p _ key it auth pwdB64 request ping hto hit hget
        by_cases hmemory : E.failure = some .memory
        · rw [if_pos hmemory]
          exact .memory hmemory hit hget
        rw [if_neg hmemory]
        by_cases hsecret : E.failure = some .secret
        · rw [if_pos hsecret]
          exact hrecorded none none
        rw [if_neg hsecret]
        by_cases hrequest : E.failure = some .request ∨
            ¬ messageCheckFields (.changePwdRequest E.uuid pwdB64)
        · rw [if_pos hrequest]
          exact hrecorded _ none
        rw [if_neg hrequest]
        by_cases hping : E.failure = some .ping ∨
            ¬ messageCheckFields (.ping (E.uuid + 1) E.pad) ∨ E.failure = some .frame
        · rw [if_pos hping]
          exact hrecorded _ _
        rw [if_neg hping]
        by_cases hqueue : E.failure = some .queue
        · show Initiated E p (if E.failure = some .queue then _ else _)
          rw [if_pos hqueue]
          exact .unqueued hqueue hto hit hget
        · show Initiated E p (if E.failure = some .queue then _ else _)
          rw [if_neg hqueue]
          exact .sent hto hit hget
    · rw [if_pos hactive]
      exact hkept

/-- A challenge that is not queued for lack of memory is marked both ways from then on, and
is not encoded again. -/
theorem Peer.sendChallenge_running {E : Env} {p : Peer} {c : ChallengeContext}
    (hctxt : p.challengeCtxt = some c) (hok : CtxtOk E.sIdRemote c) (hrun : c.running = true) :
    p.sendChallenge E = .ok p := by
  obtain ⟨key, hkey⟩ := Option.isSome_iff_exists.mp (hok.running hrun).1
  have hbusy : p.challengeBusy = true := by simp [challengeBusy, hctxt, hrun]
  simp [sendChallenge, hbusy, hctxt, hkey, challengeEncode, hrun]

theorem Peer.initiateChallenge_cases {E : Env} {p : Peer}
    (h : ∀ c, p.challengeCtxt = some c → CtxtOk E.sIdRemote c) :
    Initiated E p (p.initiateChallenge E) := by
  by_cases hbusy : p.challengeBusy = true
  · -- a challenge runs, or waits to be sent
    rw [initiateChallenge, searchChallenge, if_pos hbusy]
    obtain ⟨c, hc, hflags⟩ : ∃ c, p.challengeCtxt = some c ∧ (c.toSend || c.running) = true := by
      simpa [challengeBusy, Option.any_eq_true] using hbusy
    by_cases hrun : c.running = true
    · rw [sendChallenge_running hc (h c hc) hrun]
      exact .running hc hrun
    · have hrun : c.running = false := by simpa using hrun
      have hto : c.toSend = true := by simpa [hrun] using hflags
      have hidle : CtxtIdle E.sIdRemote p.challengeCtxt := by
        intro c' hc'
        rw [hc] at hc'
        cases hc'
        exact ⟨h c hc, hrun⟩
      cases hauth : c.auth with
      | none =>
        have : p.sendChallenge E = .error p.saved := by
          simp [sendChallenge, hbusy, hc, hto, hauth]
        rw [this]
        exact .stopped
      | some key =>
        have hsend := sendChallenge_toSend
          ⟨hidle, hrun, hto, hauth, (h c hc).auth key hauth, .inl hc⟩
        rw [← hc] at hsend
        exact hsend
  · have hflags : ∀ c, p.challengeCtxt = some c → c.toSend = false ∧ c.running = false := by
      intro c hc
      simpa [challengeBusy, hc] using hbusy
    have hidle : CtxtIdle E.sIdRemote p.challengeCtxt := fun c hc => ⟨h c hc, (hflags c hc).2⟩
    have hquiet : CtxtQuiet p.challengeCtxt := fun c hc => (hflags c hc).1
    have hsearched := searched hidle hquiet (p.db.logins authToDbId E.sIdRemote)
    rw [initiateChallenge, searchChallenge, if_neg hbusy]
    -- none: what the search over the logins has found
    revert hsearched
    generalize (p.db.logins authToDbId E.sIdRemote).foldl (searchLoginForChallenge E)
      p.challengeCtxt = ctxt
    intro hsearched
    cases hsearched with
    | quiet hctxt hquiet' hdue =>
      have hbusy' : challengeBusy { p with challengeCtxt := ctxt } = false := by
        cases ctxt with
        | none => rfl
        | some c => simp [challengeBusy, hquiet' c rfl, (hctxt c rfl).2]
      rw [sendChallenge, hbusy', if_pos Bool.false_ne_true]
      by_cases hsent : p.allClearSent = true
      · rw [if_pos hsent]
        exact .quiet hidle hctxt hquiet' hsent
      · rw [if_neg hsent]
        exact .allClear hidle hctxt hquiet' (by simpa using hsent) hdue
    | found hit hdue hauth hto hrun =>
      exact sendChallenge_toSend
        ⟨hidle, hrun, hto, hauth, rfl, .inr ⟨_, AuthDbs.mem_logins.mp hit, hdue⟩⟩

/-! ### A message that is processed

The cases are those of the switch on the type of the message. An answer that ends a challenge
looks for the next one in the same turn, so that the cases of `initiateChallenge` are part of
those here. -/

/-- The message is the answer that a challenge waits for. -/
def Answers (c : ChallengeContext) : Message → Prop
  | .changePwdResponse _ oMId status => status = true ∧ c.mIdChangePwdRequest = some oMId
  | .pong _ oMId _ => c.mIdPing = some oMId
  | _ => False

/-- What `cyber_process_internal_msg` does with a message. -/
inductive Processed (E : Env) (p : Peer) (authFrom : AuthKey) : Message → Turn → Prop
  | /-- an answer that nothing waits for, a switch that fails -/
    ignored {msg} : Processed E p authFrom msg (.ok p)
  | /-- the process stops -/
    stopped {msg} : Processed E p authFrom msg (.error p.saved)
  | allClear {mId} : Processed E p authFrom (.allClear mId) (.ok { p with
      allClearRxed := true
      events := p.events ++ if p.allClearSent then [.allClearExchanged] else [] })
  | /-- a request when busy, or that is not valid -/
    refused {mId pwd} : Processed E p authFrom (.changePwdRequest mId pwd)
      (.ok (p.sendMessage (.changePwdResponse E.uuid mId false) none))
  | accepted {mId pwd it auth} (hit : p.db.authFindByKey authFrom = some it)
      (hset : authSetPwdB64 E.now it.auth pwd = .ok auth) :
      Processed E p authFrom (.changePwdRequest mId pwd)
        (.ok ({ p with
          db := p.db.modifyAuth authFrom fun _ => auth
          saved := p.db.modifyAuth authFrom fun _ => auth }.sendMessage
            (.changePwdResponse E.uuid mId true) none))
  | ping {mId padding} : Processed E p authFrom (.ping mId padding)
      (.ok (p.sendMessage (.pong E.uuid mId padding) none))
  | /-- the remote was busy -/
    busy {mId oMId c r} (hctxt : p.challengeCtxt = some c) (hrun : c.running = true)
      (hid : c.mIdChangePwdRequest = some oMId)
      (hi : Initiated E { p with challengeCtxt := some { c with running := false } } r) :
      Processed E p authFrom (.changePwdResponse mId oMId false) r
  | /-- the switch, and the next challenge -/
    succeeded {msg c key it auth r} (hctxt : p.challengeCtxt = some c) (hrun : c.running = true)
      (hmsg : Answers c msg) (hauth : c.auth = some key)
      (hit : p.db.authFindByKey key = some it)
      (hswitch : authSwitchToNewPwd E.now it.auth = .ok auth)
      (hi : Initiated E { p with
        db := p.db.modifyAuth key fun _ => auth, saved := p.db.modifyAuth key fun _ => auth
        challengeCtxt := some { c with running := false }
        events := p.events ++ [.switched c] } r) :
      Processed E p authFrom msg r

theorem CtxtOk.ended {sIdRemote : Bytes} {c : ChallengeContext} (h : CtxtOk sIdRemote c) :
    CtxtIdle sIdRemote (some { c with running := false }) :=
  CtxtOk.idle h.auth rfl

theorem Peer.challengeSucceeds_cases {E : Env} {p : Peer} {authFrom : AuthKey} {msg : Message}
    {c : ChallengeContext} (hctxt : p.challengeCtxt = some c) (hok : CtxtOk E.sIdRemote c)
    (hrun : c.running = true) (hmsg : Answers c msg) :
    Processed E p authFrom msg (p.challengeSucceeds E c) := by
  unfold challengeSucceeds
  split
  · exact .stopped
  · next key hauth =>
    split
    · exact .stopped
    · exact .ignored
    · next p' hswitch =>
      obtain ⟨it, auth, hit, hop, rfl⟩ := onAuth_ok hswitch
      refine .succeeded hctxt hrun hmsg hauth hit hop (initiateChallenge_cases ?_)
      intro c' hc'
      exact (hok.ended c' hc').1

theorem Peer.cyberProcessInternalMsg_cases {E : Env} {p : Peer}
    (h : ∀ c, p.challengeCtxt = some c → CtxtOk E.sIdRemote c) (authFrom : AuthKey)
    (msg : Message) :
    Processed E p authFrom msg (p.cyberProcessInternalMsg E authFrom msg) := by
  cases msg with
  | allClear mId => exact .allClear
  | changePwdRequest mId pwd =>
    rw [cyberProcessInternalMsg]
    split
    · exact .refused
    · split
      · exact .stopped
      · exact .refused
      · next p' hset =>
        obtain ⟨it, auth, hit, hop, rfl⟩ := onAuth_ok hset
        exact .accepted hit hop
  | changePwdResponse mId oMId status =>
    rw [cyberProcessInternalMsg]
    split
    · exact .ignored
    · next c hctxt =>
      split
      · -- the answer is that of the challenge that runs
        next hc =>
        split
        · next hstatus =>
          subst hstatus
          exact challengeSucceeds_cases hctxt (h c hctxt) hc.1 ⟨rfl, hc.2⟩
        · next hstatus =>
          obtain rfl : status = false := by simpa using hstatus
          refine .busy hctxt hc.1 hc.2 (initiateChallenge_cases ?_)
          intro c' hc'
          exact ((h c hctxt).ended c' hc').1
      · exact .ignored
  | ping mId padding => exact .ping
  | pong mId oMId padding =>
    rw [cyberProcessInternalMsg]
    split
    · exact .ignored
    · next c hctxt =>
      split
      · next hc => exact challengeSucceeds_cases hctxt (h c hctxt) hc.1 hc.2
      · exact .ignored

theorem Peer.cyberReceiveInternal_cases {E : Env} {p : Peer}
    (h : ∀ c, p.challengeCtxt = some c → CtxtOk E.sIdRemote c) :
    p.internalQ = [] ∧ p.cyberReceiveInternal E = .ok p ∨
      ∃ e rest, p.internalQ = e :: rest ∧
        Processed E { p with internalQ := rest } e.1 e.2 (p.cyberReceiveInternal E) := by
  unfold cyberReceiveInternal
  split
  · next hq => exact .inl ⟨hq, rfl⟩
  · next authFrom msg rest hq =>
    refine .inr ⟨(authFrom, msg), rest, hq, ?_⟩
    dsimp only
    split
    · apply cyberProcessInternalMsg_cases
      exact h
    · exact .ignored

/-- What `cyber_send` does: a challenge goes as it is, a message is encrypted or lost. -/
inductive Sent (E : Env) (p : Peer) : Peer × Option Frame → Prop
  | nothing (hq : p.sendQ = []) : Sent E p (p, none)
  | challenge {f rest} (hq : p.sendQ = .challenge f :: rest) :
    Sent E p ({ p with sendQ := rest }, some f)
  | lost {msg login rest} (hq : p.sendQ = .message msg login :: rest) :
    Sent E p ({ p with sendQ := rest }, none)
  | message {msg login rest f} (hq : p.sendQ = .message msg login :: rest)
      (hf : encryptedEncode E.secret p.db E.sIdLocal login E.sIdRemote msg = some f) :
    Sent E p ({ p with sendQ := rest }, some f)

theorem Peer.cyberSend_cases (E : Env) (p : Peer) : Sent E p (p.cyberSend E) := by
  unfold cyberSend
  split
  · next hq => exact .nothing hq
  · next hq => exact .challenge hq
  · next msg login rest hq =>
    split
    · cases hf : encryptedEncode E.secret p.db E.sIdLocal login E.sIdRemote msg with
      | none => exact .lost hq
      | some f => exact .message hq hf
    · exact .lost hq

end RsmpGateway.Cyber
