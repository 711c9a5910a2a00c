import RsmpGateway.Cyber.Network

/-!
# The exchange of passwords as a rotation

From either side, the `to` entries for the other side, its `from` entries and the messages between
them are a rotation of secrets (`Net.rotation`). The rotation itself is in `Lib/Rotation.lean`,
where owner, holder and messages have nothing of this program; here its parts are read off two
peers.

* The **owner** is the side whose passwords for sending are renewed, the **holder** the one that
  accepts messages under them. Each side is the owner of one rotation and the holder of the other.
* A `ChangePwdRequest` is a change, a `Ping` a probe, the two identifiers of a challenge are its
  round. A `ChangePwdResponse` and a `Pong` are answers.
* A message is on its way from the moment it is queued: in the send queue, in the frames, in the
  queue of the reader. `requestsOf` and `answersOf` collect the three.

The lemmas of this module are about what every turn does besides: the peer stays in order, an entry
changes, messages are lost, a challenge starts. Messages that are processed and frames are in
`Cyber/Refinement.lean`.
-/

namespace RsmpGateway.Cyber

open RsmpGateway.Lib RsmpGateway.Crypt RsmpGateway.Auth RsmpGateway.Coder Rotation

/-! ## What the messages stand for

A message is read here without the entry that opened it: the login and the lock of its element
are those of the frame it came in. -/

/-- A message that is a request, with the login and the lock of its element. -/
def requestOf (login : Bytes) (lock : Option AuthPwd) : Message → Option (Request Bytes AuthPwd)
  | .changePwdRequest mId pwd => some (.change mId login ((base64Decode pwd).getD []))
  | .ping mId _ => some (.probe mId login lock)
  | _ => none

/-- The request that a message answers, and how. -/
def answerOf : Message → Option (Nat × Bool)
  | .changePwdResponse _ oMId status => some (oMId, status)
  | .pong _ oMId _ => some (oMId, true)
  | _ => none

/-- The password inside a passphrase. -/
def passwordOf (before after passphrase : Bytes) : AuthPwd :=
  (passphrase.drop before.length).take (passphrase.length - before.length - after.length)

theorem passwordOf_append (before pwd after : Bytes) :
    passwordOf before after (before ++ pwd ++ after) = pwd := by
  have hlen : (before ++ pwd ++ after).length - before.length - after.length = pwd.length := by
    simp only [List.length_append]
    omega
  rw [passwordOf, hlen, List.append_assoc, List.drop_left, List.take_left]

variable (C : Site)

/-- The requests of a frame written by `s`. -/
def frameRequests (s : Side) (f : Frame) : List (Request Bytes AuthPwd) :=
  f.data.filterMap fun e =>
    requestOf f.login (some (passwordOf (C.sId s ++ f.login) (C.sId s.remote) e.passphrase)) e.msg

def queuedRequests (s : Side) : QueueMsg → List (Request Bytes AuthPwd)
  | .challenge f => frameRequests C s f
  | .message _ _ => []

def readRequest (e : AuthKey × Message) : Option (Request Bytes AuthPwd) :=
  requestOf e.1.login none e.2

def frameAnswers (f : Frame) : List (Nat × Bool) := f.data.filterMap fun e => answerOf e.msg

def queuedAnswers : QueueMsg → List (Nat × Bool)
  | .challenge f => frameAnswers f
  | .message msg _ => (answerOf msg).toList

/-! ## The rotation

The rotation is a function of the state of the two peers. Nothing is recorded beside them, so
that a step of the peers determines the step of the rotation. -/

/-- The round of a challenge that runs. -/
def runningRound (ctxt : Option ChallengeContext) : Option (Bytes × Nat × Nat) :=
  ctxt.bind fun c =>
    if c.running then
      match c.auth, c.mIdChangePwdRequest, c.mIdPing with
      | some key, some request, some ping => some (key.login, request, ping)
      | _, _, _ => none
    else none

/-- The new password of an entry that waits for it. -/
def pendingPwd (auth : AuthEntry) : Option AuthPwd :=
  if auth.newPwdPending then some auth.newPwd else none

def currentPwd (auth : AuthEntry) : Option AuthPwd := some auth.pwd

/-- What the entries under one id give, for each login. -/
def perLogin {α : Type} (db : AuthDbs) (dbId sId : Bytes) (g : AuthEntry → Option α)
    (login : Bytes) : Option α :=
  (db.authFindByKey ⟨dbId, login, sId⟩).bind (g ·.auth)

/-- The requests of `s`, from the oldest: read by `h`, on their way, queued by `o`. -/
def requestsOf (s : Side) (o h : Peer) (fwd : List Frame) : List (Request Bytes AuthPwd) :=
  h.internalQ.filterMap readRequest ++ fwd.flatMap (frameRequests C s) ++
    o.sendQ.flatMap (queuedRequests C s)

/-- The answers to `o`, from the oldest. -/
def answersOf (o h : Peer) (bwd : List Frame) : List (Nat × Bool) :=
  o.internalQ.filterMap (fun e => answerOf e.2) ++ bwd.flatMap frameAnswers ++
    h.sendQ.flatMap queuedAnswers

/-- The rotation of the passwords of `s`: owner `o`, holder `h`, frames from and to the
owner. -/
def rotationOf (s : Side) (o h : Peer) (fwd bwd : List Frame) (uuid : Nat) :
    Rotation Bytes AuthPwd where
  up := o.up
  current := perLogin o.db authToDbId (C.sId s.remote) currentPwd
  pending := perLogin o.db authToDbId (C.sId s.remote) pendingPwd
  held := perLogin h.db authFromDbId (C.sId s) currentPwd
  running := runningRound o.challengeCtxt
  requests := requestsOf C s o h fwd
  answers := answersOf o h bwd
  next := uuid

def Net.rotation (n : Net) (s : Side) : Rotation Bytes AuthPwd :=
  rotationOf C s (n.peer s) (n.peer s.remote) (n.chan s) (n.chan s.remote) n.uuid

/-! ## Peers of a network

What a peer keeps whatever comes in, with no word about the other side: the file it would load at
a restart is its store, and its queues hold messages with its own name on them. -/

/-- What every peer of a network keeps: its file is its store, its messages are its own. -/
structure PeerOk (s : Side) (p : Peer) : Prop where
  saved : p.saved = p.db
  ctxt : ∀ c, p.challengeCtxt = some c → CtxtOk (C.sId s.remote) c
  queued : ∀ msg login, QueueMsg.message msg login ∈ p.sendQ → ∀ l k, requestOf l k msg = none
  frames : ∀ f, QueueMsg.challenge f ∈ p.sendQ → f.sId = C.sId s
  read : ∀ e ∈ p.internalQ, e.1 = ⟨authFromDbId, e.1.login, C.sId s.remote⟩

structure NetOk (n : Net) : Prop where
  peer : ∀ s, PeerOk C s (n.peer s)
  chan : ∀ s, ∀ f ∈ n.chan s, f.sId = C.sId s

variable {C}

/-- A turn on side `s` with the next identifier `uuid`. -/
structure EnvOk (C : Site) (s : Side) (uuid : Nat) (E : Env) : Prop where
  sIdLocal : E.sIdLocal = C.sId s
  sIdRemote : E.sIdRemote = C.sId s.remote
  uuid : E.uuid = uuid
  allocates : ∀ f, E.failure = some f → f.ofMemory = false

theorem EnvOk.memory {s : Side} {uuid : Nat} {E : Env} (h : EnvOk C s uuid E) :
    E.failure ≠ some .memory :=
  fun hE => absurd (h.allocates _ hE) (by decide)

theorem EnvOk.queue {s : Side} {uuid : Nat} {E : Env} (h : EnvOk C s uuid E) :
    E.failure ≠ some .queue :=
  fun hE => absurd (h.allocates _ hE) (by decide)

theorem CtxtIdle.ok {sIdRemote : Bytes} {ctxt : Option ChallengeContext}
    (h : CtxtIdle sIdRemote ctxt) : ∀ c, ctxt = some c → CtxtOk sIdRemote c :=
  fun c hc => (h c hc).1

theorem runningRound_idle {sIdRemote : Bytes} {ctxt : Option ChallengeContext}
    (h : CtxtIdle sIdRemote ctxt) : runningRound ctxt = none := by
  cases ctxt with
  | none => rfl
  | some c => simp [runningRound, (h c rfl).2]

/-! ### Peers that start and stop

A peer that starts, stops or starts again from its file keeps what every peer keeps: the two
copies of its store are equal, and no message is half on its way. -/

theorem PeerOk.ofStart {s : Side} {p : Peer} (h : p.saved = p.db) : PeerOk C s p.start where
  saved := h
  ctxt := (CtxtOk.idle (fun _ h => nomatch h) rfl : CtxtIdle _ (some challengeCtxtNew)).ok
  queued _ _ h := nomatch h
  frames _ h := nomatch h
  read _ h := nomatch h

theorem PeerOk.ofStop {s : Side} {p : Peer} (h : p.saved = p.db) : PeerOk C s p.stop where
  saved := h
  ctxt _ h := nomatch h
  queued _ _ h := nomatch h
  frames _ h := nomatch h
  read _ h := nomatch h

theorem PeerOk.ofRestart (s : Side) (file : AuthDbs) : PeerOk C s (.restart file) where
  saved := rfl
  ctxt _ h := nomatch h
  queued _ _ h := nomatch h
  frames _ h := nomatch h
  read _ h := nomatch h

theorem PeerOk.sendMessage {s : Side} {p : Peer} (h : PeerOk C s p) (msg : Message)
    (hmsg : ∀ l k, requestOf l k msg = none) (login : Option Bytes) :
    PeerOk C s (p.sendMessage msg login) := by
  unfold Peer.sendMessage
  split
  · constructor
    · exact h.saved
    · exact h.ctxt
    · intro msg' login' hmem
      rcases List.mem_append.mp hmem with hmem | hmem
      · exact h.queued msg' login' hmem
      · obtain ⟨rfl, -⟩ : msg' = msg ∧ login' = login := by simpa using hmem
        exact hmsg
    · intro f hmem
      rcases List.mem_append.mp hmem with hmem | hmem
      · exact h.frames f hmem
      · simp at hmem
    · exact h.read
  · exact h

theorem PeerOk.initiated {s : Side} {uuid : Nat} {E : Env} {p p' : Peer} (h : PeerOk C s p)
    (hE : EnvOk C s uuid E) (hi : Initiated E p (.ok p')) : PeerOk C s p' := by
  cases hi with
  | running => exact h
  | quiet _ hctxt =>
    rw [hE.sIdRemote] at hctxt
    exact { h with ctxt := hctxt.ok }
  | allClear _ hctxt =>
    rw [hE.sIdRemote] at hctxt
    have := h.sendMessage (.allClear E.uuid) (fun _ _ => rfl) none
    exact { this with ctxt := hctxt.ok }
  | kept hto =>
    have hctxt := hto.found
    rw [hE.sIdRemote] at hctxt
    exact { h with ctxt := hctxt.ok }
  | @recorded _ _ _ _ _ request ping hto =>
    have hctxt := hto.recorded request ping
    rw [hE.sIdRemote] at hctxt
    exact { h with saved := rfl, ctxt := hctxt.ok }
  | unqueued hmem => exact absurd hmem hE.queue
  | sent hto =>
    have hkey := hto.remote
    rw [hE.sIdRemote] at hkey
    constructor
    · rfl
    · intro c hc
      cases hc
      refine ⟨?_, fun _ => ⟨rfl, rfl, rfl⟩⟩
      intro key' hk
      cases hk
      exact hkey
    · intro msg login hmem
      rcases List.mem_append.mp hmem with hmem | hmem
      · exact h.queued msg login hmem
      · simp at hmem
    · intro f hmem
      rcases List.mem_append.mp hmem with hmem | hmem
      · exact h.frames f hmem
      · obtain rfl : f = _ := by simpa using hmem
        exact hE.sIdLocal
    · exact h.read

/-! ## Entries that change

A turn changes one entry at most. The rotation looks at all entries under one id, login by login,
and an entry of another database, or of another id, is not in it. -/

section Entries

variable {s : Side} {db : AuthDbs} {key : AuthKey} {auth : AuthEntry}

theorem dbIds_ne : authToDbId ≠ authFromDbId := by decide

variable {α : Type} {g : AuthEntry → Option α} {dbId sId : Bytes}

/-- A change of an entry of another database is not seen. -/
theorem perLogin_of_ne (h : dbId ≠ key.dbId) (f : AuthEntry → AuthEntry) :
    perLogin (db.modifyAuth key f) dbId sId g = perLogin db dbId sId g := by
  funext login
  rw [perLogin, AuthDbs.authFindByKey_modifyAuth, if_neg]
  · rfl
  · rintro rfl
    exact h rfl

/-- An entry changes. -/
theorem perLogin_modifyAuth {it : AuthItem}
    (hkey : key = ⟨dbId, key.login, sId⟩) (hit : db.authFindByKey key = some it) :
    perLogin (db.modifyAuth key fun _ => auth) dbId sId g =
      Function.update (perLogin db dbId sId g) key.login (g auth) := by
  funext login
  rw [perLogin, AuthDbs.authFindByKey_modifyAuth]
  by_cases hl : login = key.login
  · subst hl
    rw [if_pos hkey.symm, hit, Function.update_self]
    rfl
  · rw [Function.update_of_ne hl, if_neg]
    · rfl
    · intro h
      rw [← h] at hl
      exact hl rfl

theorem perLogin_find {it : AuthItem} (hkey : key = ⟨dbId, key.login, sId⟩)
    (hit : db.authFindByKey key = some it) : perLogin db dbId sId g key.login = g it.auth := by
  rw [perLogin, ← hkey, hit]
  rfl

/-- An entry changes, and gives the same. -/
theorem perLogin_modifyAuth_same (g : AuthEntry → Option α) {it : AuthItem}
    (hkey : key = ⟨dbId, key.login, sId⟩) (hit : db.authFindByKey key = some it)
    (hg : g auth = g it.auth) :
    perLogin (db.modifyAuth key fun _ => auth) dbId sId g = perLogin db dbId sId g := by
  rw [perLogin_modifyAuth hkey hit, Function.update_eq_self_iff, hg, perLogin_find hkey hit]

/-- The entries of a database under one id are the same in two stores. -/
def SameUnder (dbId sId : Bytes) (db' db : AuthDbs) : Prop :=
  ∀ g : AuthEntry → Option AuthPwd, perLogin db' dbId sId g = perLogin db dbId sId g

theorem SameUnder.of_eq {db' : AuthDbs} (h : db' = db) : SameUnder dbId sId db' db := by
  intro g
  rw [h]

theorem SameUnder.of_ne (h : dbId ≠ key.dbId) (f : AuthEntry → AuthEntry) :
    SameUnder dbId sId (db.modifyAuth key f) db :=
  fun _ => perLogin_of_ne h f

end Entries

/-! ## Lost messages

Losing messages is a step of the rotation of its own, so that a turn may be a loss and more. A
connection that ends, a frame that is refused and a process that stops all come down to it. -/

section Loss

variable {s : Side} {o o' h h' : Peer} {fwd fwd' bwd bwd' : List Frame} {uuid uuid' : Nat}

/-- Stores that stay, and messages that are lost at most. -/
theorem rotation_loss (ho : SameUnder authToDbId (C.sId s.remote) o'.db o.db)
    (hh : SameUnder authFromDbId (C.sId s) h'.db h.db)
    (hup : o'.up = o.up) (hr : runningRound o'.challengeCtxt = runningRound o.challengeCtxt)
    (hq : (requestsOf C s o' h' fwd').Sublist (requestsOf C s o h fwd))
    (ha : answersOf o' h' bwd' ⊆ answersOf o h bwd) (hu : uuid ≤ uuid') :
    Steps (rotationOf C s o h fwd bwd uuid) (rotationOf C s o' h' fwd' bwd' uuid') := by
  apply Relation.ReflTransGen.single
  apply Step.loss
  · exact ho currentPwd
  · exact ho pendingPwd
  · exact hh currentPwd
  · exact hup
  · exact hr
  · exact hq
  · exact ha
  · exact hu

theorem answersOf_subset (ho : ∀ e ∈ o'.internalQ, e ∈ o.internalQ) (hb : ∀ f ∈ bwd', f ∈ bwd)
    (hh : ∀ m ∈ h'.sendQ, m ∈ h.sendQ) : answersOf o' h' bwd' ⊆ answersOf o h bwd := by
  intro i hi
  simp only [answersOf, List.mem_append, List.mem_filterMap, List.mem_flatMap] at hi ⊢
  rcases hi with (⟨e, he, hi⟩ | ⟨f, hf, hi⟩) | ⟨m, hm, hi⟩
  · exact .inl (.inl ⟨e, ho e he, hi⟩)
  · exact .inl (.inr ⟨f, hb f hf, hi⟩)
  · exact .inr ⟨m, hh m hm, hi⟩

theorem requestsOf_sublist (hh : h'.internalQ.Sublist h.internalQ) (hf : fwd'.Sublist fwd)
    (ho : o'.sendQ.Sublist o.sendQ) :
    (requestsOf C s o' h' fwd').Sublist (requestsOf C s o h fwd) :=
  ((hh.filterMap _).append (hf.flatMap _)).append (ho.flatMap _)

/-- The owner leaves. -/
theorem owner_leaves (hdb : o'.db = o.db) (hup : o'.up = false) (hctxt : o'.challengeCtxt = none)
    (hs : o'.sendQ = []) (hi : o'.internalQ = []) (hu : uuid ≤ uuid') :
    Steps (rotationOf C s o h fwd bwd uuid) (rotationOf C s o' h fwd [] uuid') := by
  apply Relation.ReflTransGen.single
  apply Step.departure
  · exact SameUnder.of_eq hdb currentPwd
  · exact SameUnder.of_eq hdb pendingPwd
  · rfl
  · exact hup
  · show runningRound o'.challengeCtxt = none
    rw [hctxt]
    rfl
  · apply requestsOf_sublist (List.Sublist.refl _) (List.Sublist.refl _)
    rw [hs]
    exact List.nil_sublist _
  · apply answersOf_subset
    · rw [hi]
      exact fun _ h => nomatch h
    · exact fun _ h => nomatch h
    · exact fun _ h => h
  · exact hu

/-- The holder leaves. -/
theorem holder_leaves (hdb : h'.db = h.db) (hs : h'.sendQ = []) (hi : h'.internalQ = [])
    (hu : uuid ≤ uuid') :
    Steps (rotationOf C s o h fwd bwd uuid) (rotationOf C s o h' [] bwd uuid') := by
  apply rotation_loss (.of_eq rfl) (.of_eq hdb) rfl rfl _ _ hu
  · apply requestsOf_sublist _ (List.nil_sublist _) (List.Sublist.refl _)
    rw [hi]
    exact List.nil_sublist _
  · apply answersOf_subset
    · exact fun _ h => h
    · exact fun _ h => h
    · rw [hs]
      exact fun _ h => nomatch h

end Loss

/-! ## The start of a challenge

The owner draws a password, records it as pending and queues a frame with the change and the
probe. Where the recording fails, or the frame cannot be queued, the round has no messages; the
rotation counts it as lost at once. -/

/-- The rotation of the owner after a turn of it. -/
def ownerTurn (C : Site) (s : Side) (h : Peer) (fwd bwd : List Frame) (uuid : Nat) : Turn →
    Rotation Bytes AuthPwd
  | .ok o' => rotationOf C s o' h fwd bwd uuid
  | .error file => rotationOf C s (.restart file) h fwd [] uuid

/-- The rotation of the owner after a turn of the holder. -/
def holderTurn (C : Site) (s : Side) (o : Peer) (fwd bwd : List Frame) (uuid : Nat) : Turn →
    Rotation Bytes AuthPwd
  | .ok h' => rotationOf C s o h' fwd bwd uuid
  | .error file => rotationOf C s o (.restart file) [] bwd uuid

/-! ### Messages that are queued

`_sendMessage` adds to the send queue and leaves the rest, as does what it stands for in the
rotation. -/

theorem sendQ_sendMessage (p : Peer) (msg : Message) (login : Option Bytes) :
    (p.sendMessage msg login).sendQ = p.sendQ ∨
      (p.sendMessage msg login).sendQ = p.sendQ ++ [.message msg login] := by
  unfold Peer.sendMessage
  split
  · exact .inr rfl
  · exact .inl rfl

theorem db_sendMessage (p : Peer) (msg : Message) (login : Option Bytes) :
    (p.sendMessage msg login).db = p.db := by
  unfold Peer.sendMessage
  split <;> rfl

theorem challengeCtxt_sendMessage (p : Peer) (msg : Message) (login : Option Bytes) :
    (p.sendMessage msg login).challengeCtxt = p.challengeCtxt := by
  unfold Peer.sendMessage
  split <;> rfl

theorem up_sendMessage (p : Peer) (msg : Message) (login : Option Bytes) :
    (p.sendMessage msg login).up = p.up := by
  unfold Peer.sendMessage
  split <;> rfl

theorem internalQ_sendMessage (p : Peer) (msg : Message) (login : Option Bytes) :
    (p.sendMessage msg login).internalQ = p.internalQ := by
  unfold Peer.sendMessage
  split <;> rfl

theorem requests_sendMessage (s : Side) (p : Peer) (msg : Message) (login : Option Bytes) :
    (p.sendMessage msg login).sendQ.flatMap (queuedRequests C s) =
      p.sendQ.flatMap (queuedRequests C s) := by
  rcases sendQ_sendMessage p msg login with h | h
  · rw [h]
  · simp [h, queuedRequests]

theorem answers_sendMessage (p : Peer) (msg : Message) (login : Option Bytes) :
    (p.sendMessage msg login).sendQ.flatMap queuedAnswers ⊆
      p.sendQ.flatMap queuedAnswers ++ (answerOf msg).toList := by
  rcases sendQ_sendMessage p msg login with h | h
  · rw [h]
    exact List.subset_append_left _ _
  · simp [h, queuedAnswers]

section Initiate

variable {s : Side} {o h : Peer} {fwd bwd : List Frame} {uuid : Nat} {E : Env}

/-- The owner looks for a challenge: nothing runs, and nothing is asked. -/
theorem owner_searches {o' : Peer} {sIdRemote : Bytes}
    (hidle : CtxtIdle sIdRemote o.challengeCtxt) (hctxt : CtxtIdle sIdRemote o'.challengeCtxt)
    (hup : o'.up = o.up) (hdb : SameUnder authToDbId (C.sId s.remote) o'.db o.db)
    (hi : o'.internalQ = o.internalQ)
    (hs : o'.sendQ.flatMap (queuedRequests C s) = o.sendQ.flatMap (queuedRequests C s))
    {uuid' : Nat} (hu : uuid ≤ uuid') :
    Steps (rotationOf C s o h fwd bwd uuid) (rotationOf C s o' h fwd bwd uuid') := by
  apply rotation_loss hdb (.of_eq rfl) hup
  · exact (runningRound_idle hctxt).trans (runningRound_idle hidle).symm
  · rw [requestsOf, requestsOf, hs]
  · rw [answersOf, answersOf, hi]
    exact List.Subset.refl _
  · exact hu

/-- The new password is recorded, when there was none. -/
theorem owner_records {key : AuthKey} {it : AuthItem} {auth : AuthEntry} {pwdB64 : Bytes}
    (hidle : runningRound o.challengeCtxt = none)
    (hkey : key = ⟨authToDbId, key.login, C.sId s.remote⟩)
    (hit : o.db.authFindByKey key = some it)
    (hauth : authGetNewPwdB64 E.rand it.auth = .ok (auth, pwdB64)) :
    Steps (rotationOf C s o h fwd bwd uuid)
      (rotationOf C s { o with db := o.db.modifyAuth key fun _ => auth } h fwd bwd uuid) := by
  obtain ⟨-, -, hauth', hkept⟩ := authGetNewPwdB64_ok hauth
  have hpending : pendingPwd auth = some auth.newPwd := by
    rw [hauth', pendingPwd, if_pos rfl]
  have hcurrent := perLogin_modifyAuth_same currentPwd hkey hit
    (show currentPwd auth = currentPwd it.auth by rw [hauth']; rfl)
  by_cases hold : it.auth.newPwdPending = true
  · -- the password already recorded is kept
    apply Relation.ReflTransGen.single
    apply Step.loss hcurrent
    · apply perLogin_modifyAuth_same pendingPwd hkey hit
      rw [hpending, pendingPwd, if_pos hold, hkept hold]
    · rfl
    · rfl
    · rfl
    · exact List.Sublist.refl _
    · exact List.Subset.refl _
    · exact Nat.le_refl _
  · have hnone : (rotationOf C s o h fwd bwd uuid).pending key.login = none := by
      apply (perLogin_find hkey hit).trans
      rw [pendingPwd, if_neg hold]
    have hstep := Step.propose (p := auth.newPwd) hidle hnone
    apply Relation.ReflTransGen.single
    convert hstep using 1
    simp only [rotationOf, Rotation.mk.injEq, hcurrent, true_and]
    refine ⟨?_, rfl, rfl, trivial⟩
    rw [← hpending]
    exact perLogin_modifyAuth hkey hit

/-- The requests of the frame of a challenge. -/
theorem frameRequests_challengeFrame (hE : EnvOk C s uuid E) {key : AuthKey}
    (hkey : key = ⟨authToDbId, key.login, C.sId s.remote⟩) {auth : AuthEntry} :
    frameRequests C s (challengeFrame E key auth (base64Encode auth.newPwd)) =
      [.change uuid key.login auth.newPwd, .probe (uuid + 1) key.login (some auth.newPwd)] := by
  have hpass : passwordOf (C.sId s ++ key.login) (C.sId s.remote)
      (getPassphraseForPwd E.sIdLocal key .encrypt auth.newPwd) = auth.newPwd := by
    have hsId : key.sId = C.sId s.remote := by rw [hkey]
    rw [getPassphraseForPwd, hE.sIdLocal, hsId]
    exact passwordOf_append ..
  simp only [frameRequests, challengeFrame, List.filterMap_cons, List.filterMap_nil, requestOf,
    base64Decode_base64Encode, Option.getD_some, hpass, hE.uuid]

/-- The owner starts a challenge, or stops. -/
theorem owner_initiates {r : Turn} (hE : EnvOk C s uuid E) (ho : PeerOk C s o)
    (hi : Initiated E o r) :
    Steps (rotationOf C s o h fwd bwd uuid) (ownerTurn C s h fwd bwd (uuid + 2) r) := by
  have hu : uuid ≤ uuid + 2 := by omega
  cases hi with
  | running =>
    show Steps _ (rotationOf C s o h fwd bwd (uuid + 2))
    exact rotation_loss (.of_eq rfl) (.of_eq rfl) rfl rfl (List.Sublist.refl _)
      (List.Subset.refl _) hu
  | stopped => exact owner_leaves ho.saved rfl rfl rfl rfl hu
  | quiet hidle hctxt =>
    show Steps _ (rotationOf C s _ h fwd bwd (uuid + 2))
    apply owner_searches hidle
    · exact hctxt
    · rfl
    · exact .of_eq rfl
    · rfl
    · rfl
    · exact hu
  | allClear hidle hctxt =>
    show Steps _ (rotationOf C s (Peer.sendAllClear E _) h fwd bwd (uuid + 2))
    apply owner_searches hidle
    · exact (challengeCtxt_sendMessage ..).symm ▸ hctxt
    · exact up_sendMessage ..
    · exact .of_eq (db_sendMessage ..)
    · exact internalQ_sendMessage ..
    · exact requests_sendMessage ..
    · exact hu
  | kept hto =>
    show Steps _ (rotationOf C s _ h fwd bwd (uuid + 2))
    apply owner_searches hto.idle
    · exact hto.found
    · rfl
    · exact .of_eq rfl
    · rfl
    · rfl
    · exact hu
  | @recorded c key _ auth _ _ _ hto hit hauth =>
    have hkey := hto.remote
    rw [hE.sIdRemote] at hkey
    -- the password is recorded and nothing is sent: a proposal without a round
    apply (owner_records (runningRound_idle hto.idle) hkey hit hauth).trans
    show Steps _ (rotationOf C s _ h fwd bwd (uuid + 2))
    have hidle : CtxtIdle E.sIdRemote
        { o with db := o.db.modifyAuth key fun _ => auth }.challengeCtxt := hto.idle
    apply owner_searches hidle
    · exact hto.recorded _ _
    · rfl
    · exact .of_eq rfl
    · rfl
    · rfl
    · exact hu
  | memory hmem => exact absurd hmem hE.memory
  | unqueued hmem => exact absurd hmem hE.queue
  | @sent c key it auth pwdB64 hto hit hauth =>
    have hidle := hto.idle
    have hkey := hto.remote
    rw [hE.sIdRemote] at hkey
    -- the password is recorded, then the round of the two identifiers is issued
    apply (owner_records (runningRound_idle hidle) hkey hit hauth).tail
    obtain ⟨-, rfl, hauth', -⟩ := authGetNewPwdB64_ok hauth
    have hpending : pendingPwd auth = some auth.newPwd := by
      rw [hauth', pendingPwd, if_pos rfl]
    have hp : (rotationOf C s { o with db := o.db.modifyAuth key fun _ => auth } h fwd bwd
        uuid).pending key.login = some auth.newPwd := by
      rw [← hpending]
      show perLogin (o.db.modifyAuth key fun _ => auth) _ _ pendingPwd _ = _
      rw [perLogin_modifyAuth hkey hit, Function.update_self]
    have hstep := Step.issue (runningRound_idle hidle) hp (Nat.le_refl uuid)
      (Nat.lt_succ_self uuid) (Nat.lt_succ_self (uuid + 1))
    convert hstep using 1
    simp only [ownerTurn, rotationOf, Rotation.mk.injEq, true_and]
    refine ⟨?_, ?_, ?_⟩
    · simp [runningRound, hE.uuid]
    · simp only [requestsOf, List.flatMap_append, List.flatMap_cons, List.flatMap_nil,
        List.append_nil, List.append_assoc, queuedRequests, frameRequests_challengeFrame hE hkey]
    · exact ⟨rfl, trivial⟩

/-- The holder looks for a challenge of its own: it answers nothing. -/
theorem holder_searches {h' : Peer} (hdb : SameUnder authFromDbId (C.sId s) h'.db h.db)
    (hi : h'.internalQ = h.internalQ)
    (hs : h'.sendQ.flatMap queuedAnswers ⊆ h.sendQ.flatMap queuedAnswers)
    {uuid' : Nat} (hu : uuid ≤ uuid') :
    Steps (rotationOf C s o h fwd bwd uuid) (rotationOf C s o h' fwd bwd uuid') := by
  apply rotation_loss (.of_eq rfl) hdb rfl rfl
  · apply requestsOf_sublist _ (List.Sublist.refl _) (List.Sublist.refl _)
    rw [hi]
  · intro i hmem
    simp only [answersOf, List.mem_append] at hmem ⊢
    exact hmem.imp_right (hs ·)
  · exact hu

/-- The holder starts a challenge of its own, or stops. -/
theorem holder_initiates {r : Turn} (hE : EnvOk C s.remote uuid E) (hh : h.saved = h.db)
    (hi : Initiated E h r) :
    Steps (rotationOf C s o h fwd bwd uuid) (holderTurn C s o fwd bwd (uuid + 2) r) := by
  have hu : uuid ≤ uuid + 2 := by omega
  cases hi with
  | running =>
    show Steps _ (rotationOf C s o h fwd bwd (uuid + 2))
    exact holder_searches (.of_eq rfl) rfl (List.Subset.refl _) hu
  | stopped => exact holder_leaves hh rfl rfl hu
  | quiet =>
    show Steps _ (rotationOf C s o _ fwd bwd (uuid + 2))
    exact holder_searches (.of_eq rfl) rfl (List.Subset.refl _) hu
  | allClear =>
    show Steps _ (rotationOf C s o (Peer.sendAllClear E _) fwd bwd (uuid + 2))
    apply holder_searches
    · exact .of_eq (db_sendMessage ..)
    · exact internalQ_sendMessage ..
    · apply List.Subset.trans (answers_sendMessage _ (.allClear E.uuid) none)
      simp [answerOf]
    · exact hu
  | kept =>
    show Steps _ (rotationOf C s o _ fwd bwd (uuid + 2))
    exact holder_searches (.of_eq rfl) rfl (List.Subset.refl _) hu
  | recorded hto =>
    show Steps _ (rotationOf C s o _ fwd bwd (uuid + 2))
    apply holder_searches
    · apply SameUnder.of_ne
      rw [hto.remote]
      exact dbIds_ne.symm
    · rfl
    · exact List.Subset.refl _
    · exact hu
  | memory hmem => exact absurd hmem hE.memory
  | unqueued hmem => exact absurd hmem hE.queue
  | sent hto =>
    show Steps _ (rotationOf C s o _ fwd bwd (uuid + 2))
    apply holder_searches
    · apply SameUnder.of_ne
      rw [hto.remote]
      exact dbIds_ne.symm
    · rfl
    · simp [queuedAnswers, frameAnswers, challengeFrame, answerOf]
    · exact hu

end Initiate

end RsmpGateway.Cyber
