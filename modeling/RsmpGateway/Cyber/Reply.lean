import RsmpGateway.Cyber.Agreement

/-!
# Replies to challenges

The response to a change and the pong are queued without a login. The task that sends them takes
the first login of the sender, whatever its own challenge does with it: a reply that follows the
challenge on the same login may reach a remote that has changed the password. As long as no reply
is encrypted with the login of a challenge that has left the queue, every reply can be read
(`ReplyInv.readable`).

The invariant is about what a frame meets on its way. A reply is *legible* when the remote holds
the password it was sealed with and no change of that password comes before it; `Legible` says
this of a sequence of frames, with the logins that are changed by what was read before.

The keys here are derived from the passwords. What a cached key does to the same replies is the
subject of `Cyber/Vault.lean` and `Cyber/VaultNet.lean`, which end with the theorem on them.
-/

namespace RsmpGateway.Cyber

open RsmpGateway.Lib RsmpGateway.Auth RsmpGateway.Coder Rotation

variable {C : Site} {n n' : Net}

/-! ## Sessions

Two peers from the moment they are connected. A new connection is a new start, since nothing is
on the way then. -/

/-- Two peers that have just made a connection. -/
def Net.connected (n : Net) : Net :=
  { n with peer := fun s => (n.peer s).start, chan := fun _ => [] }

/-- The step is not a new connection. -/
def NetOp.stays : NetOp → Bool
  | connect => false
  | _ => true

/-- Each password for sending is that of the other side for receiving. -/
def Net.StoresAgree (C : Site) (n : Net) : Prop :=
  ∀ s login tx, n.toEntry C s login = some tx →
    ∃ rx, n.fromEntry C s login = some rx ∧ rx.pwd = tx.pwd

/-- The element was encrypted with the password that the other side holds for the login: with the
secrets of that side, it is decoded when it is valid and its login active. -/
def Net.Readable (C : Site) (secret : SecretGet) (n : Net) (s : Side) (f : Frame) (e : Element) :
    Prop :=
  ∃ rx, n.fromEntry C s f.login = some rx ∧
    e.passphrase =
      getPassphraseForPwd (C.sId s.remote) ⟨authFromDbId, f.login, C.sId s⟩ .decrypt rx.pwd ∧
    ∀ valid : Message → Bool, rx.active = true → valid e.msg = true →
      (⟨authFromDbId, f.login, C.sId s⟩, e.msg) ∈
        encryptedDecode valid secret (n.peer s.remote).db f

/-- Every reply that is about to be received can be read. -/
def Net.RepliesReadable (C : Site) (secret : Side → SecretGet) (n : Net) : Prop :=
  ∀ s f rest, n.chan s = f :: rest →
    ∀ e ∈ f.data, (answerOf e.msg).isSome → n.Readable C (secret s.remote) s f e

/-- The entry is that of a challenge that runs. -/
def Peer.challenging (p : Peer) (key : AuthKey) : Bool :=
  p.challengeCtxt.any fun c => c.running && decide (c.auth = some key)

def QueueMsg.isChallenge : QueueMsg → Bool
  | challenge _ => true
  | message .. => false

/-- A reply is not encrypted with the login of a challenge that has left the queue. -/
def replyClear (C : Site) (n : Net) : NetOp → Bool
  | .send s _ =>
    match (n.peer s).sendQ with
    | .message msg login :: rest =>
      (answerOf msg).isNone ||
        (coderAuthGet (n.peer s).db login (C.sId s.remote) .encrypt).all fun e =>
          !(n.peer s).challenging e.1 || rest.any QueueMsg.isChallenge
    | _ => true
  | _ => true

theorem replyClear_send {s : Side} {i : Input} {msg : Message} {login : Option Bytes}
    {rest : List QueueMsg} {key : AuthKey} {auth : AuthEntry} (h : replyClear C n (.send s i))
    (hq : (n.peer s).sendQ = .message msg login :: rest) (hreply : (answerOf msg).isSome)
    (hget : coderAuthGet (n.peer s).db login (C.sId s.remote) .encrypt = some (key, auth))
    (hrun : (n.peer s).challenging key) : ∃ f, QueueMsg.challenge f ∈ (n.peer s).sendQ := by
  simp only [replyClear, hq, hget, Option.all_some, hrun, Bool.not_true, Bool.false_or,
    Bool.or_eq_true, List.any_eq_true] at h
  rcases h with h | ⟨m, hm, hchallenge⟩
  · rw [Option.isNone_iff_eq_none] at h
    rw [h] at hreply
    cases hreply
  · cases m with
    | challenge f =>
      rw [hq]
      exact ⟨f, List.mem_cons_of_mem _ hm⟩
    | message => cases hchallenge

/-! ## Frames that can be read

What is ahead of a frame is what was queued before it and not yet processed: the elements read,
the frames on the path, the messages in the queue. -/

/-- The login whose password a request changes. -/
def changedLogin : Request Bytes AuthPwd → Option Bytes
  | .change _ login _ => some login
  | .probe .. => none

def readChanges (q : List (AuthKey × Message)) : List Bytes :=
  (q.filterMap readRequest).filterMap changedLogin

def frameChanges (C : Site) (s : Side) (f : Frame) : List Bytes :=
  (frameRequests C s f).filterMap changedLogin

theorem mem_changedLogins {rs : List (Request Bytes AuthPwd)} {login : Bytes} :
    login ∈ rs.filterMap changedLogin ↔ ∃ id pwd, Request.change id login pwd ∈ rs := by
  rw [List.mem_filterMap]
  constructor
  · rintro ⟨q, hq, hlogin⟩
    cases q with
    | change id login' pwd =>
      cases hlogin
      exact ⟨id, pwd, hq⟩
    | probe => cases hlogin
  · rintro ⟨id, pwd, hq⟩
    exact ⟨_, hq, rfl⟩

/-- The replies are under the password held, and no change of it comes before them. `ahead`
has the logins that are changed by what was read before. -/
def Legible (C : Site) (s : Side) (held : Bytes → Option AuthPwd) :
    List Bytes → List Frame → Prop
  | _, [] => True
  | ahead, f :: fs =>
    (∀ e ∈ f.data, (answerOf e.msg).isSome →
      f.login ∉ ahead ∧ ∃ pwd, held f.login = some pwd ∧
        e.passphrase = C.sId s ++ f.login ++ pwd ++ C.sId s.remote) ∧
      Legible C s held (ahead ++ frameChanges C s f) fs

section Legible

variable {s : Side} {held held' : Bytes → Option AuthPwd} {ahead ahead' : List Bytes}
  {fs : List Frame}

/-- What is ahead may go, and the password of a login that is ahead may change. -/
theorem Legible.mono (h : Legible C s held ahead fs) (ha : ahead' ⊆ ahead)
    (hheld : ∀ login ∉ ahead, held' login = held login) : Legible C s held' ahead' fs := by
  induction fs generalizing ahead ahead' with
  | nil => trivial
  | cons f fs ih =>
    obtain ⟨hf, hfs⟩ := h
    constructor
    · intro e he hreply
      obtain ⟨hnot, hpwd⟩ := hf e he hreply
      rw [← hheld f.login hnot] at hpwd
      exact ⟨fun hmem => hnot (ha hmem), hpwd⟩
    · apply ih hfs
      · intro login hlogin
        rcases List.mem_append.mp hlogin with hlogin | hlogin
        · exact List.mem_append_left _ (ha hlogin)
        · exact List.mem_append_right _ hlogin
      · intro login hlogin
        exact hheld login fun hmem => hlogin (List.mem_append_left _ hmem)

theorem Legible.append {f : Frame} (h : Legible C s held ahead fs)
    (hf : ∀ e ∈ f.data, (answerOf e.msg).isSome →
      f.login ∉ ahead ++ fs.flatMap (frameChanges C s) ∧ ∃ pwd, held f.login = some pwd ∧
        e.passphrase = C.sId s ++ f.login ++ pwd ++ C.sId s.remote) :
    Legible C s held ahead (fs ++ [f]) := by
  induction fs generalizing ahead with
  | nil =>
    refine ⟨?_, trivial⟩
    intro e he hreply
    simpa using hf e he hreply
  | cons g fs ih =>
    refine ⟨h.1, ih h.2 ?_⟩
    intro e he hreply
    simpa using hf e he hreply

end Legible

/-! ## What the turns keep

A turn of the sender appends a frame, a turn of the reader takes what is first. The passwords
that the reader holds change in one case, that of a change that is taken. -/

/-- What `h` holds for the messages of `s`. -/
def heldBy (C : Site) (s : Side) (h : Peer) : Bytes → Option AuthPwd :=
  perLogin h.db authFromDbId (C.sId s) currentPwd

/-- A challenge in the queue of `s` has a change of its login and no reply. -/
def ChallengesQueued (C : Site) (s : Side) (q : List QueueMsg) : Prop :=
  ∀ f, QueueMsg.challenge f ∈ q →
    f.login ∈ frameChanges C s f ∧ ∀ e ∈ f.data, answerOf e.msg = none

theorem ChallengesQueued.append {s : Side} {q : List QueueMsg} (h : ChallengesQueued C s q)
    (msg : Message) (login : Option Bytes) :
    ChallengesQueued C s (q ++ [.message msg login]) := by
  intro f hf
  rcases List.mem_append.mp hf with hf | hf
  · exact h f hf
  · simp at hf

theorem ChallengesQueued.sendMessage {s : Side} {p : Peer} (h : ChallengesQueued C s p.sendQ)
    (msg : Message) (login : Option Bytes) :
    ChallengesQueued C s (p.sendMessage msg login).sendQ := by
  rcases sendQ_sendMessage p msg login with hq | hq
  · rwa [hq]
  · rw [hq]
    exact h.append msg login

theorem Initiated.challengesQueued {s : Side} {uuid : Nat} {E : Env} {p p' : Peer}
    (hi : Initiated E p (.ok p')) (hE : EnvOk C s uuid E) (h : ChallengesQueued C s p.sendQ) :
    ChallengesQueued C s p'.sendQ := by
  cases hi with
  | running => exact h
  | quiet => exact h
  | allClear =>
    apply ChallengesQueued.sendMessage
    exact h
  | kept => exact h
  | recorded => exact h
  | unqueued hmem => exact absurd hmem hE.queue
  | sent hto _ hauth =>
    have hkey := hto.remote
    rw [hE.sIdRemote] at hkey
    obtain ⟨-, rfl, -, -⟩ := authGetNewPwdB64_ok hauth
    intro f hf
    rcases List.mem_append.mp hf with hf | hf
    · exact h f hf
    · obtain rfl : f = _ := by simpa using hf
      constructor
      · rw [frameChanges, frameRequests_challengeFrame hE hkey]
        exact List.mem_cons_self
      · simp [challengeFrame, answerOf]

theorem Processed.challengesQueued {s : Side} {uuid : Nat} {E : Env} {p p' : Peer}
    {authFrom : AuthKey} {msg : Message} (hp : Processed E p authFrom msg (.ok p'))
    (hE : EnvOk C s uuid E) (h : ChallengesQueued C s p.sendQ) :
    ChallengesQueued C s p'.sendQ := by
  cases hp with
  | ignored => exact h
  | allClear => exact h
  | refused => exact h.sendMessage _ _
  | accepted =>
    apply ChallengesQueued.sendMessage
    exact h
  | ping => exact h.sendMessage _ _
  | busy _ _ _ hi => exact hi.challengesQueued hE h
  | succeeded _ _ _ _ _ _ hi => exact hi.challengesQueued hE h

theorem Sent.challengesQueued {s : Side} {E : Env} {p : Peer} {r : Peer × Option Frame}
    (hr : Sent E p r) (h : ChallengesQueued C s p.sendQ) : ChallengesQueued C s r.1.sendQ := by
  have hrest : ∀ {m rest}, p.sendQ = m :: rest → ChallengesQueued C s rest := by
    intro m rest hq f hf
    apply h f
    rw [hq]
    exact List.mem_cons_of_mem _ hf
  cases hr with
  | nothing => exact h
  | challenge hq => exact hrest hq
  | lost hq => exact hrest hq
  | message hq => exact hrest hq

theorem ToSend.heldBy {s : Side} {E : Env} {h : Peer} {c : ChallengeContext} {key : AuthKey}
    (hto : ToSend E h c key) (f : AuthEntry → AuthEntry) :
    perLogin (h.db.modifyAuth key f) authFromDbId (C.sId s) currentPwd =
      perLogin h.db authFromDbId (C.sId s) currentPwd := by
  apply perLogin_of_ne
  rw [hto.remote]
  exact dbIds_ne.symm

/-! ### The reader

A challenge of its own changes a password for sending, which the frames that it reads are not
under. Only the change that it takes from its queue changes what it holds. -/

/-- A challenge of its own changes nothing in what a peer holds, or reads. -/
theorem Initiated.heldBy {s : Side} {E : Env} {h h' : Peer} (hi : Initiated E h (.ok h')) :
    heldBy C s h' = heldBy C s h ∧ h'.internalQ = h.internalQ := by
  cases hi with
  | running => exact ⟨rfl, rfl⟩
  | quiet => exact ⟨rfl, rfl⟩
  | allClear =>
    constructor
    · show perLogin (Peer.sendMessage _ _ _).db _ _ _ = _
      rw [db_sendMessage]
      rfl
    · exact internalQ_sendMessage ..
  | kept => exact ⟨rfl, rfl⟩
  | recorded hto => exact ⟨hto.heldBy _, rfl⟩
  | unqueued _ hto => exact ⟨hto.heldBy _, rfl⟩
  | sent hto => exact ⟨hto.heldBy _, rfl⟩

/-- What a peer holds changes only for the login of the change that it takes. -/
theorem Processed.legible {s : Side} {E : Env} {h h' : Peer} {fs : List Frame}
    {e : AuthKey × Message} {rest : List (AuthKey × Message)} (hh : PeerOk C s.remote h)
    (hq : h.internalQ = e :: rest)
    (hp : Processed E { h with internalQ := rest } e.1 e.2 (.ok h'))
    (hl : Legible C s (heldBy C s h) (readChanges h.internalQ) fs) :
    Legible C s (heldBy C s h') (readChanges h'.internalQ) fs := by
  have hread := hh.read e (by rw [hq]; exact List.mem_cons_self)
  rw [Side.remote_remote] at hread
  rw [hq] at hl
  have hsub : readChanges rest ⊆ readChanges (e :: rest) := by
    intro login hlogin
    obtain ⟨id, pwd, hlogin⟩ := mem_changedLogins.mp hlogin
    obtain ⟨x, hx, hreq⟩ := List.mem_filterMap.mp hlogin
    exact mem_changedLogins.mpr
      ⟨id, pwd, List.mem_filterMap.mpr ⟨x, List.mem_cons_of_mem _ hx, hreq⟩⟩
  -- every turn but the acceptance of a change leaves what is held
  have hsame : ∀ {h' : Peer}, heldBy C s h' = heldBy C s h → h'.internalQ = rest →
      Legible C s (heldBy C s h') (readChanges h'.internalQ) fs := by
    intro h' hheld hi
    rw [hheld, hi]
    exact hl.mono hsub fun _ _ => rfl
  obtain ⟨authFrom, msg⟩ := e
  cases hp with
  | ignored => exact hsame rfl rfl
  | allClear => exact hsame rfl rfl
  | refused =>
    apply hsame
    · rw [heldBy, db_sendMessage]
      rfl
    · rw [internalQ_sendMessage]
  | ping =>
    apply hsame
    · rw [heldBy, db_sendMessage]
      rfl
    · rw [internalQ_sendMessage]
  | @accepted mId pwd it auth hit hset =>
    rw [heldBy, db_sendMessage, internalQ_sendMessage]
    apply hl.mono hsub
    intro login hlogin
    have hne : login ≠ authFrom.login := by
      rintro rfl
      apply hlogin
      exact List.mem_cons_self
    show perLogin (h.db.modifyAuth authFrom _) authFromDbId (C.sId s) currentPwd login = _
    rw [perLogin_modifyAuth hread hit, Function.update_of_ne hne]
    rfl
  | busy _ _ _ hi =>
    obtain ⟨hheld, hinternal⟩ := hi.heldBy (C := C) (s := s)
    exact hsame hheld hinternal
  | @succeeded _ c key _ _ _ hctxt _ _ hauth _ _ hi =>
    obtain ⟨hheld, hinternal⟩ := hi.heldBy (C := C) (s := s)
    refine hsame (hheld.trans ?_) hinternal
    apply perLogin_of_ne
    rw [(hh.ctxt _ hctxt).auth _ hauth]
    exact dbIds_ne.symm

/-- The changes that are read were in the frame. -/
theorem readChanges_decode (valid : Message → Bool) (db : AuthDbs) (s : Side) (f : Frame) :
    readChanges (encryptedDecode valid (C.derived s.remote) db f) ⊆ frameChanges C s f := by
  intro login hlogin
  obtain ⟨id, pwd, hlogin⟩ := mem_changedLogins.mp hlogin
  obtain ⟨e, he, hreq⟩ := List.mem_filterMap.mp hlogin
  unfold encryptedDecode at he
  split at he
  · cases he
  · next hget =>
    obtain ⟨it, -, -, hr⟩ := coderAuthGet_decrypt hget
    obtain ⟨x, hx, rfl⟩ := List.mem_map.mp he
    cases hr
    apply mem_changedLogins.mpr
    refine ⟨id, pwd, List.mem_filterMap.mpr ⟨x, (List.mem_filter.mp hx).1, ?_⟩⟩
    -- a change has no lock
    rw [readRequest] at hreq
    cases hmsg : x.msg <;> rw [hmsg] at hreq <;> simp_all [requestOf]

/-- Nothing held changes when a frame is read. -/
theorem Legible.receives {s : Side} {h : Peer} {f : Frame} {fs : List Frame}
    (hl : Legible C s (heldBy C s h) (readChanges h.internalQ) (f :: fs))
    (valid : Message → Bool) :
    Legible C s (heldBy C s (h.cyberReceive (C.derived s.remote) valid f))
      (readChanges (h.cyberReceive (C.derived s.remote) valid f).internalQ) fs := by
  apply hl.2.mono
  · intro login hlogin
    simp only [readChanges, Peer.cyberReceive, List.filterMap_append, List.mem_append] at hlogin ⊢
    exact hlogin.imp_right (@readChanges_decode C valid h.db s f login)
  · exact fun _ _ => rfl

/-! ## A reply that is encrypted

The one case with an argument. The entry of the reply is not that of a challenge that has left
the queue; so the secrets of its login are settled (`Settled`, of the rotation), the remote holds
its password, and no change is on its way. -/

/-- The round that runs is that of the entry of the challenge. -/
theorem challenging_of_running {p : Peer} {sIdRemote : Bytes} {key : AuthKey}
    (hctxt : ∀ c, p.challengeCtxt = some c → CtxtOk sIdRemote c)
    (hkey : key = ⟨authToDbId, key.login, sIdRemote⟩) {c c' : Nat}
    (h : runningRound p.challengeCtxt = some (key.login, c, c')) : p.challenging key := by
  obtain ⟨c₀, hc, h⟩ := Option.bind_eq_some_iff.mp h
  split at h
  · next hrun =>
    split at h
    · next key' _ _ hauth _ _ =>
      have hlogin : key'.login = key.login := by
        simp only [Option.some.injEq, Prod.mk.injEq] at h
        exact h.1
      have hkey' : c₀.auth = some key := by
        rw [hauth, (hctxt c₀ hc).auth key' hauth, hlogin, ← hkey]
      simp [Peer.challenging, hc, hrun, hkey']
    · cases h
  · cases h

/-- Where the entry of a reply is not that of a challenge that has left the queue, the
remote holds its password, and no change of it is on its way. -/
theorem reply_held {s : Side} (hn : NetOk C n) (hsound : Sound (n.rotation C s))
    (hx : Settled (n.rotation C s)) (hqueued : ChallengesQueued C s (n.peer s).sendQ)
    {login : Option Bytes} {key : AuthKey} {auth : AuthEntry}
    (hget : coderAuthGet (n.peer s).db login (C.sId s.remote) .encrypt = some (key, auth))
    (hclear : (n.peer s).challenging key → ∃ f, QueueMsg.challenge f ∈ (n.peer s).sendQ) :
    heldBy C s (n.peer s.remote) key.login = some auth.pwd ∧
      key.login ∉ readChanges (n.peer s.remote).internalQ ++
        (n.chan s).flatMap (frameChanges C s) := by
  obtain ⟨it, hkey, hit, rfl⟩ := coderAuthGet_encrypt hget
  have hcurrent : (n.rotation C s).current key.login = some it.auth.pwd := perLogin_find hkey hit
  have hfront : key.login ∈ readChanges (n.peer s.remote).internalQ ++
      (n.chan s).flatMap (frameChanges C s) → ∃ id pwd, Request.change id key.login pwd ∈
        (n.peer s.remote).internalQ.filterMap readRequest ++
          (n.chan s).flatMap (frameRequests C s) := by
    intro h
    apply mem_changedLogins.mp
    rw [List.filterMap_append, List.filterMap_flatMap]
    exact h
  by_cases hrun : ∃ c c', (n.rotation C s).running = some (key.login, c, c')
  · -- the challenge is still in the queue, and its change with it
    obtain ⟨c, c', hrun⟩ := hrun
    obtain ⟨f, hf⟩ := hclear (challenging_of_running (hn.peer s).ctxt hkey hrun)
    obtain ⟨id, pwd, hchange⟩ := mem_changedLogins.mp (hqueued f hf).1
    have hback : Request.change id f.login pwd ∈
        (n.peer s).sendQ.flatMap (queuedRequests C s) :=
      List.mem_flatMap.mpr ⟨.challenge f, hf, hchange⟩
    obtain ⟨_, hrun'⟩ := hx.behind (List.mem_append_right _ hback)
    obtain rfl : c = id := by
      rw [hrun] at hrun'
      simp only [Option.some.injEq, Prod.mk.injEq] at hrun'
      exact hrun'.2.1
    constructor
    · rcases hx.equal key.login with heq | ⟨c₁, c₁', hrun₁, hne⟩
      · exact heq _ hcurrent
      · rw [hrun] at hrun₁
        cases hrun₁
        exact absurd rfl (hne _ (List.mem_append_right _ hback))
    · intro hmem
      obtain ⟨id', pwd', hchange'⟩ := hfront hmem
      obtain ⟨_, hrun'⟩ := hx.behind (List.mem_append_left _ hchange')
      rw [hrun] at hrun'
      cases hrun'
      -- two changes of one number
      have hinc : List.Pairwise (· < ·) (List.map Request.id (_ ++ _)) := hsound.rounds.increasing
      rw [List.map_append] at hinc
      have := (List.pairwise_append.mp hinc).2.2 _ (List.mem_map_of_mem hchange') _
        (List.mem_map_of_mem hback)
      exact absurd this (Nat.lt_irrefl _)
  · constructor
    · apply hx.equal_of_not_running _ _ hcurrent
      intro c c' h
      exact hrun ⟨c, c', h⟩
    · intro hmem
      obtain ⟨id, pwd, hchange⟩ := hfront hmem
      obtain ⟨c', h⟩ := hx.behind (List.mem_append_left _ hchange)
      exact hrun ⟨id, c', h⟩

/-- A frame written by a peer keeps every reply readable. -/
theorem Sent.legible {s : Side} (hn : NetOk C n) (hsound : Sound (n.rotation C s))
    (hx : Settled (n.rotation C s)) (hqueued : ChallengesQueued C s (n.peer s).sendQ)
    (hl : Legible C s (heldBy C s (n.peer s.remote)) (readChanges (n.peer s.remote).internalQ)
      (n.chan s)) {i : Input} (hclear : replyClear C n (.send s i)) {r : Peer × Option Frame}
    (hr : Sent (n.env C s i) (n.peer s) r) :
    Legible C s (heldBy C s (n.peer s.remote)) (readChanges (n.peer s.remote).internalQ)
      (n.chan s ++ r.2.toList) := by
  have hnothing : Legible C s (heldBy C s (n.peer s.remote))
      (readChanges (n.peer s.remote).internalQ) (n.chan s ++ []) := by
    rwa [List.append_nil]
  cases hr with
  | nothing => exact hnothing
  | lost => exact hnothing
  | challenge hq =>
    -- a challenge carries no reply
    apply hl.append
    intro e he hreply
    rw [(hqueued _ (by rw [hq]; exact List.mem_cons_self)).2 e he] at hreply
    cases hreply
  | @message msg login rest f hq hf =>
    obtain ⟨key, auth, hget, rfl⟩ := encryptedEncode_eq_some hf
    apply hl.append
    intro e he hreply
    obtain rfl : e = _ := by simpa using he
    obtain ⟨hheld, hnot⟩ :=
      reply_held hn hsound hx hqueued hget (replyClear_send hclear hq hreply hget)
    refine ⟨hnot, auth.pwd, hheld, ?_⟩
    obtain ⟨it, hkey, -, -⟩ := coderAuthGet_encrypt hget
    have hsId : key.sId = C.sId s.remote := congrArg AuthKey.sId hkey
    show C.sId s ++ key.login ++ auth.pwd ++ key.sId =
      C.sId s ++ key.login ++ auth.pwd ++ C.sId s.remote
    rw [hsId]

/-! ## Runs of a connection

The invariant of the state is the rotation in both directions and the legibility of what is on
its way in both directions; it is kept by every step whose replies are clear. -/

/-- What every state of a connection keeps. -/
structure ReplyInv (C : Site) (n : Net) : Prop where
  ok : NetOk C n
  sound : ∀ s, Sound (n.rotation C s)
  settled : ∀ s, (n.peer s).up = true → Settled (n.rotation C s)
  queued : ∀ s, ChallengesQueued C s (n.peer s).sendQ
  legible : ∀ s, Legible C s (heldBy C s (n.peer s.remote))
    (readChanges (n.peer s.remote).internalQ) (n.chan s)

theorem ReplyInv.connected {n₀ : Net} (h₀ : n₀.Idle) (hagree : n₀.StoresAgree C) :
    ReplyInv C n₀.connected where
  ok := ⟨fun s => PeerOk.ofStart (h₀.saved s), fun _ _ h => nomatch h⟩
  sound _ := Sound.again (x := n₀.rotation C _)
  settled := by
    intro s _
    apply Settled.ofEqual
    · rfl
    · rfl
    · intro login pwd hcurrent
      have hcurrent : (n₀.rotation C s).current login = some pwd := hcurrent
      show (n₀.rotation C s).held login = some pwd
      rw [rotation_current] at hcurrent
      obtain ⟨tx, htx, hpwd⟩ := Option.bind_eq_some_iff.mp hcurrent
      obtain ⟨rx, hrx, heq⟩ := hagree s login tx htx
      cases hpwd
      rw [rotation_held, hrx, ← heq]
      rfl
  queued _ _ h := nomatch h
  legible _ := trivial

/-! ### One step of one side

A step is a turn, a frame written or read, or the end of the connection on one side. Both parts
of the invariant are shown of each kind, first the queues and then the lines. -/

/-- A side leaves: what it had not read is lost. -/
theorem ReplyInv.queued_leave (hn : ReplyInv C n) (s : Side) {p : Peer} (hp : p.sendQ = [])
    (t : Side) : ChallengesQueued C t ((n.leave s p).peer t).sendQ := by
  rcases Side.eq_or_eq_remote s t with rfl | rfl
  · simp [Net.leave, Net.setPeer, hp, ChallengesQueued]
  · simpa [Net.leave, Net.setPeer] using hn.queued s.remote

theorem ReplyInv.legible_leave (hn : ReplyInv C n) (s : Side) (p : Peer) (t : Side) :
    Legible C t (heldBy C t ((n.leave s p).peer t.remote))
      (readChanges ((n.leave s p).peer t.remote).internalQ) ((n.leave s p).chan t) := by
  rcases Side.eq_or_eq_remote s t with rfl | rfl
  · simpa [Net.leave, Net.setPeer] using hn.legible t
  · simp [Net.leave, Net.setPeer, Legible]

/-- A side takes a turn. -/
theorem ReplyInv.queued_turn (hn : ReplyInv C n) {s : Side} {r : Turn}
    (hr : ∀ p, r = .ok p → ChallengesQueued C s p.sendQ) (t : Side) :
    ChallengesQueued C t ((n.turn s r).peer t).sendQ := by
  cases r with
  | ok p =>
    rcases Side.eq_or_eq_remote s t with rfl | rfl
    · simpa [Net.turn, Net.setPeer] using hr p rfl
    · simpa [Net.turn, Net.setPeer] using hn.queued s.remote
  | error file => exact hn.queued_leave s rfl t

theorem ReplyInv.legible_turn (hn : ReplyInv C n) {s : Side} {r : Turn}
    (hr : ∀ p, r = .ok p → Legible C s.remote (heldBy C s.remote p) (readChanges p.internalQ)
      (n.chan s.remote)) (t : Side) :
    Legible C t (heldBy C t ((n.turn s r).peer t.remote))
      (readChanges ((n.turn s r).peer t.remote).internalQ) ((n.turn s r).chan t) := by
  cases r with
  | ok p =>
    rcases Side.eq_or_eq_remote s t with rfl | rfl
    · simpa [Net.turn, Net.setPeer] using hn.legible t
    · simpa [Net.turn, Net.setPeer] using hr p rfl
  | error file => exact hn.legible_leave s _ t

theorem ReplyInv.queued_step {op : NetOp} (hn : ReplyInv C n) (hop : op.stays)
    (h : applyNetOp C n op = some n') (t : Side) : ChallengesQueued C t (n'.peer t).sendQ := by
  cases op with
  | process s i =>
    rw [applyNetOp, applyNetOpWith] at h
    split at h
    · cases h
      -- a turn queues what it queues after what is there
      apply hn.queued_turn
      intro p hp
      rcases Peer.cyberReceiveInternal_cases (E := n.env C s i) (hn.ok.peer s).ctxt with
        ⟨-, hsame⟩ | ⟨e, rest, hq, hcases⟩
      · rw [hp] at hsame
        cases hsame
        exact hn.queued s
      · rw [hp] at hcases
        exact hcases.challengesQueued (envOk C n s i) (hn.queued s)
    · cases h
  | initiate s i =>
    rw [applyNetOp, applyNetOpWith] at h
    split at h
    · cases h
      apply hn.queued_turn
      intro p hp
      have hcases := Peer.initiateChallenge_cases (E := n.env C s i) (hn.ok.peer s).ctxt
      rw [hp] at hcases
      exact hcases.challengesQueued (envOk C n s i) (hn.queued s)
    · cases h
  | send s i =>
    rw [applyNetOp, applyNetOpWith] at h
    split at h
    · cases h
      rcases Side.eq_or_eq_remote s t with rfl | rfl
      · simpa [Net.setPeer] using
          ((n.peer t).cyberSend_cases (n.env C t i)).challengesQueued (hn.queued t)
      · simpa [Net.setPeer] using hn.queued s.remote
    · cases h
  | receive s valid =>
    rw [applyNetOp, applyNetOpWith] at h
    split at h
    · cases h
      rcases Side.eq_or_eq_remote s t with rfl | rfl
      · simpa [Net.setPeer, Peer.cyberReceive] using hn.queued t
      · simpa [Net.setPeer] using hn.queued s.remote
    · cases h
  | stop s =>
    cases h
    exact hn.queued_leave s rfl t
  | restart s =>
    cases h
    exact hn.queued_leave s rfl t
  | connect => cases hop

theorem ReplyInv.legible_step {op : NetOp} (hn : ReplyInv C n) (hop : op.stays)
    (hclear : replyClear C n op) (h : applyNetOp C n op = some n') (t : Side) :
    Legible C t (heldBy C t (n'.peer t.remote)) (readChanges (n'.peer t.remote).internalQ)
      (n'.chan t) := by
  cases op with
  | process s i =>
    rw [applyNetOp, applyNetOpWith] at h
    split at h
    · cases h
      apply hn.legible_turn
      intro p hp
      -- a turn of the reader: what it holds and what it has read may change, the line does not
      have hl := hn.legible s.remote
      rw [Side.remote_remote] at hl
      rcases Peer.cyberReceiveInternal_cases (E := n.env C s i) (hn.ok.peer s).ctxt with
        ⟨-, hsame⟩ | ⟨e, rest, hq, hcases⟩
      · rw [hp] at hsame
        cases hsame
        exact hl
      · rw [hp] at hcases
        have hs : PeerOk C s.remote.remote (n.peer s) := by
          rw [Side.remote_remote]
          exact hn.ok.peer s
        exact hcases.legible hs hq hl
    · cases h
  | initiate s i =>
    rw [applyNetOp, applyNetOpWith] at h
    split at h
    · cases h
      apply hn.legible_turn
      intro p hp
      have hl := hn.legible s.remote
      rw [Side.remote_remote] at hl
      have hcases := Peer.initiateChallenge_cases (E := n.env C s i) (hn.ok.peer s).ctxt
      rw [hp] at hcases
      obtain ⟨hheld, hinternal⟩ := hcases.heldBy (C := C) (s := s.remote)
      rw [hheld, hinternal]
      exact hl
    · cases h
  | send s i =>
    rw [applyNetOp, applyNetOpWith] at h
    split at h
    · next hup =>
      cases h
      have hcases := (n.peer s).cyberSend_cases (n.env C s i)
      rcases Side.eq_or_eq_remote s t with rfl | rfl
      · -- a frame more on the line of the sender
        simpa [Net.setPeer] using hcases.legible hn.ok (hn.sound t) (hn.settled t hup)
          (hn.queued t) (hn.legible t) hclear
      · -- the sender holds and reads the same
        have hl := hn.legible s.remote
        rw [Side.remote_remote] at hl
        generalize (n.peer s).cyberSend (n.env C s i) = r at hcases
        have hsame : heldBy C s.remote r.1 = heldBy C s.remote (n.peer s) ∧
            r.1.internalQ = (n.peer s).internalQ := by
          cases hcases <;> exact ⟨rfl, rfl⟩
        simpa [Net.setPeer, hsame] using hl
    · cases h
  | receive s valid =>
    rw [applyNetOp, applyNetOpWith] at h
    split at h
    · next f rest _ hchan =>
      cases h
      rcases Side.eq_or_eq_remote s t with rfl | rfl
      · simpa [Net.setPeer] using hn.legible t
      · -- the reader has one frame less before it, and has read its messages
        have hl := hn.legible s.remote
        rw [Side.remote_remote, hchan] at hl
        have := hl.receives (h := n.peer s)
        simpa [Net.setPeer] using this valid
    · cases h
  | stop s =>
    cases h
    exact hn.legible_leave s _ t
  | restart s =>
    cases h
    exact hn.legible_leave s _ t
  | connect => cases hop

/-! ### Every run -/

theorem ReplyInv.step {op : NetOp} (hn : ReplyInv C n) (hop : op.stays)
    (hclear : replyClear C n op) (h : applyNetOp C n op = some n') : ReplyInv C n' where
  ok := hn.ok.step h
  sound s := (hn.sound s).runs (rotation_runs hn.ok h s)
  settled := by
    intro s hup
    have hsteps := rotation_steps hn.ok h (by rintro rfl; cases hop) s
    exact (hn.settled s (Steps.up hsteps hup)).steps (hn.sound s) hsteps hup
  queued := hn.queued_step hop h
  legible := hn.legible_step hop hclear h

/-- What is legible is read. -/
theorem ReplyInv.readable (hn : ReplyInv C n) : n.RepliesReadable C C.derived := by
  intro s f rest hchan e he hreply
  have hl := hn.legible s
  rw [hchan] at hl
  obtain ⟨-, pwd, hheld, hpass⟩ := hl.1 e he hreply
  have hf : f.sId = C.sId s := hn.ok.chan s f (by rw [hchan]; exact List.mem_cons_self)
  obtain ⟨it, hit, hpwd⟩ := Option.bind_eq_some_iff.mp hheld
  cases hpwd
  refine ⟨it.auth, by rw [Net.fromEntry, hit]; rfl, hpass, ?_⟩
  intro valid hactive hvalid
  have hget : coderAuthGet (n.peer s.remote).db (some f.login) f.sId .decrypt =
      some (⟨authFromDbId, f.login, C.sId s⟩, it.auth) := by
    rw [hf, coderAuthGet, coderAuthFind, hit]
    exact Option.filter_eq_some_iff.mpr ⟨rfl, hactive⟩
  rw [encryptedDecode, hget]
  refine List.mem_map.mpr ⟨e, List.mem_filter.mpr ⟨he, ?_⟩, rfl⟩
  rw [hvalid, Bool.and_true, beq_iff_eq]
  exact hpass

end RsmpGateway.Cyber
