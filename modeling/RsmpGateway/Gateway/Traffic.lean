import RsmpGateway.Gateway.Login
import RsmpGateway.Cyber.Reply
import RsmpGateway.Cyber.Session

/-!
# Payloads between two sides

The payloads of the application share the send queue and the frames of a connection with its own
messages. `_send` chooses the login of a payload when it queues it, and `cyber_send` encrypts it
later, with the password that the login has then; in between and on the way, the passwords are
renewed in both directions.

The state is that of two connected peers (`Net`) with the entries of the send queues, the letters
on their way and what each application was given. The messages of the connection do in it what
they do without payloads: the steps of `Cyber/Connection.lean` are taken over, and what they
queue comes last.

The second part has what a queue and a path must keep for the payloads in them to be readable
(`QueueOk`, `LineOk`), one lemma for each way in which they change. The runs are in
`Gateway/Payloads.lean`.
-/

namespace RsmpGateway.Gateway

open RsmpGateway.Lib RsmpGateway.Auth RsmpGateway.Cyber
open RsmpGateway.Coder (coderAuthFind coderAuthGet)

/-! ## Two sides, with payloads

A payload is a text here, and its frame the login and the passphrase it was sealed with; the
bytes of both are those of `Gateway/Delivery.lean`. The key of an entry is a parameter
(`SecretGet`), since it may be a cached one. -/

/-- An entry of a send queue: a message of the connection, or a payload with the login that
`_send` chose. -/
inductive Entry
  | cyber (m : QueueMsg)
  | payload (login text : Bytes)

/-- What is on its way: a frame of the connection, or a payload, with its login and the passphrase
it was encrypted with. -/
inductive Letter
  | frame (f : Frame)
  | payload (login passphrase text : Bytes)

namespace Entry

/-- The message of the connection. -/
def cyber? : Entry → Option QueueMsg
  | cyber m => some m
  | payload .. => none

def text? : Entry → Option Bytes
  | cyber _ => none
  | payload _ text => some text

end Entry

namespace Letter

def frame? : Letter → Option Frame
  | frame f => some f
  | payload .. => none

def text? : Letter → Option Bytes
  | frame _ => none
  | payload _ _ text => some text

end Letter

/-- Two sides, their queues and what is on its way, with the payloads that the application of each
side was given, and those that it gave. -/
structure Traffic where
  net : Net
  queue : Side → List Entry
  line : Side → List Letter
  received : Side → List Bytes
  posted : Side → List Bytes

inductive TrafficOp
  | /-- `cyber_receive_internal`, on a message -/
    process (s : Side) (i : Input)
  | /-- `cyber_receive_internal`, between messages -/
    initiate (s : Side) (i : Input)
  | /-- `cyber_send` -/
    send (s : Side) (i : Input)
  | /-- `cyber_receive` -/
    receive (s : Side) (valid : Message → Bool)
  | /-- `_send`, with a login or without -/
    post (s : Side) (text : Bytes) (login : Option Bytes) (memory : Bool)
  | stop (s : Side)

/-! ### The calls of the application

`_send` looks at the first entries of the store and at the challenge. The encoding and the
decoding of a payload find an entry by its login and take the secret that `coder_secret_get`
gives for it, which is a parameter here: with nothing cached it is the one derived from the
current password. -/

/-- What `_send` looks at on a side. -/
def sendStateOf (sIdRemote : Bytes) (p : Peer) (memory : Bool) : SendState where
  allClearRxed := p.allClearRxed
  allClearSent := p.allClearSent
  dbs := p.db
  sIdRemote := some sIdRemote
  challengeAuth := p.challengeCtxt.bind ChallengeContext.auth
  challengeRunning := p.challengeCtxt.any ChallengeContext.running
  challengeToSend := p.challengeCtxt.any ChallengeContext.toSend
  memory := memory

/-- `Encrypted_encode` of a payload, with the secret that `coder_secret_get` gives. -/
def payloadEncode (secret : SecretGet) (db : AuthDbs) (sIdRemote login text : Bytes) :
    Option Letter :=
  (coderAuthGet db (some login) sIdRemote .encrypt).map fun (key, auth) =>
    .payload key.login (secret key .encrypt auth.pwd) text

/-- `Encrypted_decode` of a payload. -/
def payloadDecode (secret : SecretGet) (db : AuthDbs) (sIdRemote login passphrase text : Bytes) :
    Option Bytes :=
  (coderAuthGet db (some login) sIdRemote .decrypt).bind fun (key, auth) =>
    if passphrase = secret key .decrypt auth.pwd then some text else none

namespace Traffic

variable (C : Site)

/-- Two sides that have just made a connection. -/
def start (n₀ : Net) : Traffic where
  net := n₀.connected
  queue _ := []
  line _ := []
  received _ := []
  posted _ := []

/-- A side has left: what it had not written and what it had not read is lost. -/
def leave (T : Traffic) (s : Side) (n : Net) : Traffic :=
  { T with
    net := n
    queue := Function.update T.queue s []
    line := Function.update T.line s.remote [] }

/-- A side has taken a turn: what it queued comes last. -/
def grow (T : Traffic) (s : Side) (n : Net) : Traffic :=
  if (n.peer s).up then
    { T with
      net := n
      queue := Function.update T.queue s (T.queue s ++
        ((n.peer s).sendQ.drop (T.net.peer s).sendQ.length).map .cyber) }
  else T.leave s n

/-- `_send` -/
def post (T : Traffic) (s : Side) (text : Bytes) (login : Option Bytes) (memory : Bool) :
    Traffic :=
  match cyberSendTo (sendStateOf (C.sId s.remote) (T.net.peer s) memory) login with
  | none => T
  | some login =>
    { T with
      queue := Function.update T.queue s (T.queue s ++ [.payload login text])
      posted := Function.update T.posted s (T.posted s ++ [text]) }

/-- A payload in `cyber_send`. -/
def write (secret : Side → SecretGet) (T : Traffic) (s : Side) (i : Input) (login text : Bytes)
    (rest : List Entry) : Traffic :=
  let letter := if i.encodes then
      payloadEncode (secret s) (T.net.peer s).db (C.sId s.remote) login text
    else none
  { T with
    queue := Function.update T.queue s rest
    line := Function.update T.line s (T.line s ++ letter.toList) }

/-- A payload in `cyber_receive`. -/
def read (secret : Side → SecretGet) (T : Traffic) (s : Side) (login passphrase text : Bytes)
    (rest : List Letter) : Traffic :=
  let payload :=
    payloadDecode (secret s) (T.net.peer s).db (C.sId s.remote) login passphrase text
  { T with
    line := Function.update T.line s.remote rest
    received := Function.update T.received s (T.received s ++ payload.toList) }

/-- A step with the secrets of the sides, `none` where there is none. -/
def applyWith (secret : Side → SecretGet) (T : Traffic) : TrafficOp → Option Traffic
  | .process s i => (applyNetOpWith C secret T.net (.process s i)).map (T.grow s)
  | .initiate s i => (applyNetOpWith C secret T.net (.initiate s i)).map (T.grow s)
  | .send s i =>
    match T.queue s with
    | .payload login text :: rest =>
      if (T.net.peer s).up then some (T.write C secret s i login text rest) else none
    | queue =>
      (applyNetOpWith C secret T.net (.send s i)).map fun n =>
        { T with
          net := n
          queue := Function.update T.queue s queue.tail
          line := Function.update T.line s (T.line s ++
            ((n.chan s).drop (T.net.chan s).length).map .frame) }
  | .receive s valid =>
    match T.line s.remote with
    | .payload login passphrase text :: rest =>
      if (T.net.peer s).up then some (T.read C secret s login passphrase text rest) else none
    | line =>
      (applyNetOpWith C secret T.net (.receive s valid)).map fun n =>
        { T with net := n, line := Function.update T.line s.remote line.tail }
  | .post s text login memory =>
    if (T.net.peer s).up then some (T.post C s text login memory) else none
  | .stop s => (applyNetOpWith C secret T.net (.stop s)).map (T.leave s)

/-- A step when nothing is cached. -/
abbrev apply (T : Traffic) (op : TrafficOp) : Option Traffic := T.applyWith C C.derived op

/-- The payloads of `s` on their way, from the oldest. -/
def underway (T : Traffic) (s : Side) : List Bytes :=
  (T.line s).filterMap Letter.text? ++ (T.queue s).filterMap Entry.text?

end Traffic

/-- What is sent can be encoded, and no payload is posted with the login of a challenge. -/
def trafficClear (C : Site) (T : Traffic) : TrafficOp → Prop
  | .send _ i => i.encodes = true
  | .post s _ (some login) memory =>
    ¬ (sendStateOf (C.sId s.remote) (T.net.peer s) memory).InChallenge login
  | _ => True

/-! ### Turns of a side

What the queue of a side has to know of a turn of its tasks: the turn queues messages of the
connection only, begins a challenge only with its frame in the queue, keeps the entries and which
of them are active, and leaves what was legible to it so (`Turned`). -/

/-- Every login of a store is active. -/
def AllActive (db : AuthDbs) : Prop :=
  ∀ key it, db.authFindByKey key = some it → it.auth.active = true
/-- The same logins are active. -/
def SameActive (db db' : AuthDbs) : Prop :=
  ∀ key, (db'.authFindByKey key).map (fun it => it.auth.active) =
    (db.authFindByKey key).map fun it => it.auth.active

theorem SameActive.refl (db : AuthDbs) : SameActive db db := fun _ => rfl

theorem SameActive.trans {db db' db'' : AuthDbs} (h : SameActive db db')
    (h' : SameActive db' db'') : SameActive db db'' :=
  fun key => (h' key).trans (h key)

theorem SameActive.modifyAuth {db : AuthDbs} {key : AuthKey} {it : AuthItem} {auth : AuthEntry}
    (hit : db.authFindByKey key = some it) (hactive : auth.active = it.auth.active) :
    SameActive db (db.modifyAuth key fun _ => auth) := by
  intro k
  rw [AuthDbs.authFindByKey_modifyAuth]
  split
  · next hk =>
    subst hk
    rw [hit]
    exact congrArg some hactive
  · rfl

theorem SameActive.allActive {db db' : AuthDbs} (h : SameActive db db') (hdb : AllActive db) :
    AllActive db' := by
  intro key it hit
  have hkey := h key
  rw [hit, Option.map_some] at hkey
  obtain ⟨it₀, hit₀, hactive⟩ := Option.map_eq_some_iff.mp hkey.symm
  rw [← hactive]
  exact hdb key it₀ hit₀

theorem SameActive.isSome {db db' : AuthDbs} (h : SameActive db db') {key : AuthKey}
    (hkey : (db.authFindByKey key).isSome = true) : (db'.authFindByKey key).isSome = true := by
  have := congrArg Option.isSome (h key)
  rw [Option.isSome_map, Option.isSome_map] at this
  rw [this]
  exact hkey

variable {C : Site} {s : Side}

/-- What a turn of a side leaves, and what it queues. -/
structure Turned (C : Site) (s : Side) (p p' : Peer) (q : List QueueMsg) : Prop where
  up : p'.up = p.up
  queued : p'.sendQ = p.sendQ ++ q
  challenges : ChallengesQueued C s p.sendQ → ChallengesQueued C s p'.sendQ
  /-- a challenge that begins is in the queue -/
  begins : ∀ key, p'.challenging key = true →
    p.challenging key = true ∨ ∃ f, QueueMsg.challenge f ∈ q
  active : SameActive p.db p'.db
  legible : ∀ fs, Legible C s.remote (heldBy C s.remote p) (readChanges p.internalQ) fs →
    Legible C s.remote (heldBy C s.remote p') (readChanges p'.internalQ) fs

theorem challenging_idle {p : Peer} {sIdRemote : Bytes} (h : CtxtIdle sIdRemote p.challengeCtxt)
    (key : AuthKey) : p.challenging key = false := by
  rw [Peer.challenging]
  cases hc : p.challengeCtxt with
  | none => rfl
  | some c =>
    rw [Option.any_some, (h c hc).2]
    rfl

theorem initiated_begins {E : Env} {p p' : Peer} {q : List QueueMsg} {uuid : Nat}
    (hi : Initiated E p (.ok p')) (hE : EnvOk C s uuid E) (hq : p'.sendQ = p.sendQ ++ q)
    (key : AuthKey) (hrun : p'.challenging key = true) :
    p.challenging key = true ∨ ∃ f, QueueMsg.challenge f ∈ q := by
  have hidle : ¬ CtxtIdle E.sIdRemote p'.challengeCtxt := by
    intro h
    rw [challenging_idle h key] at hrun
    cases hrun
  cases hi with
  | running => exact .inl hrun
  | quiet _ hctxt => exact absurd hctxt hidle
  | allClear _ hctxt => exact absurd hctxt hidle
  | kept hto => exact absurd hto.found hidle
  | recorded hto => exact absurd (hto.recorded _ _) hidle
  | unqueued hfailure => exact absurd hfailure hE.queue
  | sent =>
    obtain rfl := List.append_cancel_left hq
    exact .inr ⟨_, List.mem_singleton_self _⟩

theorem initiated_sameActive {E : Env} {p p' : Peer} (hi : Initiated E p (.ok p')) :
    SameActive p.db p'.db := by
  have hnew : ∀ {key it auth pwdB64}, p.db.authFindByKey key = some it →
      authGetNewPwdB64 E.rand it.auth = .ok (auth, pwdB64) →
      SameActive p.db (p.db.modifyAuth key fun _ => auth) := by
    intro key it auth pwdB64 hit hauth
    obtain ⟨-, -, heq, -⟩ := authGetNewPwdB64_ok hauth
    have hactive : auth.active = it.auth.active := by rw [heq]
    exact .modifyAuth hit hactive
  cases hi with
  | running => exact .refl _
  | quiet => exact .refl _
  | allClear =>
    rw [Peer.sendAllClear, db_sendMessage]
    exact .refl _
  | kept => exact .refl _
  | recorded _ hit hauth => exact hnew hit hauth
  | unqueued _ _ hit hauth => exact hnew hit hauth
  | sent _ hit hauth => exact hnew hit hauth

theorem initiated_turned {E : Env} {p p' : Peer} {uuid : Nat} (hi : Initiated E p (.ok p'))
    (hE : EnvOk C s uuid E) : ∃ q, Turned C s p p' q := by
  obtain ⟨q, ha⟩ := hi.announces
  obtain ⟨hheld, hinternal⟩ := hi.heldBy (C := C) (s := s.remote)
  refine ⟨q, hi.keeps.1, ha.queued, hi.challengesQueued hE, initiated_begins hi hE ha.queued,
    initiated_sameActive hi, ?_⟩
  intro fs hl
  rw [hheld, hinternal]
  exact hl

theorem processed_begins {E : Env} {p p' : Peer} {q : List QueueMsg} {uuid : Nat}
    {authFrom : AuthKey} {msg : Message} (hp : Processed E p authFrom msg (.ok p'))
    (hE : EnvOk C s uuid E) (hq : p'.sendQ = p.sendQ ++ q) (key : AuthKey)
    (hrun : p'.challenging key = true) :
    p.challenging key = true ∨ ∃ f, QueueMsg.challenge f ∈ q := by
  have hsend : ∀ {p₁ : Peer} {reply : Message}, p₁.challengeCtxt = p.challengeCtxt →
      (p₁.sendMessage reply none).challenging key = true → p.challenging key = true := by
    intro p₁ reply hctxt h
    rw [Peer.challenging, challengeCtxt_sendMessage, hctxt] at h
    exact h
  -- after a challenge has ended, only a new one can run
  have hnew : ∀ {p₁ : Peer} {c : ChallengeContext},
      p₁.challengeCtxt = some { c with running := false } → p₁.challenging key = false := by
    intro p₁ c hctxt
    rw [Peer.challenging, hctxt]
    rfl
  cases hp with
  | ignored => exact .inl hrun
  | allClear => exact .inl hrun
  | refused => exact .inl (hsend rfl hrun)
  | accepted =>
    left
    apply hsend _ hrun
    rfl
  | ping => exact .inl (hsend rfl hrun)
  | @busy _ _ c _ _ _ _ hi =>
    refine (initiated_begins hi hE hq key hrun).imp_left fun h => ?_
    rw [hnew rfl] at h
    cases h
  | @succeeded _ c _ _ _ _ _ _ _ _ _ _ hi =>
    refine (initiated_begins hi hE hq key hrun).imp_left fun h => ?_
    rw [hnew rfl] at h
    cases h

theorem processed_sameActive {E : Env} {p p' : Peer} {authFrom : AuthKey} {msg : Message}
    (hp : Processed E p authFrom msg (.ok p')) : SameActive p.db p'.db := by
  cases hp with
  | ignored => exact .refl _
  | allClear => exact .refl _
  | refused =>
    rw [db_sendMessage]
    exact .refl _
  | accepted hit hset =>
    rw [db_sendMessage]
    obtain ⟨-, pwd, -, rfl⟩ := authSetPwdB64_ok hset
    exact .modifyAuth hit rfl
  | ping =>
    rw [db_sendMessage]
    exact .refl _
  | busy _ _ _ hi =>
    have hsame := initiated_sameActive hi
    exact hsame
  | succeeded _ _ _ _ hit hswitch hi =>
    obtain ⟨-, -, -, hauth⟩ := authSwitchToNewPwd_ok hswitch
    refine (SameActive.modifyAuth hit ?_).trans (initiated_sameActive hi)
    rw [hauth]

theorem processed_turned {E : Env} {p p' : Peer} {uuid : Nat} {e : AuthKey × Message}
    {rest : List (AuthKey × Message)} (hok : PeerOk C s p) (hq : p.internalQ = e :: rest)
    (hp : Processed E { p with internalQ := rest } e.1 e.2 (.ok p')) (hE : EnvOk C s uuid E) :
    ∃ q, Turned C s p p' q := by
  obtain ⟨q, ha⟩ := hp.announces
  have hok' : PeerOk C s.remote.remote p := by
    rw [Side.remote_remote]
    exact hok
  have hactive : SameActive p.db p'.db :=
    processed_sameActive (p := { p with internalQ := rest }) hp
  have hbegins := processed_begins (p := { p with internalQ := rest }) hp hE ha.queued
  exact ⟨q, hp.keeps.1, ha.queued, hp.challengesQueued hE, hbegins, hactive,
    fun fs hl => hp.legible hok' hq hl⟩

theorem Turned.refl (p : Peer) : Turned C s p p [] where
  up := rfl
  queued := (List.append_nil _).symm
  challenges := id
  begins _ := .inl
  active := .refl _
  legible _ := id

/-! ## What waits in a queue

A challenge that runs on the login of a payload is queued after the payload: `_send` refuses a
login in a challenge, and a challenge that starts later queues its frame behind. -/

/-- The login of each payload is known, and the challenge that runs on it is queued after it. -/
def Waits (C : Site) (s : Side) (p : Peer) : List Entry → Prop
  | [] => True
  | .cyber _ :: rest => Waits C s p rest
  | .payload login _ :: rest =>
    (p.db.authFindByKey ⟨authToDbId, login, C.sId s.remote⟩).isSome = true ∧
      (p.challenging ⟨authToDbId, login, C.sId s.remote⟩ = true →
        ∃ f, Entry.cyber (.challenge f) ∈ rest) ∧
      Waits C s p rest

variable {p p' : Peer} {queue : List Entry}

theorem waits_cyber (es : List QueueMsg) : Waits C s p (es.map .cyber) := by
  induction es with
  | nil => trivial
  | cons m es ih => exact ih

theorem waits_append {es : List QueueMsg} (h : Waits C s p queue)
    (hactive : SameActive p.db p'.db)
    (hbegins : ∀ key, p'.challenging key = true →
      p.challenging key = true ∨ ∃ f, QueueMsg.challenge f ∈ es) :
    Waits C s p' (queue ++ es.map .cyber) := by
  induction queue with
  | nil => exact waits_cyber es
  | cons e queue ih =>
    cases e with
    | cyber m => exact ih h
    | payload login text =>
      obtain ⟨hknown, hrun, hrest⟩ := h
      refine ⟨hactive.isSome hknown, ?_, ih hrest⟩
      intro hrun'
      rcases hbegins _ hrun' with hran | ⟨f, hf⟩
      · obtain ⟨f, hf⟩ := hrun hran
        exact ⟨f, List.mem_append_left _ hf⟩
      · exact ⟨f, List.mem_append_right _ (List.mem_map_of_mem hf)⟩

theorem Waits.of_eq (h : Waits C s p queue) (hdb : p'.db = p.db)
    (hctxt : p'.challengeCtxt = p.challengeCtxt) : Waits C s p' queue := by
  have hsame : Waits C s p' (queue ++ ([] : List QueueMsg).map .cyber) := by
    apply waits_append h
    · rw [hdb]
      exact .refl _
    · intro key hrun
      rw [Peer.challenging, hctxt] at hrun
      exact .inl hrun
  rwa [List.map_nil, List.append_nil] at hsame

theorem Waits.post {login text : Bytes} (h : Waits C s p queue)
    (hknown : (p.db.authFindByKey ⟨authToDbId, login, C.sId s.remote⟩).isSome = true)
    (hfree : p.challenging ⟨authToDbId, login, C.sId s.remote⟩ = false) :
    Waits C s p (queue ++ [.payload login text]) := by
  induction queue with
  | nil =>
    refine ⟨hknown, ?_, trivial⟩
    intro hrun
    rw [hfree] at hrun
    cases hrun
  | cons e queue ih =>
    cases e with
    | cyber m => exact ih h
    | payload login' text' =>
      obtain ⟨hknown', hrun, hrest⟩ := h
      refine ⟨hknown', ?_, ih hrest⟩
      intro hran
      obtain ⟨f, hf⟩ := hrun hran
      exact ⟨f, List.mem_append_left _ hf⟩

/-! ### The queue of a side

The queue with payloads, from which the messages of the connection are those of the peer. The
invariant goes with the turns of the peer, with each message that is written, and with each
payload at the head. -/

/-- The queue of a side. -/
structure QueueOk (C : Site) (s : Side) (p : Peer) (queue : List Entry) : Prop where
  sendQ : queue.filterMap Entry.cyber? = p.sendQ
  challenges : ChallengesQueued C s p.sendQ
  waits : Waits C s p queue
  active : p.up = true → AllActive p.db

theorem filterMap_cyber (es : List QueueMsg) :
    (es.map Entry.cyber).filterMap Entry.cyber? = es := by
  rw [List.filterMap_map]
  exact List.filterMap_some

theorem filterMap_cyber_text (es : List QueueMsg) :
    (es.map Entry.cyber).filterMap Entry.text? = [] := by
  rw [List.filterMap_map, List.filterMap_eq_nil_iff]
  intro m _
  rfl

theorem QueueOk.turned {q : List QueueMsg} (h : QueueOk C s p queue) (ht : Turned C s p p' q) :
    QueueOk C s p' (queue ++ (p'.sendQ.drop p.sendQ.length).map .cyber) := by
  have hdrop : p'.sendQ.drop p.sendQ.length = q := by
    rw [ht.queued]
    exact List.drop_left
  rw [hdrop]
  refine ⟨?_, ht.challenges h.challenges, waits_append h.waits ht.active ht.begins,
    fun hup => ht.active.allActive (h.active (ht.up ▸ hup))⟩
  rw [List.filterMap_append, h.sendQ, filterMap_cyber, ht.queued]

theorem QueueOk.pop {m : QueueMsg} {rest : List QueueMsg} (h : QueueOk C s p queue)
    (hhead : ∀ login text rest, queue ≠ .payload login text :: rest)
    (hq : p.sendQ = m :: rest) : QueueOk C s { p with sendQ := rest } queue.tail := by
  have hsendQ := h.sendQ
  have hwaits := h.waits
  cases queue with
  | nil =>
    rw [hq] at hsendQ
    cases hsendQ
  | cons e queue =>
    cases e with
    | payload login text => exact absurd rfl (hhead login text queue)
    | cyber m' =>
      have hcons : m' :: queue.filterMap Entry.cyber? = m :: rest := hsendQ.trans hq
      refine ⟨(List.cons.inj hcons).2, ?_, hwaits.of_eq rfl rfl, h.active⟩
      intro f hf
      apply h.challenges
      rw [hq]
      exact List.mem_cons_of_mem _ hf

/-- A message of the connection is written, or lost. -/
theorem QueueOk.sent {E : Env} {r : Peer × Option Frame} (h : QueueOk C s p queue)
    (hhead : ∀ login text rest, queue ≠ .payload login text :: rest) (hr : Sent E p r) :
    QueueOk C s r.1 queue.tail := by
  cases hr with
  | nothing hq =>
    have hsendQ := h.sendQ
    rw [hq] at hsendQ
    cases queue with
    | nil => exact h
    | cons e rest =>
      cases e with
      | payload login text => exact absurd rfl (hhead login text rest)
      | cyber m => cases hsendQ
  | challenge hq => exact h.pop hhead hq
  | lost hq => exact h.pop hhead hq
  | message hq => exact h.pop hhead hq

/-! ## What is posted

What `_send` has looked at is what the invariant of the queue needs. -/

theorem cyberSendTo_some_eq {S : SendState} {login login' : Bytes}
    (h : cyberSendTo S (some login) = some login') : login' = login := by
  unfold cyberSendTo at h
  split at h
  · cases h
  · split at h
    · cases h
    · next hcheck =>
      split at h
      · cases h
        rw [Option.elim_some, checkLogin] at hcheck
        split at hcheck
        · cases hcheck
        · split at hcheck
          · cases hcheck
          · exact (Option.some.inj hcheck).symm
      · cases h

/-- The login of a payload that is queued is known, and no challenge runs on it. -/
theorem free_of_cyberSendTo {memory : Bool} {login : Option Bytes} {login' : Bytes}
    (hclear : ∀ l ∈ login, ¬ (sendStateOf (C.sId s.remote) p memory).InChallenge l)
    (h : cyberSendTo (sendStateOf (C.sId s.remote) p memory) login = some login') :
    (p.db.authFindByKey ⟨authToDbId, login', C.sId s.remote⟩).isSome = true ∧
      p.challenging ⟨authToDbId, login', C.sId s.remote⟩ = false := by
  have hfree : (sendStateOf (C.sId s.remote) p memory).Free login' := by
    cases login with
    | none =>
      obtain ⟨-, -, hchosen⟩ := (SendState.cyberSendTo_none_eq _).mp h
      exact SendState.free_of_chooseLogin rfl hchosen
    | some login =>
      obtain rfl := cyberSendTo_some_eq h
      exact ⟨((SendState.cyberSendTo_some_iff _ _).mp h).2.1, hclear _ rfl⟩
  obtain ⟨hmem, hnot⟩ := hfree
  refine ⟨(SendState.isAuthToAvailableForLogin_iff _ _).mpr hmem, ?_⟩
  rw [← Bool.not_eq_true]
  intro hrun
  apply hnot
  obtain ⟨c, hc, hcond⟩ := (Option.any_eq_true _ _).mp hrun
  rw [Bool.and_eq_true, decide_eq_true_eq] at hcond
  refine (SendState.inChallenge_iff rfl _).mpr ⟨?_, .inl ?_⟩
  · show p.challengeCtxt.bind ChallengeContext.auth = _
    rw [hc]
    exact hcond.2
  · show p.challengeCtxt.any ChallengeContext.running = true
    rw [hc]
    exact hcond.1

theorem QueueOk.post {login text : Bytes} (h : QueueOk C s p queue)
    (hknown : (p.db.authFindByKey ⟨authToDbId, login, C.sId s.remote⟩).isSome = true)
    (hfree : p.challenging ⟨authToDbId, login, C.sId s.remote⟩ = false) :
    QueueOk C s p (queue ++ [.payload login text]) := by
  refine ⟨?_, h.challenges, h.waits.post hknown hfree, h.active⟩
  rw [List.filterMap_append, h.sendQ]
  exact List.append_nil _

/-- A payload at the head can be encoded, and a challenge that runs on its login is still in the
queue. -/
theorem QueueOk.head {login text : Bytes} {rest : List Entry}
    (h : QueueOk C s p (.payload login text :: rest)) (hup : p.up = true) :
    QueueOk C s p rest ∧
      ∃ auth, coderAuthGet p.db (some login) (C.sId s.remote) .encrypt =
          some (⟨authToDbId, login, C.sId s.remote⟩, auth) ∧
        (p.challenging ⟨authToDbId, login, C.sId s.remote⟩ = true →
          ∃ f, QueueMsg.challenge f ∈ p.sendQ) := by
  obtain ⟨hknown, hrun, hrest⟩ := h.waits
  have hsendQ : rest.filterMap Entry.cyber? = p.sendQ := h.sendQ
  refine ⟨⟨hsendQ, h.challenges, hrest, h.active⟩, ?_⟩
  obtain ⟨it, hit⟩ := Option.isSome_iff_exists.mp hknown
  refine ⟨it.auth, ?_, ?_⟩
  · rw [coderAuthGet, coderAuthFind, hit]
    exact Option.filter_eq_some_iff.mpr ⟨rfl, h.active hup _ it hit⟩
  · intro hran
    obtain ⟨f, hf⟩ := hrun hran
    refine ⟨f, ?_⟩
    rw [← hsendQ]
    exact List.mem_filterMap.mpr ⟨_, hf, rfl⟩

/-! ## What is on its way

For the replies of the connection the same was shown in `Cyber/Reply.lean`. A payload is put on
the line as if it were a reply, in its place among the frames, and the lemmas are used again. -/

/-- A payload can be read where a reply could, in its place; what is said of the replies of the
frames is left out. -/
def Letter.view (C : Site) (s : Side) : Letter → Frame
  | .frame f => { f with data := f.data.filter fun e => (answerOf e.msg).isNone }
  | .payload login passphrase _ => ⟨C.sId s, login, [⟨passphrase, .pong 0 0 []⟩]⟩

theorem frameChanges_view (f : Frame) :
    frameChanges C s (Letter.view C s (.frame f)) = frameChanges C s f := by
  rw [frameChanges, frameChanges, frameRequests, frameRequests, Letter.view]
  dsimp only
  rw [List.filterMap_filter]
  congr 1
  apply List.filterMap_congr
  intro e _
  cases hmsg : e.msg <;> rfl

variable {h : Peer} {chan : List Frame} {line : List Letter}

theorem flatMap_view (line : List Letter) :
    (line.map (Letter.view C s)).flatMap (frameChanges C s) =
      (line.filterMap Letter.frame?).flatMap (frameChanges C s) := by
  induction line with
  | nil => rfl
  | cons l line ih =>
    cases l with
    | frame f =>
      rw [List.map_cons, List.flatMap_cons, frameChanges_view, ih]
      rfl
    | payload login passphrase text =>
      rw [List.map_cons, List.flatMap_cons, ih]
      rfl

/-! ### The line of a side

The frames of the connection on the line are those of the channel, and everything on it is
legible in its place, once the payloads are seen as replies. So a payload that is read is read
under the password that it was sealed with. -/

/-- What the side `s` wrote and `h` has not read. -/
structure LineOk (C : Site) (s : Side) (h : Peer) (chan : List Frame) (line : List Letter) :
    Prop where
  frames : line.filterMap Letter.frame? = chan
  legible : Legible C s (heldBy C s h) (readChanges h.internalQ) (line.map (Letter.view C s))

theorem filterMap_frame_text (fs : List Frame) :
    (fs.map Letter.frame).filterMap Letter.text? = [] := by
  rw [List.filterMap_map, List.filterMap_eq_nil_iff]
  intro f _
  rfl

/-- The frames of the connection put nothing in the way of what comes before them. -/
theorem LineOk.append_frames (hl : LineOk C s h chan line) (fs : List Frame) :
    LineOk C s h (chan ++ fs) (line ++ fs.map .frame) := by
  induction fs generalizing chan line with
  | nil =>
    rw [List.map_nil, List.append_nil, List.append_nil]
    exact hl
  | cons f fs ih =>
    have hone : LineOk C s h (chan ++ [f]) (line ++ [.frame f]) := by
      refine ⟨?_, ?_⟩
      · rw [List.filterMap_append, hl.frames]
        rfl
      · rw [List.map_append]
        apply hl.legible.append
        intro e he hreply
        have hnone := (List.mem_filter.mp he).2
        rw [Option.isNone_iff_eq_none] at hnone
        rw [hnone] at hreply
        cases hreply
    have hrest := ih hone
    rw [List.append_assoc, List.append_assoc] at hrest
    exact hrest

/-- The peer that reads has changed. -/
theorem LineOk.of_legible {h' : Peer} (hl : LineOk C s h chan line)
    (hlegible : ∀ fs, Legible C s (heldBy C s h) (readChanges h.internalQ) fs →
      Legible C s (heldBy C s h') (readChanges h'.internalQ) fs) : LineOk C s h' chan line :=
  ⟨hl.frames, hlegible _ hl.legible⟩

/-- A frame of the connection is read. -/
theorem LineOk.received {f : Frame} {fs : List Frame} (hl : LineOk C s h (f :: fs) line)
    (hhead : ∀ login passphrase text rest, line ≠ .payload login passphrase text :: rest)
    (valid : Message → Bool) :
    LineOk C s (h.cyberReceive (C.derived s.remote) valid f) fs line.tail := by
  have hframes := hl.frames
  have hlegible := hl.legible
  cases line with
  | nil => cases hframes
  | cons l line =>
    cases l with
    | payload login passphrase text => exact absurd rfl (hhead login passphrase text line)
    | frame g =>
      have hcons : g :: line.filterMap Letter.frame? = f :: fs := hframes
      obtain ⟨rfl, htail⟩ := List.cons.inj hcons
      refine ⟨htail, hlegible.2.mono ?_ fun _ _ => rfl⟩
      intro login hlogin
      rw [frameChanges_view]
      simp only [readChanges, Peer.cyberReceive, List.filterMap_append, List.mem_append] at hlogin ⊢
      exact hlogin.imp_right (@readChanges_decode C valid h.db s g login)

/-- A payload is read: what was encrypted is what comes out. -/
theorem LineOk.read {login passphrase text : Bytes} {rest : List Letter}
    (hl : LineOk C s h chan (.payload login passphrase text :: rest)) (hactive : AllActive h.db) :
    LineOk C s h chan rest ∧
      payloadDecode (C.derived s.remote) h.db (C.sId s) login passphrase text = some text := by
  obtain ⟨hfirst, hrest⟩ := hl.legible
  refine ⟨⟨hl.frames, hrest.mono (List.subset_append_left _ _) fun _ _ => rfl⟩, ?_⟩
  obtain ⟨-, pwd, hheld, hpass⟩ := hfirst _ (List.mem_singleton_self _) rfl
  obtain ⟨it, hfind, hpwd⟩ := Option.bind_eq_some_iff.mp hheld
  cases hpwd
  have hit : h.db.authFindByKey ⟨authFromDbId, login, C.sId s⟩ = some it := hfind
  have hget : coderAuthGet h.db (some login) (C.sId s) .decrypt =
      some (⟨authFromDbId, login, C.sId s⟩, it.auth) := by
    rw [coderAuthGet, coderAuthFind, hit]
    exact Option.filter_eq_some_iff.mpr ⟨rfl, hactive _ it hit⟩
  rw [payloadDecode, hget]
  exact if_pos hpass

end RsmpGateway.Gateway
