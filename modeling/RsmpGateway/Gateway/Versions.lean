import RsmpGateway.Auth.RoundTrip
import RsmpGateway.Rsmp.Ack

/-!
# The exchange of versions

`echange_versions`: each side sends its `Version` and waits for an acknowledgement, and waits for
the `Version` of the other side and acknowledges it, in opposite orders. The first half does not
look at what became of its message, nor at what the acknowledgement answers: the exchange is
right exactly when this made no difference (`echange_versions_iff`).

This module has one side, and the payloads that it is given are any. The two sides against each
other are in `Gateway/Peers.lean`, where a payload comes from the other side and most of the
condition holds by itself.
-/

namespace RsmpGateway.Gateway

open RsmpGateway.Lib RsmpGateway.Auth RsmpGateway.Rsmp

/-! ## Sending and receiving

A message is posted, and may be refused there. The payload that comes in time is read, and
nothing is asked of it here. -/

/-- What `_send` looks at: the two flags, the logins of the remote site, the challenge that it
holds, and whether `calloc` answers. -/
structure SendState where
  allClearRxed : Bool
  allClearSent : Bool
  dbs : AuthDbs
  sIdRemote : Option Bytes
  challengeAuth : Option AuthKey
  challengeRunning : Bool
  challengeToSend : Bool
  memory : Bool

/-- The login that `_send` chooses, when it is given none. -/
def chooseLogin (S : SendState) : Option Bytes :=
  match S.dbs.authGetFirst (some authToDbId) S.sIdRemote with
  | none => none
  | some (key, _) =>
    if S.challengeAuth ≠ some key ∨ (S.challengeRunning = false ∧ S.challengeToSend = false) then
      some key.login
    else
      -- the first one is in a challenge
      match S.dbs.authGetNextFromAuth key with
      | some next => if next.auth.newPwdPending then none else some next.login
      | none => none

/-- `_send` without a login: whether the payload is put in the queue. -/
def cyberSend (S : SendState) : Bool :=
  S.allClearRxed && S.allClearSent && (chooseLogin S).isSome && S.memory

/-- What becomes of a message that is sent. A message without text stops the process. -/
inductive Sending
  | sent
  | failed
  | stops
  deriving DecidableEq

/-- `sendMessage`, without a login. -/
def sendMessage (X : RsmpExt) (S : SendState) (msg : Message) : Sending :=
  match rsmpJsonMsg2payload X msg with
  | .ok (some _) => if cyberSend S then .sent else .failed
  | _ => .stops

/-- What a wait meets: the payload, if there is one in time, and what a constructor takes. -/
structure Wait where
  payload : Option Bytes
  birth : Birth

/-- What a wait gives. A message that was freed is used all the same. -/
inductive Waited
  | failed
  | msg (m : Message)
  | stops

/-- `waitForMessage` -/
def waitForMessage (X : RsmpExt) (w : Wait) : Waited :=
  match w.payload with
  | none => .failed
  | some payload =>
    match rsmpJsonPayload2msg X w.birth payload with
    | .null => .failed
    | .msg m => .msg m
    | .freed => .stops
    | .stops _ => .stops

/-! ## The exchange

The two halves, and the order that the role of the side gives them. A run keeps what was sent and
what was received. -/

/-- What was sent and received. -/
inductive VersionEvent
  | sent (m : Message)
  | received (m : Message)

inductive VersionResult
  | ok
  | error
  | stops
  deriving DecidableEq

/-- What happened, and the result. -/
abbrev VersionRun := List VersionEvent × VersionResult

/-- The message of a step is a log of its own, if it was sent. -/
def sentLog (msg : Message) : Sending → List VersionEvent
  | .sent => [.sent msg]
  | _ => []

/-- What the exchange meets: the constructor of its `Version`, the state of the link when it
sends, and the two waits. -/
structure VersionEnv where
  birth : Birth
  versionSend : SendState
  ackWait : Wait
  versionWait : Wait
  ackSend : SendState

variable (X : RsmpExt)

/-- The `Version` of this side. -/
def ownVersion (birth : Birth) : Message := ⟨.version, MsgType.version.new birth⟩

/-- `sendVersionAndWaitAck`. What `sendMessage` returns is overwritten. -/
def sendVersionAndWaitAck (env : VersionEnv) : VersionRun :=
  let version := ownVersion env.birth
  match sendMessage X env.versionSend version with
  | .stops => ([], .stops)
  | sending =>
    match waitForMessage X env.ackWait with
    | .failed => (sentLog version sending, .error)
    | .stops => (sentLog version sending, .stops)
    | .msg m =>
      (sentLog version sending ++ [.received m], if m.1 = .messageAck then .ok else .error)

/-- `waitVersionAndSendAck`. `cyber->isRunning` is a function, and not null. -/
def waitVersionAndSendAck (env : VersionEnv) : VersionRun :=
  match waitForMessage X env.versionWait with
  | .failed => ([], .error)
  | .stops => ([], .stops)
  | .msg m =>
    if m.1 = .version then
      match messageAckTo m with
      | none => ([.received m], .stops)
      | some answer =>
        match sendMessage X env.ackSend answer with
        | .sent => ([.received m, .sent answer], .ok)
        | .failed => ([.received m], .error)
        | .stops => ([.received m], .stops)
    else ([.received m], .error)

/-- One half, and the other one if it succeeds. -/
def VersionRun.andThen (first second : VersionRun) : VersionRun :=
  if first.2 = .ok then (first.1 ++ second.1, second.2) else first

/-- `echange_versions` -/
def echangeVersions (isLeader : Bool) (env : VersionEnv) : VersionRun :=
  if isLeader then (waitVersionAndSendAck X env).andThen (sendVersionAndWaitAck X env)
  else (sendVersionAndWaitAck X env).andThen (waitVersionAndSendAck X env)

/-! ## What success stands for

Both versions were sent, received and acknowledged, each acknowledgement being that of its
version. -/

/-- A `Version` was sent and an acknowledgement of it received after it; the `Version` of the
other side was received and an acknowledgement of it sent after it. -/
structure Handshake (log : List VersionEvent) : Prop where
  own : ∃ version ack, [.sent version, .received ack].Sublist log ∧
    version.1 = .version ∧ ack.1 = .messageAck ∧ ack.oMId? = version.mId?
  other : ∃ version ack, [.received version, .sent ack].Sublist log ∧
    version.1 = .version ∧ ack.1 = .messageAck ∧ ack.oMId? = version.mId?

/-- Success stands for the four messages, and without them the result is an error. -/
structure ExchangeCorrect (run : VersionRun) : Prop where
  success : run.2 = .ok → Handshake run.1
  otherwise : ¬ Handshake run.1 → run.2 = .error

theorem exchangeCorrect_iff {run : VersionRun} :
    ExchangeCorrect run ↔ run.2 = .error ∨ Handshake run.1 := by
  constructor
  · intro h
    by_cases hshake : Handshake run.1
    · exact .inr hshake
    · exact .inl (h.otherwise hshake)
  · rintro (herror | hshake)
    · refine ⟨fun hok => ?_, fun _ => herror⟩
      rw [herror] at hok
      cases hok
    · exact ⟨fun _ => hshake, fun hno => absurd hshake hno⟩

/-! ## What the exchange takes for granted

Each half has a condition under which it comes to its end. The second part of the condition is
what nobody looks at: that the own message was sent, and that the acknowledgement answers it. -/

variable {X}

/-- The wait gives the message. -/
def Wait.Gives (X : RsmpExt) (w : Wait) (m : Message) : Prop :=
  ∃ payload, w.payload = some payload ∧ rsmpJsonPayload2msg X w.birth payload = .msg m

/-- The decoder handles the payload. -/
def Wait.Readable (X : RsmpExt) (w : Wait) : Prop :=
  ∀ payload, w.payload = some payload → Handled X payload

/-- The message has a text. -/
def Printable (X : RsmpExt) (m : Message) : Prop :=
  ∃ payload, rsmpJsonMsg2payload X m = .ok (some payload)

/-! ### The conditions

A half has to get a message, and the message has to be the right one. The first is what the code
checks; of the second it checks the type alone. -/

/-- What it takes for `sendVersionAndWaitAck` to come to its end. -/
structure SendHalf (X : RsmpExt) (env : VersionEnv) : Prop where
  printable : Printable X (ownVersion env.birth)
  readable : env.ackWait.Readable X

/-- What it takes for `waitVersionAndSendAck` to come to its end. -/
structure WaitHalf (X : RsmpExt) (env : VersionEnv) : Prop where
  readable : env.versionWait.Readable X
  printable : ∀ m ack, env.versionWait.Gives X m → m.1 = .version → messageAckTo m = some ack →
    Printable X ack

/-- A `MessageAck` arrives. -/
def AckArrives (X : RsmpExt) (env : VersionEnv) : Prop :=
  ∃ ack, env.ackWait.Gives X ack ∧ ack.1 = .messageAck

/-- A `Version` arrives, and its acknowledgement can be sent. -/
def VersionAnswered (X : RsmpExt) (env : VersionEnv) : Prop :=
  (∃ version, env.versionWait.Gives X version ∧ version.1 = .version) ∧ cyberSend env.ackSend

/-- A `MessageAck` that arrives answers the `Version` of this side, which could be sent. -/
def AckMatches (X : RsmpExt) (env : VersionEnv) : Prop :=
  ∀ ack, env.ackWait.Gives X ack → ack.1 = .messageAck →
    cyberSend env.versionSend ∧ ack.oMId? = (ownVersion env.birth).mId?

/-- Both halves come to their end, as far as they are gone through, and where both succeed the
acknowledgement that was received matches. -/
def VersionEnv.Sound (X : RsmpExt) (isLeader : Bool) (env : VersionEnv) : Prop :=
  if isLeader then
    WaitHalf X env ∧ (VersionAnswered X env → SendHalf X env ∧ AckMatches X env)
  else
    SendHalf X env ∧ (AckArrives X env → WaitHalf X env ∧
      (VersionAnswered X env → AckMatches X env))

/-! ## Each half

What a half leaves in the log when it succeeds, and when it does not. -/

/-- Whether the message of a wait is read. -/
theorem waitForMessage_cases (X : RsmpExt) (w : Wait) :
    (waitForMessage X w = .stops ∧ ¬ w.Readable X) ∨
      (waitForMessage X w = .failed ∧ w.Readable X ∧ ∀ m, ¬ w.Gives X m) ∨
      ∃ m, waitForMessage X w = .msg m ∧ w.Readable X ∧ ∀ m', w.Gives X m' ↔ m' = m := by
  cases hpayload : w.payload with
  | none =>
    refine .inr (.inl ⟨by rw [waitForMessage, hpayload], ?_, ?_⟩)
    · rw [Wait.Readable, hpayload]
      exact nofun
    · rintro m ⟨payload, h, -⟩
      rw [hpayload] at h
      cases h
  | some payload =>
    have hreadable : w.Readable X ↔ Handled X payload := by
      simp only [Wait.Readable, hpayload, Option.some.injEq, forall_eq']
    have hgives : ∀ m, w.Gives X m ↔ rsmpJsonPayload2msg X w.birth payload = .msg m := by
      intro m
      simp only [Wait.Gives, hpayload, Option.some.injEq, exists_eq_left']
    have hreturns := payload2msg_returns_iff X w.birth payload
    simp only [waitForMessage, hpayload, hgives, hreadable]
    rw [← hreturns]
    generalize rsmpJsonPayload2msg X w.birth payload = r
    cases r with
    | null =>
      refine .inr (.inl ⟨rfl, .inl rfl, ?_⟩)
      intro m h
      cases h
    | msg m =>
      have hiff : ∀ m', Decoded.msg m = .msg m' ↔ m' = m := by
        intro m'
        constructor
        · intro h
          exact (Decoded.msg.inj h).symm
        · intro h
          exact congrArg Decoded.msg h.symm
      exact .inr (.inr ⟨m, rfl, .inr ⟨m, rfl⟩, hiff⟩)
    | freed =>
      refine .inl ⟨rfl, ?_⟩
      rintro (h | ⟨_, h⟩)
      · cases h
      · cases h
    | stops s =>
      refine .inl ⟨rfl, ?_⟩
      rintro (h | ⟨_, h⟩)
      · cases h
      · cases h

theorem sendMessage_cases (X : RsmpExt) (S : SendState) (m : Message) :
    (sendMessage X S m = .stops ∧ ¬ Printable X m) ∨
      (sendMessage X S m = .failed ∧ Printable X m ∧ ¬ cyberSend S) ∨
      (sendMessage X S m = .sent ∧ Printable X m ∧ cyberSend S) := by
  unfold sendMessage
  split
  · next payload hpayload =>
    split
    · next hsend => exact .inr (.inr ⟨rfl, ⟨payload, hpayload⟩, hsend⟩)
    · next hsend => exact .inr (.inl ⟨rfl, ⟨payload, hpayload⟩, hsend⟩)
  · next hpayload => exact .inl ⟨rfl, fun ⟨payload, h⟩ => hpayload payload h⟩

/-- The log that its own `Version` leaves. -/
def ownLog (env : VersionEnv) : List VersionEvent :=
  if cyberSend env.versionSend then [.sent (ownVersion env.birth)] else []

/-- How `sendVersionAndWaitAck` ends. -/
inductive SendHalfEnd (X : RsmpExt) (env : VersionEnv) : VersionRun → Prop
  | stops {log} : ¬ SendHalf X env → log = [] ∨ log = ownLog env → SendHalfEnd X env (log, .stops)
  | error {log} : SendHalf X env → ¬ AckArrives X env → SendHalfEnd X env (log, .error)
  | ok {ack} : SendHalf X env → (∀ m, env.ackWait.Gives X m ↔ m = ack) → ack.1 = .messageAck →
    SendHalfEnd X env (ownLog env ++ [.received ack], .ok)

theorem sendVersionAndWaitAck_end (X : RsmpExt) (env : VersionEnv) :
    SendHalfEnd X env (sendVersionAndWaitAck X env) := by
  -- whether it was sent only shows in the log
  have hwait : Printable X (ownVersion env.birth) → SendHalfEnd X env
      (match waitForMessage X env.ackWait with
      | .failed => (ownLog env, .error)
      | .stops => (ownLog env, .stops)
      | .msg m => (ownLog env ++ [.received m], if m.1 = .messageAck then .ok else .error)) := by
    intro hprint
    rcases waitForMessage_cases X env.ackWait with ⟨h, hread⟩ | ⟨h, hread, hgives⟩ |
      ⟨m, h, hread, hgives⟩
    · rw [h]
      exact .stops (fun hhalf => hread hhalf.readable) (.inr rfl)
    · rw [h]
      exact .error ⟨hprint, hread⟩ fun ⟨answer, hanswer, _⟩ => hgives answer hanswer
    · rw [h]
      by_cases hack : m.1 = .messageAck
      · simp only [if_pos hack]
        exact .ok ⟨hprint, hread⟩ hgives hack
      · simp only [if_neg hack]
        refine .error ⟨hprint, hread⟩ ?_
        rintro ⟨ack, hgiven, htype⟩
        rw [(hgives ack).mp hgiven] at htype
        exact hack htype
  rw [sendVersionAndWaitAck]
  rcases sendMessage_cases X env.versionSend (ownVersion env.birth) with ⟨h, hprint⟩ |
    ⟨h, hprint, hsend⟩ | ⟨h, hprint, hsend⟩
  · rw [h]
    exact .stops (fun hhalf => hprint hhalf.printable) (.inl rfl)
  · have hlog : ownLog env = [] := if_neg hsend
    rw [hlog] at hwait
    rw [h]
    exact hwait hprint
  · have hlog : ownLog env = [.sent (ownVersion env.birth)] := if_pos hsend
    rw [hlog] at hwait
    rw [h]
    exact hwait hprint

/-- How `waitVersionAndSendAck` ends. -/
inductive WaitHalfEnd (X : RsmpExt) (env : VersionEnv) : VersionRun → Prop
  | stops {log} : ¬ WaitHalf X env → log = [] ∨ (∃ m, log = [.received m]) →
    WaitHalfEnd X env (log, .stops)
  | error {log} : WaitHalf X env → ¬ VersionAnswered X env → WaitHalfEnd X env (log, .error)
  | ok {version ack} : WaitHalf X env → VersionAnswered X env → version.1 = .version →
    messageAckTo version = some ack → WaitHalfEnd X env ([.received version, .sent ack], .ok)

theorem waitVersionAndSendAck_end (X : RsmpExt) (env : VersionEnv) :
    WaitHalfEnd X env (waitVersionAndSendAck X env) := by
  rw [waitVersionAndSendAck]
  rcases waitForMessage_cases X env.versionWait with ⟨h, hread⟩ | ⟨h, hread, hgives⟩ |
    ⟨m, h, hread, hgives⟩
  · rw [h]
    exact .stops (fun hhalf => hread hhalf.readable) (.inl rfl)
  · rw [h]
    refine .error ⟨hread, fun m _ hgiven => absurd hgiven (hgives m)⟩ ?_
    rintro ⟨⟨m, hgiven, -⟩, -⟩
    exact hgives m hgiven
  · rw [h]
    dsimp only
    by_cases hversion : m.1 = .version
    · have hacked : m.1.ack = true := by rw [hversion]; rfl
      obtain ⟨mId, -, hack, -⟩ := messageAckTo_eq hacked
      have hprintable : Printable X (ackOf mId) ↔ WaitHalf X env := by
        constructor
        · intro hprint
          refine ⟨hread, fun m' ack' hgiven _ hack' => ?_⟩
          rw [(hgives m').mp hgiven, hack] at hack'
          cases hack'
          exact hprint
        · intro hhalf
          exact hhalf.printable m _ ((hgives m).mpr rfl) hversion hack
      rw [if_pos hversion, hack]
      dsimp only
      rcases sendMessage_cases X env.ackSend (ackOf mId) with ⟨hs, hprint⟩ |
        ⟨hs, hprint, hsend⟩ | ⟨hs, hprint, hsend⟩
      · rw [hs]
        exact .stops (fun hhalf => hprint (hprintable.mpr hhalf)) (.inr ⟨m, rfl⟩)
      · rw [hs]
        exact .error (hprintable.mp hprint) fun hanswered => hsend hanswered.2
      · rw [hs]
        exact .ok (hprintable.mp hprint) ⟨⟨m, (hgives m).mpr rfl, hversion⟩, hsend⟩ hversion hack
    · rw [if_neg hversion]
      refine .error ⟨hread, fun m' _ hgiven htype => ?_⟩ ?_
      · rw [(hgives m').mp hgiven] at htype
        exact absurd htype hversion
      · rintro ⟨⟨m', hgiven, htype⟩, -⟩
        rw [(hgives m').mp hgiven] at htype
        exact hversion htype

/-! ## The whole exchange

The log of a run that succeeds is put together from those of its halves. -/

/-- A log without an acknowledgement received is no success. -/
theorem Handshake.received {log : List VersionEvent} (h : Handshake log) :
    ∃ ack, .received ack ∈ log ∧ ack.1 = .messageAck := by
  obtain ⟨version, ack, hsub, -, htype, -⟩ := h.own
  exact ⟨ack, hsub.subset (by simp), htype⟩

/-- Nor is one without an acknowledgement sent. -/
theorem Handshake.sent {log : List VersionEvent} (h : Handshake log) :
    ∃ ack, .sent ack ∈ log ∧ ack.1 = .messageAck := by
  obtain ⟨version, ack, hsub, -, htype, -⟩ := h.other
  exact ⟨ack, hsub.subset (by simp), htype⟩

theorem mem_ownLog {env : VersionEnv} {e : VersionEvent} (h : e ∈ ownLog env) :
    e = .sent (ownVersion env.birth) := by
  unfold ownLog at h
  split at h
  · exact List.mem_singleton.mp h
  · cases h

/-- The four messages, in either order of the halves, when the second answer is right. -/
theorem handshake_iff {env : VersionEnv} {version answer ack : Message}
    (hversion : version.1 = .version) (hanswer : messageAckTo version = some answer)
    (hack : ack.1 = .messageAck) {log : List VersionEvent}
    (hlog : log.Perm (ownLog env ++ [.received ack] ++ [.received version, .sent answer]))
    (hother : [.received version, .sent answer].Sublist log)
    (hown : (ownLog env ++ [VersionEvent.received ack]).Sublist log) :
    Handshake log ↔
      cyberSend env.versionSend ∧ ack.oMId? = (ownVersion env.birth).mId? := by
  have hacked : version.1.ack = true := by rw [hversion]; rfl
  obtain ⟨mId, hmId, hackTo, -⟩ := messageAckTo_eq hacked
  obtain rfl : ackOf mId = answer := Option.some.inj (hackTo.symm.trans hanswer)
  have hcases : ∀ {e}, e ∈ log →
      e ∈ ownLog env ∨ e = .received ack ∨ e = .received version ∨ e = .sent (ackOf mId) := by
    intro e he
    simpa only [List.mem_append, List.mem_cons, List.not_mem_nil, or_false, or_assoc]
      using hlog.mem_iff.mp he
  constructor
  · intro h
    obtain ⟨own, reply, hsub, hownType, hreplyType, hmatch⟩ := h.own
    -- what was sent as a version is the own one, what was received as an answer is `ack`
    have hsent : .sent own ∈ ownLog env := by
      have hmem : .sent own ∈ log := hsub.subset (by simp)
      rcases hcases hmem with h | h | h | h
      · exact h
      · cases h
      · cases h
      · cases h
        cases hownType
    have hreceived : reply = ack := by
      have hmem : .received reply ∈ log := hsub.subset (by simp)
      rcases hcases hmem with h | h | h | h
      · cases mem_ownLog h
      · cases h
        rfl
      · cases h
        rw [hversion] at hreplyType
        cases hreplyType
      · cases h
    obtain rfl : own = ownVersion env.birth := by
      cases mem_ownLog hsent
      rfl
    refine ⟨?_, hreceived ▸ hmatch⟩
    by_contra hsend
    rw [ownLog, if_neg hsend] at hsent
    cases hsent
  · rintro ⟨hsend, hmatch⟩
    rw [ownLog, if_pos hsend] at hown
    refine ⟨⟨_, ack, hown, rfl, hack, hmatch⟩, ⟨version, _, hother, hversion, rfl, ?_⟩⟩
    rw [oMId?_ackOf, hmId]

theorem ackMatches_iff {env : VersionEnv} {ack : Message}
    (hgives : ∀ m, env.ackWait.Gives X m ↔ m = ack) (hack : ack.1 = .messageAck) :
    AckMatches X env ↔ cyberSend env.versionSend ∧ ack.oMId? = (ownVersion env.birth).mId? := by
  constructor
  · intro h
    exact h ack ((hgives ack).mpr rfl) hack
  · intro h m hm _
    rw [(hgives m).mp hm]
    exact h

/-- The run that stops is not right, and its log is no success. -/
theorem not_correct_stops {log : List VersionEvent} (hlog : ¬ Handshake log) :
    ¬ (VersionResult.stops = .error ∨ Handshake log) := by
  rintro (h | h)
  · cases h
  · exact hlog h

/-! ### The two orders

The leader waits first and the follower sends first. In either order, the second half is only
gone through when the first has succeeded. -/

/-- The leader waits first: what its second half needs is only asked once a `Version` was
answered. -/
theorem leader_iff {env : VersionEnv} {waited sent : VersionRun} (hwait : WaitHalfEnd X env waited)
    (hsend : SendHalfEnd X env sent) :
    (waited.andThen sent).2 = .error ∨ Handshake (waited.andThen sent).1 ↔
      WaitHalf X env ∧ (VersionAnswered X env → SendHalf X env ∧ AckMatches X env) := by
  cases hwait with
  | @stops log hhalf hlog =>
    -- nothing was sent
    have hno : ¬ Handshake log := by
      intro h
      obtain ⟨ack, hmem, -⟩ := h.sent
      rcases hlog with rfl | ⟨m, rfl⟩
      · cases hmem
      · cases List.mem_singleton.mp hmem
    exact iff_of_false (not_correct_stops hno) fun h => hhalf h.1
  | error hhalf hanswered =>
    exact iff_of_true (.inl rfl) ⟨hhalf, fun h => absurd h hanswered⟩
  | @ok version answer hhalf hanswered hversion hanswer =>
    cases hsend with
    | @stops log hsendHalf hlog =>
      -- no acknowledgement was received
      have hno : ¬ Handshake ([.received version, .sent answer] ++ log) := by
        intro h
        obtain ⟨ack, hmem, htype⟩ := h.received
        rcases List.mem_append.mp hmem with hmem | hmem
        · simp only [List.mem_cons, List.not_mem_nil, or_false, reduceCtorEq,
            VersionEvent.received.injEq] at hmem
          rw [hmem, hversion] at htype
          cases htype
        · rcases hlog with rfl | rfl
          · cases hmem
          · cases mem_ownLog hmem
      exact iff_of_false (not_correct_stops hno) fun h => hsendHalf (h.2 hanswered).1
    | error hsendHalf harrives =>
      refine iff_of_true (.inl rfl) ⟨hhalf, fun _ => ⟨hsendHalf, ?_⟩⟩
      intro ack hack htype
      exact absurd ⟨ack, hack, htype⟩ harrives
    | @ok ack hsendHalf hgives hack =>
      have hshake : Handshake ([.received version, .sent answer] ++
          (ownLog env ++ [.received ack])) ↔ _ :=
        handshake_iff hversion hanswer hack List.perm_append_comm (List.sublist_append_left _ _)
          (List.sublist_append_right _ _)
      rw [← ackMatches_iff hgives hack] at hshake
      apply (or_congr_right hshake).trans
      constructor
      · rintro (h | h)
        · cases h
        · exact ⟨hhalf, fun _ => ⟨hsendHalf, h⟩⟩
      · intro h
        exact .inr (h.2 hanswered).2

/-- The follower sends first. -/
theorem follower_iff {env : VersionEnv} {sent waited : VersionRun} (hsend : SendHalfEnd X env sent)
    (hwait : WaitHalfEnd X env waited) :
    (sent.andThen waited).2 = .error ∨ Handshake (sent.andThen waited).1 ↔
      SendHalf X env ∧ (AckArrives X env → WaitHalf X env ∧
        (VersionAnswered X env → AckMatches X env)) := by
  cases hsend with
  | @stops log hhalf hlog =>
    -- nothing was received
    have hno : ¬ Handshake log := by
      intro h
      obtain ⟨ack, hmem, -⟩ := h.received
      rcases hlog with rfl | rfl
      · cases hmem
      · cases mem_ownLog hmem
    exact iff_of_false (not_correct_stops hno) fun h => hhalf h.1
  | error hhalf harrives =>
    exact iff_of_true (.inl rfl) ⟨hhalf, fun h => absurd h harrives⟩
  | @ok ack hhalf hgives hack =>
    have harrives : AckArrives X env := ⟨ack, (hgives ack).mpr rfl, hack⟩
    cases hwait with
    | @stops log hwaitHalf hlog =>
      -- no acknowledgement was sent
      have hno : ¬ Handshake (ownLog env ++ [.received ack] ++ log) := by
        intro h
        obtain ⟨answer, hmem, htype⟩ := h.sent
        rw [List.append_assoc] at hmem
        rcases List.mem_append.mp hmem with hmem | hmem
        · cases mem_ownLog hmem
          cases htype
        · rcases hlog with rfl | ⟨m, rfl⟩
          · simp at hmem
          · simp at hmem
      exact iff_of_false (not_correct_stops hno) fun h => hwaitHalf (h.2 harrives).1
    | error hwaitHalf hanswered =>
      exact iff_of_true (.inl rfl) ⟨hhalf, fun _ => ⟨hwaitHalf, fun h => absurd h hanswered⟩⟩
    | @ok version answer hwaitHalf hanswered hversion hanswer =>
      have hshake : Handshake (ownLog env ++ [.received ack] ++
          [.received version, .sent answer]) ↔ _ :=
        handshake_iff hversion hanswer hack (.refl _) (List.sublist_append_right _ _)
          (List.sublist_append_left _ _)
      rw [← ackMatches_iff hgives hack] at hshake
      apply (or_congr_right hshake).trans
      constructor
      · rintro (h | h)
        · cases h
        · exact ⟨hhalf, fun _ => ⟨hwaitHalf, fun _ => h⟩⟩
      · intro h
        exact .inr ((h.2 harrives).2 hanswered)

/-- **The exchange of versions.** -/
theorem echange_versions_iff (X : RsmpExt) (isLeader : Bool) (env : VersionEnv) :
    ExchangeCorrect (echangeVersions X isLeader env) ↔ env.Sound X isLeader := by
  rw [exchangeCorrect_iff, echangeVersions, VersionEnv.Sound]
  have hsend := sendVersionAndWaitAck_end X env
  have hwait := waitVersionAndSendAck_end X env
  cases isLeader with
  | true => exact leader_iff hwait hsend
  | false => exact follower_iff hsend hwait

/-! ### An acknowledgement of nothing

The exchange succeeds on an acknowledgement of another message. -/

/-- Whether a `Version` that was sent is acknowledged somewhere. -/
def versionAcked (log : List VersionEvent) : Bool :=
  log.any fun
    | .sent version => version.1 = .version && log.any fun
      | .received reply => reply.oMId? = version.mId?
      | .sent _ => false
    | .received _ => false

theorem Handshake.versionAcked {log : List VersionEvent} (h : Handshake log) :
    versionAcked log = true := by
  obtain ⟨version, ack, hsub, hversion, -, hmatch⟩ := h.own
  refine List.any_eq_true.mpr ⟨.sent version, hsub.subset (by simp), ?_⟩
  rw [Bool.and_eq_true]
  refine ⟨decide_eq_true hversion, List.any_eq_true.mpr ⟨.received ack, hsub.subset (by simp), ?_⟩⟩
  exact decide_eq_true hmatch

/-- What the constructor of a supervised site takes, and the identifier that it draws. -/
def siteBirth (mId : Uuid) : Birth :=
  ⟨mId, ⟨1457012463, 0⟩, ⟨[some (CStr.dup (ascii "3.2"))], [some (CStr.dup (ascii "O+14439"))],
    some (CStr.dup (ascii "1.0.15")), none, none, none⟩⟩

/-- json-c for the two versions, and for some acknowledgements. -/
def versionsExt : RsmpExt :=
  hostExt [ownVersion (siteBirth 0x2a), ownVersion (siteBirth 0x2b), ackOf (0x2a : Uuid),
    ackOf (0x2b : Uuid), ackOf (0x2c : Uuid)]

theorem versionsExt_lawful : versionsExt.Lawful := by
  refine hostExt_lawful (JsonLib.ofTable_lawful ?_ ?_)
  · decide +kernel
  · decide +kernel

/-- A link with one login, which may be busy with a challenge. -/
def oneLogin (busy : Bool) : SendState where
  allClearRxed := true
  allClearSent := true
  dbs := oneEntry true
  sIdRemote := some oneKey.sId
  challengeAuth := some oneKey
  challengeRunning := busy
  challengeToSend := false
  memory := true

/-- The other side acknowledges the message `oMId`, and sends its `Version`. -/
def versionEnv (busy : Bool) (oMId : Uuid) : VersionEnv :=
  let payload := fun m : Message => (Json.obj (m.members versionsExt)).toPlain
  { birth := siteBirth 0x2a
    versionSend := oneLogin busy
    ackWait := ⟨some (payload (ackOf oMId)), siteBirth 0x2d⟩
    versionWait := ⟨some (payload (ownVersion (siteBirth 0x2b))), siteBirth 0x2e⟩
    ackSend := oneLogin false }

/-- The exchange succeeds with the acknowledgement of another message, and when its `Version`
could not be sent. -/
theorem versions_not_exchanged :
    versionsExt.Lawful ∧
      ¬ ExchangeCorrect (echangeVersions versionsExt false (versionEnv false 0x2c)) ∧
      ¬ ExchangeCorrect (echangeVersions versionsExt false (versionEnv true 0x2a)) := by
  have hwrong : ∀ {run : VersionRun}, (run.2 = .ok && !versionAcked run.1) = true →
      ¬ ExchangeCorrect run := by
    intro run hrun hcorrect
    obtain ⟨hok, hunacked⟩ := Bool.and_eq_true_iff.mp hrun
    have hacked := (hcorrect.success (of_decide_eq_true hok)).versionAcked
    rw [hacked] at hunacked
    cases hunacked
  refine ⟨versionsExt_lawful, hwrong ?_, hwrong ?_⟩
  · decide +kernel
  · decide +kernel

end RsmpGateway.Gateway
