import RsmpGateway.Gateway.Stages
import RsmpGateway.Lib.Dialogue

/-!
# The exchange of versions between two gateways

The leader and the follower run `echange_versions` against each other, over a link that may lose
what they send, and over which the application may send as well. Each side is cut in stages
(`Gateway/Stages.lean`), and the stages of the two sides are interleaved in any order.

Neither half looks at what an acknowledgement answers, but the other side only sends one for a
`Version` that it has read. So a side that succeeds has made the exchange, in one run: its
`Version` was sent and the acknowledgement is that of it, the `Version` of the other side was
received and acknowledged. And the follower has succeeded when the leader does
(`versions_exchanged`).

The invariant says where a payload on its way comes from (`Origin`), and what each side has done
by its stage (`Meeting`).
-/

namespace RsmpGateway.Rsmp

open RsmpGateway.Lib RsmpGateway.Coder

/-! ## Identifiers

A `Version` keeps its identifier over the text, which is what makes an acknowledgement one of a
certain message. -/

section Identifiers

variable {X : RsmpExt}

theorem Codec.uuid?_extract (hX : X.Lawful) {codec : Codec} {id id' : Uuid} {x y : codec.Ty}
    (h : jsonExtractField X codec (.str (X.uuidUnparse id)) x = .ok y)
    (hid : codec.uuid? y = some id') : id' = id := by
  cases codec with
  | uuid =>
    obtain ⟨hne, hnul⟩ := hX.uuidText id
    simp only [jsonExtractField, json2vars, decode, uuidDecode, cstr_eq_self hnul, if_neg hne,
      hX.uuid] at h
    cases h
    cases hid
    rfl
  | _ => cases hid

/-- The identifier that is decoded under a key is that of the text. -/
theorem Fields.uuid?_extract (hX : X.Lawful) {key : Bytes} {id id' : Uuid} {jobj : Json}
    (hget : jobj.get? key = some (.str (X.uuidUnparse id))) {fs : Fields} {m m' : fs.Msg}
    (h : fs.jsonExtractFields X jobj m = .ok m') (hid : fs.uuid? key m' = some id') :
    id' = id := by
  induction fs with
  | nil => cases hid
  | field lib codec rest ih =>
    obtain ⟨x, m⟩ := m
    obtain ⟨x', m'⟩ := m'
    rw [jsonExtractFields] at h
    split at h
    · cases h
    · next obj hobj =>
      obtain ⟨y, hy, h⟩ := Except.bind_eq_ok.mp h
      obtain ⟨n, hn, h⟩ := Except.bind_eq_ok.mp h
      cases h
      rw [uuid?] at hid
      split at hid
      · -- the field of the identifier, or a later one
        next hlib =>
        rw [hlib, rsmpJsonObjectGet, hget] at hobj
        cases hobj
        exact Codec.uuid?_extract hX hy hid
      · exact ih hn hid
  | array lib elems rest _ ih =>
    obtain ⟨x, m⟩ := m
    obtain ⟨x', m'⟩ := m'
    rw [jsonExtractFields] at h
    split at h
    · cases h
    · obtain ⟨_, -, h⟩ := Except.bind_eq_ok.mp h
      obtain ⟨n, hn, h⟩ := Except.bind_eq_ok.mp h
      cases h
      exact ih hn hid
    · cases h
  | table lib codec rest ih =>
    obtain ⟨x, m⟩ := m
    obtain ⟨x', m'⟩ := m'
    rw [jsonExtractFields] at h
    split at h
    · cases h
    · obtain ⟨_, -, h⟩ := Except.bind_eq_ok.mp h
      obtain ⟨n, hn, h⟩ := Except.bind_eq_ok.mp h
      cases h
      exact ih hn hid
    · cases h

/-- A message is read with the identifier that it was sent with. -/
theorem Message.mId?_of_payload (hX : X.Lawful) {m m' : Message} {id id' : Uuid}
    (hdescribed : m.1.Described) (hmember : (ascii "mId", .str (X.uuidUnparse id)) ∈ m.members X)
    {payload : Bytes} (h : rsmpJsonMsg2payload X m = .ok (some payload)) {B : Birth}
    (hmsg : rsmpJsonPayload2msg X B payload = .msg m') (hid : m'.mId? = some id') : id' = id := by
  obtain ⟨-, jobj, hparse, hhas⟩ := Message.msg2payload_some hX hdescribed h
  rw [rsmpJsonPayload2msg, hparse] at hmsg
  dsimp only at hmsg
  split at hmsg
  · split at hmsg
    · cases hmsg
    · split at hmsg
      · cases hmsg
      · split at hmsg
        · next hextract =>
          cases hmsg
          exact Fields.uuid?_extract hX (hhas _ hmember) hextract hid
        · cases hmsg
        · cases hmsg
  · cases hmsg

end Identifiers

end RsmpGateway.Rsmp

namespace RsmpGateway.Gateway

open RsmpGateway.Lib RsmpGateway.Rsmp

variable {X : RsmpExt}

/-! ## Both sides

What a side waits for is the first payload on its way, or nothing in time. What it sends is lost
or comes last. -/

/-- The leader is the left one, and waits first. -/
def isLeader (p : Party) : Bool := p = .left

/-- Where each side is, what it has sent and received, and what is on its way to it. -/
structure Peers where
  stage : Party → Stage
  log : Party → List VersionEvent
  inbox : Party → List Bytes

inductive PeersEvent
  | /-- a stage of a side -/
    turn (p : Party)
  | /-- the link keeps some of what is on its way to a side -/
    lose (p : Party) (kept : List Bytes)
  | /-- the application of a side that has succeeded sends a payload -/
    speak (p : Party) (payload : Bytes)

section Peers

variable (X)

/-! ### What is on its way

A payload on its way to a side was sent by the other one in its exchange, or is none that the
exchange waits for. The link may lose payloads. -/

/-- The payload of a message that is sent. -/
def VersionEvent.payloads : VersionEvent → List Bytes
  | .sent m =>
    match rsmpJsonMsg2payload X m with
    | .ok (some payload) => [payload]
    | _ => []
  | .received _ => []

/-- The payload is that of no `Version` and of no `MessageAck`. -/
def Later (payload : Bytes) : Prop :=
  ∀ t, HasType X payload t → t ≠ .version ∧ t ≠ .messageAck

/-- The payload that a stage waits for, if it gets one in time. -/
def Stage.arrival (env : VersionEnv) (stage : Stage) : Option Bytes :=
  (stage.wait env).bind Wait.payload

/-- It is the first one on its way. -/
def arrived : Option Bytes → List Bytes → Option (List Bytes)
  | none, inbox => some inbox
  | some payload, first :: rest => if payload = first then some rest else none
  | some _, [] => none

variable (env : Party → VersionEnv)

/-- A stage of a side. What a side meets is given; the stage is over when that has arrived. -/
def Peers.turn (s : Peers) (p : Party) : Option Peers :=
  let next := (s.stage p).next X (env p)
  (arrived ((s.stage p).arrival (env p)) (s.inbox p)).map fun rest =>
    { stage := Function.update s.stage p next.2
      log := Function.update s.log p (s.log p ++ next.1)
      inbox := Function.update (Function.update s.inbox p rest) p.other
        (s.inbox p.other ++ next.1.flatMap (VersionEvent.payloads X)) }

def Peers.start : Peers where
  stage p := .first (isLeader p)
  log _ := []
  inbox _ := []

/-- The exchange of two gateways. -/
def peersSystem : System Peers PeersEvent where
  init s := s = .start
  step s e s' :=
    match e with
    | .turn p => s.turn X env p = some s'
    | .lose p kept =>
      kept.Sublist (s.inbox p) ∧ s' = { s with inbox := Function.update s.inbox p kept }
    | .speak p payload =>
      s.stage p = .finished .ok ∧ Later X payload ∧
        s' = { s with
          inbox := Function.update s.inbox p.other (s.inbox p.other ++ [payload]) }

/-- Where a payload on its way to a side comes from. -/
def Origin (s : Peers) (p : Party) (payload : Bytes) : Prop :=
  Later X payload ∨ ∃ m, .sent m ∈ s.log p.other ∧ rsmpJsonMsg2payload X m = .ok (some payload)

/-- What holds of both sides. -/
structure Meeting (s : Peers) : Prop where
  played : ∀ p, Played X (env p) (isLeader p) (s.log p) (s.stage p)
  inbox : ∀ p, ∀ payload ∈ s.inbox p, Origin X s p payload
  received : ∀ p m, .received m ∈ s.log p →
    ∃ B payload, rsmpJsonPayload2msg X B payload = .msg m ∧ Origin X s p payload
  order : s.stage .left = .finished .ok → s.stage .right = .finished .ok

end Peers

/-! ### What is read

The payloads of the exchange are texts of messages of two types, and are read as such by the
other side. -/

/-- The `Version` of a side is read as a `Version`, under its identifier. -/
theorem ownVersion_read (hX : X.Lawful) {birth B : Birth} {payload : Bytes} {m : Message}
    (h : rsmpJsonMsg2payload X (ownVersion birth) = .ok (some payload))
    (hmsg : rsmpJsonPayload2msg X B payload = .msg m) :
    m.1 = .version ∧ m.mId? = (ownVersion birth).mId? := by
  have hdescribed : (ownVersion birth).1.Described := rfl
  have htype : HasType X payload .version :=
    hasType_of_payload hX hdescribed List.mem_cons_self
      (List.mem_cons_of_mem _ List.mem_cons_self) h
  have hm := (hasType_of_msg hmsg).unique htype
  have hack : m.1.ack = true := by rw [hm]; rfl
  obtain ⟨id, hid⟩ := MsgType.mId?_isSome hack m.2
  have hown : (ownVersion birth).mId? = some birth.mId :=
    Fields.uuid?_third (by decide) (ownVersion birth).2
  refine ⟨hm, ?_⟩
  rw [hown]
  change m.mId? = some id at hid
  rw [hid]
  have hmember : (ascii "mId", .str (X.uuidUnparse birth.mId)) ∈ (ownVersion birth).members X :=
    List.mem_cons_of_mem _ (List.mem_cons_of_mem _ List.mem_cons_self)
  rw [Message.mId?_of_payload hX hdescribed hmember h hmsg hid]

/-- An answer is read as an acknowledgement of the same message. -/
theorem answer_read (hX : X.Lawful) {version answer m : Message} {B : Birth} {payload : Bytes}
    (hanswer : messageAckTo version = some answer)
    (h : rsmpJsonMsg2payload X answer = .ok (some payload))
    (hmsg : rsmpJsonPayload2msg X B payload = .msg m) :
    m.1 = .messageAck ∧ m.oMId? = version.mId? := by
  rw [messageAckTo] at hanswer
  split at hanswer
  · obtain ⟨mId, hmId, rfl⟩ := Option.map_eq_some_iff.mp hanswer
    obtain ⟨m', hmsg', hacked⟩ := acknowledges_ackOf hX h B
    rw [hmsg] at hmsg'
    cases hmsg'
    have hdescribed : (ackOf mId).1.Described := rfl
    have htype : HasType X payload .messageAck :=
      hasType_of_payload hX hdescribed List.mem_cons_self
        (List.mem_cons_of_mem _ List.mem_cons_self) h
    have hm := (hasType_of_msg hmsg).unique htype
    rw [acked, if_pos (.inl hm)] at hacked
    exact ⟨hm, hacked.trans hmId.symm⟩
  · cases hanswer

section Meeting

variable {env : Party → VersionEnv} {s s' : Peers} {p : Party}

/-! ### Where a message comes from

A message of one of the two types was sent by the other side, and is in its log. The identifiers
tell which one it is. -/

/-- A `Version` or an acknowledgement was sent by the other side. -/
theorem Origin.sent {B : Birth} {payload : Bytes} {m : Message} (h : Origin X s p payload)
    (hmsg : rsmpJsonPayload2msg X B payload = .msg m)
    (htype : m.1 = .version ∨ m.1 = .messageAck) :
    ∃ m₀, .sent m₀ ∈ s.log p.other ∧ rsmpJsonMsg2payload X m₀ = .ok (some payload) := by
  rcases h with hlater | hsent
  · obtain ⟨hversion, hack⟩ := hlater _ (hasType_of_msg hmsg)
    rcases htype with htype | htype
    · exact absurd htype hversion
    · exact absurd htype hack
  · exact hsent

/-- A `Version` that was received is that of the other side. -/
theorem Meeting.version (hX : X.Lawful) (h : Meeting X env s) {m : Message}
    (hm : .received m ∈ s.log p) (hversion : m.1 = .version) :
    .sent (ownVersion (env p.other).birth) ∈ s.log p.other ∧
      m.mId? = (ownVersion (env p.other).birth).mId? := by
  obtain ⟨B, payload, hmsg, horigin⟩ := h.received p m hm
  obtain ⟨m₀, hsent, hpayload⟩ := horigin.sent hmsg (.inl hversion)
  rcases (h.played p.other).story.sent m₀ hsent with rfl | ⟨version, -, -, hanswer⟩
  · exact ⟨hsent, (ownVersion_read hX hpayload hmsg).2⟩
  · have hack := (answer_read hX hanswer hpayload hmsg).1
    rw [hversion] at hack
    cases hack

/-- An acknowledgement was sent for a `Version` that the other side has received. -/
theorem Meeting.ack (hX : X.Lawful) (h : Meeting X env s) {B : Birth} {payload : Bytes}
    {m : Message} (hmsg : rsmpJsonPayload2msg X B payload = .msg m)
    (horigin : Origin X s p payload) (hack : m.1 = .messageAck) :
    ∃ version answer, .received version ∈ s.log p.other ∧ version.1 = .version ∧
      .sent answer ∈ s.log p.other ∧ answer.1 = .messageAck ∧ m.oMId? = version.mId? := by
  obtain ⟨m₀, hsent, hpayload⟩ := horigin.sent hmsg (.inr hack)
  rcases (h.played p.other).story.sent m₀ hsent with rfl | ⟨version, hread, hversion, hanswer⟩
  · have hversion := (ownVersion_read hX hpayload hmsg).1
    rw [hack] at hversion
    cases hversion
  · exact ⟨version, m₀, hread, hversion, hsent, messageAckTo_type hanswer,
      (answer_read hX hanswer hpayload hmsg).2⟩

/-- The leader is told by the follower, whose exchange is over then. -/
theorem Meeting.follower_over (hX : X.Lawful) (h : Meeting X env s) {B : Birth} {payload : Bytes}
    {m : Message} (hmsg : rsmpJsonPayload2msg X B payload = .msg m)
    (horigin : Origin X s .left payload) (hack : m.1 = .messageAck) :
    s.stage .right = .finished .ok := by
  obtain ⟨-, answer, -, -, hsent, hanswer, -⟩ := h.ack hX hmsg horigin hack
  exact (h.played .right).story.last rfl answer hsent hanswer

/-! ### What a turn keeps

A turn is a stage of one side, or something that the link or the application does. -/

/-- Where a payload comes from stays so. -/
theorem Origin.mono {payload : Bytes} (h : Origin X s p payload)
    (hlog : ∀ m, .sent m ∈ s.log p.other → .sent m ∈ s'.log p.other) : Origin X s' p payload := by
  rcases h with hlater | ⟨m, hsent, hpayload⟩
  · exact .inl hlater
  · exact .inr ⟨m, hlog m hsent, hpayload⟩

theorem Meeting.start : Meeting X env .start where
  played p := .first
  inbox p payload h := by cases h
  received p m h := by cases h
  order h := by cases h

/-- What the link loses does no harm, nor what the application sends. -/
theorem Meeting.inboxes (h : Meeting X env s) {inbox : Party → List Bytes}
    (hinbox : ∀ p, ∀ payload ∈ inbox p, payload ∈ s.inbox p ∨ Later X payload) :
    Meeting X env { s with inbox } where
  played := h.played
  inbox p payload hmem := by
    rcases hinbox p payload hmem with hmem | hlater
    · exact h.inbox p payload hmem
    · exact .inl hlater
  received := h.received
  order := h.order

theorem arrived_some {arrival : Option Bytes} {inbox rest : List Bytes}
    (h : arrived arrival inbox = some rest) :
    (∀ payload ∈ rest, payload ∈ inbox) ∧ ∀ payload, arrival = some payload → payload ∈ inbox := by
  cases arrival with
  | none =>
    cases h
    refine ⟨fun _ hmem => hmem, ?_⟩
    intro payload hpayload
    cases hpayload
  | some payload =>
    cases inbox with
    | nil => cases h
    | cons first inbox =>
      rw [arrived] at h
      split at h
      · next heq =>
        cases h
        refine ⟨fun _ hmem => List.mem_cons_of_mem _ hmem, ?_⟩
        intro payload' hpayload'
        cases hpayload'
        rw [heq]
        exact List.mem_cons_self
      · cases h

/-! ### A stage of one side

What a stage receives was the first payload on its way, and what it sends comes last on the way
to the other side. -/

/-- What is received in a stage has arrived. -/
theorem Does.received {env : VersionEnv} {stage stage' : Stage} {es : List VersionEvent}
    (h : Does X env stage es stage') {m : Message} (hm : .received m ∈ es) :
    ∃ B payload, stage.arrival env = some payload ∧ rsmpJsonPayload2msg X B payload = .msg m := by
  have hwait : ∃ w, stage.wait env = some w ∧ w.Gives X m := by
    cases h with
    | finished => cases hm
    | fails => cases hm
    | refuses hwait hgives =>
      cases List.mem_singleton.mp hm
      exact ⟨_, hwait, hgives⟩
    | unsent => cases hm
    | sends => cases List.mem_singleton.mp hm
    | acked hgives =>
      cases List.mem_singleton.mp hm
      exact ⟨_, rfl, hgives⟩
    | reads hgives =>
      cases List.mem_singleton.mp hm
      exact ⟨_, rfl, hgives⟩
    | answers => cases List.mem_singleton.mp hm
  obtain ⟨w, hwait, payload, hpayload, hmsg⟩ := hwait
  exact ⟨w.birth, payload, by rw [Stage.arrival, hwait, Option.bind_some, hpayload], hmsg⟩

/-- The leader is over with an acknowledgement. -/
theorem Does.leader_over {env : VersionEnv} {stage : Stage} {es : List VersionEvent}
    (h : Does X env stage es (.finished .ok)) (horder : stage.InOrder true) :
    stage = .finished .ok ∨ ∃ m, .received m ∈ es ∧ m.1 = .messageAck := by
  generalize hstage' : Stage.finished .ok = stage' at h
  cases h with
  | finished =>
    cases hstage'
    exact .inl rfl
  | fails _ hr =>
    cases hstage'
    exact absurd rfl hr
  | refuses => cases hstage'
  | unsent => cases hstage'
  | sends => cases hstage'
  | acked _ hack => exact .inr ⟨_, List.mem_singleton_self _, hack⟩
  | reads => cases hstage'
  | @answers m answer more =>
    have hmore : more = true := horder
    rw [hmore] at hstage'
    cases hstage'

theorem VersionEvent.mem_payloads {es : List VersionEvent} {payload : Bytes}
    (h : payload ∈ es.flatMap (VersionEvent.payloads X)) :
    ∃ m, .sent m ∈ es ∧ rsmpJsonMsg2payload X m = .ok (some payload) := by
  obtain ⟨e, he, hpayload⟩ := List.mem_flatMap.mp h
  cases e with
  | received m => cases hpayload
  | sent m =>
    rw [payloads] at hpayload
    split at hpayload
    · next heq => exact ⟨m, he, List.mem_singleton.mp hpayload ▸ heq⟩
    · cases hpayload

theorem Meeting.turn (hX : X.Lawful) (h : Meeting X env s) (hturn : s.turn X env p = some s') :
    Meeting X env s' := by
  obtain ⟨rest, harrived, rfl⟩ := Option.map_eq_some_iff.mp hturn
  obtain ⟨hrest, harrival⟩ := arrived_some harrived
  have hdoes : Does X (env p) (s.stage p) _ _ := Stage.next_does (s.stage p)
  have hne := p.other_ne
  -- what is received has arrived, and what was sent stays
  have hreceived : ∀ {m : Message}, .received m ∈ ((s.stage p).next X (env p)).1 →
      ∃ B payload, rsmpJsonPayload2msg X B payload = .msg m ∧ Origin X s p payload := by
    intro m hm
    obtain ⟨B, payload, hpayload, hmsg⟩ := hdoes.received hm
    exact ⟨B, payload, hmsg, h.inbox p payload (harrival payload hpayload)⟩
  have hlog : ∀ q e, e ∈ s.log q →
      e ∈ Function.update s.log p (s.log p ++ ((s.stage p).next X (env p)).1) q := by
    intro q e he
    rcases q.eq_or_eq_other p with rfl | rfl
    · rw [Function.update_self]
      exact List.mem_append_left _ he
    · rwa [Function.update_of_ne hne]
  constructor
  · intro q
    rcases q.eq_or_eq_other p with rfl | rfl
    · dsimp only
      rw [Function.update_self, Function.update_self]
      exact (h.played q).next
    · dsimp only
      rw [Function.update_of_ne hne, Function.update_of_ne hne]
      exact h.played p.other
  · intro q payload hmem
    rcases q.eq_or_eq_other p with rfl | rfl
    · dsimp only at hmem
      rw [Function.update_of_ne hne.symm, Function.update_self] at hmem
      exact (h.inbox q payload (hrest payload hmem)).mono fun m => hlog q.other (.sent m)
    · dsimp only at hmem
      rw [Function.update_self] at hmem
      rcases List.mem_append.mp hmem with hmem | hmem
      · exact (h.inbox p.other payload hmem).mono fun m => hlog p.other.other (.sent m)
      · obtain ⟨m, hsent, hpayload⟩ := VersionEvent.mem_payloads hmem
        refine .inr ⟨m, ?_, hpayload⟩
        rw [Party.other_other]
        dsimp only
        rw [Function.update_self]
        exact List.mem_append_right _ hsent
  · intro q m hm
    rcases q.eq_or_eq_other p with rfl | rfl
    · dsimp only at hm
      rw [Function.update_self] at hm
      have hold : ∃ B payload, rsmpJsonPayload2msg X B payload = .msg m ∧ Origin X s q payload := by
        rcases List.mem_append.mp hm with hm | hm
        · exact h.received q m hm
        · exact hreceived hm
      obtain ⟨B, payload, hmsg, horigin⟩ := hold
      exact ⟨B, payload, hmsg, horigin.mono fun m => hlog q.other (.sent m)⟩
    · dsimp only at hm
      rw [Function.update_of_ne hne] at hm
      obtain ⟨B, payload, hmsg, horigin⟩ := h.received p.other m hm
      exact ⟨B, payload, hmsg, horigin.mono fun m => hlog p.other.other (.sent m)⟩
  · dsimp only
    cases p with
    | left =>
      intro hover
      change Party.right ≠ .left at hne
      rw [Function.update_self] at hover
      rw [Function.update_of_ne hne]
      rw [hover] at hdoes
      rcases hdoes.leader_over (h.played .left).story.order with hstage | ⟨m, hm, hack⟩
      · exact h.order hstage
      · obtain ⟨B, payload, hmsg, horigin⟩ := hreceived hm
        exact h.follower_over hX hmsg horigin hack
    | right =>
      intro hover
      change Party.left ≠ .right at hne
      rw [Function.update_of_ne hne] at hover
      rw [Function.update_self, h.order hover]
      rfl

theorem Meeting.reachable (hX : X.Lawful) (h : (peersSystem X env).Reachable s) :
    Meeting X env s := by
  refine h.invariant ?_ ?_
  · rintro s rfl
    exact .start
  · intro s e s' hs hstep
    cases e with
    | turn p => exact hs.turn hX hstep
    | lose p kept =>
      obtain ⟨hkept, rfl⟩ := hstep
      refine hs.inboxes fun q payload hmem => .inl ?_
      rcases q.eq_or_eq_other p with rfl | rfl
      · rw [Function.update_self] at hmem
        exact hkept.subset hmem
      · rwa [Function.update_of_ne p.other_ne] at hmem
    | speak p payload =>
      obtain ⟨-, hlater, rfl⟩ := hstep
      refine hs.inboxes fun q payload' hmem => ?_
      rcases q.eq_or_eq_other p with rfl | rfl
      · rw [Function.update_of_ne q.other_ne.symm] at hmem
        exact .inl hmem
      · rw [Function.update_self] at hmem
        rcases List.mem_append.mp hmem with hmem | hmem
        · exact .inl hmem
        · obtain rfl := List.mem_singleton.mp hmem
          exact .inr hlater

/-- **Both sides.** A side that succeeds has really made the exchange, in one run of
`echange_versions`: its `Version` was sent, and the acknowledgement that it received is one of
this `Version`; and the `Version` that it received and acknowledged is that of the other side.
When the leader succeeds, so has the follower. -/
theorem versions_exchanged (hX : X.Lawful) (h : (peersSystem X env).Reachable s)
    (hover : s.stage p = .finished .ok) :
    echangeVersions X (isLeader p) (env p) = (s.log p, .ok) ∧ Handshake (s.log p) ∧
      (∃ version, .received version ∈ s.log p ∧ version.1 = .version ∧
        version.mId? = (ownVersion (env p.other).birth).mId?) ∧
      s.stage .right = .finished .ok := by
  have hmeeting := Meeting.reachable hX h
  have hplayed := hmeeting.played p
  rw [hover] at hplayed
  obtain ⟨ack, hreadAck, hack, hsub⟩ := hplayed.story.acked rfl
  obtain ⟨version, answer, hsub', hversion, hanswer⟩ := hplayed.story.answered rfl
  -- the acknowledgement answers a `Version` that the other side has received, which is our own
  obtain ⟨B, payload, hmsg, horigin⟩ := hmeeting.received p ack hreadAck
  obtain ⟨version', -, hread', hversion', -, -, hoMId⟩ := hmeeting.ack hX hmsg horigin hack
  have hown := hmeeting.version hX hread' hversion'
  rw [Party.other_other] at hown
  have hother : .received version ∈ s.log p := hsub'.subset List.mem_cons_self
  refine ⟨hplayed.finished, ⟨?_, ?_⟩, ?_, ?_⟩
  · exact ⟨_, ack, hsub hown.1, rfl, hack, hoMId.trans hown.2⟩
  · obtain ⟨mId, hmId, heq, -⟩ : ∃ mId, version.mId? = some mId ∧
        messageAckTo version = some (ackOf mId) ∧
          ∀ rea, messageNotAckTo version rea = some (notAckOf mId (CStr.dup rea)) :=
      messageAckTo_eq (by rw [hversion]; rfl)
    rw [hanswer] at heq
    cases heq
    exact ⟨version, ackOf mId, hsub', hversion, rfl, (oMId?_ackOf mId).trans hmId.symm⟩
  · exact ⟨version, hother, hversion, (hmeeting.version hX hother hversion).2⟩
  · cases p with
    | left => exact hmeeting.order hover
    | right => exact hover

end Meeting

/-! ### Two sites

A run in which both sides succeed. -/

/-- Stages of the sides, one after the other. -/
theorem turns_reachable {env : Party → VersionEnv} {s s' : Peers}
    (h : (peersSystem X env).Reachable s) {ps : List Party}
    (hps : ps.foldlM (Peers.turn X env) s = some s') : (peersSystem X env).Reachable s' := by
  induction ps generalizing s with
  | nil =>
    cases hps
    exact h
  | cons p ps ih =>
    obtain ⟨s₁, hturn, hrest⟩ := Option.bind_eq_some_iff.mp hps
    exact ih (h.next (.turn p) hturn) hrest

def Stage.succeeds : Stage → Bool
  | .finished r => r = .ok
  | _ => false

theorem Stage.finished_of_succeeds {stage : Stage} (h : stage.succeeds = true) :
    stage = .finished .ok := by
  cases stage with
  | finished r => rw [of_decide_eq_true h]
  | _ => cases h

/-- A wait for the payload of a message. -/
def waitFor (m : Message) (mId : Uuid) : Wait :=
  ⟨((VersionEvent.sent m).payloads versionsExt).head?, siteBirth mId⟩

/-- Each side gets what the other one sends. -/
def siteEnv (p : Party) : VersionEnv :=
  let (own, other) : Uuid × Uuid := if isLeader p then (0x2b, 0x2a) else (0x2a, 0x2b)
  { birth := siteBirth own
    versionSend := oneLogin false
    ackWait := waitFor (ackOf own) 0x2d
    versionWait := waitFor (ownVersion (siteBirth other)) 0x2e
    ackSend := oneLogin false }

/-- Both succeed. -/
theorem versions_exchanged_sites : ∃ s, (peersSystem versionsExt siteEnv).Reachable s ∧
    s.stage .left = .finished .ok ∧ s.stage .right = .finished .ok ∧ Handshake (s.log .left) := by
  have hrun : ([.right, .left, .left, .right, .left, .right, .right, .left].foldlM
      (Peers.turn versionsExt siteEnv) .start).any (fun s => (s.stage .left).succeeds) = true := by
    decide +kernel
  obtain ⟨s, hs, hsucceeds⟩ := (Option.any_eq_true _ _).mp hrun
  have hreachable := turns_reachable (.init rfl) hs
  have hover := Stage.finished_of_succeeds hsucceeds
  obtain ⟨-, hshake, -, hright⟩ := versions_exchanged versionsExt_lawful hreachable hover
  exact ⟨s, hreachable, hover, hright, hshake⟩

end RsmpGateway.Gateway
