import RsmpGateway.Gateway.Dispatch
import RsmpGateway.Lib.Dialogue

/-!
# Two gateways

Each side waits for the payloads of the other one and treats them in order, while its application
sends what it likes. Over any order of these steps, and whatever the link refuses, a message that
is acknowledged is acknowledged once, by its identifier (`acknowledged_once`), and no more than
four messages are treated for one that an application sent (`comes_to_rest`).

Both are properties of any two parties that reply to what they treat (`Lib/Dialogue.lean`). What
is shown here is what the library asks of one turn: the replies to a payload pay for what is due
to it, and weigh less than it does. A payload is a text, and what it is due depends on the
message that it is read as.
-/

namespace RsmpGateway.Gateway

open RsmpGateway.Lib RsmpGateway.Rsmp

section Dialogue

variable {σ : Type} (X : RsmpExt) (engine : Bytes → σ → Int × σ) (R : SxlRegistry σ)

/-- A turn of `external_receive` with a payload. `waitForMessage` gives no message for a payload
that it does not decode; where the decoder stops, or hands over a message that was freed, there
is no turn. -/
inductive Receives : σ → Bytes → Option Message → List Bytes → σ → Prop
  | unread {B h payload} : rsmpJsonPayload2msg X B payload = .null →
    Receives h payload none [] h
  | treated {B B' h payload m ret payloads h'} : rsmpJsonPayload2msg X B payload = .msg m →
    treat X engine R B' m ⟨h, []⟩ = .ok (ret, ⟨h', payloads⟩) →
    Receives h payload (some m) payloads h'

/-- Two gateways, and the link between them. -/
def dialogueSystem : System (Dialogue.State σ Bytes (Option Message)) (Dialogue.Event Bytes) :=
  Dialogue.system (Receives X engine R)

/-! ## What is due

A `StatusRequest` is not acknowledged, whatever its description says, and a payload that is not
read as a message is due nothing. -/

/-- The message is to be acknowledged under the identifier: its type says so, and it is not
a `StatusRequest`, which only gets its response. -/
def Due (mId : Uuid) (m : Message) : Prop :=
  m.1.ack = true ∧ m.1 ≠ .statusRequest ∧ m.mId? = some mId

instance (mId : Uuid) (m : Message) : Decidable (Due mId m) :=
  inferInstanceAs (Decidable (_ ∧ _))

/-- One, for what was treated and is to be acknowledged. -/
def due (mId : Uuid) (outcome : Option Message) : Nat := if outcome.any (Due mId ·) then 1 else 0

open Classical in
/-- One, for a payload that acknowledges the identifier. -/
noncomputable def paid (mId : Uuid) (payload : Bytes) : Nat :=
  if Acknowledges X payload mId then 1 else 0

/-! ## What it weighs

The weights are chosen so that each type weighs more than all that is sent for it. -/

/-- The type of a payload, if its header is accepted. -/
def typeOf (payload : Bytes) : Option MsgType :=
  match X.json.parse payload with
  | none => none
  | some jobj => if rsmpJsonMTypeCheck jobj then rsmpJsonExtractType jobj else none

/-- One message, with those that it gives rise to. -/
def typeWeight : MsgType → Nat
  | .messageAck => 1
  | .messageNotAck => 1
  | .statusRequest => 3
  | .commandRequest => 4
  | _ => 2

def weight (payload : Bytes) : Nat := (typeOf X payload).elim 1 typeWeight

end Dialogue

variable {σ : Type} {X : RsmpExt} {engine : Bytes → σ → Int × σ} {R : SxlRegistry σ}

theorem weight_pos (payload : Bytes) : 1 ≤ weight X payload := by
  unfold weight
  cases typeOf X payload with
  | none => exact Nat.le_refl 1
  | some t => cases t <;> decide

theorem weight_le (payload : Bytes) : weight X payload ≤ 4 := by
  unfold weight
  cases typeOf X payload with
  | none => decide
  | some t => cases t <;> decide

theorem HasType.weight_eq {payload : Bytes} {t : MsgType} (h : HasType X payload t) :
    weight X payload = typeWeight t := by
  obtain ⟨jobj, hheader⟩ := h
  rw [weight, typeOf, hheader.parse]
  simp only [hheader.mType, hheader.type, if_true, Option.elim_some]

/-- An acknowledgement is one message, and asks for none. -/
theorem Acknowledges.weight_eq {payload : Bytes} {mId : Uuid} (h : Acknowledges X payload mId)
    (B : Birth) : weight X payload = 1 := by
  obtain ⟨m, hmsg, hacked⟩ := h B
  have htype := hasType_of_msg hmsg
  rw [htype.weight_eq]
  unfold acked at hacked
  split at hacked
  · next hack => rcases hack with hack | hack <;> rw [hack] <;> rfl
  · cases hacked

theorem Acknowledges.unique {payload : Bytes} {mId mId' : Uuid} (h : Acknowledges X payload mId)
    (h' : Acknowledges X payload mId') (B : Birth) : mId = mId' := by
  obtain ⟨m, hmsg, hacked⟩ := h B
  obtain ⟨m', hmsg', hacked'⟩ := h' B
  rw [hmsg] at hmsg'
  cases hmsg'
  rw [hacked] at hacked'
  exact Option.some.inj hacked'

/-- The payload of a type that is no acknowledgement acknowledges nothing. -/
theorem HasType.not_acknowledges {payload : Bytes} {t : MsgType} (h : HasType X payload t)
    (ht : 1 < typeWeight t) (B : Birth) (mId : Uuid) : ¬ Acknowledges X payload mId := by
  intro hack
  have hone := hack.weight_eq B
  rw [h.weight_eq] at hone
  omega

/-! ## One turn

By the replies that `treat_replies` allows. -/

/-- The replies to a message weigh less. -/
theorem Replies.weight_lt {msg : Message} {payloads : List Bytes} (h : Replies X msg payloads)
    (B : Birth) : Dialogue.total (weight X) payloads < typeWeight msg.1 := by
  have hpos : ∀ t, 0 < typeWeight t := by
    intro t
    cases t <;> decide
  cases h with
  | nothing hack => exact hpos _
  | status hmsg hresponse =>
    simp only [Dialogue.total_cons, Dialogue.total_nil, hresponse.weight_eq, hmsg]
    decide
  | acknowledged hacked hmsg _ hack =>
    have htwo : ∀ t : MsgType, t.ack = true → 1 < typeWeight t := by
      intro t ht
      cases t <;> first | exact absurd ht (by decide) | decide
    simp only [Dialogue.total_cons, Dialogue.total_nil, hack.weight_eq B]
    exact htwo _ hacked
  | executed hmsg _ hack hresponse =>
    simp only [Dialogue.total_cons, Dialogue.total_nil, hack.weight_eq B, hresponse.weight_eq, hmsg]
    decide

/-- The replies to a message acknowledge it once, if it is to be acknowledged. -/
theorem Replies.paid_eq {msg : Message} {payloads : List Bytes} (h : Replies X msg payloads)
    (B : Birth) (mId : Uuid) :
    Dialogue.total (paid X mId) payloads = due mId (some msg) := by
  have hone : ∀ {ack : Bytes} {mId' : Uuid}, Acknowledges X ack mId' → msg.1.ack = true →
      msg.1 ≠ .statusRequest → msg.mId? = some mId' → paid X mId ack = due mId (some msg) := by
    intro ack mId' hack hacked hmsg hmId
    have hpaid : Acknowledges X ack mId ↔ Due mId msg := by
      constructor
      · intro hack'
        rw [← hack.unique hack' B]
        exact ⟨hacked, hmsg, hmId⟩
      · rintro ⟨-, -, hmId'⟩
        rw [hmId'] at hmId
        cases hmId
        exact hack
    simp only [paid, due, hpaid, Option.any_some, decide_eq_true_eq]
  cases h with
  | nothing hack =>
    have hnot : ¬ Due mId msg := fun hdue => by
      rw [Due, hack] at hdue
      exact absurd hdue.1 Bool.false_ne_true
    simp [due, hnot]
  | status hmsg hresponse =>
    have hnot : ¬ Due mId msg := fun hdue => hdue.2.1 hmsg
    have hunpaid := hresponse.not_acknowledges (by decide) B mId
    simp [due, hnot, paid, hunpaid]
  | acknowledged hacked hmsg hmId hack =>
    simp only [Dialogue.total_cons, Dialogue.total_nil, hone hack hacked hmsg hmId, Nat.add_zero]
  | executed hmsg hmId hack hresponse =>
    have hunpaid : paid X mId _ = 0 := if_neg (hresponse.not_acknowledges (by decide) B mId)
    have hrequest : msg.1 ≠ .statusRequest := by rw [hmsg]; decide
    have hacked : msg.1.ack = true := by rw [hmsg]; rfl
    simp only [Dialogue.total_cons, Dialogue.total_nil, hunpaid, hone hack hacked hrequest hmId,
      Nat.add_zero]

theorem Receives.replies (hX : X.Lawful) {h h' : σ} {payload : Bytes} {m : Message}
    {payloads : List Bytes} (hreceives : Receives X engine R h payload (some m) payloads h') :
    Replies X m payloads := by
  cases hreceives with
  | @treated B B' _ _ _ _ _ _ _ htreat =>
    obtain ⟨es, hes, hreplies⟩ := treat_replies hX B' m _ _ _ htreat
    rw [List.nil_append] at hes
    change payloads = es at hes
    rw [hes]
    exact hreplies

theorem Receives.weight_lt (hX : X.Lawful) {h h' : σ} {payload : Bytes} {outcome : Option Message}
    {payloads : List Bytes} (hreceives : Receives X engine R h payload outcome payloads h') :
    Dialogue.total (weight X) payloads < weight X payload := by
  cases outcome with
  | none =>
    cases hreceives
    exact weight_pos payload
  | some m =>
    have hreplies := hreceives.replies hX
    cases hreceives with
    | @treated B _ _ _ _ _ _ _ hmsg _ =>
      rw [(hasType_of_msg hmsg).weight_eq]
      exact hreplies.weight_lt B

theorem Receives.paid_eq (hX : X.Lawful) {h h' : σ} {payload : Bytes} {outcome : Option Message}
    {payloads : List Bytes} (hreceives : Receives X engine R h payload outcome payloads h')
    (mId : Uuid) : Dialogue.total (paid X mId) payloads = due mId outcome := by
  cases outcome with
  | none =>
    cases hreceives
    rfl
  | some m =>
    have hreplies := hreceives.replies hX
    cases hreceives with
    | @treated B _ _ _ _ _ _ _ _ _ => exact hreplies.paid_eq B mId

/-! ## Any number of turns

The two rules of the library, at these weights and dues. -/

/-- **Acknowledged once.** In every run, the acknowledgements of an identifier that a side has
received, that are on their way to it or that the link refused, are as many as the messages of
this identifier that the other side has treated and that are to be acknowledged, next to those
that its application sent by itself. -/
theorem acknowledged_once (hX : X.Lawful) {es : List (Dialogue.Event Bytes)}
    {s : Dialogue.State σ Bytes (Option Message)} (h : (dialogueSystem X engine R).Run es s)
    (p : Party) (mId : Uuid) : s.Balanced (paid X mId) (due mId) p :=
  Dialogue.balanced_run (fun _ _ _ _ _ hreceives => hreceives.paid_eq hX mId) h p

theorem total_le (f : Bytes → Nat) {k : Nat} (hf : ∀ payload, f payload ≤ k)
    (payloads : List Bytes) : Dialogue.total f payloads ≤ k * payloads.length := by
  induction payloads with
  | nil => exact Nat.le_refl 0
  | cons payload payloads ih =>
    have := hf payload
    rw [Dialogue.total_cons, List.length_cons, Nat.mul_succ]
    omega

theorem le_total {f : Bytes → Nat} (hf : ∀ payload, 1 ≤ f payload) (payloads : List Bytes) :
    payloads.length ≤ Dialogue.total f payloads := by
  induction payloads with
  | nil => exact Nat.le_refl 0
  | cons payload payloads ih =>
    have := hf payload
    rw [Dialogue.total_cons, List.length_cons]
    omega

/-- **The gateways come to rest.** What both have treated, and what is still on its way, is no
more than four messages for one that an application sent. -/
theorem comes_to_rest (hX : X.Lawful) {es : List (Dialogue.Event Bytes)}
    {s : Dialogue.State σ Bytes (Option Message)} (h : (dialogueSystem X engine R).Run es s) :
    s.turns + (s.inbox .left).length + (s.inbox .right).length ≤
      4 * ((s.sent .left).length + (s.sent .right).length) := by
  have hbounded := Dialogue.bounded_run (fun _ _ _ _ _ hreceives => hreceives.weight_lt hX) h
  have hleft := total_le (weight X) weight_le (s.sent .left)
  have hright := total_le (weight X) weight_le (s.sent .right)
  have hleft' := le_total (f := weight X) weight_pos (s.inbox .left)
  have hright' := le_total (f := weight X) weight_pos (s.inbox .right)
  simp only [Dialogue.State.pending, Dialogue.State.offered] at hbounded
  omega

/-! ### A watchdog

It is acknowledged, and its acknowledgement is answered by nothing. -/

/-- json-c for a watchdog and its acknowledgement. -/
def watchedExt : RsmpExt := hostExt [watchdog2016, ackOf 0x2a]

theorem watchedExt_lawful : watchedExt.Lawful := by
  refine hostExt_lawful (JsonLib.ofTable_lawful ?_ ?_)
  · decide +kernel
  · decide +kernel

/-- A `send` that takes everything. -/
def takesAll : Bytes → Unit → Int × Unit := fun _ h => (noError, h)

/-- No command is registered. -/
def noCommand : SxlRegistry Unit := fun _ => none

theorem treat_watchdog {m : (MsgType.watchdog).desc.Msg} {mId : Uuid} {payload : Bytes}
    (hmId : Message.mId? ⟨.watchdog, m⟩ = some mId)
    (hpayload : rsmpJsonMsg2payload X (ackOf mId) = .ok (some payload)) (B : Birth) (h : σ) :
    treat X engine R B ⟨.watchdog, m⟩ ⟨h, []⟩ =
      .ok ((engine payload h).1, ⟨(engine payload h).2, [payload]⟩) := by
  have hack : messageAckTo ⟨.watchdog, m⟩ = some (ackOf mId) := by
    rw [messageAckTo, hmId]
    rfl
  have hsend : rsmpEngineSendMsg X engine (ackOf mId) ⟨h, []⟩ =
      .ok ((engine payload h).1, ⟨(engine payload h).2, [.sent (ackOf mId)]⟩) := by
    rw [rsmpEngineSendMsg, hpayload]
    rfl
  have hpayloads : payloadsOf (σ := σ) X (.sent (ackOf mId)) = [payload] := by
    rw [payloadsOf, hpayload]
  rw [treat, if_pos rfl, hack, answerWith, sendAnswer, TraceM.relabel]
  dsimp only
  rw [hsend]
  dsimp only
  rw [List.flatMap_singleton, hpayloads]
  rfl

/-- An acknowledgement is not answered. -/
theorem treat_ack {m : Message} {mId : Uuid} (hm : acked m = some mId) (B : Birth) (h : σ) :
    treat X engine R B m ⟨h, []⟩ = .ok (errcodGenGeneric, ⟨h, []⟩) := by
  obtain ⟨t, m⟩ := m
  unfold acked at hm
  split at hm
  · next ht =>
    change t = _ ∨ t = _ at ht
    rcases ht with rfl | rfl <;> rfl
  · cases hm

/-- A watchdog is answered, and its acknowledgement is read. -/
theorem watchdog_exchange : ∃ watchdog ack m m',
    rsmpJsonMsg2payload watchedExt watchdog2016 = .ok (some watchdog) ∧
    Receives watchedExt takesAll noCommand () watchdog (some ⟨.watchdog, m⟩) [ack] () ∧
    Receives watchedExt takesAll noCommand () ack (some m') [] () ∧ acked m' = some 0x2a := by
  have hX := watchedExt_lawful
  have hsound : watchdog2016.Sound := ⟨rfl, trivial, rfl, trivial, trivial, trivial⟩
  have hkept : watchdog2016.Kept watchedExt := by
    refine ⟨trivial, trivial, trivial, ?_, trivial⟩
    exact ⟨fun _ => ⟨by decide, by decide, Zone.utc_reads _⟩,
      fun h => absurd (⟨by decide, by decide⟩ : Coder.HoroDate.InRange ⟨1457012463, 789000000⟩) h⟩
  have hprinted : watchdog2016.Printed watchedExt := by
    refine ⟨(Json.obj (watchdog2016.members watchedExt)).toPlain, by decide, ?_⟩
    intro hversion
    exact absurd hversion (by decide)
  have hprinted' : (ackOf 0x2a).Printed watchedExt := by
    refine ⟨(Json.obj ((ackOf 0x2a).members watchedExt)).toPlain, by decide, ?_⟩
    intro hversion
    exact absurd hversion (by decide)
  obtain ⟨watchdog, hwatchdog⟩ := hprinted.payload hX hsound.described
  have hdescribed : (ackOf 0x2a).1.Described := rfl
  obtain ⟨ack, hack⟩ := hprinted'.payload hX hdescribed
  obtain ⟨-, jobj, hparse, hhas⟩ := Message.msg2payload_some hX hsound.described hwatchdog
  obtain ⟨m, hmsg, hsame⟩ := (hsound.payload2msg_iff hX bareBirth hparse hhas).mpr hkept
  obtain ⟨m', hmsg', hacked⟩ := acknowledges_ackOf hX hack bareBirth
  have hmId : Message.mId? ⟨.watchdog, m⟩ = some 0x2a := by
    obtain ⟨u, t, mId, wTs, stop⟩ := m
    obtain ⟨-, -, rfl, -⟩ := hsame
    rfl
  exact ⟨watchdog, ack, m, m', hwatchdog, .treated hmsg (treat_watchdog hmId hack bareBirth ()),
    .treated hmsg' (treat_ack hacked bareBirth ()), hacked⟩

/-- The left side sends its watchdog, and the right side answers it. -/
theorem watchdog_run : ∃ watchdog ack m s,
    (dialogueSystem watchedExt takesAll noCommand).Run
      [.send .left watchdog, .treat .right, .treat .left] s ∧
    s.treated .left = [(ack, some m)] ∧ acked m = some 0x2a := by
  obtain ⟨watchdog, ack, m, m', -, hright, hleft, hacked⟩ := watchdog_exchange
  have hnil : (dialogueSystem watchedExt takesAll noCommand).Run []
      (Dialogue.start fun _ => ()) := .nil ⟨_, rfl⟩
  have hsent := hnil.snoc (.send .left watchdog)
  have hfirst : ((Dialogue.start fun _ => ()).send .left watchdog :
      Dialogue.State Unit Bytes (Option Message)).inbox .right = [watchdog] := rfl
  have hanswered := hsent.snoc (.treat hfirst hright (List.Perm.refl ([ack] ++ [])))
  have hsecond : (((Dialogue.start fun _ => ()).send .left watchdog).reply .right () watchdog []
      (some ⟨.watchdog, m⟩) [ack] [] : Dialogue.State Unit Bytes (Option Message)).inbox .left =
        [ack] := rfl
  have hread := hanswered.snoc (.treat hsecond hleft (List.Perm.refl ([] ++ [])))
  exact ⟨watchdog, ack, m', _, hread, rfl, hacked⟩

/-- The watchdog `2a` is paid with one acknowledgement. -/
theorem watchdog_acknowledged : ∃ es ack m s,
    (dialogueSystem watchedExt takesAll noCommand).Run es s ∧ s.treated .left = [(ack, some m)] ∧
      acked m = some 0x2a ∧ s.Balanced (paid watchedExt 0x2a) (due 0x2a) .left := by
  obtain ⟨_, ack, m, s, hrun, htreated, hacked⟩ := watchdog_run
  exact ⟨_, ack, m, s, hrun, htreated, hacked,
    acknowledged_once watchedExt_lawful hrun .left 0x2a⟩

/-- Two turns for one watchdog. -/
theorem watchdog_rests : ∃ es ack m s,
    (dialogueSystem watchedExt takesAll noCommand).Run es s ∧ s.treated .left = [(ack, some m)] ∧
      s.turns + (s.inbox .left).length + (s.inbox .right).length ≤
        4 * ((s.sent .left).length + (s.sent .right).length) := by
  obtain ⟨_, ack, m, s, hrun, htreated, -⟩ := watchdog_run
  exact ⟨_, ack, m, s, hrun, htreated, comes_to_rest watchedExt_lawful hrun⟩

end RsmpGateway.Gateway
