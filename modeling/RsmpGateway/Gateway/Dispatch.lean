import RsmpGateway.Rsmp.Status

/-!
# What is done with a message

The loop of `external_receive` acknowledges a watchdog, and hands any other message to the
callback of its description. Whatever the callbacks do, what is sent is fixed by the type of the
message: nothing, one acknowledgement of its identifier, a response, or both (`treat_replies`).

A turn is a computation that leaves a trace of what it sends (`Lib/Trace.lean`). What the
callbacks of commands and statuses do with their requests is translated in `Rsmp/Command.lean`
and `Rsmp/Status.lean`; the application may refuse whatever is sent.
-/

namespace RsmpGateway.Gateway

open RsmpGateway.Lib RsmpGateway.Rsmp

/-! ## Callbacks

Each description has its callback; those of commands and statuses are the ones of
`Rsmp/Command.lean` and `Rsmp/Status.lean`. -/

/-- What hands payloads to `send`. -/
abbrev EngineM (σ : Type) : Type → Type := TraceM Rsmp.Stop σ Bytes

section Execution

variable {σ : Type} (X : RsmpExt) (engine : Bytes → σ → Int × σ) (R : SxlRegistry σ)

/-- The payload of a message that is sent. -/
def payloadsOf : CommandEvent σ → List Bytes
  | .sent m =>
    match rsmpJsonMsg2payload X m with
    | .ok (some payload) => [payload]
    | _ => []
  | .called _ _ => []

/-- Send the answer to a message, if it has one. -/
def answerWith (answer : Option Message) : EngineM σ Int :=
  (sendAnswer X engine answer).relabel (payloadsOf X)

/-- `_rsmp_message_exe` -/
def rsmpMessageExe (msg : Message) : EngineM σ Int :=
  if msg.1.ack then do
    let _ ← answerWith X engine (messageNotAckTo msg (ascii "not expected"))
    return errcodGenGeneric
  else return errcodGenGeneric

/-- `_rsmp_msg_Watchdog_exe` -/
def watchdogExe (msg : Message) : EngineM σ Int := do
  let _ ← answerWith X engine (messageAckTo msg)
  return noError

/-- `callback` in `__rsmp_msg_desc`. -/
def callback (B : Birth) : Message → EngineM σ Int
  | ⟨.commandRequest, request⟩ => (commandRequestExe X engine R B request).relabel (payloadsOf X)
  | ⟨.statusRequest, request⟩ => statusRequestExe X (some engine) B request
  | ⟨.watchdog, m⟩ => watchdogExe X engine ⟨.watchdog, m⟩
  | msg => rsmpMessageExe X engine msg

/-- What `external_receive` does with a message. -/
def treat (B : Birth) (msg : Message) : EngineM σ Int :=
  if msg.1 = .watchdog then answerWith X engine (messageAckTo msg)
  else if msg.1.Described then callback X engine R B msg
  else throw .noDescription

end Execution

/-! ## Payloads

What is sent is known by its payloads: the type of each, and what it acknowledges. -/

section Payloads

variable (X : RsmpExt)

/-- The payload has the header of the type. -/
def HasType (payload : Bytes) (t : MsgType) : Prop := ∃ jobj, HeaderIs X payload jobj t

/-- The identifier that an acknowledgement answers. -/
def acked (m : Message) : Option Uuid :=
  if m.1 = .messageAck ∨ m.1 = .messageNotAck then m.oMId? else none

/-- The payload acknowledges the identifier, whoever decodes it. -/
def Acknowledges (payload : Bytes) (mId : Uuid) : Prop :=
  ∀ B, ∃ m, rsmpJsonPayload2msg X B payload = .msg m ∧ acked m = some mId

/-- What is sent for a message, by its type. -/
inductive Replies (msg : Message) : List Bytes → Prop
  | nothing : msg.1.ack = false → Replies msg []
  | status {response : Bytes} : msg.1 = .statusRequest → HasType X response .statusResponse →
    Replies msg [response]
  | acknowledged {ack : Bytes} {mId : Uuid} : msg.1.ack = true → msg.1 ≠ .statusRequest →
    msg.mId? = some mId → Acknowledges X ack mId → Replies msg [ack]
  | executed {ack response : Bytes} {mId : Uuid} : msg.1 = .commandRequest →
    msg.mId? = some mId → Acknowledges X ack mId → HasType X response .commandResponse →
    Replies msg [ack, response]

end Payloads

section Replies

variable {σ : Type} {X : RsmpExt} {engine : Bytes → σ → Int × σ} {R : SxlRegistry σ}

/-- The header of an object with these two members. -/
theorem hasType_of_get {payload : Bytes} {jobj : Json} {t : MsgType}
    (hparse : X.json.parse payload = some jobj)
    (hmType : jobj.get? (ascii "mType") = some (.str mTypeValue))
    (htype : jobj.get? (ascii "type") = some (.str t.lib)) : HasType X payload t := by
  refine ⟨jobj, hparse, ?_, ?_⟩
  · simp only [rsmpJsonMTypeCheck, rsmpJsonObjectGet, hmType, mTypeCheck]
    decide
  · simp only [rsmpJsonExtractType, rsmpJsonObjectGet, htype, rsmpTypeFromString_lib]

/-- The type of a message is that of its payload. -/
theorem hasType_of_msg {B : Birth} {payload : Bytes} {m : Message}
    (h : rsmpJsonPayload2msg X B payload = .msg m) : HasType X payload m.1 := by
  by_cases hheader : ∃ jobj t, HeaderIs X payload jobj t
  · obtain ⟨jobj, t, ht⟩ := hheader
    rw [ht.payload2msg] at h
    split at h
    · split at h
      · cases h
        exact ⟨jobj, ht⟩
      · cases h
      · cases h
    · cases h
  · have hnull := payload2msg_refused (fun jobj t ht => hheader ⟨jobj, t, ht⟩) B
    rw [hnull] at h
    cases h

theorem HasType.unique {payload : Bytes} {t t' : MsgType} (h : HasType X payload t)
    (h' : HasType X payload t') : t = t' := by
  obtain ⟨jobj, hheader⟩ := h
  obtain ⟨jobj', hheader'⟩ := h'
  exact (hheader'.unique hheader).2

/-- What is made of a message whose structure has its type. -/
theorem hasType_of_payload (hX : X.Lawful) {m : Message} (hm : m.1.Described)
    (hmType : (ascii "mType", .str mTypeValue) ∈ m.members X)
    (htype : (ascii "type", .str m.1.lib) ∈ m.members X) {payload : Bytes}
    (h : rsmpJsonMsg2payload X m = .ok (some payload)) : HasType X payload m.1 := by
  obtain ⟨-, jobj, hparse, hhas⟩ := Message.msg2payload_some hX hm h
  exact hasType_of_get hparse (hhas _ hmType) (hhas _ htype)

/-- An acknowledgement is read back. -/
theorem acknowledges_of_payload (hX : X.Lawful) {m : Message} (hm : m.Sound) (hkept : m.Kept X)
    {mId : Uuid} (hacked : ∀ m', m.1.desc.Same m.2 m' → acked ⟨m.1, m'⟩ = some mId)
    {payload : Bytes} (h : rsmpJsonMsg2payload X m = .ok (some payload)) :
    Acknowledges X payload mId := by
  intro B
  obtain ⟨-, jobj, hparse, hhas⟩ := Message.msg2payload_some hX hm.described h
  obtain ⟨m', hmsg, hsame⟩ := (hm.payload2msg_iff hX B hparse hhas).mpr hkept
  exact ⟨_, hmsg, hacked m' hsame⟩

theorem acknowledges_ackOf (hX : X.Lawful) {mId : Uuid} {payload : Bytes}
    (h : rsmpJsonMsg2payload X (ackOf mId) = .ok (some payload)) : Acknowledges X payload mId := by
  have hsound : (ackOf mId).Sound := ⟨rfl, trivial, rfl, trivial, trivial⟩
  refine acknowledges_of_payload hX hsound ⟨trivial, trivial, trivial, trivial⟩ ?_ h
  intro m' hsame
  obtain ⟨u, t, oMId, stop⟩ := m'
  obtain ⟨-, -, rfl, -⟩ := hsame
  exact oMId?_ackOf oMId

theorem oMId?_messageNotAck (u : Unit) (t : MsgType) (oMId : Uuid) (rea : Option CStr)
    (stop : Unit) : Message.oMId? ⟨.messageNotAck, u, t, oMId, rea, stop⟩ = some oMId := by
  have hkey : ascii "mType" ≠ ascii "oMId" ∧ ascii "type" ≠ ascii "oMId" := by decide
  exact @Fields.uuid?_third (ascii "oMId") hkey (.field (ascii "rea") .str .nil)
    (u, t, oMId, rea, stop)

theorem acknowledges_notAckOf (hX : X.Lawful) {mId : Uuid} {rea : CStr} {payload : Bytes}
    (h : rsmpJsonMsg2payload X (notAckOf mId rea) = .ok (some payload)) :
    Acknowledges X payload mId := by
  have hsound : (notAckOf mId rea).Sound :=
    ⟨rfl, trivial, rfl, trivial, Option.some_ne_none rea, trivial⟩
  refine acknowledges_of_payload hX hsound ⟨trivial, trivial, trivial, trivial, trivial⟩ ?_ h
  intro m' hsame
  obtain ⟨u, t, oMId, rea', stop⟩ := m'
  obtain ⟨-, -, rfl, -, -⟩ := hsame
  exact oMId?_messageNotAck u t oMId rea' stop

/-! ## What is sent

A case for each description. -/

/-- The message is sent, and has a payload. -/
theorem rsmpEngineSendMsg_yields (m : Message) :
    (rsmpEngineSendMsg X engine m).Yields fun _ es =>
      ∃ payload, rsmpJsonMsg2payload X m = .ok (some payload) ∧
        es.flatMap (payloadsOf X) = [payload] := by
  refine .bind_except fun payload hpayload => ?_
  cases payload with
  | none => exact .throw _
  | some payload =>
    refine .perform fun _ => ⟨payload, hpayload, ?_⟩
    simp only [List.flatMap_cons, List.flatMap_nil, payloadsOf, hpayload, List.append_nil]

theorem sendAnswer_yields {answer : Option Message} :
    (sendAnswer X engine answer).Yields fun _ es =>
      ∃ m payload, answer = some m ∧ rsmpJsonMsg2payload X m = .ok (some payload) ∧
        es.flatMap (payloadsOf X) = [payload] := by
  cases answer with
  | none => exact .throw _
  | some m =>
    refine (rsmpEngineSendMsg_yields m).mono ?_
    rintro _ es ⟨payload, hpayload, hes⟩
    exact ⟨m, payload, rfl, hpayload, hes⟩

/-- One acknowledgement of the message, with or without refusal. -/
def Answered (X : RsmpExt) (msg : Message) (payloads : List Bytes) : Prop :=
  msg.1.ack = true ∧ ∃ ack mId, payloads = [ack] ∧ msg.mId? = some mId ∧ Acknowledges X ack mId

theorem sendAnswer_ack (hX : X.Lawful) (msg : Message) :
    (sendAnswer X engine (messageAckTo msg)).Yields fun _ es =>
      Answered X msg (es.flatMap (payloadsOf X)) := by
  refine sendAnswer_yields.mono ?_
  rintro _ es ⟨m, payload, hm, hpayload, hes⟩
  rw [messageAckTo] at hm
  split at hm
  · next hack =>
    obtain ⟨mId, hmId, rfl⟩ := Option.map_eq_some_iff.mp hm
    exact ⟨hack, payload, mId, hes, hmId, acknowledges_ackOf hX hpayload⟩
  · cases hm

theorem sendAnswer_notAck (hX : X.Lawful) (msg : Message) (rea : Bytes) :
    (sendAnswer X engine (messageNotAckTo msg rea)).Yields fun _ es =>
      Answered X msg (es.flatMap (payloadsOf X)) := by
  refine sendAnswer_yields.mono ?_
  rintro _ es ⟨m, payload, hm, hpayload, hes⟩
  rw [messageNotAckTo] at hm
  split at hm
  · next hack =>
    obtain ⟨mId, hmId, rfl⟩ := Option.map_eq_some_iff.mp hm
    exact ⟨hack, payload, mId, hes, hmId, acknowledges_notAckOf hX hpayload⟩
  · cases hm

theorem Answered.replies {msg : Message} {payloads : List Bytes} (h : Answered X msg payloads)
    (hmsg : msg.1 ≠ .statusRequest) : Replies X msg payloads := by
  obtain ⟨hack, ack, mId, rfl, hmId, hacknowledges⟩ := h
  exact .acknowledged hack hmsg hmId hacknowledges

/-- The commands send nothing. -/
theorem rsmpSxlCmdExe_silent (arg : Arg) (rv : Rv) :
    (rsmpSxlCmdExe R arg rv).Yields fun _ es => es.flatMap (payloadsOf X) = [] := by
  unfold rsmpSxlCmdExe
  split
  · exact .throw _
  · split
    · exact .pure rfl
    · exact .pure rfl
    · exact .perform fun _ => rfl

theorem exeArgs_silent (args : List Arg) (rvs : List Rv) :
    (exeArgs R args rvs).Yields fun _ es => es.flatMap (payloadsOf X) = [] := by
  induction args generalizing rvs with
  | nil => exact .pure rfl
  | cons arg args ih =>
    cases rvs with
    | nil => exact .pure rfl
    | cons rv rvs =>
      refine (rsmpSxlCmdExe_silent (X := X) arg rv).bind fun r es hes => ?_
      refine (ih rvs).bind fun rvs' es' hes' => .pure ?_
      rw [List.append_nil, List.flatMap_append, hes, hes']
      rfl

/-- The response to a command request. -/
theorem hasType_commandResponse (hX : X.Lawful) (B : Birth) (request : CommandRequest)
    (rvs : List Rv) {payload : Bytes}
    (h : rsmpJsonMsg2payload X ((commandResponseFromRequest B request).setRvs rvs).msg =
      .ok (some payload)) : HasType X payload .commandResponse := by
  have hdescribed : ((commandResponseFromRequest B request).setRvs rvs).msg.1.Described := rfl
  refine hasType_of_payload hX hdescribed ?_ ?_ h
  · exact List.mem_cons_self
  · exact List.mem_cons_of_mem _ List.mem_cons_self

theorem commandRequestExe_replies (hX : X.Lawful) (B : Birth) (request : CommandRequest) :
    (commandRequestExe X engine R B request).Yields fun _ es =>
      Replies X request.msg (es.flatMap (payloadsOf X)) := by
  have hmsg : request.msg.1 ≠ .statusRequest := MsgType.noConfusion
  have hrefused : ∀ rea, (sendAnswer X engine (messageNotAckTo request.msg rea)).Yields fun _ es =>
      Replies X request.msg (es.flatMap (payloadsOf X)) := fun rea =>
    (sendAnswer_notAck hX request.msg rea).mono fun _ _ h => h.replies hmsg
  unfold commandRequestExe
  split
  · exact hrefused _
  · refine .bind_except fun inactive _ => ?_
    cases inactive with
    | some arg => exact hrefused _
    | none =>
      -- the acknowledgement, the commands and the response
      refine (sendAnswer_ack hX request.msg).bind fun _ es hack => ?_
      refine (exeArgs_silent (X := X) request.arg _).bind fun rvs es' hsilent => ?_
      refine (rsmpEngineSendMsg_yields _).mono ?_
      rintro _ es'' ⟨response, hresponse, hes⟩
      obtain ⟨-, ack, mId, hsent, hmId, hacknowledges⟩ := hack
      rw [List.flatMap_append, List.flatMap_append, hsent, hsilent, hes]
      exact .executed rfl hmId hacknowledges (hasType_commandResponse hX B request rvs hresponse)

/-- The response to a status request. -/
theorem hasType_statusResponse (hX : X.Lawful) (B : Birth) (jobjs : List Json) {payload : Bytes}
    (h : X.json.print (statusResponseObject X B jobjs) = some payload) :
    HasType X payload .statusResponse :=
  hasType_of_get (hX.json.parse_print h) rfl rfl

theorem statusRequestExe_replies (hX : X.Lawful) (B : Birth) (request : StatusRequest) :
    (statusRequestExe X (some engine) B request).Yields fun _ es => Replies X request.msg es := by
  intro t ret t' hrun
  cases hjobjs : statusEntries request.sS request.sS with
  | error stop =>
    rw [statusRequestExe_error hjobjs] at hrun
    cases hrun
  | ok jobjs =>
    rw [statusRequestExe_eq hjobjs] at hrun
    split at hrun
    · cases hrun
    · next payload hprint =>
      cases hrun
      exact ⟨[payload], rfl, .status rfl (hasType_statusResponse hX B jobjs hprint)⟩

theorem rsmpMessageExe_replies (hX : X.Lawful) {msg : Message} (hmsg : msg.1 ≠ .statusRequest) :
    (rsmpMessageExe X engine msg).Yields fun _ es => Replies X msg es := by
  unfold rsmpMessageExe
  split
  · have hrefused : (TraceM.relabel (payloadsOf X)
        (sendAnswer X engine (messageNotAckTo msg (ascii "not expected")))).Yields
          fun _ es => Replies X msg es :=
      (sendAnswer_notAck hX msg _).relabel fun _ _ h => h.replies hmsg
    refine hrefused.bind fun _ es h => .pure ?_
    rw [List.append_nil]
    exact h
  · next hack => exact .pure (.nothing (Bool.not_eq_true _ ▸ hack))

theorem watchdogExe_replies (hX : X.Lawful) {msg : Message} (hmsg : msg.1 ≠ .statusRequest) :
    (watchdogExe X engine msg).Yields fun _ es => Replies X msg es := by
  have hacked : (TraceM.relabel (payloadsOf X) (sendAnswer X engine (messageAckTo msg))).Yields
      fun _ es => Replies X msg es :=
    (sendAnswer_ack hX msg).relabel fun _ _ h => h.replies hmsg
  refine hacked.bind fun _ es h => .pure ?_
  rw [List.append_nil]
  exact h

theorem callback_replies (hX : X.Lawful) (B : Birth) (msg : Message) :
    (callback X engine R B msg).Yields fun _ es => Replies X msg es := by
  unfold callback
  split
  · next request => exact (commandRequestExe_replies hX B request).relabel fun _ _ h => h
  · next request => exact statusRequestExe_replies hX B request
  · next m => exact watchdogExe_replies hX MsgType.noConfusion
  · next _ hstatus _ =>
    refine rsmpMessageExe_replies hX ?_
    obtain ⟨t, m⟩ := msg
    rintro rfl
    exact hstatus m rfl

/-- **What is sent for a message.** -/
theorem treat_replies (hX : X.Lawful) (B : Birth) (msg : Message) :
    (treat X engine R B msg).Yields fun _ es => Replies X msg es := by
  unfold treat
  split
  · next hwatchdog =>
    have hmsg : msg.1 ≠ .statusRequest := by rw [hwatchdog]; decide
    exact (sendAnswer_ack hX msg).relabel fun _ _ h => h.replies hmsg
  · split
    · exact callback_replies hX B msg
    · exact .throw _

end Replies

end RsmpGateway.Gateway
