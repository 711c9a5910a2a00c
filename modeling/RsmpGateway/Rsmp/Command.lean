import RsmpGateway.Lib.Ends
import RsmpGateway.Lib.Trace
import RsmpGateway.Rsmp.Ack

/-!
# The execution of command requests

`_rsmp_msg_CommandRequest_exe` looks at the commands of all the arguments before it does
anything: it refuses the request with a `MessageNotAck`, or acknowledges it, calls the command of
each argument, and answers with a `CommandResponse` (`commandRequestExe_allOrNothing`).

Commands may do anything to the state of the process, and the engine may refuse whatever it is
given. What was sent and called is the trace of the computation (`Lib/Trace.lean`), in its order;
a message without text, and an argument without code, stop it.
-/

namespace RsmpGateway.Rsmp

open RsmpGateway.Lib RsmpGateway.Auth RsmpGateway.Coder

/-! ## Requests and responses

The messages as they are decoded: their fields in the order of their descriptions, with names for
those that are used here. -/

/-- `args` -/
abbrev Arg : Type := Option CStr × Option CStr × Option CStr × CharArray × Unit

/-- `rvs` -/
abbrev Rv : Type := Option CStr × Option CStr × CharArray × Nat × Unit

namespace Arg

def cCI (arg : Arg) : Option CStr := arg.1

def n (arg : Arg) : Option CStr := arg.2.1

end Arg

namespace Rv

def cCI (rv : Rv) : Option CStr := rv.1

def n (rv : Rv) : Option CStr := rv.2.1

end Rv

/-- `rsmp_msg_CommandRequest_t` -/
abbrev CommandRequest : Type :=
  Unit × MsgType × Uuid × Option CStr × Option CStr × Option CStr × List Arg × Unit

/-- `rsmp_msg_CommandResponse_t` -/
abbrev CommandResponse : Type :=
  Unit × MsgType × Uuid × Option CStr × Option CStr × Option CStr × HoroDate × List Rv × Unit

namespace CommandRequest

def msg (request : CommandRequest) : Message := ⟨.commandRequest, request⟩

def mId : CommandRequest → Uuid
  | (_, _, mId, _) => mId

def arg : CommandRequest → List Arg
  | (_, _, _, _, _, _, arg, _) => arg

end CommandRequest

namespace CommandResponse

def msg (response : CommandResponse) : Message := ⟨.commandResponse, response⟩

def rvs : CommandResponse → List Rv
  | (_, _, _, _, _, _, _, rvs, _) => rvs

/-- The response with other return values. -/
def setRvs (response : CommandResponse) (rvs : List Rv) : CommandResponse :=
  match response with
  | (mType, type, mId, ntsOId, xNId, cId, cTS, _, stop) =>
    (mType, type, mId, ntsOId, xNId, cId, cTS, rvs, stop)

end CommandResponse

/-- `rsmp_msg_CommandResponse_from_request`. Strings are copied. -/
def commandResponseFromRequest (B : Birth) (request : CommandRequest) : CommandResponse :=
  match (MsgType.commandResponse.new B : CommandResponse), request with
  | (mType, type, mId, _, _, _, cTS, _, stop), (_, _, _, ntsOId, xNId, cId, arg, _) =>
    (mType, type, mId, ntsOId, xNId, cId, cTS,
      arg.map fun a => (a.cCI, a.n, ⟨[], 0⟩, (0 : Nat), ()), stop)

/-! ## Commands

The registry is a function from codes, and a registered command may have no callback. -/

/-- `rsmp_sxl_callback_t`: it fills the return value in, and may change what is around it. -/
abbrev SxlCallback (σ : Type) : Type := Arg → Rv → σ → (Int × Rv) × σ

/-- The commands that are registered: nothing is known of a code, or its record, whose function
may be null. -/
abbrev SxlRegistry (σ : Type) : Type := CStr → Option (Option (SxlCallback σ))

/-- `_rsmp_no_error_` -/
def noError : Int := 0

/-- `_rsmp_errcod_sxl_unknown_cmd_` -/
def errcodSxlUnknownCmd : Int := 2 * 2 ^ 16 + 2

/-- `_rsmp_errcod_sxl_not_available_cmd_` -/
def errcodSxlNotAvailableCmd : Int := 2 * 2 ^ 16 + 3

/-- A message handed to the engine, or a call of a command. -/
inductive CommandEvent (σ : Type)
  | sent (m : Message)
  | called (fct : SxlCallback σ) (arg : Arg)

abbrev CommandM (σ : Type) : Type → Type := TraceM Stop σ (CommandEvent σ)

section Execution

variable {σ : Type} (X : RsmpExt) (engine : Bytes → σ → Int × σ) (R : SxlRegistry σ)

/-- `rsmp_sxl_cmd_is_active` -/
def rsmpSxlCmdIsActive : Option CStr → Except Stop Int
  | none => .error .nullString
  | some cCI =>
    match R cCI with
    | none => .ok errcodSxlUnknownCmd
    | some none => .ok errcodSxlNotAvailableCmd
    | some (some _) => .ok noError

/-- `rsmp_sxl_cmd_exe` -/
def rsmpSxlCmdExe (arg : Arg) (rv : Rv) : CommandM σ (Int × Rv) :=
  match arg.cCI with
  | none => throw .nullString
  | some cCI =>
    match R cCI with
    | none => return (noError, rv)
    | some none =>
      let (cCI, n, v, _) := rv
      return (errcodSxlNotAvailableCmd, (cCI, n, v, (0 : Nat), ()))
    | some (some fct) => TraceM.perform (.called fct arg) (fct arg rv)

/-- `rsmp_engine_send_msg`, with a `send` that may refuse. A message without text has no
length. -/
def rsmpEngineSendMsg (msg : Message) : CommandM σ Int := do
  let payload ← (rsmpJsonMsg2payload X msg : Except Stop (Option Bytes))
  match payload with
  | none => throw .nullString
  | some payload => TraceM.perform (.sent msg) (engine payload)

/-- Send the answer to a message, if it has one. -/
def sendAnswer : Option Message → CommandM σ Int
  | none => throw .nullString
  | some msg => rsmpEngineSendMsg X engine msg

/-- The first argument whose command is not active. -/
def firstInactive : List Arg → Except Stop (Option Arg)
  | [] => return none
  | arg :: args => do
    let ret ← rsmpSxlCmdIsActive R arg.cCI
    if ret = noError then firstInactive args else return some arg

/-- The commands of the arguments, each with its return value. -/
def exeArgs : List Arg → List Rv → CommandM σ (List Rv)
  | arg :: args, rv :: rvs => do
    let (_, rv) ← rsmpSxlCmdExe R arg rv
    let rvs ← exeArgs args rvs
    return rv :: rvs
  | _, rvs => return rvs

/-- `_rsmp_msg_CommandRequest_exe`. The code that the response returns stands for those of the
acknowledgement and of the commands. -/
def commandRequestExe (B : Birth) (request : CommandRequest) : CommandM σ Int :=
  if request.arg = [] then
    sendAnswer X engine (messageNotAckTo request.msg (ascii "no arg items..."))
  else do
    match ← (firstInactive R request.arg : Except Stop (Option Arg)) with
    | some _ =>
      sendAnswer X engine (messageNotAckTo request.msg (ascii "cCI:%s not allowed/defined"))
    | none =>
      let _ ← sendAnswer X engine (messageAckTo request.msg)
      let response := commandResponseFromRequest B request
      let rvs ← exeArgs R request.arg response.rvs
      rsmpEngineSendMsg X engine (response.setRvs rvs).msg

end Execution

/-! ## All or nothing

What was sent and called, as a whole. -/

section Outcome

variable {σ : Type} {X : RsmpExt} {engine : Bytes → σ → Int × σ} {R : SxlRegistry σ}

/-- json-c has a text for every value. -/
def PrintsAll (X : RsmpExt) : Prop := ∀ j, ∃ text, X.json.print j = some text

/-! ### What is expected

Of the callbacks it is expected that they keep the code and the name in what they return. What
they do to the value is theirs. -/

/-- Every argument has a code, as the decoder leaves them (`payload2msg_coded`). -/
def CommandRequest.Coded (request : CommandRequest) : Prop := ∀ arg ∈ request.arg, arg.cCI ≠ none

namespace SxlRegistry

/-- Commands fill in the value of what they return and its age, not its code nor its name. -/
def Keeps (R : SxlRegistry σ) : Prop :=
  ∀ cCI fct, R cCI = some (some fct) → ∀ arg rv s,
    (fct arg rv s).1.2.cCI = rv.cCI ∧ (fct arg rv s).1.2.n = rv.n

/-- The command of the argument can be called. -/
def Active (R : SxlRegistry σ) (arg : Arg) : Prop :=
  ∃ cCI fct, arg.cCI = some cCI ∧ R cCI = some (some fct)

/-- The event is the call of the command of the argument. -/
def Calls (R : SxlRegistry σ) (arg : Arg) (e : CommandEvent σ) : Prop :=
  ∃ cCI fct, arg.cCI = some cCI ∧ R cCI = some (some fct) ∧ e = .called fct arg

end SxlRegistry

/-- The return value is for the argument. -/
structure Answers (arg : Arg) (rv : Rv) : Prop where
  cCI : rv.cCI = arg.cCI
  n : rv.n = arg.n

/-- A refusal and nothing else, of a request that has no argument or one that cannot be called;
or an acknowledgement, the call of each command in order, and a response with a return value for
each argument. -/
inductive AllOrNothing (R : SxlRegistry σ) (request : CommandRequest) :
    List (CommandEvent σ) → Prop
  | refused {notAck : Message} : request.arg = [] ∨ (∃ arg ∈ request.arg, ¬ R.Active arg) →
    notAck.1 = .messageNotAck → notAck.oMId? = some request.mId →
    AllOrNothing R request [.sent notAck]
  | executed {ack : Message} {calls : List (CommandEvent σ)} {response : CommandResponse} :
    ack.1 = .messageAck → ack.oMId? = some request.mId →
    request.arg.Forall₂ R.Calls calls → request.arg.Forall₂ Answers response.rvs →
    AllOrNothing R request (.sent ack :: calls ++ [.sent response.msg])

/-! ### What is sent

A message is sent when it has a text, whatever the engine returns. -/

theorem PrintsAll.payload (hX : PrintsAll X) {m : Message} (hm : m.1.Described) :
    ∃ payload, rsmpJsonMsg2payload X m = .ok (some payload) := by
  obtain ⟨text, htext⟩ := hX (.obj (m.members X))
  rw [Message.msg2payload_eq X hm, htext]
  dsimp only
  split
  · cases hparse : X.json.parse text with
    | none =>
      refine ⟨text, ?_⟩
      rw [addESXLGToJson, hparse]
      rfl
    | some root =>
      obtain ⟨updated, hupdated⟩ := hX (withESXLG root)
      refine ⟨updated, ?_⟩
      simp only [addESXLGToJson, hparse, hupdated]
      rfl
  · exact ⟨text, rfl⟩

theorem rsmpEngineSendMsg_leaves (hX : PrintsAll X) {m : Message} (hm : m.1.Described) :
    (rsmpEngineSendMsg X engine m).Leaves fun _ es => es = [.sent m] := by
  obtain ⟨payload, hpayload⟩ := hX.payload hm
  refine .bind_ok hpayload ?_
  exact .perform fun _ => rfl

/-! ### The arguments

One argument after the other, and one return value for each. -/

theorem rsmpSxlCmdIsActive_cases (R : SxlRegistry σ) {arg : Arg} (hcCI : arg.cCI ≠ none) :
    (rsmpSxlCmdIsActive R arg.cCI = .ok noError ∧ R.Active arg) ∨
      ∃ ret, rsmpSxlCmdIsActive R arg.cCI = .ok ret ∧ ret ≠ noError ∧ ¬ R.Active arg := by
  obtain ⟨cCI, hcCI⟩ := Option.ne_none_iff_exists'.mp hcCI
  simp only [rsmpSxlCmdIsActive, SxlRegistry.Active, hcCI, Option.some.injEq]
  cases hR : R cCI with
  | none => exact .inr ⟨_, rfl, by decide, by rintro ⟨_, _, rfl, h⟩; rw [hR] at h; cases h⟩
  | some fct =>
    cases fct with
    | none => exact .inr ⟨_, rfl, by decide, by rintro ⟨_, _, rfl, h⟩; rw [hR] at h; cases h⟩
    | some fct => exact .inl ⟨rfl, cCI, fct, rfl, hR⟩

/-- The walk stops at an argument that is not active, if there is one. -/
theorem firstInactive_cases (R : SxlRegistry σ) {args : List Arg}
    (hcoded : ∀ arg ∈ args, arg.cCI ≠ none) :
    (firstInactive R args = .ok none ∧ ∀ arg ∈ args, R.Active arg) ∨
      ∃ arg ∈ args, firstInactive R args = .ok (some arg) ∧ ¬ R.Active arg := by
  induction args with
  | nil => exact .inl ⟨rfl, nofun⟩
  | cons arg args ih =>
    obtain ⟨harg, hargs⟩ := List.forall_mem_cons.mp hcoded
    rcases rsmpSxlCmdIsActive_cases R harg with ⟨hret, hactive⟩ | ⟨ret, hret, hne, hinactive⟩
    · have hstep : firstInactive R (arg :: args) = firstInactive R args := by
        rw [firstInactive, hret]
        rfl
      rw [hstep]
      rcases ih hargs with ⟨hnone, hall⟩ | ⟨arg', hmem, hsome, hinactive⟩
      · exact .inl ⟨hnone, List.forall_mem_cons.mpr ⟨hactive, hall⟩⟩
      · exact .inr ⟨arg', List.mem_cons_of_mem _ hmem, hsome, hinactive⟩
    · refine .inr ⟨arg, List.mem_cons_self, ?_, hinactive⟩
      rw [firstInactive, hret]
      show (if ret = noError then _ else _) = _
      rw [if_neg hne]
      rfl

/-- The command of an active argument is called. -/
theorem rsmpSxlCmdExe_leaves (hkeeps : R.Keeps) {arg : Arg} (hactive : R.Active arg) {rv : Rv}
    (hrv : Answers arg rv) :
    (rsmpSxlCmdExe R arg rv).Leaves
      fun r es => Answers arg r.2 ∧ ∃ e, es = [e] ∧ R.Calls arg e := by
  obtain ⟨cCI, fct, hcCI, hR⟩ := hactive
  simp only [rsmpSxlCmdExe, hcCI, hR]
  refine .perform fun s => ⟨?_, _, rfl, cCI, fct, hcCI, hR, rfl⟩
  obtain ⟨hkeepCCI, hkeepN⟩ := hkeeps cCI fct hR arg rv s
  exact ⟨hkeepCCI.trans hrv.cCI, hkeepN.trans hrv.n⟩

/-- Each command is called once, in order, and each return value is still for its argument. -/
theorem exeArgs_leaves (hkeeps : R.Keeps) {args : List Arg} {rvs : List Rv}
    (hactive : ∀ arg ∈ args, R.Active arg) (hrvs : args.Forall₂ Answers rvs) :
    (exeArgs R args rvs).Leaves fun rvs' es =>
      args.Forall₂ Answers rvs' ∧ args.Forall₂ R.Calls es := by
  induction hrvs with
  | nil => exact .pure ⟨.nil, .nil⟩
  | @cons arg rv args rvs hrv _ ih =>
    obtain ⟨harg, hargs⟩ := List.forall_mem_cons.mp hactive
    apply (rsmpSxlCmdExe_leaves hkeeps harg hrv).bind
    rintro ⟨_, rv'⟩ _ ⟨hrv', e, rfl, he⟩
    refine (ih hargs).bind fun rvs' es h => .pure ?_
    exact ⟨.cons hrv' h.1, .cons he (by rw [List.append_nil]; exact h.2)⟩

/-! ### The request

The first argument whose command is not active decides. -/

theorem commandResponseFromRequest_answers (B : Birth) (request : CommandRequest) :
    request.arg.Forall₂ Answers (commandResponseFromRequest B request).rvs := by
  show request.arg.Forall₂ Answers (request.arg.map _)
  rw [List.forall₂_map_right_iff, List.forall₂_same]
  intro arg _
  exact ⟨rfl, rfl⟩

/-- A refusal is sent, and nothing else. -/
theorem sendAnswer_refused (hX : PrintsAll X) {request : CommandRequest} (rea : Bytes)
    (hrefused : request.arg = [] ∨ ∃ arg ∈ request.arg, ¬ R.Active arg) :
    (sendAnswer X engine (messageNotAckTo request.msg rea)).Leaves fun _ es =>
      AllOrNothing R request es := by
  have hacked : request.msg.1.ack = true := rfl
  obtain ⟨mId, hmId, -, hnotAck⟩ := messageAckTo_eq hacked
  obtain rfl : request.mId = mId := Option.some.inj hmId
  rw [hnotAck]
  have hdesc : (notAckOf request.mId (CStr.dup rea)).1.Described := rfl
  apply (rsmpEngineSendMsg_leaves hX hdesc).mono
  rintro _ _ rfl
  exact .refused hrefused rfl (oMId?_notAckOf _ _)

/-- **The execution of a command request.** -/
theorem commandRequestExe_allOrNothing (hX : PrintsAll X) (hkeeps : R.Keeps) (B : Birth)
    {request : CommandRequest} (hcoded : request.Coded) :
    (commandRequestExe X engine R B request).Leaves fun _ es => AllOrNothing R request es := by
  unfold commandRequestExe
  split
  · next hnil => exact sendAnswer_refused hX _ (.inl hnil)
  · rcases firstInactive_cases R hcoded with ⟨hnone, hactive⟩ | ⟨arg, hmem, hsome, hinactive⟩
    · have hacked : request.msg.1.ack = true := rfl
      obtain ⟨mId, hmId, hack, -⟩ := messageAckTo_eq hacked
      obtain rfl : request.mId = mId := Option.some.inj hmId
      have hackDesc : (ackOf request.mId).1.Described := rfl
      have hresponseDesc : ∀ rvs,
          ((commandResponseFromRequest B request).setRvs rvs).msg.1.Described := fun _ => rfl
      refine .bind_ok hnone ?_
      dsimp only
      rw [hack]
      apply (rsmpEngineSendMsg_leaves hX hackDesc).bind
      rintro _ _ rfl
      apply (exeArgs_leaves hkeeps hactive (commandResponseFromRequest_answers B request)).bind
      rintro rvs calls ⟨hrvs, hcalls⟩
      apply (rsmpEngineSendMsg_leaves hX (hresponseDesc rvs)).mono
      rintro _ _ rfl
      exact .executed rfl (oMId?_ackOf _) hcalls hrvs
    · refine .bind_ok hsome ?_
      exact sendAnswer_refused hX _ (.inr ⟨arg, hmem, hinactive⟩)

/-! ### Requests that were decoded

A request that comes from the decoder has a code in each of its arguments. -/

/-- The string is not null. -/
def Codec.Filled : (c : Codec) → c.Ty → Prop
  | str, x => x ≠ none
  | _, _ => True

/-- All the strings of the structure are. -/
def Fields.Filled : (fs : Fields) → fs.Msg → Prop
  | nil, _ => True
  | field _ codec rest, (x, msg) => codec.Filled x ∧ rest.Filled msg
  | array _ elems rest, (items, msg) => (∀ item ∈ items, elems.Filled item) ∧ rest.Filled msg
  | table _ codec rest, (items, msg) => (∀ item ∈ items, codec.Filled item) ∧ rest.Filled msg

theorem jsonExtractField_filled (X : RsmpExt) (c : Codec) (v : Json) (x : c.Ty) :
    Ends (fun _ => True) c.Filled (jsonExtractField X c v x) := by
  cases c with
  | str =>
    unfold jsonExtractField
    cases v with
    | str s => exact Option.some_ne_none _
    | _ => trivial
  | _ =>
    generalize jsonExtractField X _ v x = r
    cases r <;> trivial

/-- Every value of the structure that comes from a codec has the property. -/
def Fields.All (P : (c : Codec) → c.Ty → Prop) : (fs : Fields) → fs.Msg → Prop
  | nil, _ => True
  | field _ codec rest, (x, msg) => P codec x ∧ rest.All P msg
  | array _ elems rest, (items, msg) => (∀ item ∈ items, elems.All P item) ∧ rest.All P msg
  | table _ codec rest, (items, msg) => (∀ item ∈ items, P codec item) ∧ rest.All P msg

section All

variable {P₀ P : (c : Codec) → c.Ty → Prop}

theorem Fields.all_of_forall (h : ∀ c x, P c x) (fs : Fields) (m : fs.Msg) : fs.All P m := by
  induction fs with
  | nil => trivial
  | field _ codec _ ih => exact ⟨h codec m.1, ih m.2⟩
  | array _ _ _ ihe ih => exact ⟨fun item _ => ihe item, ih m.2⟩
  | table _ codec _ ih => exact ⟨fun item _ => h codec item, ih m.2⟩

theorem Fields.all_zero (h : ∀ c, P c c.zero) (fs : Fields) : fs.All P fs.zero := by
  induction fs with
  | nil => trivial
  | field _ codec _ ih => exact ⟨h codec, ih⟩
  | array _ _ _ _ ih => exact ⟨nofun, ih⟩
  | table _ _ _ ih => exact ⟨nofun, ih⟩

/-- What every codec makes of values with `P₀` holds all over what is decoded. -/
theorem Fields.jsonExtractFields_all (hzero : ∀ c, P₀ c c.zero)
    (hP : ∀ c v x, P₀ c x → Ends (fun _ => True) (P c) (jsonExtractField X c v x))
    (fs : Fields) (jobj : Json) {m : fs.Msg} (hm : fs.All P₀ m) :
    Ends (fun _ => True) (fs.All P) (fs.jsonExtractFields X jobj m) := by
  induction fs generalizing jobj with
  | nil => trivial
  | field lib codec rest ih =>
    obtain ⟨x, m⟩ := m
    rw [jsonExtractFields]
    split
    · trivial
    · next v _ =>
      refine (hP codec v x hm.1).bind fun x' hx => ?_
      exact (ih jobj hm.2).bind fun m' hm' => ⟨hx, hm'⟩
  | array lib elems rest ihe ih =>
    obtain ⟨x, m⟩ := m
    rw [jsonExtractFields]
    split
    · trivial
    · have hitem := fun value => ihe value (elems.all_zero hzero)
      refine (Ends.mapM fun value _ => hitem value).bind fun items hitems => ?_
      exact (ih jobj hm.2).bind fun m' hm' => ⟨hitems, hm'⟩
    · trivial
  | table lib codec rest ih =>
    obtain ⟨x, m⟩ := m
    rw [jsonExtractFields]
    split
    · trivial
    · refine (Ends.mapM fun value _ => hP codec value _ (hzero codec)).bind fun items hitems => ?_
      exact (ih jobj hm.2).bind fun m' hm' => ⟨hitems, hm'⟩
    · trivial

theorem payload2msg_all (hzero : ∀ c, P₀ c c.zero)
    (hP : ∀ c v x, P₀ c x → Ends (fun _ => True) (P c) (jsonExtractField X c v x)) {B : Birth}
    (hnew : ∀ t : MsgType, t.desc.All P₀ (t.new B)) {payload : Bytes} {m : Message}
    (h : rsmpJsonPayload2msg X B payload = .msg m) : m.1.desc.All P m.2 := by
  unfold rsmpJsonPayload2msg at h
  repeat' split at h
  all_goals cases h
  next hm => exact (Fields.jsonExtractFields_all hzero hP _ _ (hnew _)).of_ok hm

end All

theorem Fields.all_filled (fs : Fields) (m : fs.Msg) :
    fs.All (fun c => c.Filled) m ↔ fs.Filled m := by
  induction fs with
  | nil => exact Iff.rfl
  | field _ _ rest ih => exact and_congr Iff.rfl (ih m.2)
  | array _ elems rest ihe ih => exact and_congr (forall₂_congr fun item _ => ihe item) (ih m.2)
  | table _ _ rest ih => exact and_congr Iff.rfl (ih m.2)

/-- The decoder sets every string. -/
theorem payload2msg_filled {B : Birth} {payload : Bytes} {m : Message}
    (h : rsmpJsonPayload2msg X B payload = .msg m) : m.1.desc.Filled m.2 := by
  have hall : m.1.desc.All (fun c => c.Filled) m.2 :=
    payload2msg_all (fun _ => trivial)
      (fun c v x _ => jsonExtractField_filled X c v x)
      (fun t => t.desc.all_of_forall (fun _ _ => trivial) _) h
  exact (m.1.desc.all_filled m.2).mp hall

/-- The arguments of a request that was decoded have a code. -/
theorem payload2msg_coded {B : Birth} {payload : Bytes} {request : CommandRequest}
    (h : rsmpJsonPayload2msg X B payload = .msg request.msg) : request.Coded := by
  obtain ⟨-, -, -, -, -, -, hargs, -⟩ := payload2msg_filled h
  intro arg harg
  exact (hargs arg harg).1

end Outcome

/-! ### Two commands

Both are called, in their order. -/

/-- `_rsmp_errcod_gen_generic_` -/
def errcodGenGeneric : Int := 1

/-- What the handlers of the DISP commands do with an argument that has no value. -/
def handleDispEmpty : SxlCallback Unit := fun _ rv s => ((errcodGenGeneric, rv), s)

/-- Two of these commands, and a code without function. -/
def dispRegistry : SxlRegistry Unit := fun cCI =>
  if cCI.val = ascii "DISP/M31" ∨ cCI.val = ascii "DISP/M40" then some (some handleDispEmpty)
  else if cCI.val = ascii "DISP/S31" then some none
  else none

theorem dispRegistry_keeps : dispRegistry.Keeps := by
  intro cCI fct h arg rv s
  unfold dispRegistry at h
  split at h
  · cases h
    exact ⟨rfl, rfl⟩
  · split at h
    · cases h
    · cases h

/-- A request for both commands. -/
def dispRequest : CommandRequest :=
  ((), .commandRequest, 0x2b, some (CStr.dup []), some (CStr.dup []),
    some (CStr.dup (ascii "DISP1")),
    [(some (CStr.dup (ascii "DISP/M40")), some (CStr.dup (ascii "msgIdList")),
        some (CStr.dup (ascii "setMsg")), ⟨[], 1⟩, ()),
      (some (CStr.dup (ascii "DISP/M31")), some (CStr.dup (ascii "messages")),
        some (CStr.dup (ascii "setMsg")), ⟨[], 1⟩, ())], ())

/-- json-c, which has a text for every value. -/
def dispExt : RsmpExt :=
  let X := hostExt [dispRequest.msg]
  { X with json := { X.json with print := fun j => some j.toPlain } }

/-- The request that is decoded is executed. -/
theorem commandRequestExe_disp :
    ∃ request : CommandRequest,
      rsmpJsonPayload2msg dispExt bareBirth (Json.obj (dispRequest.msg.members dispExt)).toPlain =
        .msg request.msg ∧
      request.arg.map Arg.cCI = dispRequest.arg.map Arg.cCI ∧
      (commandRequestExe dispExt (fun _ s => (noError, s)) dispRegistry bareBirth request).Leaves
        fun _ es => AllOrNothing dispRegistry request es := by
  have hdecoded : (match rsmpJsonPayload2msg dispExt bareBirth
      (Json.obj (dispRequest.msg.members dispExt)).toPlain with
      | .msg ⟨.commandRequest, request⟩ =>
        decide ((CommandRequest.arg request).map Arg.cCI = dispRequest.arg.map Arg.cCI)
      | _ => false) = true := by decide +kernel
  have hprints : PrintsAll dispExt := fun j => ⟨j.toPlain, rfl⟩
  split at hdecoded
  · next request hmsg =>
    refine ⟨request, hmsg, of_decide_eq_true hdecoded, ?_⟩
    exact commandRequestExe_allOrNothing hprints dispRegistry_keeps bareBirth
      (payload2msg_coded hmsg)
  · cases hdecoded

end RsmpGateway.Rsmp
