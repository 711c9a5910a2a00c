import RsmpGateway.Rsmp.Handlers

/-!
# The answers of the DISP commands

What `_rsmp_msg_CommandRequest_exe` answers, with the DISP handlers, has to be decoded by who
gets it. The decoder reads neither a value with a character nor an age that has no name, and a
handler that does something either writes a value or sets such an age. So it reads the answers in
which every handler has refused its argument, and no other one (`answered_iff_refuses`).

The run of the request is that of `Rsmp/Command.lean`. The handlers do not always end: what comes
out of a fault is unknown, and the state records that something has gone wrong. Each call finds
its own content on the stack.
-/

namespace RsmpGateway.Rsmp

open RsmpGateway.Lib RsmpGateway.Auth RsmpGateway.Coder

variable {X : RsmpExt}

/-! ## What is decoded of a response

A property of the decoder alone: by the types of the fields, for every payload. -/

/-- The same texts and the same age, whatever size the value gives to its characters. -/
structure SameRv (rv rv' : Rv) : Prop where
  cCI : rv'.cCI = rv.cCI
  n : rv'.n = rv.n
  v : rv'.v.items = rv.v.items
  age : rv'.age = rv.age

/-- The response is encoded, and decoded to the same return values. -/
def CommandResponse.Decodes (X : RsmpExt) (B : Birth) (response : CommandResponse) : Prop :=
  ∃ payload, rsmpJsonMsg2payload X response.msg = .ok (some payload) ∧
    ∃ response' : CommandResponse, rsmpJsonPayload2msg X B payload = .msg response'.msg ∧
      List.Forall₂ SameRv response.rvs response'.rvs

/-- A `v` as `calloc` leaves it. -/
def Codec.Fresh : (c : Codec) → c.Ty → Prop
  | v, a => a = ⟨[], 0⟩
  | _, _ => True

/-- A `v` without character, and a value that its enumeration has to have. -/
def Codec.Plain : (c : Codec) → c.Ty → Prop
  | v, a => a.items = []
  | enum lib true, n => n < lib.length
  | _, _ => True

/-! ### Field by field

A decoded response was made by `rsmp_message_new`, whose arrays have no item size. A `v` with a
character, decoded into such an array, is a fault; and an age is decoded by its name. -/

theorem jsonExtractField_plain (X : RsmpExt) (c : Codec) (value : Json) (x : c.Ty)
    (hx : c.Fresh x) : Ends (fun _ => True) c.Plain (jsonExtractField X c value x) := by
  cases c with
  | v =>
    obtain rfl : x = ⟨[], 0⟩ := hx
    unfold jsonExtractField
    cases value with
    | str s =>
      show Ends _ _ (if s.length * 0 < s.length then _ else _)
      split
      · trivial
      · next hlen =>
        show s = []
        exact List.eq_nil_of_length_eq_zero (by omega)
    | _ => trivial
  | enum lib strict =>
    cases strict with
    | false => cases jsonExtractField X (.enum lib false) value x <;> trivial
    | true =>
      unfold jsonExtractField
      cases value with
      | str s =>
        show Ends _ _ (enumDecode lib true (.string (some s)) x)
        rw [enumDecode, Option.bind_some]
        split
        · next n hfind => exact (List.getElem?_eq_some_iff.mp (rsmpLibFind_some hfind)).1
        · trivial
      | _ => trivial
  | _ =>
    generalize jsonExtractField X _ value x = r
    cases r <;> trivial

theorem MsgType.new_fresh (B : Birth) (t : MsgType) :
    t.desc.All (fun c => c.Fresh) (t.new B) := by
  cases t <;> repeat' first | exact trivial | (intro _ h; cases h; done) | constructor | intro _ _

/-- What is decoded of a response has no value with a character, and no age without name. -/
theorem CommandResponse.plain_of_decoded {B : Birth} {payload : Bytes}
    {response : CommandResponse} (h : rsmpJsonPayload2msg X B payload = .msg response.msg) :
    ∀ rv ∈ response.rvs, rv.v.items = [] ∧ rv.age < 4 := by
  have hzero : ∀ c : Codec, c.Fresh c.zero := by
    intro c
    cases c <;> first | rfl | trivial
  obtain ⟨-, -, -, -, -, -, -, hrvs, -⟩ :=
    payload2msg_all hzero (jsonExtractField_plain X) (MsgType.new_fresh B) h
  intro rv hrv
  obtain ⟨-, -, hv, hage, -⟩ := hrvs rv hrv
  exact ⟨hv, hage⟩

/-! ## The answer that leaves every return value

The response is built from the request with empty values, and its date is kept to the
millisecond. -/

/-- The clock shows a date after 1970, which the host has as a local time. -/
structure ClockRead (X : RsmpExt) (now : HoroDate) : Prop where
  inRange : HoroDate.InRange now
  pos : 0 < now.sec
  reads : X.zone.Reads now.sec

/-- The date in whole milliseconds. -/
def wholeMs (t : HoroDate) : HoroDate := ⟨t.sec, t.nsec / 1000000 * 1000000⟩

section Clock

variable {now : HoroDate}

theorem ClockRead.inRange_wholeMs (h : ClockRead X now) : HoroDate.InRange (wholeMs now) := by
  obtain ⟨hnsec0, hnsec1⟩ := h.inRange.nsec
  refine ⟨h.inRange.sec, ?_⟩
  show 0 ≤ now.nsec / 1000000 * 1000000 ∧ now.nsec / 1000000 * 1000000 < 1000000000
  omega

theorem ClockRead.timeKept (h : ClockRead X now) : TimeKept X (wholeMs now) := by
  refine ⟨fun _ => ⟨h.pos, ?_, h.reads⟩, fun hout => absurd h.inRange_wholeMs hout⟩
  show now.nsec / 1000000 * 1000000 % 1000000 = 0
  omega

/-- The text of the date has no more than its milliseconds. -/
theorem ClockRead.tsToString_wholeMs (hX : X.Lawful) (h : ClockRead X now) :
    tsToString X (wholeMs now) = tsToString X now := by
  have hms : now.nsec / 1000000 * 1000000 / 1000000 = now.nsec / 1000000 := by omega
  have htext : zuluText (wholeMs now) = zuluText now := by
    rw [zuluText, zuluText, wholeMs, hms]
  rw [tsToString, tsToString, hX.date _ h.inRange_wholeMs, hX.date _ h.inRange, htext]

end Clock

/-- The response that no handler has changed is decoded to the same return values. -/
theorem commandResponseFromRequest_decodes (hX : X.Lawful) {B : Birth} (hclock : ClockRead X B.now)
    {request : CommandRequest} (hfilled : request.msg.1.desc.Filled request)
    (hprinted : (commandResponseFromRequest B request).msg.Printed X) (B' : Birth) :
    (commandResponseFromRequest B request).Decodes X B' := by
  have hdesc : (commandResponseFromRequest B request).msg.1.Described := rfl
  obtain ⟨payload, hpayload⟩ := hprinted.payload hX hdesc
  obtain ⟨-, jobj, hparse, hhas⟩ := Message.msg2payload_some hX hdesc hpayload
  refine ⟨payload, hpayload, ?_⟩
  obtain ⟨_, type, mId, ntsOId, xNId, cId, args, _⟩ := request
  obtain ⟨-, -, -, hntsOId, hxNId, hcId, hargs, -⟩ := hfilled
  -- the message with its date in whole milliseconds has the same text, and is read back
  let response : CommandResponse := ((), .commandResponse, B.mId, ntsOId, xNId, cId,
    wholeMs B.now, args.map fun a => (a.cCI, a.n, ⟨[], 0⟩, (0 : Nat), ()), ())
  have hmembers : response.msg.members X =
      (commandResponseFromRequest B
        ((), type, mId, ntsOId, xNId, cId, args, ())).msg.members X := by
    have hdate := hclock.tsToString_wholeMs hX
    show (_ :: _ :: _ :: _ :: _ :: _ :: (ascii "cTS", Json.str (tsToString X (wholeMs B.now))) :: _)
      = _
    rw [hdate]
    rfl
  have hsound : response.msg.Sound := by
    refine ⟨rfl, trivial, rfl, trivial, hntsOId, hxNId, hcId, trivial, ?_, trivial⟩
    intro rv hrv
    obtain ⟨arg, harg, rfl⟩ := List.mem_map.mp hrv
    obtain ⟨hcCI, hn, -⟩ := hargs arg harg
    exact ⟨hcCI, hn, trivial, Nat.zero_lt_succ 3, trivial⟩
  have hkept : response.msg.Kept X := by
    refine ⟨trivial, trivial, trivial, trivial, trivial, trivial, hclock.timeKept, ?_, trivial⟩
    intro rv hrv
    obtain ⟨arg, -, rfl⟩ := List.mem_map.mp hrv
    exact ⟨trivial, trivial, rfl, trivial, trivial⟩
  rw [← hmembers] at hhas
  obtain ⟨response', hmsg, hsame⟩ := (hsound.payload2msg_iff hX B' hparse hhas).mpr hkept
  obtain ⟨-, -, -, -, -, -, -, hrvs, -⟩ := hsame
  refine ⟨response', hmsg, hrvs.imp ?_⟩
  rintro rv rv' ⟨hcCI, hn, hv, hage, -⟩
  exact ⟨hcCI, hn, hv, hage⟩

/-! ## What the handlers make of the return values

One call, then the arguments one after the other. The first argument that is not refused settles
the whole: what goes wrong stays so, and a return value is touched once. -/

theorem DispCode.mem_all (c : DispCode) : c ∈ DispCode.all := by
  cases c with
  | command c => cases c <;> decide
  | status c => cases c <;> decide

theorem DispCode.code_injective {c c' : DispCode} (h : c.code = c'.code) : c = c' := by
  have hnodup : (DispCode.all.map DispCode.code).Nodup := by decide
  exact List.inj_on_of_nodup_map hnodup c.mem_all c'.mem_all h

section Run

variable {τ : Type} {J : JsonLib}

/-! ### One call

The code of the argument selects the handler, and the codes are all different. What the handler
finds on the stack is given with the call. -/

/-- The registry has the handler of each code. -/
theorem registerDispHandlers_eq {cCI : CStr} {fct : SxlCallback (Host τ)} :
    registerDispHandlers τ J cCI = some (some fct) ↔
      ∃ c : DispCode, cCI.val = c.code ∧ fct = c.callback J := by
  unfold registerDispHandlers
  constructor
  · intro h
    obtain ⟨c, hfind, hc⟩ := Option.map_eq_some_iff.mp h
    have hcode : cCI.val = c.code := by simpa using List.find?_some hfind
    exact ⟨c, hcode, (Option.some.inj hc).symm⟩
  · rintro ⟨c, hcode, rfl⟩
    cases hfind : DispCode.all.find? fun c => cCI.val = c.code with
    | none =>
      have hnot := List.find?_eq_none.mp hfind c c.mem_all
      exact absurd (decide_eq_true hcode) hnot
    | some c' =>
      have hcode' : cCI.val = c'.code := by simpa using List.find?_some hfind
      rw [DispCode.code_injective (hcode'.symm.trans hcode)]
      rfl

/-- The handler of the argument refuses its value. -/
def Arg.RefusedBy (J : JsonLib) (stack : DispStack) (arg : Arg) : Prop :=
  ∀ (cCI : CStr) (c : DispCode), arg.cCI = some cCI → cCI.val = c.code →
    c.Refuses J stack arg.v.items

theorem Arg.refusedBy_iff {stack : DispStack} {arg : Arg} {cCI : CStr} {c : DispCode}
    (hcCI : arg.cCI = some cCI) (hcode : cCI.val = c.code) :
    arg.RefusedBy J stack ↔ c.Refuses J stack arg.v.items := by
  constructor
  · exact fun h => h cCI c hcCI hcode
  · intro h cCI' c' hcCI' hcode'
    rw [hcCI] at hcCI'
    cases hcCI'
    rwa [DispCode.code_injective (hcode'.symm.trans hcode)]

/-- Every argument is refused by its handler, with what the call of it finds on the stack. -/
def AllRefused (J : JsonLib) (stackAt : Nat → DispStack) (args : List Arg) : Prop :=
  ∀ i (arg : Arg), args[i]? = some arg → arg.RefusedBy J (stackAt i)

theorem allRefused_cons {stackAt : Nat → DispStack} {arg : Arg} {args : List Arg} :
    AllRefused J stackAt (arg :: args) ↔
      arg.RefusedBy J (stackAt 0) ∧ AllRefused J (fun i => stackAt (i + 1)) args := by
  constructor
  · intro h
    exact ⟨h 0 arg rfl, fun i arg' harg' => h (i + 1) arg' harg'⟩
  · rintro ⟨hfirst, hrest⟩ i arg' harg'
    cases i with
    | zero =>
      obtain rfl : arg = arg' := Option.some.inj harg'
      exact hfirst
    | succ i => exact hrest i arg' harg'

/-- What a call of a handler leaves of a return value whose items have no size. -/
theorem callback_cases (c : DispCode) (arg : Arg) {rv : Rv} (hsize : rv.v.itemLen = 0)
    (host : Host τ) :
    (c.Refuses J (host.stackAt 0) arg.v.items ∧
        ∃ code, c.callback J arg rv host = ((code, rv), host.called)) ∨
      (¬ c.Refuses J (host.stackAt 0) arg.v.items ∧ ∃ code rv' host',
        c.callback J arg rv host = ((code, rv'), host') ∧
          (host'.wrong = true ∨ rv'.age = 4)) := by
  rcases c.handle_cases (host.stackAt 0) arg hsize with ⟨hR, code, h⟩ | ⟨hR, h | h⟩
  · exact .inl ⟨hR, code, by simp only [DispCode.callback, h]⟩
  · exact .inr ⟨hR, _, _, _, by simp only [DispCode.callback, h]; rfl, .inl rfl⟩
  · exact .inr ⟨hR, _, _, _, by simp only [DispCode.callback, h]; rfl, .inr rfl⟩

/-- All the values are refused, and nothing changes; or something has gone wrong, or there is an
age without name. -/
theorem exeArgs_run {args : List Arg} {rvs : List Rv}
    (hactive : ∀ arg ∈ args, (registerDispHandlers τ J).Active arg)
    (hrvs : args.Forall₂ (fun _ rv => rv.v.itemLen = 0) rvs)
    (t : Traced (Host τ) (CommandEvent (Host τ))) :
    ∃ rvs' host calls,
      exeArgs (registerDispHandlers τ J) args rvs t = .ok (rvs', ⟨host, t.trace ++ calls⟩) ∧
      ((AllRefused J t.state.stackAt args ∧ rvs' = rvs ∧ host.wrong = t.state.wrong) ∨
        (¬ AllRefused J t.state.stackAt args ∧
          (host.wrong = true ∨ ∃ rv ∈ rvs', rv.age = 4))) := by
  induction hrvs generalizing t with
  | nil =>
    refine ⟨[], t.state, [], ?_, .inl ⟨fun i arg harg => ?_, rfl, rfl⟩⟩
    · rw [List.append_nil]
      rfl
    · cases harg
  | @cons arg rv args rvs hsize _ ih =>
    obtain ⟨⟨cCI, fct, hcCI, hfct⟩, hargs⟩ := List.forall_mem_cons.mp hactive
    obtain ⟨c, hcode, rfl⟩ := registerDispHandlers_eq.mp hfct
    -- the call, and the run of the others after it
    have hrun : ∀ code rv' host', c.callback J arg rv t.state = ((code, rv'), host') →
        ∃ rvs' host calls,
          exeArgs (registerDispHandlers τ J) (arg :: args) (rv :: rvs) t =
            .ok (rv' :: rvs', ⟨host, t.trace ++ calls⟩) ∧
          ((AllRefused J host'.stackAt args ∧ rvs' = rvs ∧ host.wrong = host'.wrong) ∨
            (¬ AllRefused J host'.stackAt args ∧
              (host.wrong = true ∨ ∃ rv ∈ rvs', rv.age = 4))) := by
      intro code rv' host' hcall
      let t' : Traced (Host τ) (CommandEvent (Host τ)) :=
        ⟨host', t.trace ++ [.called (c.callback J) arg]⟩
      have hexe :
          rsmpSxlCmdExe (registerDispHandlers τ J) arg rv t = .ok ((code, rv'), t') := by
        simp only [rsmpSxlCmdExe, hcCI, hfct, TraceM.perform, hcall]
        rfl
      obtain ⟨rvs', host, calls, hrest, hcases⟩ := ih hargs t'
      refine ⟨rvs', host, .called (c.callback J) arg :: calls, ?_, hcases⟩
      calc exeArgs (registerDispHandlers τ J) (arg :: args) (rv :: rvs) t
          = (exeArgs (registerDispHandlers τ J) args rvs t' >>= fun r =>
              .ok (rv' :: r.1, r.2)) := by
            show (rsmpSxlCmdExe (registerDispHandlers τ J) arg rv t >>= fun r => _) = _
            rw [hexe]
            rfl
        _ = .ok (rv' :: rvs', ⟨host, t.trace ++ .called (c.callback J) arg :: calls⟩) := by
            rw [hrest, ← List.append_cons]
            rfl
    rw [allRefused_cons, Arg.refusedBy_iff hcCI hcode]
    rcases callback_cases c arg hsize t.state with
      ⟨hR, code, hcall⟩ | ⟨hR, code, rv', host', hcall, hbad⟩
    · obtain ⟨rvs', host, calls, hrun, hcases⟩ := hrun _ _ _ hcall
      refine ⟨rv :: rvs', host, calls, hrun, ?_⟩
      rcases hcases with ⟨hall, rfl, hwrong⟩ | ⟨hnot, hbad⟩
      · exact .inl ⟨⟨hR, hall⟩, rfl, hwrong⟩
      · refine .inr ⟨fun h => hnot h.2, hbad.imp_right ?_⟩
        rintro ⟨rv, hrv, hage⟩
        exact ⟨rv, List.mem_cons_of_mem _ hrv, hage⟩
    · obtain ⟨rvs', host, calls, hrun, hcases⟩ := hrun _ _ _ hcall
      refine ⟨rv' :: rvs', host, calls, hrun, .inr ⟨fun h => hR h.1, ?_⟩⟩
      rcases hcases with ⟨-, rfl, hwrong⟩ | ⟨-, hrest⟩
      · rw [hwrong]
        exact hbad.imp_right fun hage => ⟨rv', List.mem_cons_self, hage⟩
      · apply hrest.imp_right
        rintro ⟨rv, hrv, hage⟩
        exact ⟨rv, List.mem_cons_of_mem _ hrv, hage⟩

end Run

/-! ## The answer

The acknowledgement is sent first, then the handlers run, then the response is sent; the last
event of the run is the response. -/

/-- The request has arguments, and the commands of all of them can be called. -/
structure CommandRequest.Acknowledged {σ : Type} (R : SxlRegistry σ) (request : CommandRequest) :
    Prop where
  ne_nil : request.arg ≠ []
  active : ∀ arg ∈ request.arg, R.Active arg

/-- The engine sends, with a state of its own. -/
def Host.send {τ : Type} (send : Bytes → τ → Int × τ) (payload : Bytes) (host : Host τ) :
    Int × Host τ :=
  ((send payload host.engine).1, { host with engine := (send payload host.engine).2 })

section Run

variable {σ : Type} {engine : Bytes → σ → Int × σ} {R : SxlRegistry σ}

theorem rsmpEngineSendMsg_run {m : Message} {payload : Bytes}
    (h : rsmpJsonMsg2payload X m = .ok (some payload)) (t : Traced σ (CommandEvent σ)) :
    rsmpEngineSendMsg X engine m t =
      .ok ((engine payload t.state).1, ⟨(engine payload t.state).2, t.trace ++ [.sent m]⟩) := by
  unfold rsmpEngineSendMsg
  rw [h]
  rfl

/-- What is sent has a text. -/
theorem rsmpEngineSendMsg_ok {m : Message} {t t' : Traced σ (CommandEvent σ)} {code : Int}
    (h : rsmpEngineSendMsg X engine m t = .ok (code, t')) :
    ∃ payload, rsmpJsonMsg2payload X m = .ok (some payload) ∧
      t' = ⟨(engine payload t.state).2, t.trace ++ [.sent m]⟩ := by
  cases hpayload : rsmpJsonMsg2payload X m with
  | error s =>
    unfold rsmpEngineSendMsg at h
    rw [hpayload] at h
    cases h
  | ok payload =>
    cases payload with
    | none =>
      unfold rsmpEngineSendMsg at h
      rw [hpayload] at h
      cases h
    | some payload =>
      rw [rsmpEngineSendMsg_run hpayload] at h
      cases h
      exact ⟨payload, rfl, rfl⟩

/-- An acknowledged request: the acknowledgement, then the commands, then the response. -/
theorem CommandRequest.Acknowledged.exe_run {request : CommandRequest}
    (h : request.Acknowledged R) {payload : Bytes}
    (hpayload : rsmpJsonMsg2payload X (ackOf request.mId) = .ok (some payload)) (B : Birth)
    (t : Traced σ (CommandEvent σ)) :
    commandRequestExe X engine R B request t =
      (exeArgs R request.arg (commandResponseFromRequest B request).rvs >>= fun rvs =>
          rsmpEngineSendMsg X engine ((commandResponseFromRequest B request).setRvs rvs).msg)
        ⟨(engine payload t.state).2, t.trace ++ [.sent (ackOf request.mId)]⟩ := by
  have hcoded : ∀ arg ∈ request.arg, arg.cCI ≠ none := by
    intro arg harg
    obtain ⟨cCI, -, hcCI, -⟩ := h.active arg harg
    rw [hcCI]
    exact Option.some_ne_none cCI
  have hacked : request.msg.1.ack = true := rfl
  obtain ⟨mId, hmId, hack, -⟩ := messageAckTo_eq hacked
  obtain rfl : request.mId = mId := Option.some.inj hmId
  rcases firstInactive_cases R hcoded with ⟨hnone, -⟩ | ⟨arg, harg, -, hinactive⟩
  · unfold commandRequestExe
    rw [if_neg h.ne_nil, hack]
    show ((liftM (firstInactive R request.arg) : CommandM σ (Option Arg)) >>= _) t = _
    rw [hnone]
    show (rsmpEngineSendMsg X engine (ackOf request.mId) t >>= _) = _
    rw [rsmpEngineSendMsg_run hpayload]
    rfl
  · exact absurd (h.active arg harg) hinactive

end Run

section Answer

variable {τ : Type} {stackAt : Nat → DispStack} {send : Bytes → τ → Int × τ}

/-- The run of the request goes wrong nowhere, and its last event is a response that is decoded to
the return values it was given. -/
def Answered (X : RsmpExt) (stackAt : Nat → DispStack) (send : Bytes → τ → Int × τ) (B B' : Birth)
    (request : CommandRequest) (engine : τ) : Prop :=
  ∃ (code : Int) (events : List (CommandEvent (Host τ))) (response : CommandResponse)
    (host : Host τ),
    commandRequestExe X (Host.send send) (registerDispHandlers τ X.json) B request
        ⟨⟨engine, stackAt, false⟩, []⟩ = .ok (code, ⟨host, events ++ [.sent response.msg]⟩) ∧
      host.wrong = false ∧ response.Decodes X B'

/-! ### Which answers are decoded

A handler that accepts comes to a fault or sets an age that has no name, which no decoder reads.
So the response is decoded exactly where each handler has left its return value alone. -/

/-- The return values of a response that is decoded have an age that has a name. -/
theorem CommandResponse.Decodes.age_lt {B : Birth} {response : CommandResponse}
    (h : response.Decodes X B) : ∀ rv ∈ response.rvs, rv.age < 4 := by
  obtain ⟨payload, -, response', hmsg, hsame⟩ := h
  have hplain := CommandResponse.plain_of_decoded hmsg
  generalize response.rvs = rvs at hsame ⊢
  generalize response'.rvs = rvs' at hsame hplain
  induction hsame with
  | nil => exact nofun
  | cons hrv _ ih =>
    obtain ⟨hfirst, hrest⟩ := List.forall_mem_cons.mp hplain
    refine List.forall_mem_cons.mpr ⟨?_, ih hrest⟩
    rw [← hrv.age]
    exact hfirst.2

/-- How the run of an acknowledged request ends. -/
theorem commandRequestExe_run (send : Bytes → τ → Int × τ) (B : Birth) {request : CommandRequest}
    (hack : request.Acknowledged (registerDispHandlers τ X.json)) {payload : Bytes}
    (hpayload : rsmpJsonMsg2payload X (ackOf request.mId) = .ok (some payload)) (engine : τ) :
    ∃ rvs host events,
      commandRequestExe X (Host.send send) (registerDispHandlers τ X.json) B request
          ⟨⟨engine, stackAt, false⟩, []⟩ =
        rsmpEngineSendMsg X (Host.send send)
          ((commandResponseFromRequest B request).setRvs rvs).msg ⟨host, events⟩ ∧
      ((AllRefused X.json stackAt request.arg ∧
          rvs = (commandResponseFromRequest B request).rvs ∧ host.wrong = false) ∨
        (¬ AllRefused X.json stackAt request.arg ∧
          (host.wrong = true ∨ ∃ rv ∈ rvs, rv.age = 4))) := by
  have hsizes : request.arg.Forall₂ (fun _ rv => rv.v.itemLen = 0)
      (commandResponseFromRequest B request).rvs := by
    show request.arg.Forall₂ _ (request.arg.map _)
    rw [List.forall₂_map_right_iff, List.forall₂_same]
    exact fun _ _ => rfl
  let t : Traced (Host τ) (CommandEvent (Host τ)) :=
    ⟨(Host.send send payload ⟨engine, stackAt, false⟩).2, [] ++ [.sent (ackOf request.mId)]⟩
  obtain ⟨rvs, host, calls, hrun, hcases⟩ := exeArgs_run hack.active hsizes t
  refine ⟨rvs, host, t.trace ++ calls, ?_, ?_⟩
  · rw [hack.exe_run hpayload]
    show (exeArgs _ _ _ t >>= _) = _
    rw [hrun]
    rfl
  · exact hcases

/-- An answer that is decoded is one in which every handler has refused its argument. -/
theorem Answered.refuses {B B' : Birth} {request : CommandRequest}
    (hack : request.Acknowledged (registerDispHandlers τ X.json)) {payload : Bytes}
    (hpayload : rsmpJsonMsg2payload X (ackOf request.mId) = .ok (some payload)) {engine : τ}
    (h : Answered X stackAt send B B' request engine) :
    AllRefused X.json stackAt request.arg := by
  obtain ⟨code, events, response, host', hok, hwrong, hdecodes⟩ := h
  obtain ⟨rvs, host, events', hrun, ⟨hall, -⟩ | ⟨-, hbad⟩⟩ :=
    commandRequestExe_run send B hack hpayload engine
  · exact hall
  · rw [hrun] at hok
    obtain ⟨p, -, hend⟩ := rsmpEngineSendMsg_ok hok
    obtain ⟨hhost, hevents⟩ := Traced.mk.inj hend
    rcases hbad with hbad | ⟨rv, hrv, hage⟩
    · rw [hhost] at hwrong
      exact absurd hbad (Bool.eq_false_iff.mp hwrong)
    · have hlast := List.append_inj_right' hevents rfl
      simp only [List.cons.injEq, CommandEvent.sent.injEq, and_true] at hlast
      obtain rfl : response = (commandResponseFromRequest B request).setRvs rvs := by
        cases hlast
        rfl
      have hlt := hdecodes.age_lt rv hrv
      omega

/-- **The answers that are decoded.** Those in which every handler has refused its argument. -/
theorem answered_iff_refuses (hX : X.Lawful) (stackAt : Nat → DispStack)
    (send : Bytes → τ → Int × τ) {B : Birth} (hclock : ClockRead X B.now) (B' : Birth)
    {request : CommandRequest} (hack : request.Acknowledged (registerDispHandlers τ X.json))
    (hfilled : request.msg.1.desc.Filled request) (hackPrinted : (ackOf request.mId).Printed X)
    (hprinted : (commandResponseFromRequest B request).msg.Printed X) (engine : τ) :
    Answered X stackAt send B B' request engine ↔
      AllRefused X.json stackAt request.arg := by
  have hackDesc : (ackOf request.mId).1.Described := rfl
  obtain ⟨payload, hpayload⟩ := hackPrinted.payload hX hackDesc
  constructor
  · exact Answered.refuses hack hpayload
  · intro hall
    obtain ⟨rvs, host, events, hrun, ⟨-, rfl, hwrong⟩ | ⟨hnot, -⟩⟩ :=
      commandRequestExe_run send B hack hpayload engine
    · have hdecodes := commandResponseFromRequest_decodes hX hclock hfilled hprinted B'
      obtain ⟨text, htext, -⟩ := hdecodes
      exact ⟨_, events, commandResponseFromRequest B request, _,
        hrun.trans (rsmpEngineSendMsg_run htext _), hwrong,
        commandResponseFromRequest_decodes hX hclock hfilled hprinted B'⟩
    · exact absurd hall hnot

end Answer

/-! ### A request with three commands

The values of two of them are refused for what they are, and that of the first one is a
parameter. -/

/-- The type of the display. -/
def displayValue : Json := .obj [(ascii "displayType", .str (ascii "LED"))]

def displayArg (code n cO : Bytes) (v : CharArray) : Arg :=
  (some (CStr.dup code), some (CStr.dup n), some (CStr.dup cO), v, ())

/-- A request with a value for `DISP/S10`. That of `DISP/M31` has no list of statuses, and that of
`DISP/S30` is no JSON. -/
def displayRequest (v : CharArray) : CommandRequest :=
  ((), .commandRequest, 0x2c, some (CStr.dup []), some (CStr.dup []),
    some (CStr.dup (ascii "DISP1")),
    [displayArg (ascii "DISP/S10") (ascii "displayType") (ascii "getType") v,
      displayArg (ascii "DISP/M31") (ascii "message") (ascii "setMessage")
        ⟨displayValue.toPlain ++ [0], 1⟩,
      displayArg (ascii "DISP/S30") (ascii "messages") (ascii "getMessages")
        ⟨ascii "LED" ++ [0], 1⟩], ())

/-- json-c for the value, the acknowledgement and the response that no handler has changed. -/
def displayExt : RsmpExt :=
  let objects : List Json :=
    [.obj ((ackOf 0x2c).members (hostExt [])),
      .obj ((commandResponseFromRequest bareBirth (displayRequest ⟨[], 1⟩)).msg.members
        (hostExt []))]
  { hostExt [] with json := .ofPlain (displayValue :: objects) }

/-- Two other contents of the stack, one after the other. -/
def displayStacks (i : Nat) : DispStack :=
  let other : RetMessageObject := (retMessageOf displayExt.json displayValue .zero)
  if i % 2 = 0 then ⟨.zero, other⟩ else ⟨other, .zero⟩

theorem displayExt_lawful : displayExt.Lawful := by
  have hhost : (hostExt []).Lawful :=
    hostExt_lawful (JsonLib.ofTable_lawful (by decide) (by decide))
  refine ⟨JsonLib.ofTable_lawful ?_ ?_, hhost.date, hhost.zone, hhost.uuid, hhost.uuidText⟩
  · decide
  · decide +kernel

theorem displayExt_clockRead : ClockRead displayExt bareBirth.now :=
  ⟨⟨by decide, by decide⟩, by decide, Zone.utc_reads _⟩

theorem displayRequest_acknowledged (v : CharArray) :
    (displayRequest v).Acknowledged (registerDispHandlers Unit displayExt.json) := by
  refine ⟨List.cons_ne_nil _ _, ?_⟩
  refine List.forall_mem_cons.mpr ⟨?_, List.forall_mem_cons.mpr ⟨?_, ?_⟩⟩
  · exact ⟨_, _, rfl, registerDispHandlers_eq.mpr ⟨.status .s10, by decide, rfl⟩⟩
  · exact ⟨_, _, rfl, registerDispHandlers_eq.mpr ⟨.command .m31, by decide, rfl⟩⟩
  · refine List.forall_mem_singleton.mpr ?_
    exact ⟨_, _, rfl, registerDispHandlers_eq.mpr ⟨.status .s30, by decide, rfl⟩⟩

theorem displayRequest_filled (v : CharArray) :
    (displayRequest v).msg.1.desc.Filled (displayRequest v) := by
  refine ⟨trivial, trivial, trivial, nofun, nofun, nofun, fun arg harg => ?_, trivial⟩
  rcases List.mem_cons.mp harg with rfl | harg
  · exact ⟨nofun, nofun, nofun, trivial, trivial⟩
  rcases List.mem_cons.mp harg with rfl | harg
  · exact ⟨nofun, nofun, nofun, trivial, trivial⟩
  obtain rfl := List.mem_singleton.mp harg
  exact ⟨nofun, nofun, nofun, trivial, trivial⟩

theorem displayExt_printed_ack : (ackOf 0x2c).Printed displayExt := by
  refine ⟨(Json.obj ((ackOf 0x2c).members displayExt)).toPlain, by decide,
    fun hversion => ?_⟩
  exact absurd hversion (by decide)

theorem displayExt_printed (v : CharArray) :
    (commandResponseFromRequest bareBirth (displayRequest v)).msg.Printed displayExt := by
  show (commandResponseFromRequest bareBirth (displayRequest ⟨[], 1⟩)).msg.Printed displayExt
  refine ⟨(Json.obj ((commandResponseFromRequest bareBirth
    (displayRequest ⟨[], 1⟩)).msg.members displayExt)).toPlain, by decide +kernel,
    fun hversion => ?_⟩
  exact absurd hversion (by decide +kernel)

/-- The engine takes every message. -/
def takeAll (_ : Bytes) (engine : Unit) : Int × Unit := (noError, engine)

theorem displayValue_parsed :
    jsonTokenerParse displayExt.json (displayValue.toPlain ++ [0]) = .ok displayValue := by
  have hprint : displayExt.json.print displayValue = some displayValue.toPlain := by decide
  rw [jsonTokenerParse, if_pos (by simp), cstr_append_nul (displayExt_lawful.json.nul hprint),
    displayExt_lawful.json.parse_print hprint]
  rfl

theorem led_not_parsed : jsonTokenerParse displayExt.json (ascii "LED" ++ [0]) = .err := by
  have hparse : displayExt.json.parse (ascii "LED") = none :=
    Option.isNone_iff_eq_none.mp (by decide +kernel)
  rw [jsonTokenerParse, if_pos (by simp), cstr_append_nul (by decide), hparse]

/-- The answer to a request without value for `DISP/S10` is decoded. -/
theorem answered_displayRequest :
    Answered displayExt displayStacks takeAll bareBirth bareBirth (displayRequest ⟨[], 1⟩) () := by
  refine (answered_iff_refuses displayExt_lawful displayStacks takeAll displayExt_clockRead
    bareBirth (displayRequest_acknowledged _) (displayRequest_filled _) displayExt_printed_ack
    (displayExt_printed _) ()).mpr ?_
  have hs10 : DispCode.Refuses displayExt.json (displayStacks 0) (.status .s10) [] := .inl rfl
  have hm31 : DispCode.Refuses displayExt.json (displayStacks 1) (.command .m31)
      (displayValue.toPlain ++ [0]) := by
    refine .inr ⟨by simp, fun root hroot => ?_⟩
    rw [displayValue_parsed] at hroot
    obtain rfl := Outcome.ok.inj hroot
    exact .inl rfl
  have hs30 : DispCode.Refuses displayExt.json (displayStacks 2) (.status .s30)
      (ascii "LED" ++ [0]) := by
    refine .inr ⟨by simp, fun root hroot => ?_⟩
    rw [led_not_parsed] at hroot
    cases hroot
  refine allRefused_cons.mpr ⟨?_, allRefused_cons.mpr ⟨?_, allRefused_cons.mpr ⟨?_, ?_⟩⟩⟩
  · exact (Arg.refusedBy_iff rfl (by decide)).mpr hs10
  · exact (Arg.refusedBy_iff rfl (by decide)).mpr hm31
  · exact (Arg.refusedBy_iff rfl (by decide)).mpr hs30
  · intro i arg harg
    cases harg

/-- The handler that is given the type answers with an age that has no name. -/
theorem not_answered :
    (displayExt.Lawful ∧ ClockRead displayExt bareBirth.now ∧
      (ackOf 0x2c).Printed displayExt) ∧
    ∃ request : CommandRequest,
      request.Acknowledged (registerDispHandlers Unit displayExt.json) ∧
      request.msg.1.desc.Filled request ∧
      (commandResponseFromRequest bareBirth request).msg.Printed displayExt ∧
      ¬ Answered displayExt displayStacks takeAll bareBirth bareBirth request () := by
  refine ⟨⟨displayExt_lawful, displayExt_clockRead, displayExt_printed_ack⟩,
    displayRequest ⟨displayValue.toPlain ++ [0], 1⟩, displayRequest_acknowledged _,
    displayRequest_filled _, displayExt_printed _, fun h => ?_⟩
  have hackDesc : (ackOf 0x2c).1.Described := rfl
  obtain ⟨payload, hpayload⟩ := displayExt_printed_ack.payload displayExt_lawful hackDesc
  have hall := h.refuses (displayRequest_acknowledged _) hpayload
  rcases hall 0 _ rfl (CStr.dup (ascii "DISP/S10")) (.status .s10) rfl (by decide) with
    hnil | ⟨-, hrefuses⟩
  · exact absurd hnil (List.append_ne_nil_of_right_ne_nil _ (List.cons_ne_nil _ _))
  · obtain ⟨-, hblank⟩ := hrefuses displayValue displayValue_parsed
    exact absurd hblank (by decide)

end RsmpGateway.Rsmp
