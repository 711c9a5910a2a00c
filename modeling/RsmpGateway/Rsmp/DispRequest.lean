import RsmpGateway.Rsmp.Handlers

/-!
# The requests of the DISP commands

`encode_disp_*_command_request` writes the text of a request; the handler of the command reads it
with the decoder of the answer. The two agree on no request of `M31`, `M32` and `M41`, and on
those of `M40` only where the stack and the return value let them (`handle_agrees_iff`).

Both halves are taken as they are: the encoder with the structures of the request, the handler
with its argument and its return value. A request is what the encoder has made of a structure;
every other text is also a case of the theorem, since a handler must not take it for a request.
-/

namespace RsmpGateway.Rsmp

open RsmpGateway.Lib RsmpGateway.Auth RsmpGateway.Coder

/-! ## Requests

The structures and the encoders, with the members in the order of the source. -/

/-- The string of a `char[n]`. -/
abbrev Buffer (n : Nat) := { s : CString // s.strlen < n }

/-- `json_object_new_string` -/
def jsonObjectNewString (s : CString) : Json := .str s.val

/-- `json_object_new_int` -/
def jsonObjectNewInt (n : Int32) : Json := .int n.toInt

/-- `Content`, with its `Duration`. -/
structure Content where
  contentType : Buffer 16
  contextText : Buffer 256
  onDuration : Int32

/-- `Animation` -/
structure Animation where
  zoneId : Buffer 32
  animType : Buffer 16
  contents : List Content

/-- `Sequence`, whose `end` is `ending` here. -/
structure Sequence where
  templateId : Buffer 32
  ending : Buffer 16
  animations : List Animation

/-- `MessageObject` -/
structure MessageObject where
  msgId : Buffer 64
  repeatCount : Int32
  sequences : List Sequence

/-- `DispM31CommandRequest` -/
structure DispM31CommandRequest where
  messages : List MessageObject

/-- `DispM32CommandRequest` -/
structure DispM32CommandRequest where
  msgIdList : List CString

/-- `DispM40CommandRequest` -/
structure DispM40CommandRequest where
  msgId : Buffer 64
  displayBehavior : Buffer 16
  maxWaitTime : UInt32
  displayDuration : UInt32
  displayPriority : UInt32
  dynamicData : Buffer 256

/-- `DispM41CommandRequest` -/
structure DispM41CommandRequest where
  msgId : Buffer 64
  displayPriority : UInt32

def Content.encode (content : Content) : Json :=
  .obj [(ascii "contentType", jsonObjectNewString content.contentType.val),
    (ascii "contextText", jsonObjectNewString content.contextText.val),
    (ascii "duration", .obj [(ascii "onDuration", jsonObjectNewInt content.onDuration)])]

def Animation.encode (anim : Animation) : Json :=
  .obj [(ascii "zoneId", jsonObjectNewString anim.zoneId.val),
    (ascii "animType", jsonObjectNewString anim.animType.val),
    (ascii "contents", .arr (anim.contents.map Content.encode))]

def Sequence.encode (seq : Sequence) : Json :=
  .obj [(ascii "templateId", jsonObjectNewString seq.templateId.val),
    (ascii "end", jsonObjectNewString seq.ending.val),
    (ascii "animations", .arr (seq.animations.map Animation.encode))]

def MessageObject.encode (msg : MessageObject) : Json :=
  .obj [(ascii "msgId", jsonObjectNewString msg.msgId.val),
    (ascii "repeatCount", jsonObjectNewInt msg.repeatCount),
    (ascii "sequences", .arr (msg.sequences.map Sequence.encode))]

/-- `encode_disp_m31_command_request` -/
def encodeDispM31CommandRequest (request : DispM31CommandRequest) : Option Json :=
  some (.obj [(ascii "messages", .arr (request.messages.map MessageObject.encode))])

/-- `encode_disp_m32_command_request` -/
def encodeDispM32CommandRequest (req : DispM32CommandRequest) : Option Json :=
  if req.msgIdList = [] then none
  else some (.obj [(ascii "msgIdList", .arr (req.msgIdList.map jsonObjectNewString))])

/-- `encode_disp_m40_command_request`. An `unsigned int` is given for an `int`. -/
def encodeDispM40CommandRequest (req : DispM40CommandRequest) : Option Json :=
  some (.obj ([(ascii "msgId", jsonObjectNewString req.msgId.val),
    (ascii "displayBehavior", jsonObjectNewString req.displayBehavior.val),
    (ascii "maxWaitTime", jsonObjectNewInt req.maxWaitTime.toInt32),
    (ascii "displayDuration", jsonObjectNewInt req.displayDuration.toInt32),
    (ascii "displayPriority", jsonObjectNewInt req.displayPriority.toInt32)] ++
    if 0 < req.dynamicData.val.strlen then
      [(ascii "dynamicData", jsonObjectNewString req.dynamicData.val)]
    else []))

/-- `encode_disp_m41_command_request` -/
def encodeDispM41CommandRequest (req : DispM41CommandRequest) : Option Json :=
  some (.obj [(ascii "msgId", jsonObjectNewString req.msgId.val),
    (ascii "displayPriority", jsonObjectNewInt req.displayPriority.toInt32)])

/-! ### All requests -/

/-- A request of one of the commands. -/
inductive DispRequest
  | m31 (request : DispM31CommandRequest)
  | m32 (request : DispM32CommandRequest)
  | m40 (request : DispM40CommandRequest)
  | m41 (request : DispM41CommandRequest)

namespace DispRequest

def command : DispRequest → DispCommand
  | m31 _ => .m31
  | m32 _ => .m32
  | m40 _ => .m40
  | m41 _ => .m41

def encode : DispRequest → Option Json
  | m31 request => encodeDispM31CommandRequest request
  | m32 request => encodeDispM32CommandRequest request
  | m40 request => encodeDispM40CommandRequest request
  | m41 request => encodeDispM41CommandRequest request

/-- No identifier is empty. -/
def Identified : DispRequest → Prop
  | m31 request => ∀ msg ∈ request.messages, msg.msgId.val.strlen ≠ 0
  | m32 request => ∀ msgId ∈ request.msgIdList, msgId.strlen ≠ 0
  | m40 request => request.msgId.val.strlen ≠ 0
  | m41 request => request.msgId.val.strlen ≠ 0

end DispRequest

/-! ## Agreement

A handler agrees with an encoder when it accepts the texts that the encoder makes, and reports an
error for the others. -/

section Agreement

variable (J : JsonLib) (stack : DispStack)

/-- The text of a request of the command, with its NUL. -/
def DispCommand.Written (c : DispCommand) (v : Bytes) : Prop :=
  ∃ (request : DispRequest) (obj : Json) (text : Bytes), request.command = c ∧
    request.Identified ∧ request.encode = some obj ∧ J.print obj = some text ∧ v = text ++ [0]

/-- The handler takes statuses for identifiers. -/
def DispCommand.Mistakes (c : DispCommand) (v : Bytes) : Prop :=
  c = .m32 ∧ v ≠ [] ∧ ∃ first rest, decodeDispM32CommandResponse J v = .ok (first :: rest)

/-- The text of a request is acknowledged. Any other text is an error that the handler reports,
without a fault and without taking a structure for another. -/
structure Agrees (c : DispCommand) (request : Arg) (response : Rv) : Prop where
  written : c.Written J request.v.items → ∃ response',
    c.handle J stack request response = .ok (noError, response') ∧
      response'.v.items = ascii "ACK"
  other : ¬ c.Written J request.v.items →
    (∃ code response', c.handle J stack request response = .ok (code, response') ∧
      code ≠ noError) ∧ ¬ c.Mistakes J request.v.items

/-- The texts that are reported as errors, if a return value can be written or not. -/
def DispCommand.Reports (sized : Prop) : DispCommand → Bytes → Prop
  | m31, v => DispCommand.m31.Refuses J stack v ∨ (DispCommand.m31.Accepts J stack v ∧ sized)
  | m32, v => Refused J v fun root => root.get? (ascii "retMessages") = none ∨
    root.get? (ascii "retMessages") = some (.arr [])
  | m40, v => DispCommand.m40.Refuses J stack v
  | m41, v => DispCommand.m41.Refuses J stack v ∨ (DispCommand.m41.Accepts J stack v ∧ sized)

variable {J stack}

/-- Where an error is reported. -/
theorem Settles.reports_iff {x : Outcome (Int × Rv)} {refusal : Int} {response : Rv}
    {result : Int × Rv} {R A : Prop} (h : Settles x (refusal, response) R result A)
    (hrefusal : refusal ≠ noError) :
    (∃ code response', x = .ok (code, response') ∧ code ≠ noError) ↔
      R ∨ (A ∧ result.1 ≠ noError) := by
  by_cases hR : R
  · rw [h.refused hR]
    exact iff_of_true ⟨_, _, rfl, hrefusal⟩ (.inl hR)
  · rw [or_iff_right hR]
    by_cases hA : A
    · rw [h.accepted hR hA, and_iff_right hA]
      constructor
      · rintro ⟨_, _, ⟨⟩, hcode⟩
        exact hcode
      · exact fun hcode => ⟨_, _, rfl, hcode⟩
    · rw [h.wrong hR hA]
      refine iff_of_false ?_ fun h => hA h.1
      rintro ⟨_, _, ⟨⟩, -⟩

/-- No error comes out of an acceptance only. -/
theorem Settles.noError_iff {x : Outcome (Int × Rv)} {refusal : Int} {response : Rv}
    {result : Int × Rv} {R A : Prop} (h : Settles x (refusal, response) R result A)
    (hrefusal : refusal ≠ noError) {P : Rv → Prop} :
    (∃ response', x = .ok (noError, response') ∧ P response') ↔
      ¬ R ∧ A ∧ result.1 = noError ∧ P result.2 := by
  by_cases hR : R
  · rw [h.refused hR]
    refine iff_of_false ?_ fun h => h.1 hR
    rintro ⟨_, heq, -⟩
    exact hrefusal (Prod.mk.inj (Outcome.ok.inj heq)).1
  · rw [and_iff_right hR]
    by_cases hA : A
    · rw [h.accepted hR hA, and_iff_right hA]
      constructor
      · rintro ⟨_, heq, hP⟩
        rw [Outcome.ok.inj heq]
        exact ⟨rfl, hP⟩
      · rintro ⟨hcode, hP⟩
        refine ⟨result.2, ?_, hP⟩
        rw [← hcode]
    · rw [h.wrong hR hA]
      refine iff_of_false ?_ fun h => hA h.1
      rintro ⟨_, ⟨⟩, -⟩

/-- What is accepted of a text does not depend on the size of the items. -/
theorem accepted_and_iff {v : Bytes} {P : Json → Prop} {S : Prop} :
    (Accepted J v fun root => P root ∧ S) ↔ Accepted J v P ∧ S := by
  constructor
  · rintro ⟨root, hroot, hP, hS⟩
    exact ⟨⟨root, hroot, hP⟩, hS⟩
  · rintro ⟨⟨root, hroot, hP⟩, hS⟩
    exact ⟨root, hroot, hP, hS⟩

theorem errcodGenGeneric_ne : errcodGenGeneric ≠ noError := by decide

/-! ### The other texts

A text that is refused is reported, with the code of the handler. -/

theorem decodeRetMessages_arr {root : Json} {items : List Json}
    (hlist : root.get? (ascii "retMessages") = some (.arr items))
    (hcopy : ∀ item ∈ items, Copyable J item) :
    decodeRetMessages J root = .ok (items.map fun item => retMessageOf J item .zero) := by
  rcases decodeRetMessages_cases J root with
    ⟨hnone, -⟩ | ⟨items', hlist', -, hdecode⟩ | ⟨list, hlist', hbad, -⟩
  · rw [hlist] at hnone
    cases hnone
  · rw [hlist] at hlist'
    cases hlist'
    exact hdecode
  · rw [hlist] at hlist'
    cases hlist'
    exact absurd hcopy (hbad items rfl)

/-- Of the texts that `DISP/M32` refuses, those with a status are taken for a request. -/
theorem refuses_m32_iff {v : Bytes} {sized : Prop} :
    (DispCommand.m32.Refuses J stack v ∧ ¬ DispCommand.m32.Mistakes J v) ↔
      DispCommand.m32.Reports J stack sized v := by
  have hmistakes : DispCommand.m32.Mistakes J v ↔ v ≠ [] ∧ ∃ root first rest,
      jsonTokenerParse J v = .ok root ∧ decodeRetMessages J root = .ok (first :: rest) := by
    simp only [DispCommand.Mistakes, decodeDispM32CommandResponse, Outcome.bind_eq_ok]
    grind
  rw [hmistakes]
  constructor
  · rintro ⟨hnil | ⟨hnul, hrefuses⟩, hnot⟩
    · exact .inl hnil
    · refine .inr ⟨hnul, fun root hroot => ?_⟩
      rcases hrefuses root hroot with hnone | ⟨items, hlist, hcopy, -⟩
      · exact .inl hnone
      · cases items with
        | nil => exact .inr hlist
        | cons item items =>
          -- there is a status, and it is decoded
          have hdecode := decodeRetMessages_arr hlist hcopy
          rw [List.map_cons] at hdecode
          exact absurd ⟨List.ne_nil_of_mem hnul, root, _, _, hroot, hdecode⟩ hnot
  · rintro (hnil | ⟨hnul, hroots⟩)
    · exact ⟨.inl hnil, fun h => h.1 hnil⟩
    · constructor
      · refine .inr ⟨hnul, fun root hroot => ?_⟩
        rcases hroots root hroot with hnone | hempty
        · exact .inl hnone
        · exact .inr ⟨[], hempty, nofun, nofun⟩
      · rintro ⟨-, root, first, rest, hroot, hdecode⟩
        rcases hroots root hroot with hnone | hempty
        · simp [decodeRetMessages, hnone, Outcome.ofOption] at hdecode
        · simp [decodeRetMessages, hempty, Outcome.ofOption, jsonObjectArray] at hdecode

/-- **The texts that are reported as errors**, and for nothing else. -/
theorem DispCommand.reports_iff (c : DispCommand) (request : Arg) (response : Rv) :
    ((∃ code response', c.handle J stack request response = .ok (code, response') ∧
      code ≠ noError) ∧ ¬ c.Mistakes J request.v.items) ↔
      c.Reports J stack (response.v.itemLen ≠ 0) request.v.items := by
  rw [(c.handle_settles stack request response).reports_iff errcodGenGeneric_ne, accepted_and_iff]
  cases c with
  | m31 =>
    show (_ ∨ _ ∧ errcodGenGeneric ≠ noError) ∧ _ ↔ _ ∨ _
    rw [and_iff_left errcodGenGeneric_ne, and_iff_left (fun h => nomatch h.1)]
    rfl
  | m32 =>
    rw [← @refuses_m32_iff J stack]
    refine and_congr_left' (or_iff_left ?_)
    rintro ⟨⟨⟨_, -, hnever⟩, -⟩, -⟩
    exact hnever
  | m40 =>
    show (_ ∨ _ ∧ noError ≠ noError) ∧ _ ↔ _
    rw [and_iff_left (fun h => nomatch h.1), or_iff_left fun h => h.2 rfl]
    rfl
  | m41 =>
    show (_ ∨ _ ∧ errcodGenGeneric ≠ noError) ∧ _ ↔ _ ∨ _
    rw [and_iff_left errcodGenGeneric_ne, and_iff_left (fun h => nomatch h.1)]
    rfl

/-! ### The texts of requests

What the decoder of an answer finds in a request. -/

/-- The decoder finds the identifier of a request of `DISP/M40`, and no status. -/
theorem retMessageOf_encodeDispM40 {req : DispM40CommandRequest} {obj : Json}
    (hobj : encodeDispM40CommandRequest req = some obj) (start : RetMessageObject) :
    Copyable J obj ∧
      retMessageOf J obj start = ⟨start.msgId.strncpy req.msgId.val le_rfl, start.retStatus⟩ := by
  have hmsgId : obj.get? (ascii "msgId") = some (.str req.msgId.val.val) := by
    cases hobj
    rfl
  have hstatus : obj.get? (ascii "retStatus") = none := by
    cases hobj
    split <;> rfl
  have htext : jsonObjectGetString J (.str req.msgId.val.val) = some req.msgId.val := by
    simp [jsonObjectGetString, Json.getString]
  refine ⟨⟨?_, ?_, ?_⟩, ?_⟩
  · intro value hvalue
    rw [hmsgId] at hvalue
    cases hvalue
    rw [htext]
    exact Option.some_ne_none _
  · intro value hvalue
    rw [hstatus] at hvalue
    cases hvalue
  · intro value hvalue
    rw [hstatus] at hvalue
    cases hvalue
  · simp [retMessageOf, copied, retStatusOf, hmsgId, hstatus, htext]

/-- A text that json-c has printed is parsed again. -/
theorem jsonTokenerParse_print (hJ : J.Lawful) {obj : Json} (hobj : obj ≠ .null) {text : Bytes}
    (hprint : J.print obj = some text) : jsonTokenerParse J (text ++ [0]) = .ok obj := by
  rw [jsonTokenerParse, if_pos (by simp), cstr_append_nul (hJ.nul hprint),
    hJ.parse_print hprint]
  cases obj with
  | null => exact absurd rfl hobj
  | _ => rfl

/-- **The requests that are acknowledged.** Only those of `DISP/M40`. -/
theorem DispCommand.acknowledges_iff (hJ : J.Lawful) {c : DispCommand} {request : Arg}
    (hwritten : c.Written J request.v.items) (response : Rv) :
    (∃ response', c.handle J stack request response = .ok (noError, response') ∧
      response'.v.items = ascii "ACK") ↔
      c = .m40 ∧ response.v.itemLen ≠ 0 ∧ stack.m40.retStatus.rea.Terminated := by
  rw [(c.handle_settles stack request response).noError_iff errcodGenGeneric_ne, accepted_and_iff]
  cases c with
  | m40 =>
    obtain ⟨req, obj, text, hcommand, hid, hobj, hprint, hv⟩ := hwritten
    cases req with
    | m40 req =>
      have hnull : obj ≠ .null := by
        cases hobj
        exact nofun
      have hroot := jsonTokenerParse_print hJ hnull hprint
      rw [← hv] at hroot
      obtain ⟨hcopy, hmessage⟩ := retMessageOf_encodeDispM40 (J := J) hobj stack.m40
      have hread := Lib.CharArray.read_strncpy stack.m40.msgId req.msgId.2
      have hblank : ¬ (stack.m40.msgId.strncpy req.msgId.val le_rfl).Blank := fun hblank => by
        rw [hblank.read] at hread
        exact hid (congrArg CString.strlen (Outcome.ok.inj hread)).symm
      have hrefuses : ¬ DispCommand.m40.Refuses J stack request.v.items := by
        rintro (hnil | ⟨-, hrefuses⟩)
        · rw [hv] at hnil
          exact absurd hnil (List.append_ne_nil_of_right_ne_nil _ (List.cons_ne_nil _ _))
        · have h := (hrefuses obj hroot).2
          rw [hmessage] at h
          exact hblank h
      have haccepts : Accepted J request.v.items (DispCommand.m40.AcceptsRoot J stack) ↔
          stack.m40.retStatus.rea.Terminated := by
        constructor
        · rintro ⟨root, hroot', -, hshown⟩
          rw [hroot] at hroot'
          cases hroot'
          rw [hmessage] at hshown
          exact hshown.2
        · intro hrea
          refine ⟨obj, hroot, hcopy, ?_⟩
          rw [hmessage]
          exact ⟨(Lib.CharArray.terminated_strncpy _).mpr req.msgId.2, hrea⟩
      have hfinish : (DispCommand.m40.finish response.acked).1 = noError ∧
          (DispCommand.m40.finish response.acked).2.v.items = ascii "ACK" := ⟨rfl, rfl⟩
      rw [and_iff_right hrefuses, haccepts, and_iff_left hfinish, and_iff_right rfl, and_comm]
    | _ => cases hcommand
  | _ =>
    refine iff_of_false (fun h => ?_) (fun h => nomatch h.1)
    exact errcodGenGeneric_ne h.2.2.1

/-- **The agreement of the encoders and the handlers.** It holds of no request but those of
`DISP/M40`, whose return value is written if its items have a size, and whose status, which
nothing sets, is printed if the stack ends its text. -/
theorem handle_agrees_iff (hJ : J.Lawful) (c : DispCommand) (stack : DispStack) (request : Arg)
    (response : Rv) :
    Agrees J stack c request response ↔
      (c.Written J request.v.items →
        c = .m40 ∧ response.v.itemLen ≠ 0 ∧ stack.m40.retStatus.rea.Terminated) ∧
      (¬ c.Written J request.v.items →
        c.Reports J stack (response.v.itemLen ≠ 0) request.v.items) := by
  constructor
  · intro h
    exact ⟨fun hwritten => (DispCommand.acknowledges_iff hJ hwritten response).mp
      (h.written hwritten), fun hother => (c.reports_iff request response).mp (h.other hother)⟩
  · rintro ⟨hwritten, hother⟩
    exact ⟨fun h => (DispCommand.acknowledges_iff hJ h response).mpr (hwritten h),
      fun h => (c.reports_iff request response).mpr (hother h)⟩

/-! ### Requests to show a message

A request of `M40` that is accepted, and one of `M31` that is not. -/

/-- An identifier that fits. -/
def welcome : Buffer 64 := ⟨⟨ascii "welcome", by decide⟩, by decide⟩

theorem pos16 : 0 < 16 := by decide

theorem pos256 : 0 < 256 := by decide

/-- A text that fits everywhere. -/
def noText {n : Nat} (h : 0 < n) : Buffer n := ⟨⟨[], nul_not_mem_nil⟩, h⟩

/-- `DISP/M31`, with one message. -/
def welcomeMessage : DispM31CommandRequest := ⟨[⟨welcome, 1, []⟩]⟩

/-- `DISP/M40`, for the same message. -/
def welcomeDisplay : DispM40CommandRequest :=
  ⟨welcome, noText pos16, 0, 0, 1, noText pos256⟩

/-- json-c for the two. -/
def welcomeLib : JsonLib :=
  .ofValues ((encodeDispM31CommandRequest welcomeMessage).toList ++
    (encodeDispM40CommandRequest welcomeDisplay).toList)

theorem welcomeLib_lawful : welcomeLib.Lawful := by
  refine JsonLib.ofTable_lawful ?_ ?_
  · decide
  · decide

/-- The text of a value, with its NUL, as an argument. -/
def welcomeArg (obj : Json) : Arg := (none, none, none, ⟨obj.toText ++ [0], 1⟩, ())

/-- A return value whose items have a size. -/
def welcomeRv : Rv := (none, none, ⟨[], 1⟩, (0 : Nat), ())

/-- The request for the display agrees: its return value is `"ACK"`. -/
theorem agrees_welcomeDisplay :
    ∃ obj, encodeDispM40CommandRequest welcomeDisplay = some obj ∧
      Agrees welcomeLib ⟨.zero, .zero⟩ .m40 (welcomeArg obj) welcomeRv := by
  refine ⟨_, rfl, (handle_agrees_iff welcomeLib_lawful _ _ _ _).mpr ⟨fun _ => ⟨rfl, ?_, ?_⟩,
    fun hother => absurd ⟨.m40 welcomeDisplay, _, _, rfl, ?_, rfl, ?_, rfl⟩ hother⟩⟩
  · exact Nat.one_ne_zero
  · exact List.mem_replicate.mpr ⟨by decide, rfl⟩
  · show welcome.val.strlen ≠ 0
    decide
  · decide

/-- The request for the message does not: its handler looks for the members of an answer. -/
theorem not_agrees_welcomeMessage :
    welcomeLib.Lawful ∧ ∃ obj, encodeDispM31CommandRequest welcomeMessage = some obj ∧
      DispCommand.m31.Written welcomeLib (welcomeArg obj).v.items ∧
      ¬ Agrees welcomeLib ⟨.zero, .zero⟩ .m31 (welcomeArg obj) welcomeRv := by
  have hwritten : ∀ obj, encodeDispM31CommandRequest welcomeMessage = some obj →
      DispCommand.m31.Written welcomeLib (welcomeArg obj).v.items := by
    rintro _ ⟨⟩
    refine ⟨.m31 welcomeMessage, _, _, rfl, ?_, rfl, ?_, rfl⟩
    · intro msg hmsg
      obtain rfl := List.mem_singleton.mp hmsg
      show welcome.val.strlen ≠ 0
      decide
    · decide
  refine ⟨welcomeLib_lawful, _, rfl, hwritten _ rfl, fun h => ?_⟩
  have hack := (DispCommand.acknowledges_iff welcomeLib_lawful (hwritten _ rfl) welcomeRv).mp
    (h.written (hwritten _ rfl))
  cases hack.1

end Agreement

end RsmpGateway.Rsmp
