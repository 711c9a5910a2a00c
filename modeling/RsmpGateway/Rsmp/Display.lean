import RsmpGateway.Lib.CString
import RsmpGateway.Rsmp.Command

/-!
# The DISP commands

Each handler reads the value of its argument as a JSON text, with the decoder of an answer, and
writes `"ACK"` or an age to the return value. What a handler does that C leaves undefined is a
fault: a text without NUL, a null string that is copied, a write out of the allocated items.

The functions are translated in the order of the source: json-c, the decoders, the handlers, and
their registration as commands. What they come to is in `Rsmp/Handlers.lean`. The decoders here
have the members that a handler looks at, or that a decoder may go wrong on.
-/

namespace RsmpGateway.Rsmp

open RsmpGateway.Lib RsmpGateway.Auth RsmpGateway.Coder

namespace Arg

/-- `v` -/
def v (arg : Arg) : CharArray := arg.2.2.2.1

end Arg

namespace Rv

/-- `v` -/
def v (rv : Rv) : CharArray := rv.2.2.1

/-- `age` -/
def age (rv : Rv) : Nat := rv.2.2.2.1

def setV : Rv → CharArray → Rv
  | (cCI, n, _, age), v => (cCI, n, v, age)

/-- `response->age = _rsmp_age_no_` -/
def setAgeNo : Rv → Rv
  | (cCI, n, v, _) => (cCI, n, v, (4 : Nat), ())

end Rv

/-! ## json-c

`json_tokener_parse` of an array without NUL reads beyond it. -/

section Decoders

variable (J : JsonLib)

/-- `json_tokener_parse`, which looks for the end of the text first. The JSON `null` is a null
pointer too. -/
def jsonTokenerParse (jsonStr : Bytes) : Outcome Json :=
  if (0 : UInt8) ∈ jsonStr then
    match J.parse (cstr jsonStr) with
    | none => .err
    | some .null => .err
    | some root => .ok root
  else .fault

/-- `json_object_array_length`, which asserts that it is given an array, and the elements. -/
def jsonObjectArray : Json → Outcome (List Json)
  | .arr items => .ok items
  | _ => .fault

/-- `json_object_get_string` -/
def jsonObjectGetString (obj : Json) : Option CString := (obj.getString J).map .ofBytes

/-- `json_object_object_get_ex`, and `strncpy` to the array of a member that is there. -/
def copyMember {n k : Nat} (hk : k ≤ n) (obj : Json) (key : Bytes) (a : Lib.CharArray n) :
    Outcome (Lib.CharArray n) :=
  match obj.get? key with
  | none => .ok a
  | some value =>
    match jsonObjectGetString J value with
    | none => .fault
    | some s => .ok (a.strncpy s hk)

/-! ## Decoders

A decoder takes the structure that it fills, since it leaves what is not in the text. -/

/-- `RetStatusObject` -/
structure RetStatusObject where
  code : Lib.CharArray 32
  rea : Lib.CharArray 256

/-- `RetMessageObject`. With members that nothing reads, it is a `DispM40CommandResponse` and a
`DispM41CommandResponse` too. -/
structure RetMessageObject where
  msgId : Lib.CharArray 64
  retStatus : RetStatusObject

/-- As `calloc` leaves it. -/
def RetMessageObject.zero : RetMessageObject := ⟨.zero, .zero, .zero⟩

/-- The member `retStatus`. -/
def decodeRetStatus (obj : Json) (res : RetStatusObject) : Outcome RetStatusObject :=
  match obj.get? (ascii "retStatus") with
  | none => .ok res
  | some retStatus => do
    let code ← copyMember J le_rfl retStatus (ascii "code") res.code
    let rea ← copyMember J le_rfl retStatus (ascii "rea") res.rea
    return ⟨code, rea⟩

/-- The members `msgId` and `retStatus`. -/
def decodeRetMessage (obj : Json) (res : RetMessageObject) : Outcome RetMessageObject := do
  let msgId ← copyMember J le_rfl obj (ascii "msgId") res.msgId
  let retStatus ← decodeRetStatus J obj res.retStatus
  return ⟨msgId, retStatus⟩

/-- The member `retMessages`. -/
def decodeRetMessages (root : Json) : Outcome (List RetMessageObject) := do
  let retMessages ← Outcome.ofOption (root.get? (ascii "retMessages"))
  let items ← jsonObjectArray retMessages
  items.mapM fun item => decodeRetMessage J item .zero

/-- `decode_disp_m31_command_response` -/
def decodeDispM31CommandResponse (jsonStr : Bytes) : Outcome (List RetMessageObject) := do
  let root ← jsonTokenerParse J jsonStr
  decodeRetMessages J root

/-- `decode_disp_m32_command_response` -/
def decodeDispM32CommandResponse (jsonStr : Bytes) : Outcome (List RetMessageObject) := do
  let root ← jsonTokenerParse J jsonStr
  decodeRetMessages J root

/-- `decode_disp_m40_command_response` -/
def decodeDispM40CommandResponse (jsonStr : Bytes) (res : RetMessageObject) :
    Outcome RetMessageObject := do
  let root ← jsonTokenerParse J jsonStr
  decodeRetMessage J root res

/-- `decode_disp_m41_command_response` -/
def decodeDispM41CommandResponse (jsonStr : Bytes) (res : RetMessageObject) :
    Outcome RetMessageObject := do
  let root ← jsonTokenerParse J jsonStr
  decodeRetMessage J root res

/-- `DispS10StatusResponse`, its texts. -/
structure DispS10StatusResponse where
  displayType : Lib.CharArray 32
  templateType : Lib.CharArray 32

/-- The members `displayType` and `templateType`. -/
def decodeTypes (root : Json) : Outcome DispS10StatusResponse := do
  let displayType ← copyMember J (show 31 ≤ 32 by decide) root (ascii "displayType") .zero
  let templateType ← copyMember J (show 31 ≤ 32 by decide) root (ascii "templateType") .zero
  return ⟨displayType, templateType⟩

/-- `decode_disp_s10_status_response` -/
def decodeDispS10StatusResponse (jsonStr : Bytes) : Outcome DispS10StatusResponse := do
  let root ← jsonTokenerParse J jsonStr
  decodeTypes J root

/-- A `ZoneObject`, of which nothing is read. -/
def decodeZone (zone : Json) : Outcome Unit := do
  let _ ← copyMember J (show 31 ≤ 32 by decide) zone (ascii "zoneId") .zero
  let _ ← copyMember J (show 31 ≤ 32 by decide) zone (ascii "zoneType") .zero
  return ()

/-- A `TemplateObject`: `templateId` -/
def decodeTemplate (template : Json) : Outcome (Lib.CharArray 64) := do
  let templateId ← copyMember J (show 63 ≤ 64 by decide) template (ascii "templateId") .zero
  match template.get? (ascii "zones") with
  | some (.arr zones) => do
    let _ ← zones.mapM (decodeZone J)
    return templateId
  | _ => return templateId

/-- The member `templates`. -/
def decodeTemplates (root : Json) : Outcome (List (Lib.CharArray 64)) :=
  match root.get? (ascii "templates") with
  | some (.arr templates) => templates.mapM (decodeTemplate J)
  | _ => .err

/-- `decode_disp_s20_status_response` -/
def decodeDispS20StatusResponse (jsonStr : Bytes) : Outcome (List (Lib.CharArray 64)) := do
  let root ← jsonTokenerParse J jsonStr
  decodeTemplates J root

/-- A copy of a text. -/
def strdupText (item : Json) : Outcome CString :=
  match jsonObjectGetString J item with
  | none => .fault
  | some str => .ok str

/-- The member `msgIdList`. -/
def decodeMsgIdList (root : Json) : Outcome (List CString) := do
  let list ← Outcome.ofOption (root.get? (ascii "msgIdList"))
  let items ← jsonObjectArray list
  items.mapM (strdupText J)

/-- `decode_disp_s30_status_response` -/
def decodeDispS30StatusResponse (jsonStr : Bytes) : Outcome (List CString) := do
  let root ← jsonTokenerParse J jsonStr
  decodeMsgIdList J root

/-- A `DisplayPoolElementObject`: `msgId` -/
def decodeDisplayPoolElement (elem : Json) : Outcome (Lib.CharArray 64) := do
  let msgId ← copyMember J le_rfl elem (ascii "msgId") .zero
  let _ ← copyMember J le_rfl elem (ascii "dynamicData") (.zero : Lib.CharArray 128)
  return msgId

/-- The member `displayPoolList`. -/
def decodeDisplayPool (root : Json) : Outcome (List (Lib.CharArray 64)) := do
  let list ← Outcome.ofOption (root.get? (ascii "displayPoolList"))
  let items ← jsonObjectArray list
  items.mapM (decodeDisplayPoolElement J)

/-- `decode_disp_s40_status_response` -/
def decodeDispS40StatusResponse (jsonStr : Bytes) : Outcome (List (Lib.CharArray 64)) := do
  let root ← jsonTokenerParse J jsonStr
  decodeDisplayPool J root

/-! ## Handlers

All have one form: the text is decoded, and a function of what was decoded answers. -/

/-- `rsmp_array_char_from_str_len`, as `__rsmp_field_v_decode` uses it. -/
def rsmpArrayCharFromStrLen (array : CharArray) (str : Bytes) : Outcome CharArray :=
  if str.length * array.itemLen < str.length then .fault else .ok { array with items := str }

/-- What a handler does with the result of its decoder: the return value stays if there is none. -/
def handleParsed {α : Type} (refusal : Int) (response : Rv) (handle : α → Outcome (Int × Rv)) :
    Outcome α → Outcome (Int × Rv)
  | .fault => .fault
  | .err => .ok (refusal, response)
  | .ok parsed => handle parsed

/-- How each handler begins. The return value stays for an argument without value too. -/
def handleDecoded {α : Type} (decode : Bytes → Outcome α) (refusal : Int) (request : Arg)
    (response : Rv) (handle : α → Outcome (Int × Rv)) : Outcome (Int × Rv) :=
  if request.v.items = [] then .ok (refusal, response)
  else handleParsed refusal response handle (decode request.v.items)

/-- What three of them do next: a status that has an identifier is printed, and the return value
is `"ACK"`. `finish` is the rest. -/
def acknowledge (parsed : RetMessageObject) (response : Rv) (finish : Rv → Int × Rv) :
    Outcome (Int × Rv) := do
  let msgId ← parsed.msgId.read
  if msgId.strlen = 0 then return (errcodGenGeneric, response)
  else do
    let _ ← parsed.retStatus.rea.read
    let array ← rsmpArrayCharFromStrLen response.v (ascii "ACK")
    return finish (response.setV array)

/-- `handle_disp_m31`. The element at 0 is read of an empty list too. The array that
`rsmp_array_char_set` returns, with its first character written again, is not 0. -/
def handleDispM31 (request : Arg) (response : Rv) : Outcome (Int × Rv) :=
  handleDecoded (decodeDispM31CommandResponse J) errcodGenGeneric request response fun parsed =>
    match parsed with
    | [] => .fault
    | first :: _ => acknowledge first response fun response => (errcodGenGeneric, response)

/-- `handle_disp_m32`. `parsed` is a request, whose `msgIdList` is the list of statuses that the
decoder has put there: the address of the first identifier is made of the first bytes of the
first status. -/
def handleDispM32 (request : Arg) (response : Rv) : Outcome (Int × Rv) :=
  handleDecoded (decodeDispM32CommandResponse J) errcodGenGeneric request response fun parsed =>
    match parsed with
    | [] => .ok (errcodGenGeneric, response)
    | first :: _ =>
      if first.msgId.val.take 8 = List.replicate 8 0 then .ok (errcodGenGeneric, response)
      else .fault

/-- `handle_disp_m40`. `stack` is what is found where `parsed` is declared. -/
def handleDispM40 (stack : RetMessageObject) (request : Arg) (response : Rv) :
    Outcome (Int × Rv) :=
  handleDecoded (fun jsonStr => decodeDispM40CommandResponse J jsonStr stack) errcodGenGeneric
    request response fun parsed =>
      acknowledge parsed response fun response => (noError, response.setAgeNo)

/-- `handle_disp_m41`, which tests what `rsmp_array_char_set` returns as `handle_disp_m31`. -/
def handleDispM41 (stack : RetMessageObject) (request : Arg) (response : Rv) :
    Outcome (Int × Rv) :=
  handleDecoded (fun jsonStr => decodeDispM41CommandResponse J jsonStr stack) errcodGenGeneric
    request response fun parsed =>
      acknowledge parsed response fun response => (errcodGenGeneric, response)

/-- What `handle_disp_s10` does with the types: they are printed, unless there is none. -/
def showTypes (parsed : DispS10StatusResponse) (response : Rv) : Outcome (Int × Rv) := do
  let displayType ← parsed.displayType.read
  if displayType.strlen = 0 then return (errcodGenGeneric, response)
  else do
    let _ ← parsed.templateType.read
    return (noError, response.setAgeNo)

/-- `handle_disp_s10` -/
def handleDispS10 (request : Arg) (response : Rv) : Outcome (Int × Rv) :=
  handleDecoded (decodeDispS10StatusResponse J) errcodGenGeneric request response fun parsed =>
    showTypes parsed response

/-- What two of them do with the texts of a list: these are printed, unless there is none. -/
def showList (texts : List (Lib.CharArray 64)) (response : Rv) : Outcome (Int × Rv) :=
  if texts = [] then .ok (errcodGenGeneric, response)
  else do
    let _ ← texts.mapM fun text => text.read
    return (noError, response.setAgeNo)

/-- `handle_disp_s20` -/
def handleDispS20 (request : Arg) (response : Rv) : Outcome (Int × Rv) :=
  handleDecoded (decodeDispS20StatusResponse J) errcodGenGeneric request response fun templates =>
    showList templates response

/-- `handle_disp_s30`. `rsmp_array_char_new` reads the size of an item through a pointer that
points anywhere yet. -/
def handleDispS30 (request : Arg) (response : Rv) : Outcome (Int × Rv) :=
  handleDecoded (decodeDispS30StatusResponse J) noError request response fun msgIdList =>
    if msgIdList = [] then .ok (noError, response) else .fault

/-- `handle_disp_s40` -/
def handleDispS40 (request : Arg) (response : Rv) : Outcome (Int × Rv) :=
  handleDecoded (decodeDispS40StatusResponse J) errcodGenGeneric request response fun elems =>
    showList elems response

end Decoders

/-! ## Registration

The eight codes. A handler that is called finds a content of the stack, which is another one at
each call. -/

/-- What `register_disp_command_handlers` adds. -/
inductive DispCommand
  | m31
  | m32
  | m40
  | m41
  deriving Repr, DecidableEq

/-- What `register_disp_status_handlers` adds, as commands too. -/
inductive DispStatus
  | s10
  | s20
  | s30
  | s40
  deriving Repr, DecidableEq

def DispCommand.code : DispCommand → Bytes
  | m31 => ascii "DISP/M31"
  | m32 => ascii "DISP/M32"
  | m40 => ascii "DISP/M40"
  | m41 => ascii "DISP/M41"

def DispStatus.code : DispStatus → Bytes
  | s10 => ascii "DISP/S10"
  | s20 => ascii "DISP/S20"
  | s30 => ascii "DISP/S30"
  | s40 => ascii "DISP/S40"

/-- What the stack holds where `handle_disp_m40` and `handle_disp_m41` declare `parsed`. -/
structure DispStack where
  m40 : RetMessageObject
  m41 : RetMessageObject

def DispCommand.handle (J : JsonLib) (stack : DispStack) :
    DispCommand → Arg → Rv → Outcome (Int × Rv)
  | m31 => handleDispM31 J
  | m32 => handleDispM32 J
  | m40 => handleDispM40 J stack.m40
  | m41 => handleDispM41 J stack.m41

def DispStatus.handle (J : JsonLib) : DispStatus → Arg → Rv → Outcome (Int × Rv)
  | s10 => handleDispS10 J
  | s20 => handleDispS20 J
  | s30 => handleDispS30 J
  | s40 => handleDispS40 J

/-- What `register_disp_handlers` adds. -/
inductive DispCode
  | command (c : DispCommand)
  | status (c : DispStatus)
  deriving Repr, DecidableEq

namespace DispCode

def code : DispCode → Bytes
  | command c => c.code
  | status c => c.code

def handle (J : JsonLib) (stack : DispStack) : DispCode → Arg → Rv → Outcome (Int × Rv)
  | command c => c.handle J stack
  | status c => c.handle J

def all : List DispCode :=
  [command .m31, command .m32, command .m40, command .m41,
    status .s10, status .s20, status .s30, status .s40]

end DispCode

/-- The state of the engine, what the handlers to come find on the stack, and whether a handler has
done what C leaves undefined. -/
structure Host (τ : Type) where
  engine : τ
  stackAt : Nat → DispStack
  wrong : Bool

/-- The host after a call. The next one finds something else on the stack. -/
def Host.called {τ : Type} (host : Host τ) : Host τ :=
  { host with stackAt := fun i => host.stackAt (i + 1) }

/-- The handler as it is called. Nothing is known of what comes out of a fault. -/
def DispCode.callback {τ : Type} (J : JsonLib) (c : DispCode) : SxlCallback (Host τ) :=
  fun arg rv host =>
    match c.handle J (host.stackAt 0) arg rv with
    | .ok r => (r, host.called)
    | _ => ((errcodGenGeneric, rv), { host.called with wrong := true })

/-- `register_disp_handlers` -/
def registerDispHandlers (τ : Type) (J : JsonLib) : SxlRegistry (Host τ) :=
  fun cCI => (DispCode.all.find? fun c => cCI.val = c.code).map fun c => some (c.callback J)

end RsmpGateway.Rsmp
