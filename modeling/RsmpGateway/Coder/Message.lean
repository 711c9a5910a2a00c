import RsmpGateway.Auth.Pwd
import RsmpGateway.Coder.Ptxt
import RsmpGateway.Lib.CString

/-!
# Internal messages

`messageCheckFields`, `serializeMessage` and `deserializeMessage`, for the six types of messages
that two gateways exchange for themselves. An identifier is kept in an array of `UUID_STR_LEN`
characters, to which the decoder copies what it reads; the other texts are on the heap and may be
null.

The same check of the fields is made by the encoder before it writes and by the decoder once it
has read. An access that C leaves undefined (a character in front of a text, a copy that is
longer than its array) is a fault. When the decoder makes one, and what it reads back, is in
`Coder/Codec.lean`.
-/

namespace RsmpGateway.Coder

open RsmpGateway.Lib RsmpGateway.Auth

/-- `UUID_STR_LEN` -/
def uuidStrLen : Nat := 37

/-- `MessageType` -/
inductive MessageType
  | encrypted
  | allClear
  | changePwdRequest
  | changePwdResponse
  | ping
  | pong
  deriving Repr, DecidableEq

/-- The name of a type in a message. -/
def MessageType.text : MessageType → Bytes
  | encrypted => ascii "Encrypted"
  | allClear => ascii "AllClear"
  | changePwdRequest => ascii "ChangePwdRequest"
  | changePwdResponse => ascii "ChangePwdResponse"
  | ping => ascii "Ping"
  | pong => ascii "Pong"

/-- `MessageFields`, with `messageType`. A pointer may be null; no `data` stands for a null
one too. -/
inductive MessageFields
  | encrypted (sId login : Option CString) (data : List (Option CString))
  | allClear
  | changePwdRequest (pwd : Option CString)
  | changePwdResponse (status : Bool) (oMId : CharArray uuidStrLen)
  | ping (padding : Option CString)
  | pong (oMId : CharArray uuidStrLen) (padding : Option CString)
  deriving DecidableEq

/-- `messageType` -/
def MessageFields.messageType : MessageFields → MessageType
  | encrypted .. => .encrypted
  | allClear => .allClear
  | changePwdRequest _ => .changePwdRequest
  | changePwdResponse .. => .changePwdResponse
  | ping _ => .ping
  | pong .. => .pong

/-- `Message` -/
structure Message where
  mId : CharArray uuidStrLen
  fields : MessageFields
  deriving DecidableEq

/-! ## Checks

A field is checked for being there, and a password for its length once decoded, which is computed
in an `int` from that of its text. -/

/-- A pointer that is neither null nor to an empty string. -/
def nonEmpty (p : Option CString) : Outcome CString :=
  match p with
  | some s => if s.strlen = 0 then .err else .ok s
  | none => .err

/-- An array whose string is not empty. -/
def nonEmptyArray (a : CharArray uuidStrLen) : Outcome Unit := do
  let s ← a.read
  if s.strlen = 0 then .err else .ok ()

/-- `base64_length` and the `int` computed of it, which wraps. -/
def toInt (n : Int) : Int := n.bmod (2 ^ 32)

/-- `original_length` -/
def originalLength (pwd : CString) : Outcome Int := do
  let base64Length := toInt pwd.strlen
  let bytes := (toInt (base64Length * 3)).tdiv 4
  let last ← pwd.charAt (base64Length - 1)
  if last = 0x3D then do
    let before ← pwd.charAt (base64Length - 2)
    return bytes - if before = 0x3D then 2 else 1
  else return bytes

/-- The switch of `messageCheckFields`. A short password is only logged. -/
def fieldsCheck : MessageFields → Outcome Unit
  | .encrypted sId _ data => do
    let _ ← nonEmpty sId
    if data = [] then .err
    else do
      let _ ← data.mapM nonEmpty
      return ()
  | .allClear => .ok ()
  | .changePwdRequest pwd => do
    let pwd ← nonEmpty pwd
    let length ← originalLength pwd
    if authPwdLenMax ≤ length then .err else .ok ()
  | .changePwdResponse _ oMId => nonEmptyArray oMId
  | .ping padding => do
    let _ ← nonEmpty padding
    return ()
  | .pong oMId padding => do
    let _ ← nonEmpty padding
    nonEmptyArray oMId

/-- `messageCheckFields` -/
def messageCheckFields (msg : Message) : Outcome Unit := do
  let mId ← msg.mId.read
  if mId.strlen ≠ uuidStrLen - 1 then .err else fieldsCheck msg.fields

/-! ## Encoding

The members are added in the order of the source. A null text is a null member. -/

/-- `json_object_new_string`, which a null pointer stops. -/
def jsonNewString (p : Option CString) : Outcome Json :=
  match p with
  | some s => .ok (.str s.val)
  | none => .fault

/-- The members that `serializeMessage` adds after the type. -/
def messageMembers : MessageFields → Outcome (List (Bytes × Json))
  | .encrypted sId login data => do
    let sId ← jsonNewString sId
    let data ← data.mapM jsonNewString
    let login ← jsonNewString login
    return [(ascii "sId", sId), (ascii "data", .arr data), (ascii "login", login)]
  | .allClear => .ok []
  | .changePwdRequest pwd => do
    let pwd ← jsonNewString pwd
    return [(ascii "pwd", pwd)]
  | .changePwdResponse status oMId => do
    let oMId ← oMId.read
    return [(ascii "oMId", .str oMId.val), (ascii "status", .bool status)]
  | .ping padding => do
    let pad ← jsonNewString padding
    return [(ascii "pad", pad)]
  | .pong oMId padding => do
    let pad ← jsonNewString padding
    let oMId ← oMId.read
    return [(ascii "pad", pad), (ascii "oMId", .str oMId.val)]

/-- An object with the members of every message, and those of its type. -/
def messageObject (mId : CString) (type : MessageType) (members : List (Bytes × Json)) : Json :=
  .obj ((ascii "mType", .str (ascii "eRMsg")) :: (ascii "mId", .str mId.val) ::
    (ascii "type", .str type.text) :: members)

/-- The object that `serializeMessage` makes of a message that it has checked. -/
def messageJson (msg : Message) : Outcome Json := do
  messageCheckFields msg
  let mId ← msg.mId.read
  let members ← messageMembers msg.fields
  return messageObject mId msg.fields.messageType members

variable (J : JsonLib)

/-- `serializeMessage` -/
def serializeMessage (msg : Message) : Outcome Bytes := do
  let j ← messageJson msg
  Outcome.ofOption (J.print j)

/-! ## Decoding

The header first, then the fields of the type. A member of another type is treated as one that is
missing. -/

/-- A member that is a string, as a C string. -/
def stringMember (j : Json) (key : Bytes) : Outcome CString :=
  Outcome.ofOption (((j.get? key).bind Json.str?).map CString.ofBytes)

/-- A member that is a boolean. -/
def boolMember (j : Json) (key : Bytes) : Outcome Bool :=
  match j.get? key with
  | some (.bool b) => .ok b
  | _ => .err

/-- The types that `deserializeMessage` knows: all but `Encrypted`. -/
def messageTypeOf (type : CString) : Outcome MessageType :=
  Outcome.ofOption ([.allClear, .changePwdRequest, .changePwdResponse, .ping, .pong].find?
    fun t => type.val = t.text)

/-- What `deserializeMessage` reads first: the identifier, copied, and the type. -/
def messageHeader (j : Json) : Outcome (CharArray uuidStrLen × MessageType) := do
  let mType ← stringMember j (ascii "mType")
  if mType.val ≠ ascii "eRMsg" then .err
  else do
    let mId ← stringMember j (ascii "mId")
    if mId.strlen ≠ uuidStrLen - 1 then .err
    else do
      let mId ← CharArray.zero.strcpy mId
      let type ← stringMember j (ascii "type")
      let type ← messageTypeOf type
      return (mId, type)

/-- The switch of `deserializeMessage`. The pad of a `Pong` is read before its `oMId`, and the
`oMId` of a `ChangePwdResponse` is copied before its status is looked for. -/
def messageFields (j : Json) : MessageType → Outcome MessageFields
  | .encrypted => .ok (.encrypted none none [])
  | .allClear => .ok .allClear
  | .changePwdRequest => do
    let pwd ← stringMember j (ascii "pwd")
    return .changePwdRequest (some pwd)
  | .changePwdResponse => do
    let oMId ← stringMember j (ascii "oMId")
    let oMId ← CharArray.zero.strcpy oMId
    let status ← boolMember j (ascii "status")
    return .changePwdResponse status oMId
  | .ping => do
    let pad ← stringMember j (ascii "pad")
    return .ping (some pad)
  | .pong => do
    let pad ← stringMember j (ascii "pad")
    let oMId ← stringMember j (ascii "oMId")
    let oMId ← CharArray.zero.strcpy oMId
    return .pong oMId (some pad)

/-- `deserializeMessage` -/
def deserializeMessage (payload : Bytes) : Outcome Message := do
  let j ← Outcome.ofOption (J.parse payload)
  let (mId, type) ← messageHeader j
  let fields ← messageFields j type
  messageCheckFields ⟨mId, fields⟩
  return ⟨mId, fields⟩

end RsmpGateway.Coder
