import RsmpGateway.Coder.Ptxt
import RsmpGateway.Rsmp.Message

/-!
# The JSON of RSMP messages

`rsmp_json_msg2payload` and `rsmp_json_payload2msg`. Both walk the description of the message:
one adds a member for each field, the other asks for the member of each field. A message whose
decoding fails is freed, and its pointer is returned all the same.

The result of a decoding says which of the four things has happened (`Decoded`): a null pointer,
a message, the pointer of a message that was freed, or the end of the process. The text of a
message is changed once more where it contains `"Version"`.
-/

namespace RsmpGateway.Rsmp

open RsmpGateway.Lib RsmpGateway.Auth RsmpGateway.Coder

variable (X : RsmpExt)

/-! ## Encoding

The members are added in the order of the description. The text is printed, searched, and printed
again. -/

/-- `json_object_from_var` -/
def jsonObjectFromVar : Var → Option Json
  | .bool b => some (.bool b)
  | .string t => some (.str (t.getD []))
  | .other => none

/-- `json_add_fields`, with `json_add_field`, `json_add_array` and `json_add_table`. -/
def Fields.jsonAddFields :
    (fs : Fields) → fs.Msg → List (Bytes × Json) → Option (List (Bytes × Json))
  | nil, _, jobj => some jobj
  | field lib codec rest, (x, msg), jobj => do
    let value ← jsonObjectFromVar (codec.encode X x)
    rest.jsonAddFields msg (Json.addMember jobj lib value)
  | array lib elems rest, (items, msg), jobj => do
    let jitems ← items.mapM fun item => (elems.jsonAddFields item []).map Json.obj
    rest.jsonAddFields msg (Json.addMember jobj lib (.arr jitems))
  | table lib codec rest, (items, msg), jobj => do
    let jitems ← items.mapM fun item => jsonObjectFromVar (codec.encode X item)
    rest.jsonAddFields msg (Json.addMember jobj lib (.arr jitems))

/-- `eSXLG_def` -/
def eSXLGDef : List (Bytes × Bytes) :=
  [(ascii "GEN", ascii "1.0.0"), (ascii "SLT", ascii "0.5.2"), (ascii "IO", ascii "0.3.0"),
    (ascii "VAR", ascii "0.1.0")]

/-- The object with its member `SXLG`. -/
def withESXLG : Json → Json
  | .obj members =>
    .obj (Json.addMember members (ascii "SXLG") (.arr (eSXLGDef.map fun e =>
      .obj [(ascii "sg", .str e.1), (ascii "vers", .str e.2)])))
  | j => j

/-- `add_eSXLG_to_json`. A text that json-c does not print is copied all the same. -/
def addESXLGToJson (text : Bytes) : Except Stop (Option Bytes) :=
  match X.json.parse text with
  | none => .ok none
  | some root =>
    match X.json.print (withESXLG root) with
    | none => .error .nullString
    | some text => .ok (some text)

/-- `rsmp_json_msg2payload` -/
def rsmpJsonMsg2payload (msg : Message) : Except Stop (Option Bytes) :=
  match msg.1.desc?, msg.1.desc.jsonAddFields X msg.2 [] with
  | some _, some members =>
    match X.json.print (.obj members) with
    | none => .ok none
    | some text =>
      if strstr text (ascii "\"Version\"") then do
        let updated ← addESXLGToJson X text
        return some (updated.getD text)
      else .ok (some text)
  | _, _ => .ok none

/-! ## Decoding

The type is checked first, then a message is made and its fields are extracted one after the
other. -/

/-- `rsmp_json_object_get`: no pointer, for a member that is missing or `null`. -/
def rsmpJsonObjectGet (jobj : Json) (key : Bytes) : Option Json :=
  match jobj.get? key with
  | some .null => none
  | value => value

/-- `rsmp_json_mType_check` -/
def rsmpJsonMTypeCheck (jobj : Json) : Bool :=
  match rsmpJsonObjectGet jobj (ascii "mType") with
  | some (.str value) => mTypeCheck value
  | _ => false

/-- `rsmp_json_extract_type` -/
def rsmpJsonExtractType (jobj : Json) : Option MsgType :=
  match rsmpJsonObjectGet jobj (ascii "type") with
  | some (.str value) => rsmpTypeFromString value
  | _ => none

/-- `json2vars` -/
def json2vars : Json → Option Var
  | .obj _ => none
  | .arr _ => none
  | .bool b => some (.bool b)
  | .str s => some (.string (some s))
  | _ => some .other

/-- `json_extract_field` -/
def jsonExtractField (codec : Codec) (obj : Json) (x : codec.Ty) : Except Stop codec.Ty :=
  match json2vars obj with
  | some var => codec.decode X var x
  | none => .error .error

/-- `json_extract_fields`, with `json_extract_array` and `json_extract_table`. json-c has no
length for what is no array; it reads no text of 2^31 bytes, so that a length is an `int`. -/
def Fields.jsonExtractFields : (fs : Fields) → Json → fs.Msg → Except Stop fs.Msg
  | nil, _, msg => .ok msg
  | field lib codec rest, jobj, (x, msg) =>
    match rsmpJsonObjectGet jobj lib with
    | none => .error .error
    | some obj => do
      let x ← jsonExtractField X codec obj x
      let msg ← rest.jsonExtractFields jobj msg
      return (x, msg)
  | array lib elems rest, jobj, (_, msg) =>
    match rsmpJsonObjectGet jobj lib with
    | none => .error .error
    | some (.arr values) => do
      let items ← values.mapM fun value => elems.jsonExtractFields value elems.zero
      let msg ← rest.jsonExtractFields jobj msg
      return (items, msg)
    | some _ => .error .notArray
  | table lib codec rest, jobj, (_, msg) =>
    match rsmpJsonObjectGet jobj lib with
    | none => .error .error
    | some (.arr values) => do
      let items ← values.mapM fun value => jsonExtractField X codec value codec.zero
      let msg ← rest.jsonExtractFields jobj msg
      return (items, msg)
    | some _ => .error .notArray

/-- What `rsmp_json_payload2msg` returns: null, a message, or the pointer of a message that it
has freed; unless the process stops. -/
inductive Decoded
  | null
  | msg (m : Message)
  | freed
  | stops (s : Stop)

/-- `rsmp_json_payload2msg` -/
def rsmpJsonPayload2msg (B : Birth) (payload : Bytes) : Decoded :=
  match X.json.parse payload with
  | none => .null
  | some jobj =>
    if rsmpJsonMTypeCheck jobj then
      match rsmpJsonExtractType jobj with
      | none => .null
      | some t =>
        match t.desc? with
        | none => .stops .noDescription
        | some _ =>
          match t.desc.jsonExtractFields X jobj (t.new B) with
          | .ok m => .msg ⟨t, m⟩
          | .error .error => .freed
          | .error s => .stops s
    else .null

end RsmpGateway.Rsmp
