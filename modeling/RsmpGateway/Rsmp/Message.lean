import RsmpGateway.Rsmp.Field

/-!
# RSMP messages

The description of each message, field after field, and what its constructor puts there. Four
types have a name and no description.

A message is a type and the values of the fields of its description (`Fields`): arrays of objects
and nested objects are fields as well. Encoder and decoder, and whatever is proved of them, go by
these descriptions alone.
-/

namespace RsmpGateway.Rsmp

open RsmpGateway.Lib RsmpGateway.Auth

/-! ## Descriptions

The tables of `messages/*.c`, with the name and the codec of each field. -/

/-- An array of `rsmp_field_desc_t`, to its end mark: fields, arrays of objects and tables of
plain values. -/
inductive Fields
  | nil
  | field (lib : Bytes) (codec : Codec) (rest : Fields)
  | array (lib : Bytes) (elems : Fields) (rest : Fields)
  | table (lib : Bytes) (codec : Codec) (rest : Fields)

namespace Fields

/-- What a structure holds of its description. -/
abbrev Msg : Fields → Type
  | nil => Unit
  | field _ codec rest => codec.Ty × rest.Msg
  | array _ elems rest => List elems.Msg × rest.Msg
  | table _ codec rest => List codec.Ty × rest.Msg

/-- What `calloc` leaves there. -/
def zero : (fs : Fields) → fs.Msg
  | nil => ()
  | field _ codec rest => (codec.zero, rest.zero)
  | array _ _ rest => ([], rest.zero)
  | table _ _ rest => ([], rest.zero)

/-- The keys. -/
def libs : Fields → List Bytes
  | nil => []
  | field lib _ rest => lib :: rest.libs
  | array lib _ rest => lib :: rest.libs
  | table lib _ rest => lib :: rest.libs

/-- The keys are all different, at every depth. -/
def Distinct : Fields → Prop
  | nil => True
  | field lib _ rest => lib ∉ rest.libs ∧ rest.Distinct
  | array lib elems rest => lib ∉ rest.libs ∧ elems.Distinct ∧ rest.Distinct
  | table lib _ rest => lib ∉ rest.libs ∧ rest.Distinct

instance decidableDistinct : (fs : Fields) → Decidable fs.Distinct
  | nil => instDecidableTrue
  | field lib _ rest =>
    have := rest.decidableDistinct
    inferInstanceAs (Decidable (lib ∉ rest.libs ∧ rest.Distinct))
  | array lib elems rest =>
    have := rest.decidableDistinct
    have := elems.decidableDistinct
    inferInstanceAs (Decidable (lib ∉ rest.libs ∧ elems.Distinct ∧ rest.Distinct))
  | table lib _ rest =>
    have := rest.decidableDistinct
    inferInstanceAs (Decidable (lib ∉ rest.libs ∧ rest.Distinct))

end Fields

open Fields

/-- The fields that most messages begin with. -/
def header (rest : Fields) : Fields :=
  field (ascii "mType") .mType <| field (ascii "type") .type <| field (ascii "mId") .uuid <|
    field (ascii "ntsOId") .str <| field (ascii "xNId") .str <| field (ascii "cId") .str rest

/-- `_rsmp_msg_Alarm_desc` -/
def alarmDesc : Fields :=
  header <| field (ascii "aCId") .str <| field (ascii "xACId") .str <|
    field (ascii "xNACId") .str <| field (ascii "aSp") aSp <| field (ascii "ack") ack <|
    field (ascii "aS") aS <| field (ascii "sS") sS <| field (ascii "aTs") .ts <|
    field (ascii "cat") cat <| field (ascii "pri") pri <|
    array (ascii "rvs") (field (ascii "n") .str <| field (ascii "v") .v nil) nil

/-- `_rsmp_msg_AggregatedStatus_desc` -/
def aggregatedStatusDesc : Fields :=
  header <| field (ascii "aSTS") .ts <| field (ascii "fP") .str <| field (ascii "fS") .str <|
    table (ascii "se") .bool nil

/-- `_rsmp_msg_AggregatedStatusRequest_desc` -/
def aggregatedStatusRequestDesc : Fields := header nil

/-- `_rsmp_msg_StatusRequest_desc` -/
def statusRequestDesc : Fields :=
  header <| array (ascii "sS") (field (ascii "sCI") .str <| field (ascii "n") .str nil) nil

/-- `_rsmp_msg_StatusResponse_desc` -/
def statusResponseDesc : Fields :=
  header <| field (ascii "sTs") .ts <|
    array (ascii "sS") (field (ascii "sCI") .str <| field (ascii "n") .str <|
      field (ascii "s") .str <| field (ascii "q") q nil) nil

/-- `_rsmp_msg_StatusSubscribe_desc` -/
def statusSubscribeDesc : Fields :=
  header <| array (ascii "sS") (field (ascii "sCI") .str <| field (ascii "n") .str <|
    field (ascii "uRt") .str <| field (ascii "sOc") .bool nil) nil

/-- `_rsmp_msg_StatusUpdate_desc` -/
def statusUpdateDesc : Fields := statusResponseDesc

/-- `_rsmp_msg_StatusUnsubscribe_desc` -/
def statusUnsubscribeDesc : Fields := statusRequestDesc

/-- `_rsmp_msg_CommandRequest_desc` -/
def commandRequestDesc : Fields :=
  header <| array (ascii "arg") (field (ascii "cCI") .str <| field (ascii "n") .str <|
    field (ascii "cO") .str <| field (ascii "v") .v nil) nil

/-- `_rsmp_msg_CommandResponse_desc` -/
def commandResponseDesc : Fields :=
  header <| field (ascii "cTS") .ts <|
    array (ascii "rvs") (field (ascii "cCI") .str <| field (ascii "n") .str <|
      field (ascii "v") .v <| field (ascii "age") age nil) nil

/-- `_rsmp_msg_MessageAck_desc` -/
def messageAckDesc : Fields :=
  field (ascii "mType") .mType <| field (ascii "type") .type <| field (ascii "oMId") .uuid nil

/-- `_rsmp_msg_MessageNotAck_desc` -/
def messageNotAckDesc : Fields :=
  field (ascii "mType") .mType <| field (ascii "type") .type <| field (ascii "oMId") .uuid <|
    field (ascii "rea") .str nil

/-- `_rsmp_msg_Version_desc` -/
def versionDesc : Fields :=
  field (ascii "mType") .mType <| field (ascii "type") .type <| field (ascii "mId") .uuid <|
    array (ascii "RSMP") (field (ascii "vers") .str nil) <|
    array (ascii "siteId") (field (ascii "sId") .str nil) <| field (ascii "SXL") .str nil

/-- `_rsmp_msg_Watchdog_desc` -/
def watchdogDesc : Fields :=
  field (ascii "mType") .mType <| field (ascii "type") .type <| field (ascii "mId") .uuid <|
    field (ascii "wTs") .ts nil

/-- `fields` in `__rsmp_msg_desc`. What the table does not list is zero. -/
def MsgType.desc? : MsgType → Option Fields
  | alarm => some alarmDesc
  | aggregatedStatus => some aggregatedStatusDesc
  | aggregatedStatusRequest => some aggregatedStatusRequestDesc
  | statusRequest => some statusRequestDesc
  | statusResponse => some statusResponseDesc
  | statusSubscribe => some statusSubscribeDesc
  | statusUpdate => some statusUpdateDesc
  | statusUnsubscribe => some statusUnsubscribeDesc
  | commandRequest => some commandRequestDesc
  | commandRequestAckIncluded => none
  | commandResponseAckIncluded => none
  | statusResponseAckIncluded => none
  | statusRequestAckIncluded => none
  | commandResponse => some commandResponseDesc
  | messageAck => some messageAckDesc
  | messageNotAck => some messageNotAckDesc
  | version => some versionDesc
  | watchdog => some watchdogDesc

/-- The type is registered. -/
def MsgType.Described (t : MsgType) : Prop := t.desc?.isSome = true

instance (t : MsgType) : Decidable t.Described := inferInstanceAs (Decidable (_ = true))

abbrev MsgType.desc (t : MsgType) : Fields := t.desc?.getD nil

theorem MsgType.desc_distinct (t : MsgType) : t.desc.Distinct := by
  cases t <;> decide

/-! ## Constructors

What is taken from the context and from the clock; the rest is as `calloc` leaves it. -/

/-- `rsmp_context_t` -/
structure Context where
  RSMP : List (Option CStr)
  siteId : List (Option CStr)
  SXL : Option CStr
  ntsOId : Option CStr
  cId : Option CStr
  xNId : Option CStr

/-- What a constructor takes: the identifier drawn, the time and the context. -/
structure Birth where
  mId : Uuid
  now : HoroDate
  context : Context

/-- The header that `rsmp_context_set` completes. -/
def headerNew (B : Birth) (t : MsgType) {rest : Fields} (m : rest.Msg) : (header rest).Msg :=
  ((), t, B.mId, B.context.ntsOId, B.context.xNId, B.context.cId, m)

/-- `rsmp_msg_*_new` -/
def MsgType.new (B : Birth) : (t : MsgType) → t.desc.Msg
  | alarm => headerNew B alarm
      (none, none, none, (0 : Nat), (0 : Nat), (0 : Nat), (0 : Nat), B.now, (0 : Nat), (0 : Nat),
        [], ())
  | aggregatedStatus =>
    headerNew B aggregatedStatus (B.now, none, none, List.replicate 8 false, ())
  | aggregatedStatusRequest => headerNew B aggregatedStatusRequest (() : nil.Msg)
  | statusRequest => headerNew B statusRequest ([], ())
  | statusResponse => headerNew B statusResponse (B.now, [], ())
  | statusSubscribe => headerNew B statusSubscribe ([], ())
  | statusUpdate => headerNew B statusUpdate (B.now, [], ())
  | statusUnsubscribe => headerNew B statusUnsubscribe ([], ())
  | commandRequest => headerNew B commandRequest ([], ())
  | commandRequestAckIncluded => ()
  | commandResponseAckIncluded => ()
  | statusResponseAckIncluded => ()
  | statusRequestAckIncluded => ()
  | commandResponse => headerNew B commandResponse (B.now, [], ())
  | messageAck => ((), messageAck, (0 : Uuid), ())
  | messageNotAck => ((), messageNotAck, (0 : Uuid), none, ())
  | version =>
    ((), version, B.mId, B.context.RSMP.map fun v => (v, ()), B.context.siteId.map fun s => (s, ()),
      B.context.SXL, ())
  | watchdog => ((), watchdog, B.mId, B.now, ())

/-- A message that was built: its type, and what is described of it. -/
abbrev Message := (t : MsgType) × t.desc.Msg

end RsmpGateway.Rsmp
