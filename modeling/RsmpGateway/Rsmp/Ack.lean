import RsmpGateway.Rsmp.RoundTrip

/-!
# Acknowledgements

`rsmp_msg_MessageAck_to` and `rsmp_msg_MessageNotAck_to`: the answer to a message carries its
identifier, which is found by its description.

A description lists the fields of a message in order. The identifier is the field named `mId`; in an
acknowledgement it is the one named `oMId`, which is that of the message it answers. Every message
that is acknowledged has one.
-/

namespace RsmpGateway.Rsmp

open RsmpGateway.Lib RsmpGateway.Coder

/-- `ack` in `__rsmp_msg_desc`: the messages of the type are acknowledged. -/
def MsgType.ack : MsgType → Bool
  | messageAck => false
  | messageNotAck => false
  | t => t.desc?.isSome

/-- The identifier, if the codec is that of identifiers. -/
def Codec.uuid? : (c : Codec) → c.Ty → Option Uuid
  | uuid, id => some id
  | _, _ => none

/-- The identifier under a key, if the message has one: `rsmp_message_desc_find_field_by_type` and
what is at the offset of the field. -/
def Fields.uuid? (key : Bytes) : (fs : Fields) → fs.Msg → Option Uuid
  | nil, _ => none
  | field lib codec rest, (x, msg) => if lib = key then codec.uuid? x else rest.uuid? key msg
  | array _ _ rest, (_, msg) => rest.uuid? key msg
  | table _ _ rest, (_, msg) => rest.uuid? key msg

namespace Message

/-- The identifier of a message. -/
def mId? (m : Message) : Option Uuid := m.1.desc.uuid? (ascii "mId") m.2

/-- The identifier of the message that this one answers. -/
def oMId? (m : Message) : Option Uuid := m.1.desc.uuid? (ascii "oMId") m.2

end Message

/-- The `MessageAck` of an identifier. -/
def ackOf (oMId : Uuid) : Message := ⟨.messageAck, (), .messageAck, oMId, ()⟩

/-- The `MessageNotAck` of an identifier, and its reason. -/
def notAckOf (oMId : Uuid) (rea : CStr) : Message :=
  ⟨.messageNotAck, (), .messageNotAck, oMId, some rea, ()⟩

/-- `rsmp_msg_MessageAck_to` -/
def messageAckTo (msg : Message) : Option Message :=
  if msg.1.ack then msg.mId?.map ackOf else none

/-- `rsmp_msg_MessageNotAck_to`. The reason is copied as it is, format and all. -/
def messageNotAckTo (msg : Message) (rea : Bytes) : Option Message :=
  if msg.1.ack then msg.mId?.map fun mId => notAckOf mId (CStr.dup rea) else none

/-- Identifiers come third. -/
theorem Fields.uuid?_third {key : Bytes} (hkey : ascii "mType" ≠ key ∧ ascii "type" ≠ key)
    {rest : Fields} (m : (field (ascii "mType") .mType <| field (ascii "type") .type <|
      field key .uuid rest).Msg) : uuid? key _ m = some m.2.2.1 := by
  obtain ⟨_, _, id, m⟩ := m
  rw [uuid?, if_neg hkey.1, uuid?, if_neg hkey.2, uuid?, if_pos rfl]
  rfl

theorem oMId?_ackOf (oMId : Uuid) : (ackOf oMId).oMId? = some oMId :=
  Fields.uuid?_third (by decide) _

theorem oMId?_notAckOf (oMId : Uuid) (rea : CStr) : (notAckOf oMId rea).oMId? = some oMId :=
  Fields.uuid?_third (by decide) _

/-- The type of an acknowledged message describes an identifier. -/
theorem MsgType.mId?_isSome {t : MsgType} (h : t.ack = true) (m : t.desc.Msg) :
    ∃ mId, Message.mId? ⟨t, m⟩ = some mId := by
  cases t <;> first
    | exact absurd h (by decide)
    | exact ⟨_, Fields.uuid?_third (by decide) m⟩

/-- An acknowledged message has an answer, which carries its identifier. -/
theorem messageAckTo_eq {msg : Message} (h : msg.1.ack = true) :
    ∃ mId, msg.mId? = some mId ∧ messageAckTo msg = some (ackOf mId) ∧
      ∀ rea, messageNotAckTo msg rea = some (notAckOf mId (CStr.dup rea)) := by
  obtain ⟨mId, hmId⟩ := MsgType.mId?_isSome h msg.2
  refine ⟨mId, hmId, ?_, fun rea => ?_⟩
  · rw [messageAckTo, if_pos h, hmId]
    rfl
  · rw [messageNotAckTo, if_pos h, hmId]
    rfl

end RsmpGateway.Rsmp
