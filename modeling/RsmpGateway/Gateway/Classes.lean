import RsmpGateway.Coder.Classes
import RsmpGateway.Rsmp.RoundTrip

/-!
# Internal messages and RSMP messages

The classes of the texts that `serializeMessage` and `rsmp_json_msg2payload` make: where a text
goes is decided by its class. A text that a gateway sends for itself must not reach the
application of the other one, and a message of the application must not be taken for an internal
one.

The first part is about the messages of the application, whose text always shows the mark of its
class. Internal messages are the subject of `Coder/Classes.lean`; the theorem on both is here.
-/

namespace RsmpGateway.Gateway

open RsmpGateway.Lib RsmpGateway.Coder RsmpGateway.Rsmp

/-! ## RSMP messages

The object of a message starts with its `mType`. -/

theorem mem_addMember {members : List (Bytes × Json)} {key : Bytes} {value : Json}
    {m : Bytes × Json} (hm : m ∈ members) (hkey : m.1 ≠ key) :
    m ∈ Json.addMember members key value := by
  rw [Json.addMember]
  split
  · exact List.mem_map.mpr ⟨m, hm, if_neg hkey⟩
  · exact List.mem_append_left _ hm

/-- What is sent of a message is an object with its `mType`. -/
theorem msg2payload_object {X : RsmpExt} (hX : X.json.Lawful) {m : Rsmp.Message} {payload : Bytes}
    (h : rsmpJsonMsg2payload X m = .ok (some payload)) :
    ∃ members, (ascii "mType", .str mTypeValue) ∈ members ∧
      X.json.print (.obj members) = some payload := by
  have hdescribed : m.1.Described := by
    rw [MsgType.Described, Option.isSome_iff_ne_none]
    intro hnone
    simp only [rsmpJsonMsg2payload, hnone] at h
    cases h
  have hmType : (ascii "mType", .str mTypeValue) ∈ m.members X := by
    obtain ⟨rest, hrest⟩ := MsgType.desc_header hdescribed
    have hfields : ∀ {fs : Fields} (msg : fs.Msg),
        fs = .field (ascii "mType") .mType (.field (ascii "type") .type rest) →
          (ascii "mType", .str mTypeValue) ∈ fs.toMembers X msg := by
      rintro fs msg rfl
      exact List.mem_cons_self
    exact hfields m.2 hrest
  rw [Rsmp.Message.msg2payload_eq X hdescribed] at h
  split at h
  · cases h
  · next text hprint =>
    split at h
    · -- a text with `"Version"`: the object is parsed, and printed with `SXLG`
      obtain ⟨updated, hupdated, hreturn⟩ := Except.bind_eq_ok.mp h
      rw [addESXLGToJson, hX.parse_print hprint] at hupdated
      dsimp only at hupdated
      split at hupdated
      · cases hupdated
      · next text' hprint' =>
        cases hupdated
        cases hreturn
        exact ⟨_, mem_addMember hmType (by decide), hprint'⟩
    · cases h
      exact ⟨_, hmType, hprint⟩

theorem msg2payload_class {X : RsmpExt} (hX : X.json.Lawful) (hlayout : X.json.LaysOut)
    {m : Rsmp.Message} {payload : Bytes} (h : rsmpJsonMsg2payload X m = .ok (some payload)) :
    HasClass payload .external := by
  obtain ⟨members, hmem, hprint⟩ := msg2payload_object hX h
  obtain ⟨sp, -, rfl⟩ := hlayout hprint
  apply hasClass_external
  have hinfix := Json.stringText_infix sp hmem
  have hquoted : Json.stringText mTypeValue = Json.quoted externalWord :=
    Json.stringText_bare externalWord_word.bare
  rwa [hquoted] at hinfix

/-! ## Classes

The class of an internal message is that of the application exactly when one of its strings ends
with the other mark. -/

/-- The text of an internal message is internal when no string of the message ends with the
external mark; the text of an RSMP message is always external. -/
theorem ptxtSet_class_iff {X : RsmpExt} (hX : X.json.Lawful) (hlayout : X.json.LaysOut) :
    (∀ (m : Coder.Message) (text : Bytes), serializeMessage X.json m = .ok text →
      (HasClass text .internal ↔ Unmarked m)) ∧
    ∀ (m : Rsmp.Message) (payload : Bytes), rsmpJsonMsg2payload X m = .ok (some payload) →
      HasClass payload .external := by
  refine ⟨fun m text h => ?_, fun m payload => msg2payload_class hX hlayout⟩
  obtain ⟨hinternal, hexternal⟩ := serializeMessage_marks hlayout h
  rw [hasClass_internal_iff hinternal, hexternal, not_not]

/-- The `Pong` that echoes a pad. -/
def pongOf (pad : CString) : Coder.Message :=
  ⟨pingMessage.mId,
    .pong ⟨ascii "f1d2c3b4-a596-4877-8695-a4b3c2d1e0ff" ++ [0], by decide⟩ (some pad)⟩

/-- Its object. -/
def pongJson (pad : Bytes) : Json :=
  internalJson "Pong" [(ascii "pad", .str pad),
    (ascii "oMId", .str (ascii "f1d2c3b4-a596-4877-8695-a4b3c2d1e0ff"))]

/-- A pad that is the word makes the text external. -/
theorem not_hasClass_internal :
    ¬ ∀ J : JsonLib, J.LaysOut → ∀ m text, serializeMessage J m = .ok text →
      HasClass text .internal := by
  intro h
  have htext : serializeMessage (.ofValues [pongJson externalWord])
      (pongOf ⟨externalWord, by decide⟩) = .ok (pongJson externalWord).toText := by
    decide +kernel
  have hmark : strstr (pongJson externalWord).toText externalMark = true := by decide
  obtain ⟨ptxt, hset, hcls⟩ :=
    h (.ofValues [pongJson externalWord]) (JsonLib.ofValues_laysOut _) _ _ htext ⟨0, 0⟩ none
  rw [ptxtSet, if_pos hmark] at hset
  cases hset
  cases hcls

/-- A pad with a quote and the word, and one more character. -/
def nearlyMarked : CString := ⟨ascii "\"rSMsg!", by decide⟩

/-- json-c for the `Pong` with this pad and the `Watchdog` of 2016. -/
def pongExt : RsmpExt :=
  { twoMessages with
    json := .ofTable [((pongJson nearlyMarked.val).toText, pongJson nearlyMarked.val),
      ((Json.obj (watchdog2016.members twoMessages)).toPlain,
        .obj (watchdog2016.members twoMessages))] }

theorem ptxtSet_class_pong :
    HasClass (pongJson nearlyMarked.val).toText .internal ∧
      HasClass (Json.obj (watchdog2016.members twoMessages)).toPlain .external := by
  have hX : pongExt.json.Lawful := by
    apply JsonLib.ofTable_lawful
    · decide
    · decide +kernel
  have hlayout : pongExt.json.LaysOut := by
    refine JsonLib.ofTable_laysOut fun e he => ?_
    rcases List.mem_cons.mp he with rfl | he
    · exact .inl rfl
    · obtain rfl := List.mem_singleton.mp he
      exact .inr rfl
  constructor
  · apply ((ptxtSet_class_iff hX hlayout).1 (pongOf nearlyMarked) _ (by decide +kernel)).mpr
    unfold Unmarked
    decide
  · apply (ptxtSet_class_iff hX hlayout).2 watchdog2016
    decide

end RsmpGateway.Gateway
