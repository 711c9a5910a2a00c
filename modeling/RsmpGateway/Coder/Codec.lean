import RsmpGateway.Coder.Message

/-!
# Internal messages, written and read

The messages that the two gateways exchange for themselves are JSON objects: a header with a type
and an identifier, and the fields of the type. `deserializeMessage` copies what it finds into the
arrays of a structure.

* `deserializeMessage_contained_iff`: the decoder reads and writes inside the strings and the
  arrays of the message exactly when the fields fit. The length of an identifier is checked in the
  header and not in `oMId`; and the check of a password looks at the character before the last
  one.
* `internalMessage_roundTrips`: a message that passes its check is written and read as the same
  message, as is every message that was delivered.
-/

namespace RsmpGateway.Coder

open RsmpGateway.Lib RsmpGateway.Auth

variable {J : JsonLib}

/-! ## Reading inside a password

`originalLength` counts the padding of a base64 text from its end. A text of one character that
is the padding has no character before it. -/

/-- The length of the password is a positive `int`, and a password of one character is not the
padding of base64: `messageCheckFields` looks at the character before. -/
def PaddingInside (pwd : CString) : Prop :=
  0 < toInt pwd.strlen ∧ (toInt pwd.strlen = 1 → pwd.val.head? ≠ some 0x3D)

theorem toInt_le (n : Nat) : toInt n ≤ n := by
  rw [toInt, Int.bmod_eq_emod]
  split <;> omega

/-- The characters that are looked at: the last one, and the one before it where the last one
is a padding. -/
theorem originalLength_cases (pwd : CString) :
    (PaddingInside pwd ∧ ∃ n, originalLength pwd = .ok n) ∨
      (¬ PaddingInside pwd ∧ originalLength pwd = .fault) := by
  have hle := toInt_le pwd.strlen
  by_cases hpos : 0 < toInt pwd.strlen
  · have hlast : pwd.charAt (toInt pwd.strlen - 1) =
        .ok (pwd.val.getD (toInt pwd.strlen - 1).toNat 0) := by
      rw [CString.charAt, if_pos (by omega)]
    by_cases hpad : pwd.val.getD (toInt pwd.strlen - 1).toNat 0 = 0x3D
    · by_cases hone : toInt pwd.strlen = 1
      · -- the character before the string
        have hfault : pwd.charAt (toInt pwd.strlen - 2) = .fault := by
          rw [CString.charAt_eq_fault]
          omega
        refine .inr ⟨?_, ?_⟩
        · intro h
          apply h.2 hone
          rw [hone] at hpad
          obtain ⟨c, cs, hcs⟩ : ∃ c cs, pwd.val = c :: cs := by
            apply List.exists_cons_of_ne_nil
            intro h0
            have : pwd.strlen = 0 := congrArg List.length h0
            omega
          rw [hcs] at hpad ⊢
          exact congrArg some hpad
        · simp only [originalLength, hlast, Outcome.ok_bind, hpad, if_true, hfault,
            Outcome.fault_bind]
      · have hbefore : pwd.charAt (toInt pwd.strlen - 2) =
            .ok (pwd.val.getD (toInt pwd.strlen - 2).toNat 0) := by
          rw [CString.charAt, if_pos (by omega)]
        refine .inl ⟨⟨hpos, fun h => absurd h hone⟩, ?_⟩
        simp only [originalLength, hlast, Outcome.ok_bind, hpad, if_true, hbefore]
        exact ⟨_, rfl⟩
    · refine .inl ⟨⟨hpos, fun h hhead => hpad ?_⟩, ?_⟩
      · rw [h]
        obtain ⟨cs, hcs⟩ := List.head?_eq_some_iff.mp hhead
        simp [hcs]
      · simp only [originalLength, hlast, Outcome.ok_bind, hpad, if_false]
        exact ⟨_, rfl⟩
  · have hfault : pwd.charAt (toInt pwd.strlen - 1) = .fault := by
      rw [CString.charAt_eq_fault]
      omega
    refine .inr ⟨fun h => hpos h.1, ?_⟩
    simp only [originalLength, hfault, Outcome.fault_bind]

/-! ## What is stored

The steps of the decoder, one after the other. Each of them ends well, with an error, or with a
fault, and the fault comes from two places: an identifier that is too long for its array, and the
check of a password. -/

/-- The arrays of a message. -/
def MessageFields.ids : MessageFields → List (CharArray uuidStrLen)
  | .changePwdResponse _ oMId => [oMId]
  | .pong oMId _ => [oMId]
  | _ => []

def Message.ids (m : Message) : List (CharArray uuidStrLen) := m.mId :: m.fields.ids

/-- What is copied fits, and the check that comes last looks at no character outside a
password. -/
def FieldsFit (j : Json) : MessageType → Prop
  | .changePwdRequest =>
    ∀ pwd, stringMember j (ascii "pwd") = .ok pwd → pwd.strlen ≠ 0 → PaddingInside pwd
  | .changePwdResponse =>
    ∀ oMId, stringMember j (ascii "oMId") = .ok oMId → oMId.strlen < uuidStrLen
  | .pong =>
    ∀ pad, stringMember j (ascii "pad") = .ok pad →
      ∀ oMId, stringMember j (ascii "oMId") = .ok oMId → oMId.strlen < uuidStrLen
  | _ => True

/-- The payload is no message, or one whose fields fit. -/
def Fits (J : JsonLib) (payload : Bytes) : Prop :=
  ∀ j mId type, J.parse payload = some j → messageHeader j = .ok (mId, type) → FieldsFit j type

/-- A decoding that fails, or that gives a message whose identifiers are strings shorter than
their arrays; it has no fault. -/
def Contained : Outcome Message → Prop
  | .ok m => ∀ a ∈ m.ids, ∃ s, a.read = .ok s ∧ s.strlen < uuidStrLen
  | .err => True
  | .fault => False

/-! ### Members

The accesses to the members of the object end with a text, a boolean or an error. What is copied
to an array was compared with its size only for the identifier of the header. -/

theorem Contained.ne_fault {r : Outcome Message} (h : Contained r) : r ≠ .fault := by
  rintro rfl
  exact h

theorem stringMember_ne_fault (j : Json) (key : Bytes) : stringMember j key ≠ .fault :=
  Outcome.ofOption_ne_fault _

theorem boolMember_ne_fault (j : Json) (key : Bytes) : boolMember j key ≠ .fault := by
  unfold boolMember
  split <;> exact nofun

theorem nonEmpty_ne_fault (p : Option CString) : nonEmpty p ≠ .fault := by
  unfold nonEmpty
  split
  · split <;> exact nofun
  · exact nofun

theorem nonEmptyArray_ne_fault {a : CharArray uuidStrLen} {s : CString} (h : a.read = .ok s) :
    nonEmptyArray a ≠ .fault := by
  rw [nonEmptyArray, h, Outcome.ok_bind]
  split <;> exact nofun

/-- The identifier of a header is a string of the length of a UUID. -/
theorem messageHeader_ok {j : Json} {mId : CharArray uuidStrLen} {type : MessageType}
    (h : messageHeader j = .ok (mId, type)) :
    type ≠ .encrypted ∧ ∃ s, CharArray.zero.strcpy s = .ok mId ∧ mId.read = .ok s ∧
      s.strlen = uuidStrLen - 1 := by
  obtain ⟨mType, -, h⟩ := Outcome.bind_eq_ok.mp h
  split at h
  · cases h
  · obtain ⟨s, -, h⟩ := Outcome.bind_eq_ok.mp h
    split at h
    · cases h
    · next hlen =>
      obtain ⟨a, hcopy, h⟩ := Outcome.bind_eq_ok.mp h
      obtain ⟨name, -, h⟩ := Outcome.bind_eq_ok.mp h
      obtain ⟨t, htype, h⟩ := Outcome.bind_eq_ok.mp h
      cases h
      refine ⟨?_, s, hcopy, CharArray.read_strcpy hcopy, not_not.mp hlen⟩
      rintro rfl
      have hmem := List.mem_of_find?_eq_some (Outcome.ofOption_eq_ok.mp htype)
      exact absurd hmem (by decide)

theorem messageHeader_ne_fault (j : Json) : messageHeader j ≠ .fault := by
  intro h
  obtain ⟨mType, -, h⟩ := Outcome.bind_fault (stringMember_ne_fault _ _) h
  split at h
  · cases h
  · obtain ⟨s, -, h⟩ := Outcome.bind_fault (stringMember_ne_fault _ _) h
    split at h
    · cases h
    · next hlen =>
      -- an identifier of the length of a UUID fits
      have hfit : s.strlen < uuidStrLen := by
        unfold uuidStrLen at hlen ⊢
        omega
      obtain ⟨a, -, h⟩ := Outcome.bind_fault (CharArray.strcpy_ne_fault hfit) h
      obtain ⟨name, -, h⟩ := Outcome.bind_fault (stringMember_ne_fault _ _) h
      obtain ⟨t, -, h⟩ := Outcome.bind_fault (Outcome.ofOption_ne_fault _) h
      cases h

/-- The identifiers of the fields are copied strings. -/
theorem messageFields_ok {j : Json} {type : MessageType} {fields : MessageFields}
    (h : messageFields j type = .ok fields) :
    fields.messageType = type ∧
      ∀ a ∈ fields.ids, ∃ s, CharArray.zero.strcpy s = .ok a ∧ a.read = .ok s := by
  cases type with
  | encrypted =>
    cases h
    exact ⟨rfl, nofun⟩
  | allClear =>
    cases h
    exact ⟨rfl, nofun⟩
  | changePwdRequest =>
    obtain ⟨pwd, -, h⟩ := Outcome.bind_eq_ok.mp h
    cases h
    exact ⟨rfl, nofun⟩
  | changePwdResponse =>
    obtain ⟨s, -, h⟩ := Outcome.bind_eq_ok.mp h
    obtain ⟨oMId, hcopy, h⟩ := Outcome.bind_eq_ok.mp h
    obtain ⟨status, -, h⟩ := Outcome.bind_eq_ok.mp h
    cases h
    refine ⟨rfl, fun a ha => ?_⟩
    obtain rfl := List.mem_singleton.mp ha
    exact ⟨s, hcopy, CharArray.read_strcpy hcopy⟩
  | ping =>
    obtain ⟨pad, -, h⟩ := Outcome.bind_eq_ok.mp h
    cases h
    exact ⟨rfl, nofun⟩
  | pong =>
    obtain ⟨pad, -, h⟩ := Outcome.bind_eq_ok.mp h
    obtain ⟨s, -, h⟩ := Outcome.bind_eq_ok.mp h
    obtain ⟨oMId, hcopy, h⟩ := Outcome.bind_eq_ok.mp h
    cases h
    refine ⟨rfl, fun a ha => ?_⟩
    obtain rfl := List.mem_singleton.mp ha
    exact ⟨s, hcopy, CharArray.read_strcpy hcopy⟩

/-! ### The two faults

A field that is an identifier and does not fit its array, and a password whose padding is looked
for outside it. Each is shown to be a fault exactly where `FieldsFit` fails. -/

theorem fieldsCheck_pwd_eq_fault {pwd : CString} :
    fieldsCheck (.changePwdRequest (some pwd)) = .fault ↔
      pwd.strlen ≠ 0 ∧ ¬ PaddingInside pwd := by
  rw [fieldsCheck]
  by_cases hlen : pwd.strlen = 0
  · simp [nonEmpty, hlen]
  · have hpwd : nonEmpty (some pwd) = .ok pwd := if_neg hlen
    rw [hpwd, Outcome.ok_bind]
    rcases originalLength_cases pwd with ⟨hinside, n, hn⟩ | ⟨hinside, hfault⟩
    · rw [hn, Outcome.ok_bind]
      constructor
      · intro h
        split at h <;> cases h
      · exact fun h => absurd hinside h.2
    · rw [hfault, Outcome.fault_bind]
      exact ⟨fun _ => ⟨hlen, hinside⟩, fun _ => rfl⟩

/-- The switch and the check that comes last have no fault where the fields fit. -/
theorem fields_eq_fault {j : Json} {type : MessageType} :
    (messageFields j type >>= fieldsCheck) = .fault ↔ ¬ FieldsFit j type := by
  -- an identifier that was copied fits its array, and its check ends well
  have hcopied : ∀ {fields : MessageFields}, messageFields j type = .ok fields →
      ∀ a ∈ fields.ids, nonEmptyArray a ≠ .fault := by
    intro fields h a ha
    obtain ⟨s, -, hread⟩ := (messageFields_ok h).2 a ha
    exact nonEmptyArray_ne_fault hread
  rw [Outcome.bind_eq_fault]
  cases type with
  | encrypted => simp [messageFields, fieldsCheck, nonEmpty, FieldsFit]
  | allClear => simp [messageFields, fieldsCheck, FieldsFit]
  -- the password is copied whole; what may go wrong is its check
  | changePwdRequest =>
    simp only [messageFields, FieldsFit, Outcome.bind_eq_fault, Outcome.bind_eq_ok,
      stringMember_ne_fault, Outcome.pure_eq, reduceCtorEq, and_false, exists_false, or_self,
      false_or, Outcome.ok.injEq]
    constructor
    · rintro ⟨_, ⟨pwd, hpwd, rfl⟩, hfault⟩ hfit
      obtain ⟨hlen, hinside⟩ := fieldsCheck_pwd_eq_fault.mp hfault
      exact hinside (hfit pwd hpwd hlen)
    · intro hfit
      push Not at hfit
      obtain ⟨pwd, hpwd, hlen, hinside⟩ := hfit
      exact ⟨_, ⟨pwd, hpwd, rfl⟩, fieldsCheck_pwd_eq_fault.mpr ⟨hlen, hinside⟩⟩
  -- the identifier is copied to an array; what may go wrong is the copy
  | changePwdResponse =>
    constructor
    · rintro (h | ⟨fields, h, hfault⟩) hfit
      · obtain ⟨oMId, hoMId, h⟩ := Outcome.bind_fault (stringMember_ne_fault _ _) h
        obtain ⟨a, -, h⟩ := Outcome.bind_fault (CharArray.strcpy_ne_fault (hfit oMId hoMId)) h
        obtain ⟨status, -, h⟩ := Outcome.bind_fault (boolMember_ne_fault _ _) h
        cases h
      · have htype := (messageFields_ok h).1
        cases fields <;> cases htype
        exact hcopied h _ (List.mem_singleton.mpr rfl) hfault
    · intro hfit
      unfold FieldsFit at hfit
      push Not at hfit
      obtain ⟨oMId, hoMId, hlen⟩ := hfit
      rw [messageFields, hoMId, Outcome.ok_bind, CharArray.strcpy_eq_fault.mpr hlen]
      exact .inl rfl
  | ping =>
    simp only [messageFields, FieldsFit, Outcome.bind_eq_fault, Outcome.bind_eq_ok,
      stringMember_ne_fault, Outcome.pure_eq, reduceCtorEq, and_false, exists_false, or_self,
      false_or, Outcome.ok.injEq, not_true_eq_false, iff_false]
    rintro ⟨_, ⟨pad, -, rfl⟩, hfault⟩
    obtain ⟨s, -, h⟩ := Outcome.bind_fault (nonEmpty_ne_fault _) hfault
    cases h
  | pong =>
    constructor
    · rintro (h | ⟨fields, h, hfault⟩) hfit
      · obtain ⟨pad, hpad, h⟩ := Outcome.bind_fault (stringMember_ne_fault _ _) h
        obtain ⟨oMId, hoMId, h⟩ := Outcome.bind_fault (stringMember_ne_fault _ _) h
        obtain ⟨a, -, h⟩ :=
          Outcome.bind_fault (CharArray.strcpy_ne_fault (hfit pad hpad oMId hoMId)) h
        cases h
      · have htype := (messageFields_ok h).1
        cases fields <;> cases htype
        obtain ⟨pad, -, hfault⟩ := Outcome.bind_fault (nonEmpty_ne_fault _) hfault
        exact hcopied h _ (List.mem_singleton.mpr rfl) hfault
    · intro hfit
      unfold FieldsFit at hfit
      push Not at hfit
      obtain ⟨pad, hpad, oMId, hoMId, hlen⟩ := hfit
      rw [messageFields, hpad, Outcome.ok_bind, hoMId, Outcome.ok_bind,
        CharArray.strcpy_eq_fault.mpr hlen]
      exact .inl rfl

/-- The check of a message whose identifier is that of a header. -/
theorem messageCheckFields_header {j : Json} {mId : CharArray uuidStrLen} {type : MessageType}
    (h : messageHeader j = .ok (mId, type)) (fields : MessageFields) :
    messageCheckFields ⟨mId, fields⟩ = fieldsCheck fields := by
  obtain ⟨-, s, -, hread, hlen⟩ := messageHeader_ok h
  rw [messageCheckFields, hread, Outcome.ok_bind, if_neg (not_not.mpr hlen)]

/-! ### The whole decoder

Header, fields and check put together: first what a message that is delivered went through, then
where the decoder has a fault, and from these two the equivalence. -/

/-- What is delivered: a header, the fields of its type, and a check that passes. -/
theorem deserializeMessage_ok {payload : Bytes} {m : Message}
    (h : deserializeMessage J payload = .ok m) :
    ∃ j type, J.parse payload = some j ∧ messageHeader j = .ok (m.mId, type) ∧
      messageFields j type = .ok m.fields ∧ messageCheckFields m = .ok () := by
  obtain ⟨j, hparse, h⟩ := Outcome.bind_eq_ok.mp h
  obtain ⟨⟨mId, type⟩, hheader, h⟩ := Outcome.bind_eq_ok.mp h
  obtain ⟨fields, hfields, h⟩ := Outcome.bind_eq_ok.mp h
  obtain ⟨_, hcheck, h⟩ := Outcome.bind_eq_ok.mp h
  cases h
  exact ⟨j, type, Outcome.ofOption_eq_ok.mp hparse, hheader, hfields, hcheck⟩

theorem deserializeMessage_eq_fault {payload : Bytes} :
    deserializeMessage J payload = .fault ↔ ¬ Fits J payload := by
  constructor
  · intro h hfits
    obtain ⟨j, hparse, h⟩ := Outcome.bind_fault (Outcome.ofOption_ne_fault _) h
    obtain ⟨⟨mId, type⟩, hheader, h⟩ := Outcome.bind_fault (messageHeader_ne_fault j) h
    apply fields_eq_fault.mp _ (hfits j mId type (Outcome.ofOption_eq_ok.mp hparse) hheader)
    rcases Outcome.bind_eq_fault.mp h with h | ⟨fields, hfields, h⟩
    · exact Outcome.bind_eq_fault.mpr (.inl h)
    · rcases Outcome.bind_eq_fault.mp h with h | ⟨_, -, h⟩
      · rw [messageCheckFields_header hheader] at h
        exact Outcome.bind_eq_fault.mpr (.inr ⟨fields, hfields, h⟩)
      · cases h
  · intro hfits
    unfold Fits at hfits
    push Not at hfits
    obtain ⟨j, mId, type, hparse, hheader, hfit⟩ := hfits
    have hparse : Outcome.ofOption (J.parse payload) = .ok j := Outcome.ofOption_eq_ok.mpr hparse
    rw [deserializeMessage, hparse, Outcome.ok_bind, hheader, Outcome.ok_bind]
    rcases Outcome.bind_eq_fault.mp (fields_eq_fault.mpr hfit) with h | ⟨fields, hfields, h⟩
    · show (messageFields j type >>= _) = _
      rw [h]
      rfl
    · show (messageFields j type >>= _) = _
      rw [hfields, Outcome.ok_bind, messageCheckFields_header hheader, h]
      rfl

/-- The identifiers of what is delivered are copied strings. -/
theorem deserializeMessage_ids {payload : Bytes} {m : Message}
    (h : deserializeMessage J payload = .ok m) :
    ∀ a ∈ m.ids, ∃ s, CharArray.zero.strcpy s = .ok a ∧ a.read = .ok s := by
  obtain ⟨j, type, -, hheader, hfields, -⟩ := deserializeMessage_ok h
  intro a ha
  rcases List.mem_cons.mp ha with rfl | ha
  · obtain ⟨-, s, hcopy, hread, -⟩ := messageHeader_ok hheader
    exact ⟨s, hcopy, hread⟩
  · exact (messageFields_ok hfields).2 a ha

/-- Decoding stays inside the strings and the arrays of the message when the fields fit. -/
theorem deserializeMessage_contained_iff (J : JsonLib) (payload : Bytes) :
    Contained (deserializeMessage J payload) ↔ Fits J payload := by
  cases hres : deserializeMessage J payload with
  | ok m =>
    have hfits : Fits J payload := by
      by_contra h
      rw [deserializeMessage_eq_fault.mpr h] at hres
      cases hres
    refine ⟨fun _ => hfits, fun _ a ha => ?_⟩
    obtain ⟨s, hcopy, hread⟩ := deserializeMessage_ids hres a ha
    refine ⟨s, hread, Nat.not_le.mp fun hlen => ?_⟩
    rw [CharArray.strcpy_eq_fault.mpr hlen] at hcopy
    cases hcopy
  | err =>
    refine ⟨fun _ => ?_, fun _ => trivial⟩
    by_contra h
    rw [deserializeMessage_eq_fault.mpr h] at hres
    cases hres
  | fault => exact ⟨False.elim, fun h => deserializeMessage_eq_fault.mp hres h⟩

/-- A message of a type, with these members. -/
def internalJson (type : String) (members : List (Bytes × Json)) : Json :=
  .obj ((ascii "mType", .str (ascii "eRMsg")) ::
    (ascii "mId", .str (ascii "8a3fe1b2-6c7d-4e1a-9b2c-0d4f5e6a7b8c")) ::
    (ascii "type", .str (ascii type)) :: members)

/-- A `Pong` whose `oMId` has a character more than a UUID. -/
def longPong : Json :=
  internalJson "Pong" [(ascii "pad", .str (ascii "!")),
    (ascii "oMId", .str (ascii "8a3fe1b2-6c7d-4e1a-9b2c-0d4f5e6a7b8cd"))]

theorem not_contained : ¬ ∀ J payload, Contained (deserializeMessage J payload) := by
  intro h
  have hfault : deserializeMessage (.ofValues [longPong]) longPong.toText = .fault := by
    decide +kernel
  exact Contained.ne_fault (h _ _) hfault

/-- The padding of a password of one character is looked for before it. -/
def equalsRequest : Json := internalJson "ChangePwdRequest" [(ascii "pwd", .str (ascii "="))]

example : deserializeMessage (.ofValues [equalsRequest]) equalsRequest.toText = .fault := by
  decide

/-! ## Round trip

What is written is an object whose members are in a known order. Each member that the decoder
asks for is found where it was written, since no name occurs twice. -/

/-- json-c makes an object of the message, and each text it prints of it is the serialized
message, which is read as the message. -/
def RoundTrips (J : JsonLib) (m : Message) : Prop :=
  ∃ j, messageJson m = .ok j ∧ ∀ text, J.print j = some text →
    serializeMessage J m = .ok text ∧ deserializeMessage J text = .ok m

/-! ### Members in their order

The object is written with the header first. A member is looked up past those that stand before
it, whose keys are other ones. -/

theorem stringMember_cons {k key : Bytes} {v : Json} {ms : List (Bytes × Json)} :
    stringMember (.obj ((k, v) :: ms)) key =
      if k = key then stringMember (.obj [(key, v)]) key else stringMember (.obj ms) key := by
  simp only [stringMember, Json.get?_obj_cons]
  split <;> simp

theorem boolMember_cons {k key : Bytes} {v : Json} {ms : List (Bytes × Json)} :
    boolMember (.obj ((k, v) :: ms)) key =
      if k = key then boolMember (.obj [(key, v)]) key else boolMember (.obj ms) key := by
  by_cases h : k = key
  · simp [boolMember, Json.get?_obj_cons, h]
  · simp [boolMember, Json.get?_obj_cons, h]

@[simp] theorem stringMember_str (s : CString) (key : Bytes) (ms : List (Bytes × Json)) :
    stringMember (.obj ((key, .str s.val) :: ms)) key = .ok s := by
  simp [stringMember, Json.get?_obj_cons, Json.str?, Outcome.ofOption]

@[simp] theorem boolMember_bool (b : Bool) (key : Bytes) (ms : List (Bytes × Json)) :
    boolMember (.obj ((key, .bool b) :: ms)) key = .ok b := by
  simp [boolMember, Json.get?_obj_cons]

theorem nonEmpty_ok {p : Option CString} {s : CString} (h : nonEmpty p = .ok s) : p = some s := by
  unfold nonEmpty at h
  split at h
  · split at h
    · cases h
    · cases h
      rfl
  · cases h

theorem nonEmptyArray_ok {a : CharArray uuidStrLen} (h : nonEmptyArray a = .ok ()) :
    ∃ s, a.read = .ok s := by
  obtain ⟨s, hs, -⟩ := Outcome.bind_eq_ok.mp h
  exact ⟨s, hs⟩

section Object

variable (mId : CString) (type : MessageType) (members : List (Bytes × Json))

/-- A member of the type is looked for after those of every message. -/
theorem stringMember_object {key : Bytes}
    (hkey : key ∉ [ascii "mType", ascii "mId", ascii "type"]) :
    stringMember (messageObject mId type members) key = stringMember (.obj members) key := by
  simp only [List.mem_cons, List.not_mem_nil, or_false, not_or] at hkey
  rw [messageObject, stringMember_cons, if_neg (Ne.symm hkey.1), stringMember_cons,
    if_neg (Ne.symm hkey.2.1), stringMember_cons, if_neg (Ne.symm hkey.2.2)]

theorem boolMember_object {key : Bytes}
    (hkey : key ∉ [ascii "mType", ascii "mId", ascii "type"]) :
    boolMember (messageObject mId type members) key = boolMember (.obj members) key := by
  simp only [List.mem_cons, List.not_mem_nil, or_false, not_or] at hkey
  rw [messageObject, boolMember_cons, if_neg (Ne.symm hkey.1), boolMember_cons,
    if_neg (Ne.symm hkey.2.1), boolMember_cons, if_neg (Ne.symm hkey.2.2)]

/-- The header that is written is read. -/
theorem messageHeader_object {a : CharArray uuidStrLen} (hcopy : CharArray.zero.strcpy mId = .ok a)
    (hlen : mId.strlen = uuidStrLen - 1) (htype : type ≠ .encrypted) :
    messageHeader (messageObject mId type members) = .ok (a, type) := by
  have hmark : stringMember (messageObject mId type members) (ascii "mType") =
      .ok ⟨ascii "eRMsg", by decide⟩ := by
    rw [messageObject, stringMember_cons, if_pos rfl]
    rfl
  have hmId : stringMember (messageObject mId type members) (ascii "mId") = .ok mId := by
    rw [messageObject, stringMember_cons, if_neg (by decide), stringMember_str]
  have hname : stringMember (messageObject mId type members) (ascii "type") =
      .ok (CString.ofBytes type.text) := by
    rw [messageObject, stringMember_cons, if_neg (by decide), stringMember_cons,
      if_neg (by decide), stringMember_cons, if_pos rfl]
    rfl
  have hof : messageTypeOf (CString.ofBytes type.text) = .ok type := by
    cases type <;> first | rfl | exact absurd rfl htype
  rw [messageHeader, hmark, Outcome.ok_bind, if_neg (by decide), hmId, Outcome.ok_bind,
    if_neg (not_not.mpr hlen), hcopy, Outcome.ok_bind, hname, Outcome.ok_bind, hof]
  rfl

end Object

/-- The members that are written of fields that pass the check are read as the fields. -/
theorem messageFields_members {fields : MessageFields}
    (htype : fields.messageType ≠ .encrypted) (hcheck : fieldsCheck fields = .ok ())
    (hcopied : ∀ a ∈ fields.ids, ∀ s, a.read = .ok s → CharArray.zero.strcpy s = .ok a) :
    ∃ members, messageMembers fields = .ok members ∧
      ∀ mId, messageFields (messageObject mId fields.messageType members) fields.messageType =
        .ok fields := by
  cases fields with
  | encrypted => exact absurd rfl htype
  | allClear => exact ⟨[], rfl, fun _ => rfl⟩
  | changePwdRequest pwd =>
    obtain ⟨s, hs, -⟩ := Outcome.bind_eq_ok.mp hcheck
    obtain rfl := nonEmpty_ok hs
    refine ⟨_, rfl, fun mId => ?_⟩
    rw [MessageFields.messageType, messageFields, stringMember_object _ _ _ (by decide)]
    simp
  | changePwdResponse status oMId =>
    obtain ⟨s, hs⟩ := nonEmptyArray_ok hcheck
    have hcopy := hcopied oMId (List.mem_singleton.mpr rfl) s hs
    refine ⟨_, by rw [messageMembers, hs]; rfl, fun mId => ?_⟩
    rw [MessageFields.messageType, messageFields, stringMember_object _ _ _ (by decide),
      boolMember_object _ _ _ (by decide), boolMember_cons, if_neg (by decide)]
    simp [hcopy]
  | ping padding =>
    obtain ⟨s, hs, -⟩ := Outcome.bind_eq_ok.mp hcheck
    obtain rfl := nonEmpty_ok hs
    refine ⟨_, rfl, fun mId => ?_⟩
    rw [MessageFields.messageType, messageFields, stringMember_object _ _ _ (by decide)]
    simp
  | pong oMId padding =>
    obtain ⟨p, hp, h⟩ := Outcome.bind_eq_ok.mp hcheck
    obtain rfl := nonEmpty_ok hp
    obtain ⟨s, hs⟩ := nonEmptyArray_ok h
    have hcopy := hcopied oMId (List.mem_singleton.mpr rfl) s hs
    refine ⟨_, by rw [messageMembers, hs]; rfl, fun mId => ?_⟩
    rw [MessageFields.messageType, messageFields, stringMember_object _ _ _ (by decide),
      stringMember_object _ _ _ (by decide), @stringMember_cons _ (ascii "oMId"),
      if_neg (by decide)]
    simp [hcopy]

/-- A message that is accepted, and whose identifiers are copied strings, is read as it was
written. -/
theorem roundTrips_of_copied (hJ : ∀ {j text}, J.print j = some text → J.parse text = some j)
    {m : Message} (htype : m.fields.messageType ≠ .encrypted)
    (hcheck : messageCheckFields m = .ok ())
    (hcopied : ∀ a ∈ m.ids, ∀ s, a.read = .ok s → CharArray.zero.strcpy s = .ok a) :
    RoundTrips J m := by
  obtain ⟨mId, hread, h⟩ := Outcome.bind_eq_ok.mp hcheck
  split at h
  · cases h
  · next hlen =>
    obtain ⟨members, hmembers, hfields⟩ := messageFields_members htype h fun a ha =>
      hcopied a (List.mem_cons_of_mem _ ha)
    have hcopy := hcopied m.mId List.mem_cons_self mId hread
    have hjson : messageJson m = .ok (messageObject mId m.fields.messageType members) := by
      rw [messageJson, hcheck, Outcome.ok_bind, hread, Outcome.ok_bind, hmembers]
      rfl
    refine ⟨_, hjson, fun text hprint => ⟨?_, ?_⟩⟩
    · rw [serializeMessage, hjson, Outcome.ok_bind, hprint]
      rfl
    · have hheader := messageHeader_object mId m.fields.messageType members hcopy
        (not_not.mp hlen) htype
      have hdecode : deserializeMessage J text =
          (messageCheckFields m >>= fun _ => pure m) := by
        rw [deserializeMessage, hJ hprint]
        show (messageHeader _ >>= _) = _
        rw [hheader, Outcome.ok_bind]
        show (messageFields _ _ >>= _) = _
        rw [hfields, Outcome.ok_bind]
      rw [hdecode, hcheck]
      rfl

/-- **Internal messages round trip**: those that pass the check with identifiers of the
length of a UUID, and those that are delivered, which pass it. -/
theorem internalMessage_roundTrips
    (hJ : ∀ {j text}, J.print j = some text → J.parse text = some j) :
    (∀ m : Message, m.fields.messageType ≠ .encrypted → messageCheckFields m = .ok () →
      (∀ a ∈ m.ids, ∃ s, a.read = .ok s ∧ s.strlen = uuidStrLen - 1) → RoundTrips J m) ∧
    ∀ payload m, deserializeMessage J payload = .ok m →
      messageCheckFields m = .ok () ∧ RoundTrips J m := by
  constructor
  · intro m htype hcheck hids
    apply roundTrips_of_copied hJ htype hcheck
    intro a ha s hs
    obtain ⟨s', hs', hlen⟩ := hids a ha
    obtain rfl := Outcome.ok.inj (hs.symm.trans hs')
    exact CharArray.strcpy_of_full hs (by rw [hlen]; rfl) _
  · intro payload m h
    obtain ⟨j, type, -, hheader, hfields, hcheck⟩ := deserializeMessage_ok h
    refine ⟨hcheck, roundTrips_of_copied hJ ?_ hcheck ?_⟩
    · rw [(messageFields_ok hfields).1]
      exact (messageHeader_ok hheader).1
    · intro a ha s hs
      obtain ⟨s', hcopy, hs'⟩ := deserializeMessage_ids h a ha
      obtain rfl := Outcome.ok.inj (hs.symm.trans hs')
      exact hcopy

/-! ### A `Ping`

Its padding has a quote, a slash and a line break, which json-c escapes. -/

/-- A `Ping`, printed by a json-c that knows its text and that of its object. -/
def pingMessage : Message :=
  ⟨⟨ascii "8a3fe1b2-6c7d-4e1a-9b2c-0d4f5e6a7b8c" ++ [0], by decide⟩,
    .ping (some ⟨ascii "a\"\n/", by decide⟩)⟩

def pingJson : Json := internalJson "Ping" [(ascii "pad", .str (ascii "a\"\n/"))]

theorem internalMessage_roundTrips_ping :
    RoundTrips (.ofValues [pingJson]) pingMessage ∧
      (JsonLib.ofValues [pingJson]).print pingJson = some pingJson.toText ∧
      messageJson pingMessage = .ok pingJson := by
  have hlawful : (JsonLib.ofValues [pingJson]).Lawful := by
    apply JsonLib.ofTable_lawful
    · exact List.nodup_singleton _
    · intro e he
      obtain rfl := List.mem_singleton.mp he
      decide
  refine ⟨?_, rfl, rfl⟩
  apply (internalMessage_roundTrips hlawful.parse_print).1 pingMessage
  · exact nofun
  · rfl
  · intro a ha
    obtain rfl := List.mem_singleton.mp ha
    exact ⟨⟨ascii "8a3fe1b2-6c7d-4e1a-9b2c-0d4f5e6a7b8c", by decide⟩, rfl, rfl⟩

end RsmpGateway.Coder
