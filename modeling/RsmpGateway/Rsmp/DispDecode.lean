import RsmpGateway.Rsmp.DispCodec

/-!
# What the DISP decoders leave

A member that is copied fills its array: a text as long as the array leaves no NUL, and a member
that is missing leaves what was there. The arrays of a list were filled with NULs first; those of
`M40` and `M41` are on the stack as it was. `decoders_settle_iff` says which texts are decoded to
strings that they determine.

Determined means: the same for every content of the memory before, and a string wherever a text
was copied. The condition is on the text alone. It asks of a member that it is there where
nothing was cleared, and that its text is shorter than its array.
-/

namespace RsmpGateway.Rsmp.Disp

open RsmpGateway.Lib

/-! ## The other answers

The decoders of the answers of `M31` to `M41`, with the members that the handlers do not read. -/

/-- `DispM31CommandResponse` -/
structure DispM31CommandResponse where
  retMessages : List RetMessageObject
  retMessageCount : Int32

/-- `DispM32CommandResponse` -/
structure DispM32CommandResponse where
  retMessages : List RetMessageObject
  retMessageCount : Int32

/-- `DispM40CommandResponse` -/
structure DispM40CommandResponse extends RetMessageObject where
  behaviorUsed : Lib.CharArray 16

/-- `DispM41CommandResponse` -/
structure DispM41CommandResponse extends RetMessageObject where
  displayPriority : UInt32

section Decoders

variable (J : JsonLib) (R : JsonReads)

/-- The member `retMessages`, with its length cut to an `int`: nothing is read where this is
negative. -/
def decodeRetMessages (root : Json) : Outcome (List RetMessageObject × Int32) := do
  let retMessages ← Outcome.ofOption (root.get? (ascii "retMessages"))
  let items ← jsonObjectArray retMessages
  let count : Int32 := .ofNat items.length
  let retMessages ← (items.take count.toNatClampNeg).mapM fun item =>
    decodeRetMessage J item .zero
  return (retMessages, count)

/-- `decode_disp_m31_command_response` -/
def decodeDispM31CommandResponse (jsonStr : Bytes) : Outcome DispM31CommandResponse := do
  let root ← jsonTokenerParse J jsonStr
  let (retMessages, retMessageCount) ← decodeRetMessages J root
  return ⟨retMessages, retMessageCount⟩

/-- `decode_disp_m32_command_response` -/
def decodeDispM32CommandResponse (jsonStr : Bytes) : Outcome DispM32CommandResponse := do
  let root ← jsonTokenerParse J jsonStr
  let (retMessages, retMessageCount) ← decodeRetMessages J root
  return ⟨retMessages, retMessageCount⟩

/-- The member `behaviorUsed`, whose null string is copied as an empty one. -/
def copyBehavior (obj : Json) (a : Lib.CharArray 16) : Lib.CharArray 16 :=
  match obj.get? (ascii "behaviorUsed") with
  | none => a
  | some value => a.strncpy ((jsonObjectGetString J value).getD ⟨[], nul_not_mem_nil⟩) le_rfl

/-- `decode_disp_m40_command_response`. `res` is what was there. -/
def decodeDispM40CommandResponse (res : DispM40CommandResponse) (jsonStr : Bytes) :
    Outcome DispM40CommandResponse := do
  let root ← jsonTokenerParse J jsonStr
  let message ← decodeRetMessage J root res.toRetMessageObject
  return { message with behaviorUsed := copyBehavior J root res.behaviorUsed }

/-- `decode_disp_m41_command_response`. `res` is what was there. -/
def decodeDispM41CommandResponse (res : DispM41CommandResponse) (jsonStr : Bytes) :
    Outcome DispM41CommandResponse := do
  let root ← jsonTokenerParse J jsonStr
  let message ← decodeRetMessage J root res.toRetMessageObject
  let displayPriority :=
    (getIntMember R root (ascii "displayPriority") res.displayPriority.toInt32).toUInt32
  return { message with displayPriority }

end Decoders

/-! ## Settled answers

What a reader of the structure expects of it. -/

section Settled

variable (J : JsonLib) (R : JsonReads)

/-- The text of a member, which is empty where there is none. -/
def memberText (obj : Json) (key : Bytes) : CString :=
  ((obj.get? key).bind (jsonObjectGetString J)).getD ⟨[], nul_not_mem_nil⟩

/-- The array ends with a NUL, and its string is the text of the member. -/
def Holds {n : Nat} (obj : Json) (key : Bytes) (a : Lib.CharArray n) : Prop :=
  a.read = .ok (memberText J obj key)

/-- The member `retStatus`, or nothing. -/
def statusOf (obj : Json) : Json := (obj.get? (ascii "retStatus")).getD .null

/-- The strings of a message are those of the object. -/
structure RetMessageSettled (obj : Json) (res : RetMessageObject) : Prop where
  msgId : Holds J obj (ascii "msgId") res.msgId
  code : Holds J (statusOf obj) (ascii "code") res.retStatus.code
  rea : Holds J (statusOf obj) (ascii "rea") res.retStatus.rea

/-- The strings of an element are those of the object. -/
structure ElementSettled (obj : Json) (elem : DisplayPoolElementObject Lib.CharArray) : Prop where
  msgId : Holds J obj (ascii "msgId") elem.msgId
  dynamicData : Holds J obj (ascii "dynamicData") elem.dynamicData

/-- The count is the length of the array under the name, and the items are settled one by one. -/
def ListSettled {α : Type} (settled : Json → α → Prop) (root : Json) (key : Bytes) (count : Int)
    (items : List α) : Prop :=
  ∃ objs, root.get? key = some (.arr objs) ∧ count = objs.length ∧ List.Forall₂ settled objs items

/-- What the text says of an answer, where it is decoded to it. -/
def SettledBy {α : Type} (jsonStr : Bytes) (settled : Json → α → Prop) (x : Outcome α) : Prop :=
  ∀ res, x = .ok res → ∃ root, jsonTokenerParse J jsonStr = .ok root ∧ settled root res

variable (jsonStr : Bytes)

/-- **The answers are settled**: their strings end with a NUL and are those of the text, and their
counts are the lengths of its arrays. -/
def M31Settled : Prop :=
  SettledBy J jsonStr (fun root res => ListSettled (RetMessageSettled J) root
    (ascii "retMessages") res.retMessageCount.toInt res.retMessages)
    (decodeDispM31CommandResponse J jsonStr)

def M32Settled : Prop :=
  SettledBy J jsonStr (fun root res => ListSettled (RetMessageSettled J) root
    (ascii "retMessages") res.retMessageCount.toInt res.retMessages)
    (decodeDispM32CommandResponse J jsonStr)

/-- Whatever was there before. -/
def M40Settled : Prop :=
  ∀ stack, SettledBy J jsonStr (fun root res => RetMessageSettled J root res.toRetMessageObject ∧
    Holds J root (ascii "behaviorUsed") res.behaviorUsed)
    (decodeDispM40CommandResponse J stack jsonStr)

def M41Settled : Prop :=
  ∀ stack, SettledBy J jsonStr (fun root res => RetMessageSettled J root res.toRetMessageObject)
    (decodeDispM41CommandResponse J R stack jsonStr)

def S40Settled : Prop :=
  SettledBy J jsonStr (fun root res => ListSettled (ElementSettled J) root
    (ascii "displayPoolList") res.displayPoolCount.toNat res.displayPoolList)
    (decodeDispS40StatusResponse J R jsonStr)

/-! ## Texts that fit

The condition, for each kind of structure. -/

/-- The text of the member is shorter than its array. -/
def Fits (n : Nat) (obj : Json) (key : Bytes) : Prop := (memberText J obj key).strlen < n

/-- The member is there. -/
def Present (obj : Json) (key : Bytes) : Prop := (obj.get? key).isSome

instance (obj : Json) (key : Bytes) : Decidable (Present obj key) :=
  inferInstanceAs (Decidable (_ = true))

/-- The texts of a message are shorter than their arrays. -/
structure RetMessageFits (obj : Json) : Prop where
  msgId : Fits J 64 obj (ascii "msgId")
  code : Fits J 32 (statusOf obj) (ascii "code")
  rea : Fits J 256 (statusOf obj) (ascii "rea")

/-- The members of a message are there. -/
structure RetMessagePresent (obj : Json) : Prop where
  msgId : Present obj (ascii "msgId")
  code : Present (statusOf obj) (ascii "code")
  rea : Present (statusOf obj) (ascii "rea")

/-- The members of an element that are copied have a text. -/
structure ElementCopyable (obj : Json) : Prop where
  msgId : HasText J obj (ascii "msgId")
  dynamicData : HasText J obj (ascii "dynamicData")

/-- The texts of an element are shorter than their arrays. -/
structure ElementFits (obj : Json) : Prop where
  msgId : Fits J 64 obj (ascii "msgId")
  dynamicData : Fits J 128 obj (ascii "dynamicData")

/-- Where the messages are decoded, there are fewer than `2 ^ 31` of them and their texts fit. -/
def MessagesFit : Prop :=
  ∀ root objs, jsonTokenerParse J jsonStr = .ok root →
    root.get? (ascii "retMessages") = some (.arr objs) →
    (∀ obj ∈ objs.take (Int32.ofNat objs.length).toNatClampNeg, Copyable J obj) →
      objs.length < 2 ^ 31 ∧ ∀ obj ∈ objs, RetMessageFits J obj

/-- Where the elements are decoded, there are fewer than `2 ^ 32` of them and their texts fit. -/
def ElementsFit : Prop :=
  ∀ root objs, jsonTokenerParse J jsonStr = .ok root →
    root.get? (ascii "displayPoolList") = some (.arr objs) →
    (∀ obj ∈ objs.take (UInt32.ofNat objs.length).toNat, ElementCopyable J obj) →
      objs.length < 2 ^ 32 ∧ ∀ obj ∈ objs, ElementFits J obj

/-- Where the message is decoded, its members are there and their texts fit. -/
def MessageFits : Prop :=
  ∀ root, jsonTokenerParse J jsonStr = .ok root → Copyable J root →
    RetMessagePresent root ∧ RetMessageFits J root

/-- So is the behaviour of `M40`. -/
def BehaviorFits : Prop :=
  ∀ root, jsonTokenerParse J jsonStr = .ok root → Copyable J root →
    Present root (ascii "behaviorUsed") ∧ Fits J 16 root (ascii "behaviorUsed")

end Settled

/-! ## Members

A member that is copied over an array, whatever the array held. -/

section Members

variable (J : JsonLib) {n : Nat} (obj : Json) (key : Bytes)

/-! ### One member

A copy with `strncpy` leaves a NUL exactly when the text is shorter than the array. A member that
is missing leaves the array as it was: without NUL, if so it was on the stack. -/

/-- What a copy leaves of an array. -/
def overlaid (a : Lib.CharArray n) : Lib.CharArray n :=
  if Present obj key then a.strncpy (memberText J obj key) le_rfl else a

variable {obj key}

theorem copied_eq_overlaid (h : HasText J obj key) (a : Lib.CharArray n) :
    copied J le_rfl obj key a = overlaid J obj key a := by
  cases hvalue : obj.get? key with
  | none => simp [copied, overlaid, Present, hvalue]
  | some value =>
    cases htext : jsonObjectGetString J value with
    | none => exact absurd htext (h value hvalue)
    | some s =>
      have hmember : memberText J obj key = s := by simp [memberText, hvalue, htext]
      simp [copied, overlaid, Present, hvalue, htext, hmember]

theorem copyBehavior_eq_overlaid (a : Lib.CharArray 16) :
    copyBehavior J obj a = overlaid J obj (ascii "behaviorUsed") a := by
  cases hvalue : obj.get? (ascii "behaviorUsed") with
  | none => simp [copyBehavior, overlaid, Present, hvalue]
  | some value => simp [copyBehavior, overlaid, Present, memberText, hvalue]

/-- Nothing is copied of nothing. -/
theorem overlaid_null (key : Bytes) (a : Lib.CharArray n) : overlaid J .null key a = a :=
  if_neg Bool.false_ne_true

theorem memberText_of_not_present (h : ¬ Present obj key) :
    memberText J obj key = ⟨[], List.not_mem_nil⟩ := by
  rw [Present, Option.not_isSome_iff_eq_none] at h
  rw [memberText, h]
  rfl

/-- A member that is there has to fit; one that is missing leaves what was there. -/
theorem holds_overlaid_iff (a : Lib.CharArray n) :
    Holds J obj key (overlaid J obj key a) ↔
      if Present obj key then Fits J n obj key else a.read = .ok ⟨[], List.not_mem_nil⟩ := by
  rw [Holds, overlaid]
  split
  · constructor
    · intro h
      exact (CharArray.terminated_strncpy a).mp (CharArray.read_eq_ok h).1
    · exact CharArray.read_strncpy a
  · next h => rw [memberText_of_not_present J h]

/-- An array of NULs holds nothing. -/
theorem read_zero (hn : 0 < n) :
    (CharArray.zero : Lib.CharArray n).read = .ok ⟨[], List.not_mem_nil⟩ := by
  refine CharArray.Blank.read ?_
  cases n with
  | zero => exact absurd hn (lt_irrefl 0)
  | succ n => rfl

/-- An array without NUL. -/
def full : Lib.CharArray n := ⟨List.replicate n 1, List.length_replicate⟩

theorem read_full : (full : Lib.CharArray n).read = .fault := by
  refine if_neg fun h => ?_
  exact absurd (List.eq_of_mem_replicate h) (by decide)

/-- **A member of a list**, whose array was filled with NULs. -/
theorem holds_zero_iff (hn : 0 < n) :
    Holds J obj key (overlaid J obj key (.zero : Lib.CharArray n)) ↔ Fits J n obj key := by
  rw [holds_overlaid_iff]
  split
  · rfl
  · next h =>
    refine iff_of_true (read_zero hn) ?_
    rw [Fits, memberText_of_not_present J h]
    exact hn

/-- **A member on the stack**, which holds anything before. -/
theorem holds_any_iff :
    (∀ a : Lib.CharArray n, Holds J obj key (overlaid J obj key a)) ↔
      Present obj key ∧ Fits J n obj key := by
  constructor
  · intro h
    have hfull := (holds_overlaid_iff J full).mp (h full)
    split at hfull
    · next hpresent => exact ⟨hpresent, hfull⟩
    · rw [read_full] at hfull
      cases hfull
  · rintro ⟨hpresent, hfits⟩ a
    rw [holds_overlaid_iff, if_pos hpresent]
    exact hfits

end Members

/-! ## Messages and elements

The members of a structure, one after the other. -/

section Messages

variable (J : JsonLib) (R : JsonReads) {obj : Json}

/-- What a copy of the members leaves of a message. -/
def messageOver (obj : Json) (res : RetMessageObject) : RetMessageObject :=
  ⟨overlaid J obj (ascii "msgId") res.msgId,
    ⟨overlaid J (statusOf obj) (ascii "code") res.retStatus.code,
      overlaid J (statusOf obj) (ascii "rea") res.retStatus.rea⟩⟩

theorem retMessageOf_eq (h : Copyable J obj) (res : RetMessageObject) :
    retMessageOf J obj res = messageOver J obj res := by
  obtain ⟨hmsgId, hcode, hrea⟩ := h
  rw [retMessageOf, messageOver, copied_eq_overlaid J hmsgId]
  congr 1
  cases hstatus : obj.get? (ascii "retStatus") with
  | none => simp only [retStatusOf, statusOf, hstatus, Option.getD_none, overlaid_null]
  | some retStatus =>
    simp only [retStatusOf, statusOf, hstatus, Option.getD_some]
    rw [copied_eq_overlaid J (hcode retStatus hstatus),
      copied_eq_overlaid J (hrea retStatus hstatus)]

theorem decodeRetMessage_over (obj : Json) (res : RetMessageObject) :
    (decodeRetMessage J obj res).Decides (Copyable J obj) (messageOver J obj res) := by
  rcases decodeRetMessage_decides J obj res with ⟨hcopy, h⟩ | ⟨hcopy, h⟩
  · rw [retMessageOf_eq J hcopy] at h
    exact .inl ⟨hcopy, h⟩
  · exact .inr ⟨hcopy, h⟩

/-- A message of a list. -/
theorem messageOver_zero_iff (obj : Json) :
    RetMessageSettled J obj (messageOver J obj .zero) ↔ RetMessageFits J obj := by
  constructor
  · rintro ⟨hmsgId, hcode, hrea⟩
    exact ⟨(holds_zero_iff J (by decide)).mp hmsgId, (holds_zero_iff J (by decide)).mp hcode,
      (holds_zero_iff J (by decide)).mp hrea⟩
  · rintro ⟨hmsgId, hcode, hrea⟩
    exact ⟨(holds_zero_iff J (by decide)).mpr hmsgId, (holds_zero_iff J (by decide)).mpr hcode,
      (holds_zero_iff J (by decide)).mpr hrea⟩

/-- A message on the stack. -/
theorem messageOver_any_iff (obj : Json) :
    (∀ res, RetMessageSettled J obj (messageOver J obj res)) ↔
      RetMessagePresent obj ∧ RetMessageFits J obj := by
  constructor
  · intro h
    -- each array is taken for itself, between arrays of NULs
    have hmsgId := (holds_any_iff J).mp fun a => (h ⟨a, .zero, .zero⟩).msgId
    have hcode := (holds_any_iff J).mp fun a => (h ⟨.zero, a, .zero⟩).code
    have hrea := (holds_any_iff J).mp fun a => (h ⟨.zero, .zero, a⟩).rea
    exact ⟨⟨hmsgId.1, hcode.1, hrea.1⟩, ⟨hmsgId.2, hcode.2, hrea.2⟩⟩
  · rintro ⟨⟨hmsgId, hcode, hrea⟩, ⟨fmsgId, fcode, frea⟩⟩ res
    exact ⟨(holds_any_iff J).mpr ⟨hmsgId, fmsgId⟩ _, (holds_any_iff J).mpr ⟨hcode, fcode⟩ _,
      (holds_any_iff J).mpr ⟨hrea, frea⟩ _⟩

/-- What a copy of the members leaves of an element of NULs. -/
def elementOf (elem : Json) : DisplayPoolElementObject Lib.CharArray where
  msgId := overlaid J elem (ascii "msgId") .zero
  maxWaitTime := (getIntMember R elem (ascii "maxWaitTime") 0).toUInt32
  maxWaitTimeRemain := (getIntMember R elem (ascii "maxWaitTimeRemain") 0).toUInt32
  displayDuration := (getIntMember R elem (ascii "displayDuration") 0).toUInt32
  displayDurationRemain := (getIntMember R elem (ascii "displayDurationRemain") 0).toUInt32
  displayPriority := (getIntMember R elem (ascii "displayPriority") 0).toUInt32
  dynamicData := overlaid J elem (ascii "dynamicData") .zero

theorem decodeDisplayPoolElement_decides (elem : Json) :
    (decodeDisplayPoolElement J R elem).Decides (ElementCopyable J elem) (elementOf J R elem) := by
  rcases copyMember_decides J le_rfl elem (ascii "msgId") (.zero : Lib.CharArray 64) with
    ⟨hmsgId, hcopyId⟩ | ⟨hmsgId, hcopyId⟩
  · rcases copyMember_decides J le_rfl elem (ascii "dynamicData") (.zero : Lib.CharArray 128) with
      ⟨hdata, hcopy⟩ | ⟨hdata, hcopy⟩
    · refine .inl ⟨⟨hmsgId, hdata⟩, ?_⟩
      rw [decodeDisplayPoolElement, hcopyId, Outcome.ok_bind, hcopy, Outcome.ok_bind,
        copied_eq_overlaid J hmsgId, copied_eq_overlaid J hdata]
      rfl
    · refine .inr ⟨fun h => hdata h.dynamicData, ?_⟩
      rw [decodeDisplayPoolElement, hcopyId, Outcome.ok_bind, hcopy, Outcome.fault_bind]
  · refine .inr ⟨fun h => hmsgId h.msgId, ?_⟩
    rw [decodeDisplayPoolElement, hcopyId, Outcome.fault_bind]

/-- An element of a list. -/
theorem elementOf_iff (elem : Json) :
    ElementSettled J elem (elementOf J R elem) ↔ ElementFits J elem := by
  constructor
  · rintro ⟨hmsgId, hdata⟩
    exact ⟨(holds_zero_iff J (by decide)).mp hmsgId, (holds_zero_iff J (by decide)).mp hdata⟩
  · rintro ⟨hmsgId, hdata⟩
    exact ⟨(holds_zero_iff J (by decide)).mpr hmsgId, (holds_zero_iff J (by decide)).mpr hdata⟩

end Messages

/-! ## Texts

From the members to the text of a whole answer, through lists and single structures. -/

section Texts

variable {J : JsonLib} {R : JsonReads} {jsonStr : Bytes} {α : Type}

/-! ### Lists

The length of a JSON array is cut to the type of the count, and as many items are decoded as the
count then says. So the count is the length for arrays that are shorter than that. -/

/-- It is enough to look at the value of the text. -/
theorem settledBy_bind {settled : Json → α → Prop} {decode : Json → Outcome α} :
    SettledBy J jsonStr settled (jsonTokenerParse J jsonStr >>= decode) ↔
      ∀ root, jsonTokenerParse J jsonStr = .ok root →
        ∀ res, decode root = .ok res → settled root res := by
  constructor
  · intro h root hroot res hres
    obtain ⟨root', hroot', hsettled⟩ := h res (by rw [hroot]; exact hres)
    rw [hroot] at hroot'
    rwa [Outcome.ok.inj hroot']
  · intro h res hres
    obtain ⟨root, hroot, hdecode⟩ := Outcome.bind_eq_ok.mp hres
    exact ⟨root, hroot, h root hroot res hdecode⟩

/-- The items of an array, up to a count, if this counts them all under `P`. -/
theorem items_settled_iff {f : Json → Outcome α} {copyable fits : Json → Prop} {g : Json → α}
    {settled : Json → α → Prop} (hf : ∀ obj, (f obj).Decides (copyable obj) (g obj))
    (hg : ∀ obj, settled obj (g obj) ↔ fits obj) {objs : List Json} {count : Nat} {P : Prop}
    (hP : P → count = objs.length) :
    (∀ res, (objs.take count).mapM f = .ok res → P ∧ List.Forall₂ settled objs res) ↔
      ((∀ obj ∈ objs.take count, copyable obj) → P ∧ ∀ obj ∈ objs, fits obj) := by
  have hmap := Outcome.Decides.mapM (objs.take count) hf
  have hitems : P → (List.Forall₂ settled objs ((objs.take count).map g) ↔
      ∀ obj ∈ objs, fits obj) := by
    intro hall
    rw [hP hall, List.take_length, List.forall₂_map_right_iff, List.forall₂_same]
    exact forall₂_congr fun obj _ => hg obj
  constructor
  · intro h hcopy
    obtain ⟨hall, hsettled⟩ := h _ (hmap.eq_ok hcopy)
    exact ⟨hall, (hitems hall).mp hsettled⟩
  · intro h res hres
    rcases hmap with ⟨hcopy, hok⟩ | ⟨-, hfault⟩
    · rw [hok] at hres
      obtain rfl := Outcome.ok.inj hres
      obtain ⟨hall, hfits⟩ := h hcopy
      exact ⟨hall, (hitems hall).mpr hfits⟩
    · rw [hfault] at hres
      cases hres

/-- The items under a name. -/
theorem array_eq_ok {root : Json} {key : Bytes} {f : List Json → Outcome α} {res : α} :
    (Outcome.ofOption (root.get? key) >>= fun list => jsonObjectArray list >>= f) = .ok res ↔
      ∃ objs, root.get? key = some (.arr objs) ∧ f objs = .ok res := by
  simp only [Outcome.bind_eq_ok, Outcome.ofOption_eq_ok]
  constructor
  · rintro ⟨list, hlist, objs, hobjs, hres⟩
    cases list with
    | arr items =>
      obtain rfl := Outcome.ok.inj hobjs
      exact ⟨_, hlist, hres⟩
    | _ => cases hobjs
  · rintro ⟨objs, hlist, hres⟩
    exact ⟨_, hlist, objs, rfl, hres⟩

/-- The result of a decoder, as another structure. -/
theorem settledBy_map {β : Type} {settled : Json → β → Prop} {x : Outcome α} {make : α → β} :
    SettledBy J jsonStr settled (x >>= fun a => pure (make a)) ↔
      SettledBy J jsonStr (fun root a => settled root (make a)) x := by
  constructor
  · intro h a ha
    exact h (make a) (by rw [ha]; rfl)
  · intro h res hres
    obtain ⟨a, ha, hmake⟩ := Outcome.bind_eq_ok.mp hres
    obtain rfl := Outcome.ok.inj hmake
    exact h a ha

/-- How the items under a name are decoded, up to their count. -/
def decodeItems {κ : Type} (key : Bytes) (f : Json → Outcome α) (count : Nat → κ) (upTo : κ → Nat)
    (root : Json) : Outcome (List α × κ) := do
  let list ← Outcome.ofOption (root.get? key)
  let objs ← jsonObjectArray list
  let items ← (objs.take (upTo (count objs.length))).mapM f
  return (items, count objs.length)

/-- **A list that is decoded** is settled where its count is its length and its items fit. -/
theorem list_settled_iff {κ : Type} {key : Bytes} {f : Json → Outcome α} {count : Nat → κ}
    {upTo : κ → Nat} (value : κ → Int) {bound : Nat} {copyable fits : Json → Prop} {g : Json → α}
    {settled : Json → α → Prop} (hf : ∀ obj, (f obj).Decides (copyable obj) (g obj))
    (hg : ∀ obj, settled obj (g obj) ↔ fits obj) (hvalue : ∀ n, value (count n) = n ↔ n < bound)
    (hupTo : ∀ n < bound, upTo (count n) = n) :
    SettledBy J jsonStr (fun root res => ListSettled settled root key (value res.2) res.1)
        (jsonTokenerParse J jsonStr >>= decodeItems key f count upTo) ↔
      ∀ root objs, jsonTokenerParse J jsonStr = .ok root → root.get? key = some (.arr objs) →
        (∀ obj ∈ objs.take (upTo (count objs.length)), copyable obj) →
          objs.length < bound ∧ ∀ obj ∈ objs, fits obj := by
  rw [settledBy_bind]
  constructor
  · intro h root objs hroot hobjs
    refine (items_settled_iff hf hg (hupTo _)).mp fun items hitems => ?_
    have hdecode : decodeItems key f count upTo root = .ok (items, count objs.length) :=
      array_eq_ok.mpr ⟨objs, hobjs, by rw [hitems]; rfl⟩
    obtain ⟨objs', hobjs', hcount, hsettled⟩ := h root hroot _ hdecode
    obtain rfl : objs = objs' := by
      rw [hobjs] at hobjs'
      exact Json.arr.inj (Option.some.inj hobjs')
    exact ⟨(hvalue _).mp hcount, hsettled⟩
  · intro h root hroot res hres
    obtain ⟨objs, hobjs, hres⟩ := array_eq_ok.mp hres
    obtain ⟨items, hitems, hres⟩ := Outcome.bind_eq_ok.mp hres
    obtain rfl := Outcome.ok.inj hres
    obtain ⟨hlt, hsettled⟩ :=
      (items_settled_iff hf hg (hupTo _)).mpr (h root objs hroot hobjs) items hitems
    exact ⟨objs, hobjs, (hvalue _).mpr hlt, hsettled⟩

theorem int32_count_iff (n : Nat) : (Int32.ofNat n).toInt = n ↔ n < 2 ^ 31 := by
  constructor
  · intro h
    have := (Int32.ofNat n).toInt_lt
    omega
  · exact Int32.toInt_ofNat_of_lt

theorem uint32_count_iff (n : Nat) : ((UInt32.ofNat n).toNat : Int) = n ↔ n < 2 ^ 32 := by
  rw [UInt32.toNat_ofNat']
  omega

/-- The list of messages of a text. -/
theorem retMessages_settled_iff :
    SettledBy J jsonStr (fun root res => ListSettled (RetMessageSettled J) root
        (ascii "retMessages") res.2.toInt res.1)
      (jsonTokenerParse J jsonStr >>= decodeRetMessages J) ↔ MessagesFit J jsonStr := by
  have hupTo : ∀ n < 2 ^ 31, (Int32.ofNat n).toNatClampNeg = n := by
    intro n hn
    rw [Int32.toNatClampNeg, Int32.toInt_ofNat_of_lt hn, Int.toNat_natCast]
  exact list_settled_iff Int32.toInt (fun obj => decodeRetMessage_over J obj .zero)
    (messageOver_zero_iff J) int32_count_iff hupTo

/-! ### The five answers

M31, M32 and S40 are lists, whose structures `calloc` has cleared. M40 and M41 are single
structures on the stack, for which all members have to be there. -/

theorem m31_settled_iff : M31Settled J jsonStr ↔ MessagesFit J jsonStr := by
  have hdecode : decodeDispM31CommandResponse J jsonStr =
      (jsonTokenerParse J jsonStr >>= decodeRetMessages J) >>= fun p => pure ⟨p.1, p.2⟩ := by
    rw [bind_assoc]
    rfl
  rw [M31Settled, hdecode, settledBy_map]
  exact retMessages_settled_iff

theorem m32_settled_iff : M32Settled J jsonStr ↔ MessagesFit J jsonStr := by
  have hdecode : decodeDispM32CommandResponse J jsonStr =
      (jsonTokenerParse J jsonStr >>= decodeRetMessages J) >>= fun p => pure ⟨p.1, p.2⟩ := by
    rw [bind_assoc]
    rfl
  rw [M32Settled, hdecode, settledBy_map]
  exact retMessages_settled_iff

theorem s40_settled_iff : S40Settled J R jsonStr ↔ ElementsFit J jsonStr := by
  have hroot (root : Json) : decodeDisplayPool J R root =
      decodeItems (ascii "displayPoolList") (decodeDisplayPoolElement J R) UInt32.ofNat
        UInt32.toNat root >>= fun p => pure ⟨p.1, p.2⟩ := by
    simp only [decodeDisplayPool, decodeItems, bind_assoc, pure_bind]
  have hdecode : decodeDispS40StatusResponse J R jsonStr =
      (jsonTokenerParse J jsonStr >>= decodeItems (ascii "displayPoolList")
        (decodeDisplayPoolElement J R) UInt32.ofNat UInt32.toNat) >>=
          fun p => pure ⟨p.1, p.2⟩ := by
    rw [decodeDispS40StatusResponse, bind_assoc]
    exact congrArg _ (funext hroot)
  have hupTo : ∀ n < 2 ^ 32, (UInt32.ofNat n).toNat = n := by
    intro n hn
    rw [UInt32.toNat_ofNat', Nat.mod_eq_of_lt hn]
  rw [S40Settled, hdecode, settledBy_map]
  exact list_settled_iff (fun count => count.toNat) (decodeDisplayPoolElement_decides J R)
    (elementOf_iff J R) uint32_count_iff hupTo

/-- A message on the stack, with what is decoded beside it. -/
theorem settledBy_message_iff {β : Type} {res : RetMessageObject}
    {make : Json → RetMessageObject → β} {settled : Json → β → Prop} :
    SettledBy J jsonStr settled (jsonTokenerParse J jsonStr >>= fun root =>
        decodeRetMessage J root res >>= fun message => pure (make root message)) ↔
      ∀ root, jsonTokenerParse J jsonStr = .ok root → Copyable J root →
        settled root (make root (messageOver J root res)) := by
  rw [settledBy_bind]
  refine forall₂_congr fun root _ => ?_
  have hmake := (decodeRetMessage_over J root res).map (make root)
  constructor
  · intro h hcopy
    exact h _ (hmake.eq_ok hcopy)
  · intro h message hmessage
    rcases hmake with ⟨hcopy, hok⟩ | ⟨-, hfault⟩
    · rw [hok] at hmessage
      obtain rfl := Outcome.ok.inj hmessage
      exact h hcopy
    · rw [hfault] at hmessage
      cases hmessage

theorem m41_settled_iff : M41Settled J R jsonStr ↔ MessageFits J jsonStr := by
  have hsettled (stack : DispM41CommandResponse) :
      SettledBy J jsonStr (fun root res => RetMessageSettled J root res.toRetMessageObject)
          (decodeDispM41CommandResponse J R stack jsonStr) ↔
        ∀ root, jsonTokenerParse J jsonStr = .ok root → Copyable J root →
          RetMessageSettled J root (messageOver J root stack.toRetMessageObject) :=
    settledBy_message_iff
  rw [M41Settled, forall_congr' hsettled]
  constructor
  · intro h root hroot hcopy
    exact (messageOver_any_iff J root).mp fun res => h ⟨res, 0⟩ root hroot hcopy
  · intro h stack root hroot hcopy
    exact (messageOver_any_iff J root).mpr (h root hroot hcopy) _

theorem m40_settled_iff :
    M40Settled J jsonStr ↔ MessageFits J jsonStr ∧ BehaviorFits J jsonStr := by
  have hsettled (stack : DispM40CommandResponse) :
      SettledBy J jsonStr (fun root res => RetMessageSettled J root res.toRetMessageObject ∧
          Holds J root (ascii "behaviorUsed") res.behaviorUsed)
          (decodeDispM40CommandResponse J stack jsonStr) ↔
        ∀ root, jsonTokenerParse J jsonStr = .ok root → Copyable J root →
          RetMessageSettled J root (messageOver J root stack.toRetMessageObject) ∧
            Holds J root (ascii "behaviorUsed") (copyBehavior J root stack.behaviorUsed) :=
    settledBy_message_iff
  rw [M40Settled, forall_congr' hsettled]
  simp only [copyBehavior_eq_overlaid]
  constructor
  · intro h
    constructor
    · intro root hroot hcopy
      exact (messageOver_any_iff J root).mp fun res => (h ⟨res, .zero⟩ root hroot hcopy).1
    · intro root hroot hcopy
      exact (holds_any_iff J).mp fun a => (h ⟨.zero, a⟩ root hroot hcopy).2
  · rintro ⟨hmessage, hbehavior⟩ stack root hroot hcopy
    exact ⟨(messageOver_any_iff J root).mpr (hmessage root hroot hcopy) _,
      (holds_any_iff J).mpr (hbehavior root hroot hcopy) _⟩

variable (J R jsonStr)

/-- **The decoders leave settled answers** of the texts that fit, and of `M40` and `M41` where no
member is missing. -/
theorem decoders_settle_iff :
    (M31Settled J jsonStr ↔ MessagesFit J jsonStr) ∧
    (M32Settled J jsonStr ↔ MessagesFit J jsonStr) ∧
    (M40Settled J jsonStr ↔ MessageFits J jsonStr ∧ BehaviorFits J jsonStr) ∧
    (M41Settled J R jsonStr ↔ MessageFits J jsonStr) ∧
    (S40Settled J R jsonStr ↔ ElementsFit J jsonStr) :=
  ⟨m31_settled_iff, m32_settled_iff, m40_settled_iff, m41_settled_iff, s40_settled_iff⟩

end Texts

/-- An object without members: the answer is what the stack was, here an array without NUL. -/
theorem empty_not_settled :
    ¬ M40Settled (.ofValues [.obj []]) ((Json.obj []).toText ++ [0]) := by
  intro h
  obtain ⟨root, -, hsettled, -⟩ := h ⟨⟨full, ⟨full, full⟩⟩, full⟩ _ rfl
  have hread : (full : Lib.CharArray 64).read = .ok _ := hsettled.msgId
  rw [read_full] at hread
  cases hread

/-! ## What the handlers read

The decoders of `Rsmp/Display.lean` are parts of those of this module. -/

section Parts

variable (J : JsonLib) (R : JsonReads) (jsonStr : Bytes)

theorem decodeDispM40_part (res : DispM40CommandResponse) :
    Rsmp.decodeDispM40CommandResponse J jsonStr res.toRetMessageObject =
      decodeDispM40CommandResponse J res jsonStr >>= fun res => pure res.toRetMessageObject := by
  simp only [Rsmp.decodeDispM40CommandResponse, decodeDispM40CommandResponse, bind_assoc,
    pure_bind, bind_pure]

theorem decodeDispM41_part (res : DispM41CommandResponse) :
    Rsmp.decodeDispM41CommandResponse J jsonStr res.toRetMessageObject =
      decodeDispM41CommandResponse J R res jsonStr >>= fun res => pure res.toRetMessageObject := by
  simp only [Rsmp.decodeDispM41CommandResponse, decodeDispM41CommandResponse, bind_assoc,
    pure_bind, bind_pure]

theorem decodeDispS30_part : Rsmp.decodeDispS30StatusResponse J jsonStr =
    decodeDispS30StatusResponse J jsonStr >>= fun res => pure res.msgIdList := by
  simp only [Rsmp.decodeDispS30StatusResponse, decodeDispS30StatusResponse, decodeMsgIdList,
    bind_assoc, pure_bind, bind_pure]

theorem decodeDispS10_part : Rsmp.decodeDispS10StatusResponse J jsonStr =
    decodeDispS10StatusResponse J R jsonStr >>= fun res =>
      pure ⟨res.displayType, res.templateType⟩ := by
  simp only [Rsmp.decodeDispS10StatusResponse, decodeDispS10StatusResponse, Rsmp.decodeTypes,
    decodeTypes, bind_assoc, pure_bind]

theorem decodeDisplayPoolElement_part (elem : Json) : Rsmp.decodeDisplayPoolElement J elem =
    decodeDisplayPoolElement J R elem >>= fun elem => pure elem.msgId := by
  simp only [Rsmp.decodeDisplayPoolElement, decodeDisplayPoolElement, bind_assoc, pure_bind]

end Parts

end RsmpGateway.Rsmp.Disp
