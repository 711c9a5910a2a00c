import RsmpGateway.Lib.Traverse
import RsmpGateway.Rsmp.Json

/-!
# What the decoder makes of a payload

A payload whose header is refused gives no message. Past the header, the decoder does as it
should exactly when the type is described, every field is there and is decoded, and no `v` of an
array has a character (`payload2msg_contract_iff`): an error returns a message that was freed,
and the rest stops the process.

The same case analysis answers the question of hostile payloads (`payload2msg_total_iff`): the
decoder is safe and returns a message or null unless a type without description comes, or a value
that is no array stands where an array is described and is the first thing that is wrong.

What a field does is known by its end (`FieldEnd`), and the ends of the fields are put together
along the table of the message, in the order of the description.
-/

namespace RsmpGateway.Rsmp

open RsmpGateway.Lib RsmpGateway.Auth RsmpGateway.Coder

variable {X : RsmpExt}

/-! ## One field

A codec is asked three things: whether it accepts the value, whether the value is an empty `v`,
and whether the structure has declared the `v`. -/

/-- The value is decoded without error. -/
def Codec.Accepts (X : RsmpExt) (c : Codec) (v : Json) : Prop :=
  jsonExtractField X c v c.zero ≠ .error .error

/-- The value of a `v` has no character. -/
def Codec.EmptyV : Codec → Json → Prop
  | v, value => ∀ s, value = .str s → s = []
  | _, _ => True

/-- A `v` that no constructor has declared. -/
def Codec.Unsized : (c : Codec) → c.Ty → Prop
  | v, x => x.itemLen = 0
  | _, _ => True

theorem Codec.zero_unsized (c : Codec) : c.Unsized c.zero := by
  cases c <;> first | rfl | trivial

/-- Whether a field is decoded, and which way it fails. -/
inductive FieldEnd (X : RsmpExt) (c : Codec) (v : Json) : Except Stop c.Ty → Prop
  | ok {x} : c.Accepts X v → c.EmptyV v → FieldEnd X c v (.ok x)
  | error : ¬ c.Accepts X v → FieldEnd X c v (.error .error)
  | overflow : c.Accepts X v → ¬ c.EmptyV v → FieldEnd X c v (.error .overflow)

/-- What a codec other than that of `v` does depends on the variable alone. -/
theorem Codec.decode_end (X : RsmpExt) {c : Codec} (hc : c ≠ .v) {var : Var}
    (hvar : var ≠ .string none) (x y : c.Ty) :
    (∃ x' y', c.decode X var x = .ok x' ∧ c.decode X var y = .ok y') ∨
      (c.decode X var x = .error .error ∧ c.decode X var y = .error .error) := by
  rcases var with b | (_ | t) | _
  · -- a boolean: taken by its own codec, and by those that leave what is there
    cases c with
    | enum lib strict =>
      cases strict <;> first | exact .inl ⟨_, _, rfl, rfl⟩ | exact .inr ⟨rfl, rfl⟩
    | _ => first | exact .inl ⟨_, _, rfl, rfl⟩ | exact .inr ⟨rfl, rfl⟩
  · exact absurd rfl hvar
  · cases c with
    | v => exact absurd rfl hc
    | str => exact .inl ⟨_, _, rfl, rfl⟩
    | bool => exact .inr ⟨rfl, rfl⟩
    | mType =>
      simp only [decode, mTypeDecode]
      split
      · exact .inl ⟨_, _, rfl, rfl⟩
      · exact .inr ⟨rfl, rfl⟩
    | type =>
      simp only [decode, typeDecode]
      split
      · exact .inl ⟨_, _, rfl, rfl⟩
      · exact .inr ⟨rfl, rfl⟩
    | uuid =>
      simp only [decode, uuidDecode]
      split
      · exact .inl ⟨_, _, rfl, rfl⟩
      · split
        · exact .inl ⟨_, _, rfl, rfl⟩
        · exact .inr ⟨rfl, rfl⟩
    | ts =>
      simp only [decode, tsDecode]
      split
      · exact .inl ⟨_, _, rfl, rfl⟩
      · exact .inr ⟨rfl, rfl⟩
    | enum lib strict =>
      simp only [decode, enumDecode]
      split
      · exact .inl ⟨_, _, rfl, rfl⟩
      · exact .inr ⟨rfl, rfl⟩
  · -- a string: each codec looks at it
    cases c with
    | enum lib strict =>
      cases strict <;> first | exact .inl ⟨_, _, rfl, rfl⟩ | exact .inr ⟨rfl, rfl⟩
    | _ => first | exact .inl ⟨_, _, rfl, rfl⟩ | exact .inr ⟨rfl, rfl⟩

theorem json2vars_ne (v : Json) : json2vars v ≠ some (.string none) := by
  cases v <;> exact nofun

theorem fieldEnd (X : RsmpExt) {c : Codec} {x : c.Ty} (hx : c.Unsized x) (v : Json) :
    FieldEnd X c v (jsonExtractField X c v x) := by
  by_cases hc : c = .v
  · subst hc
    have hvlen : x.itemLen = 0 := hx
    cases v with
    | str s =>
      have haccepts : Codec.v.Accepts X (.str s) := by
        show vDecode (.string (some s)) ⟨[], 0⟩ ≠ _
        simp only [vDecode]
        split <;> exact nofun
      show FieldEnd X .v (.str s) (vDecode (.string (some s)) x)
      simp only [vDecode, hvlen, Nat.mul_zero, Option.getD_some, List.length_pos_iff]
      split
      · next hne => exact .overflow haccepts fun h => hne (h s rfl)
      · next hnil =>
        refine .ok haccepts ?_
        rintro _ ⟨⟩
        simpa using hnil
    | obj _ => exact .error fun h => h rfl
    | arr _ => exact .error fun h => h rfl
    | _ => exact .ok nofun nofun
  · have hempty : c.EmptyV v := by cases c <;> trivial
    unfold jsonExtractField
    cases hvar : json2vars v with
    | none => exact .error fun h => h (by simp only [jsonExtractField, hvar])
    | some var =>
      have hne : var ≠ .string none := fun h => json2vars_ne v (h ▸ hvar)
      rcases Codec.decode_end X hc hne x c.zero with ⟨x', y, hx', hy⟩ | ⟨hx', hy⟩
      · show FieldEnd X c v (c.decode X var x)
        rw [hx']
        refine .ok ?_ hempty
        simp only [Codec.Accepts, jsonExtractField, hvar, hy]
        exact nofun
      · show FieldEnd X c v (c.decode X var x)
        rw [hx']
        refine .error fun h => h ?_
        simp only [jsonExtractField, hvar, hy]

/-! ### What a field can end in

Read off the cases, for each of the outcomes that the decoder of fields tells apart. -/

theorem FieldEnd.ok_iff {c : Codec} {v : Json} {r : Except Stop c.Ty} (h : FieldEnd X c v r) :
    (∃ x, r = .ok x) ↔ c.Accepts X v ∧ c.EmptyV v := by
  cases h with
  | ok ha he => exact ⟨fun _ => ⟨ha, he⟩, fun _ => ⟨_, rfl⟩⟩
  | error ha => exact ⟨nofun, fun h => absurd h.1 ha⟩
  | overflow _ he => exact ⟨nofun, fun h => absurd h.2 he⟩

theorem FieldEnd.ne_notArray {c : Codec} {v : Json} {r : Except Stop c.Ty}
    (h : FieldEnd X c v r) : r ≠ .error .notArray := by
  cases h <;> exact nofun

theorem FieldEnd.ne_noDescription {c : Codec} {v : Json} {r : Except Stop c.Ty}
    (h : FieldEnd X c v r) : r ≠ .error .noDescription := by
  cases h <;> exact nofun

/-! ## All the fields

By induction on the table. The first field that is not decoded decides which way the whole fails. -/

namespace Fields

/-- Every field is present and decoded without error, in the objects of arrays too. -/
def Decodes (X : RsmpExt) : Fields → Json → Prop
  | nil, _ => True
  | field lib codec rest, jobj =>
    (∃ v, rsmpJsonObjectGet jobj lib = some v ∧ codec.Accepts X v) ∧ rest.Decodes X jobj
  | array lib elems rest, jobj =>
    (∃ values, rsmpJsonObjectGet jobj lib = some (.arr values) ∧
      ∀ value ∈ values, elems.Decodes X value) ∧ rest.Decodes X jobj
  | table lib codec rest, jobj =>
    (∃ values, rsmpJsonObjectGet jobj lib = some (.arr values) ∧
      ∀ value ∈ values, codec.Accepts X value) ∧ rest.Decodes X jobj

/-- No `v` has a character. -/
def EmptyV : Fields → Json → Prop
  | nil, _ => True
  | field lib codec rest, jobj =>
    (∀ v, rsmpJsonObjectGet jobj lib = some v → codec.EmptyV v) ∧ rest.EmptyV jobj
  | array lib elems rest, jobj =>
    (∀ values, rsmpJsonObjectGet jobj lib = some (.arr values) →
      ∀ value ∈ values, elems.EmptyV value) ∧ rest.EmptyV jobj
  | table lib codec rest, jobj =>
    (∀ values, rsmpJsonObjectGet jobj lib = some (.arr values) →
      ∀ value ∈ values, codec.EmptyV value) ∧ rest.EmptyV jobj

/-- No `v` of the structure was declared. -/
def Unsized : (fs : Fields) → fs.Msg → Prop
  | nil, _ => True
  | field _ codec rest, (x, msg) => codec.Unsized x ∧ rest.Unsized msg
  | array _ _ rest, (_, msg) => rest.Unsized msg
  | table _ _ rest, (_, msg) => rest.Unsized msg

theorem zero_unsized (fs : Fields) : fs.Unsized fs.zero := by
  induction fs with
  | nil => trivial
  | field _ codec _ ih => exact ⟨codec.zero_unsized, ih⟩
  | array _ _ _ _ ih => exact ih
  | table _ _ _ ih => exact ih

/-- The fields are decoded exactly when each of them is. -/
theorem jsonExtractFields_ok_iff (X : RsmpExt) (fs : Fields) (jobj : Json) {m : fs.Msg}
    (hm : fs.Unsized m) :
    (∃ m', fs.jsonExtractFields X jobj m = .ok m') ↔ fs.Decodes X jobj ∧ fs.EmptyV jobj := by
  induction fs generalizing jobj with
  | nil => exact ⟨fun _ => ⟨trivial, trivial⟩, fun _ => ⟨m, rfl⟩⟩
  | field lib codec rest ih =>
    obtain ⟨x, m⟩ := m
    have hfield := fun v => (fieldEnd X hm.1 v).ok_iff
    rw [jsonExtractFields, Decodes, EmptyV]
    cases hget : rsmpJsonObjectGet jobj lib with
    | none => simp
    | some v =>
      simp only [pair_ok_iff, ih jobj hm.2, hfield, Option.some.injEq, exists_eq_left', forall_eq']
      exact and_and_and_comm
  | array lib elems rest ihe ih =>
    obtain ⟨x, m⟩ := m
    have helems := fun value => ihe value elems.zero_unsized
    rw [jsonExtractFields, Decodes, EmptyV]
    cases hget : rsmpJsonObjectGet jobj lib with
    | none => simp
    | some v =>
      cases v with
      | arr values =>
        simp only [pair_ok_iff, ih jobj hm, mapM_ok_iff, helems, Option.some.injEq, Json.arr.injEq,
          exists_eq_left', forall_eq', forall_and]
        exact and_and_and_comm
      | _ => simp
  | table lib codec rest ih =>
    obtain ⟨x, m⟩ := m
    have helems := fun v => (fieldEnd X codec.zero_unsized v).ok_iff
    rw [jsonExtractFields, Decodes, EmptyV]
    cases hget : rsmpJsonObjectGet jobj lib with
    | none => simp
    | some v =>
      cases v with
      | arr values =>
        simp only [pair_ok_iff, ih jobj hm, mapM_ok_iff, helems, Option.some.injEq, Json.arr.injEq,
          exists_eq_left', forall_eq', forall_and]
        exact and_and_and_comm
      | _ => simp

/-! ### Values that are no array

The decoder asks for the length of the value of an array field before it knows that it is one. It
comes to that only when all the fields before are decoded, which makes the order of the
description matter. -/

/-- The first value that is not decoded, in the order of the description, is one that is no
array where an array is described. -/
def NonArray (X : RsmpExt) : Fields → Json → Prop
  | nil, _ => False
  | field lib codec rest, jobj =>
    (∃ v, rsmpJsonObjectGet jobj lib = some v ∧ codec.Accepts X v ∧ codec.EmptyV v) ∧
      rest.NonArray X jobj
  | array lib elems rest, jobj =>
    ∃ v, rsmpJsonObjectGet jobj lib = some v ∧
      match v with
      | .arr values =>
        (∃ before value after, values = before ++ value :: after ∧
          (∀ value ∈ before, elems.Decodes X value ∧ elems.EmptyV value) ∧
          elems.NonArray X value) ∨
        (∀ value ∈ values, elems.Decodes X value ∧ elems.EmptyV value) ∧ rest.NonArray X jobj
      | _ => True
  | table lib codec rest, jobj =>
    ∃ v, rsmpJsonObjectGet jobj lib = some v ∧
      match v with
      | .arr values =>
        (∀ value ∈ values, codec.Accepts X value ∧ codec.EmptyV value) ∧ rest.NonArray X jobj
      | _ => True

theorem jsonExtractFields_notArray_iff (X : RsmpExt) (fs : Fields) (jobj : Json) {m : fs.Msg}
    (hm : fs.Unsized m) :
    fs.jsonExtractFields X jobj m = .error .notArray ↔ fs.NonArray X jobj := by
  induction fs generalizing jobj with
  | nil => exact ⟨nofun, nofun⟩
  | field lib codec rest ih =>
    obtain ⟨x, m⟩ := m
    have hfield := fun v => (fieldEnd X hm.1 v).ok_iff
    have hne := fun v => (fieldEnd X hm.1 v).ne_notArray
    rw [jsonExtractFields, NonArray]
    cases hget : rsmpJsonObjectGet jobj lib with
    | none => simp
    | some v =>
      simp only [pair_eq_error, ih jobj hm.2, hfield, hne, false_or, Option.some.injEq,
        exists_eq_left']
  | array lib elems rest ihe ih =>
    obtain ⟨x, m⟩ := m
    have hdecodes := fun value => elems.jsonExtractFields_ok_iff X value elems.zero_unsized
    have helems := fun value => ihe value elems.zero_unsized
    rw [jsonExtractFields, NonArray]
    cases hget : rsmpJsonObjectGet jobj lib with
    | none => simp
    | some v =>
      cases v with
      | arr values =>
        simp only [pair_eq_error, ih jobj hm, mapM_ok_iff, mapM_eq_error, hdecodes, helems,
          Option.some.injEq, exists_eq_left']
      | _ => simp
  | table lib codec rest ih =>
    obtain ⟨x, m⟩ := m
    have hdecodes := fun v => (fieldEnd X codec.zero_unsized v).ok_iff
    have hne := fun v => (fieldEnd X codec.zero_unsized v).ne_notArray
    rw [jsonExtractFields, NonArray]
    cases hget : rsmpJsonObjectGet jobj lib with
    | none => simp
    | some v =>
      cases v with
      | arr values =>
        simp only [pair_eq_error, ih jobj hm, mapM_ok_iff, mapM_eq_error, hdecodes, hne,
          and_false, exists_false, false_or, Option.some.injEq, exists_eq_left']
      | _ => simp

/-- The decoder of fields leaves descriptions to its caller. -/
theorem jsonExtractFields_ne_noDescription (X : RsmpExt) (fs : Fields) (jobj : Json) {m : fs.Msg}
    (hm : fs.Unsized m) : fs.jsonExtractFields X jobj m ≠ .error .noDescription := by
  induction fs generalizing jobj with
  | nil => exact nofun
  | field lib codec rest ih =>
    obtain ⟨x, m⟩ := m
    rw [jsonExtractFields]
    split
    · exact nofun
    · next v _ =>
      rw [ne_eq, pair_eq_error]
      rintro (h | ⟨-, h⟩)
      · exact (fieldEnd X hm.1 v).ne_noDescription h
      · exact ih jobj hm.2 h
  | array lib elems rest ihe ih =>
    obtain ⟨x, m⟩ := m
    rw [jsonExtractFields]
    split
    · exact nofun
    · rw [ne_eq, pair_eq_error, mapM_eq_error]
      rintro (⟨_, value, _, _, _, h⟩ | ⟨-, h⟩)
      · exact ihe value elems.zero_unsized h
      · exact ih jobj hm h
    · exact nofun
  | table lib codec rest ih =>
    obtain ⟨x, m⟩ := m
    rw [jsonExtractFields]
    split
    · exact nofun
    · rw [ne_eq, pair_eq_error, mapM_eq_error]
      rintro (⟨_, value, _, _, _, h⟩ | ⟨-, h⟩)
      · exact (fieldEnd X codec.zero_unsized value).ne_noDescription h
      · exact ih jobj hm h
    · exact nofun

end Fields

theorem MsgType.new_unsized (B : Birth) (t : MsgType) : t.desc.Unsized (t.new B) := by
  cases t <;> repeat' first | exact trivial | constructor

/-! ## Payloads

The header is checked before a message is made; from then on there is a message, which is freed
on an error and returned all the same. -/

/-- The payload passes the checks of its header: it is JSON, its `mType` is that of RSMP and
its type has a name. -/
structure HeaderIs (X : RsmpExt) (payload : Bytes) (jobj : Json) (t : MsgType) : Prop where
  parse : X.json.parse payload = some jobj
  mType : rsmpJsonMTypeCheck jobj = true
  type : rsmpJsonExtractType jobj = some t

theorem HeaderIs.payload2msg {payload : Bytes} {jobj : Json} {t : MsgType}
    (h : HeaderIs X payload jobj t) (B : Birth) :
    rsmpJsonPayload2msg X B payload =
      if t.Described then
        match t.desc.jsonExtractFields X jobj (t.new B) with
        | .ok m => .msg ⟨t, m⟩
        | .error .error => .freed
        | .error s => .stops s
      else .stops .noDescription := by
  simp only [rsmpJsonPayload2msg, h.parse, h.mType, h.type, if_true]
  cases hdesc : t.desc? with
  | none => rw [if_neg (by simp [MsgType.Described, hdesc])]
  | some fs =>
    have hdescribed : t.Described := by simp [MsgType.Described, hdesc]
    exact (if_pos hdescribed).symm

/-! ### From the header to the message

Once the header is passed, what the decoder returns is decided by the fields: the message when
they are decoded, and else, unless it stops, a pointer to the message that was freed. -/

/-- A payload that does not pass gives no message. -/
theorem payload2msg_refused {payload : Bytes} (h : ∀ jobj t, ¬ HeaderIs X payload jobj t)
    (B : Birth) : rsmpJsonPayload2msg X B payload = .null := by
  unfold rsmpJsonPayload2msg
  split
  · rfl
  · next jobj hparse =>
    split
    · next hmType =>
      split
      · rfl
      · next t htype => exact absurd ⟨hparse, hmType, htype⟩ (h jobj t)
    · rfl

theorem HeaderIs.unique {payload : Bytes} {jobj jobj' : Json} {t t' : MsgType}
    (h : HeaderIs X payload jobj t) (h' : HeaderIs X payload jobj' t') : jobj' = jobj ∧ t' = t := by
  obtain rfl : jobj' = jobj := by simpa [h.parse] using h'.parse.symm
  have ht := h'.type
  rw [h.type] at ht
  exact ⟨rfl, (Option.some.inj ht).symm⟩

/-- A message is returned for a payload that passes, is of a described type, and whose fields
are all decoded, no `v` having a character. -/
theorem HeaderIs.msg_iff {payload : Bytes} {jobj : Json} {t : MsgType}
    (h : HeaderIs X payload jobj t) (B : Birth) :
    (∃ m, rsmpJsonPayload2msg X B payload = .msg m) ↔
      t.Described ∧ t.desc.Decodes X jobj ∧ t.desc.EmptyV jobj := by
  rw [h.payload2msg, ← t.desc.jsonExtractFields_ok_iff X jobj (t.new_unsized B)]
  split
  · next hdesc =>
    simp only [hdesc, true_and]
    constructor
    · rintro ⟨m, hm⟩
      split at hm
      · next m' hextract => exact ⟨m', hextract⟩
      · cases hm
      · cases hm
    · rintro ⟨m', hextract⟩
      rw [hextract]
      exact ⟨_, rfl⟩
  · next hdesc => simp [hdesc]

theorem HeaderIs.ne_null {payload : Bytes} {jobj : Json} {t : MsgType}
    (h : HeaderIs X payload jobj t) (B : Birth) : rsmpJsonPayload2msg X B payload ≠ .null := by
  rw [h.payload2msg]
  split
  · split <;> exact nofun
  · exact nofun

/-! ## The contract

Null for what is refused, and a message for what is accepted. -/

/-- The payload is a message of a known type, all of whose fields are there and are decoded. -/
def Valid (X : RsmpExt) (payload : Bytes) : Prop :=
  ∃ jobj t, HeaderIs X payload jobj t ∧ t.desc.Decodes X jobj

/-- What the callers rely on: a message for a valid payload, and null for any other. -/
structure Contract (X : RsmpExt) (payload : Bytes) (r : Decoded) : Prop where
  valid : Valid X payload → ∃ m, r = .msg m
  invalid : ¬ Valid X payload → r = .null

/-- The header is refused, or the type is described, all the fields are decoded and no `v` has
a character. -/
def Handled (X : RsmpExt) (payload : Bytes) : Prop :=
  ∀ jobj t, HeaderIs X payload jobj t →
    t.Described ∧ t.desc.Decodes X jobj ∧ t.desc.EmptyV jobj

/-- The decoder returns null or a message for these payloads, and for no other. -/
theorem payload2msg_returns_iff (X : RsmpExt) (B : Birth) (payload : Bytes) :
    (rsmpJsonPayload2msg X B payload = .null ∨ ∃ m, rsmpJsonPayload2msg X B payload = .msg m) ↔
      Handled X payload := by
  by_cases hheader : ∃ jobj t, HeaderIs X payload jobj t
  · obtain ⟨jobj, t, h⟩ := hheader
    constructor
    · rintro (hnull | hmsg) jobj' t' h'
      · exact absurd hnull (h.ne_null B)
      · exact (h'.msg_iff B).mp hmsg
    · intro hhandled
      exact .inr ((h.msg_iff B).mpr (hhandled jobj t h))
  · have hrefused : ∀ jobj t, ¬ HeaderIs X payload jobj t := by
      intro jobj t h
      exact hheader ⟨jobj, t, h⟩
    refine ⟨fun _ jobj t h => absurd h (hrefused jobj t), fun _ => ?_⟩
    exact .inl (payload2msg_refused hrefused B)

/-- **The contract of the decoder.** -/
theorem payload2msg_contract_iff (X : RsmpExt) (B : Birth) (payload : Bytes) :
    Contract X payload (rsmpJsonPayload2msg X B payload) ↔ Handled X payload := by
  by_cases hheader : ∃ jobj t, HeaderIs X payload jobj t
  · obtain ⟨jobj, t, h⟩ := hheader
    have hhandled : Handled X payload ↔ ∃ m, rsmpJsonPayload2msg X B payload = .msg m := by
      rw [h.msg_iff]
      constructor
      · intro hall
        exact hall jobj t h
      · intro hdecodes jobj' t' h'
        obtain ⟨rfl, rfl⟩ := h.unique h'
        exact hdecodes
    rw [hhandled]
    constructor
    · intro hcontract
      by_cases hvalid : Valid X payload
      · exact hcontract.valid hvalid
      · exact absurd (hcontract.invalid hvalid) (h.ne_null B)
    · intro hmsg
      obtain ⟨-, hdecodes, -⟩ := (h.msg_iff B).mp hmsg
      exact ⟨fun _ => hmsg, fun hvalid => absurd ⟨jobj, t, h, hdecodes⟩ hvalid⟩
  · have hrefused : ∀ jobj t, ¬ HeaderIs X payload jobj t := by
      intro jobj t h
      exact hheader ⟨jobj, t, h⟩
    constructor
    · intro _ jobj t h
      exact absurd h (hrefused jobj t)
    · intro _
      refine ⟨?_, fun _ => payload2msg_refused hrefused B⟩
      rintro ⟨jobj, t, h, -⟩
      exact absurd h (hrefused jobj t)

/-! ## Hostile payloads

What matters here is that nothing undefined is done. -/

/-- No length is asked of what is no array, and no description is used that is missing. -/
structure Decoded.Safe (r : Decoded) : Prop where
  array : r ≠ .stops .notArray
  description : r ≠ .stops .noDescription

/-- The decoder is safe, and returns a message or null. -/
structure Decoded.Total (r : Decoded) : Prop where
  safe : r.Safe
  returns : r = .null ∨ ∃ m, r = .msg m

/-- The header is refused, or the type is described and the first value that is not decoded is
not one that should have been an array. -/
def Guarded (X : RsmpExt) (payload : Bytes) : Prop :=
  ∀ jobj t, HeaderIs X payload jobj t → t.Described ∧ ¬ t.desc.NonArray X jobj

theorem HeaderIs.safe_iff {payload : Bytes} {jobj : Json} {t : MsgType}
    (h : HeaderIs X payload jobj t) (B : Birth) :
    (rsmpJsonPayload2msg X B payload).Safe ↔ t.Described ∧ ¬ t.desc.NonArray X jobj := by
  rw [h.payload2msg, ← t.desc.jsonExtractFields_notArray_iff X jobj (t.new_unsized B)]
  split
  · next hdesc =>
    cases hextract : t.desc.jsonExtractFields X jobj (t.new B) with
    | ok m => exact ⟨fun _ => ⟨hdesc, nofun⟩, fun _ => ⟨nofun, nofun⟩⟩
    | error s =>
      cases s with
      | notArray => exact ⟨fun h => absurd rfl h.array, fun h => absurd rfl h.2⟩
      | noDescription =>
        exact absurd hextract (t.desc.jsonExtractFields_ne_noDescription X jobj (t.new_unsized B))
      | _ => exact ⟨fun _ => ⟨hdesc, nofun⟩, fun _ => ⟨nofun, nofun⟩⟩
  · next hdesc => exact ⟨fun h => absurd rfl h.description, fun h => absurd h.1 hdesc⟩

/-- **Totality of the decoder.** -/
theorem payload2msg_total_iff (X : RsmpExt) (B : Birth) (payload : Bytes) :
    ((rsmpJsonPayload2msg X B payload).Safe ↔ Guarded X payload) ∧
      ((rsmpJsonPayload2msg X B payload).Total ↔ Handled X payload) := by
  constructor
  · by_cases hheader : ∃ jobj t, HeaderIs X payload jobj t
    · obtain ⟨jobj, t, h⟩ := hheader
      rw [h.safe_iff B]
      constructor
      · intro hsafe jobj' t' h'
        obtain ⟨rfl, rfl⟩ := h.unique h'
        exact hsafe
      · intro hguarded
        exact hguarded jobj t h
    · have hrefused : ∀ jobj t, ¬ HeaderIs X payload jobj t := by
        intro jobj t h
        exact hheader ⟨jobj, t, h⟩
      rw [payload2msg_refused hrefused B]
      exact ⟨fun _ jobj t h => absurd h (hrefused jobj t), fun _ => ⟨nofun, nofun⟩⟩
  · rw [← payload2msg_returns_iff X B]
    refine ⟨fun htotal => htotal.returns, fun hreturns => ⟨?_, hreturns⟩⟩
    rcases hreturns with hnull | ⟨m, hm⟩
    · rw [hnull]
      exact ⟨nofun, nofun⟩
    · rw [hm]
      exact ⟨nofun, nofun⟩

/-! ### Three payloads

A field that is missing, an array that is a number, and a type that has a name only. -/

/-- A payload whose `mType` is that of RSMP, with what follows it. -/
def rsmpPayload (type text : String) (members : List (Bytes × Json)) : Bytes × Json :=
  (ascii "\x7b\"mType\":\"rSMsg\",\"type\":\"" ++ ascii type ++ ascii text,
    .obj ((ascii "mType", .str mTypeValue) :: (ascii "type", .str (ascii type)) :: members))

/-- A `Watchdog` without its other fields, a `Version` whose `RSMP` is a number, and a type that
has a name only. -/
def hostileTable : List (Bytes × Json) :=
  [rsmpPayload "Watchdog" "\"\x7d" [],
    rsmpPayload "Version" "\",\"mId\":\"\",\"RSMP\":5\x7d"
      [(ascii "mId", .str []), (ascii "RSMP", .int 5)],
    rsmpPayload "StatusRequestAckIncluded" "\"\x7d" []]

/-- json-c for the payloads of a table, in UTC. libuuid is not called on them. -/
def tableExt (table : List (Bytes × Json)) : RsmpExt where
  json := .ofTable table
  strGmtHorodate := zuluText
  zone := .utc
  junk := ⟨0, 0, 0, 0, 0, 0⟩
  uuidParse _ := none
  uuidUnparse _ := []

/-- A constructor that draws an identifier, with an empty context. -/
def bareBirth : Birth := ⟨7, ⟨1457012463, 0⟩, ⟨[], [], none, none, none, none⟩⟩

def Decoded.isFreed : Decoded → Bool
  | freed => true
  | _ => false

def Decoded.isStopped (s : Stop) : Decoded → Bool
  | stops s' => s' = s
  | _ => false

/-- The decoder returns a `Watchdog` that it has freed. -/
theorem payload2msg_freed :
    ¬ Contract (tableExt hostileTable) (rsmpPayload "Watchdog" "\"\x7d" []).1
      (rsmpJsonPayload2msg (tableExt hostileTable) bareBirth
        (rsmpPayload "Watchdog" "\"\x7d" []).1) := by
  have hfreed : (rsmpJsonPayload2msg (tableExt hostileTable) bareBirth
      (rsmpPayload "Watchdog" "\"\x7d" []).1).isFreed = true := by decide
  intro hcontract
  by_cases hvalid : Valid (tableExt hostileTable) (rsmpPayload "Watchdog" "\"\x7d" []).1
  · obtain ⟨m, hm⟩ := hcontract.valid hvalid
    rw [hm] at hfreed
    cases hfreed
  · rw [hcontract.invalid hvalid] at hfreed
    cases hfreed

/-- The decoder asks for the length of a number, and uses a description that is missing. -/
theorem payload2msg_unsafe :
    (∃ text ∈ hostileTable.map Prod.fst,
      rsmpJsonPayload2msg (tableExt hostileTable) bareBirth text = .stops .notArray) ∧
    ∃ text ∈ hostileTable.map Prod.fst,
      rsmpJsonPayload2msg (tableExt hostileTable) bareBirth text = .stops .noDescription := by
  have hstops : ∀ {r : Decoded} {s : Stop}, r.isStopped s = true → r = .stops s := by
    intro r s h
    cases r with
    | stops s' => rw [of_decide_eq_true h]
    | _ => cases h
  refine ⟨⟨_, List.mem_cons_of_mem _ List.mem_cons_self, hstops ?_⟩,
    ⟨_, List.mem_cons_of_mem _ (List.mem_cons_of_mem _ List.mem_cons_self), hstops ?_⟩⟩
  · decide
  · decide

end RsmpGateway.Rsmp
