import RsmpGateway.Rsmp.Decode

/-!
# From a message to itself

What `rsmp_json_msg2payload` writes of a message, `rsmp_json_payload2msg` reads: field by field,
each decoder undoes its encoder. It does so exactly for a message whose dates are whole
milliseconds that the host has as a local time, and whose arrays hold no `v` with a character
(`roundTrip_iff`).

The messages are all those of the table, with all their fields, arrays and nested objects. What
is assumed of json-c is that it parses what it has printed; of libuuid, that the text of an
identifier is read as the identifier; of the host, that it writes and reads dates as it is
documented.
-/

namespace RsmpGateway.Rsmp

open RsmpGateway.Lib RsmpGateway.Auth RsmpGateway.Coder

/-- What is assumed of what comes from outside. -/
structure RsmpExt.Lawful (X : RsmpExt) : Prop where
  json : X.json.Lawful
  date : X.strGmtHorodate.Lawful
  zone : X.zone.Lawful
  uuid : ∀ id, X.uuidParse (X.uuidUnparse id) = some id
  uuidText : ∀ id, X.uuidUnparse id ≠ [] ∧ (0 : UInt8) ∉ X.uuidUnparse id

variable {X : RsmpExt}

/-! ## What is written

The object of a message, by its table. Its keys are different from each other, so that a field is
found under its own. -/

/-- The value of a field. -/
def Codec.toJson (X : RsmpExt) : (c : Codec) → c.Ty → Json
  | mType, _ => .str mTypeValue
  | type, t => .str t.lib
  | uuid, id => .str (X.uuidUnparse id)
  | str, s => .str ((s.map Subtype.val).getD [])
  | ts, t => .str (tsToString X t)
  | bool, b => .bool b
  | v, a => .str a.items
  | enum lib _, n => .str ((lib[n]?).getD [])

theorem jsonObjectFromVar_encode (X : RsmpExt) {c : Codec} (x : c.Ty) :
    jsonObjectFromVar (c.encode X x) = some (c.toJson X x) := by
  cases c <;> rfl

/-- The members of the object of a message. -/
def Fields.toMembers (X : RsmpExt) : (fs : Fields) → fs.Msg → List (Bytes × Json)
  | nil, _ => []
  | field lib codec rest, (x, msg) => (lib, codec.toJson X x) :: rest.toMembers X msg
  | array lib elems rest, (items, msg) =>
    (lib, .arr (items.map fun item => .obj (elems.toMembers X item))) :: rest.toMembers X msg
  | table lib codec rest, (items, msg) =>
    (lib, .arr (items.map (codec.toJson X))) :: rest.toMembers X msg

theorem Fields.toMembers_keys (X : RsmpExt) (fs : Fields) (m : fs.Msg) :
    (fs.toMembers X m).map Prod.fst = fs.libs := by
  induction fs with
  | nil => rfl
  | field lib codec rest ih => exact congrArg (lib :: ·) (ih m.2)
  | array lib elems rest _ ih => exact congrArg (lib :: ·) (ih m.2)
  | table lib codec rest ih => exact congrArg (lib :: ·) (ih m.2)

theorem addMember_new {members : List (Bytes × Json)} {key : Bytes} {value : Json}
    (h : key ∉ members.map Prod.fst) :
    Json.addMember members key value = members ++ [(key, value)] := by
  rw [Json.addMember, if_neg]
  intro hany
  obtain ⟨m, hm, heq⟩ := List.any_eq_true.mp hany
  exact h (List.mem_map.mpr ⟨m, hm, of_decide_eq_true heq⟩)

/-- A new member is put at the end, and the keys to come remain new. -/
theorem addMember_step {jobj : List (Bytes × Json)} {lib : Bytes} {libs : List Bytes}
    (hlib : lib ∉ libs) (hnew : ∀ l ∈ lib :: libs, l ∉ jobj.map Prod.fst) (value : Json) :
    Json.addMember jobj lib value = jobj ++ [(lib, value)] ∧
      ∀ l ∈ libs, l ∉ (jobj ++ [(lib, value)]).map Prod.fst := by
  obtain ⟨hfirst, hrest⟩ := List.forall_mem_cons.mp hnew
  refine ⟨addMember_new hfirst, ?_⟩
  intro l hl hmem
  rw [List.map_append, List.mem_append] at hmem
  rcases hmem with hmem | hmem
  · exact hrest l hl hmem
  · obtain rfl : l = lib := by simpa using hmem
    exact hlib hl

/-- The members are added in the order of the description. -/
theorem Fields.jsonAddFields_eq (X : RsmpExt) {fs : Fields} (hfs : fs.Distinct) (m : fs.Msg)
    {jobj : List (Bytes × Json)} (hnew : ∀ lib ∈ fs.libs, lib ∉ jobj.map Prod.fst) :
    fs.jsonAddFields X m jobj = some (jobj ++ fs.toMembers X m) := by
  induction fs generalizing jobj with
  | nil => simp [jsonAddFields, toMembers]
  | field lib codec rest ih =>
    obtain ⟨x, m⟩ := m
    obtain ⟨hlib, hrest⟩ := hfs
    obtain ⟨hadd, hnew⟩ := addMember_step hlib hnew (codec.toJson X x)
    rw [jsonAddFields, jsonObjectFromVar_encode, toMembers, List.append_cons, ← ih hrest m hnew,
      ← hadd]
    rfl
  | array lib elems rest ihe ih =>
    obtain ⟨items, m⟩ := m
    obtain ⟨hlib, helems, hrest⟩ := hfs
    obtain ⟨hadd, hnew⟩ :=
      addMember_step hlib hnew (.arr (items.map fun item => .obj (elems.toMembers X item)))
    have hitems : (items.mapM fun item => (elems.jsonAddFields X item []).map Json.obj) =
        some (items.map fun item => .obj (elems.toMembers X item)) := by
      rw [mapM_eq_some, List.forall₂_map_right_iff, List.forall₂_same]
      intro item _
      rw [ihe helems item (by simp)]
      rfl
    rw [jsonAddFields, hitems, toMembers, List.append_cons, ← ih hrest m hnew, ← hadd]
    rfl
  | table lib codec rest ih =>
    obtain ⟨items, m⟩ := m
    obtain ⟨hlib, hrest⟩ := hfs
    obtain ⟨hadd, hnew⟩ := addMember_step hlib hnew (.arr (items.map (codec.toJson X)))
    have hitems : (items.mapM fun item => jsonObjectFromVar (codec.encode X item)) =
        some (items.map (codec.toJson X)) := by
      rw [mapM_eq_some, List.forall₂_map_right_iff, List.forall₂_same]
      intro item _
      exact jsonObjectFromVar_encode X item
    rw [jsonAddFields, hitems, toMembers, List.append_cons, ← ih hrest m hnew, ← hadd]
    rfl

/-! ## What is kept

The condition, field by field: it is on dates and on the `v` of arrays only. -/

/-- The names of an enumeration can be told apart. -/
def Codec.WellNamed : Codec → Prop
  | enum lib _ => Names lib
  | _ => True

instance (c : Codec) : Decidable c.WellNamed := by
  cases c <;> unfold Codec.WellNamed <;> infer_instance

def Fields.WellNamed : Fields → Prop
  | nil => True
  | field _ codec rest => codec.WellNamed ∧ rest.WellNamed
  | array _ elems rest => elems.WellNamed ∧ rest.WellNamed
  | table _ codec rest => codec.WellNamed ∧ rest.WellNamed

/-- In a message of type `t`: the type, strings that are not null and values of the
enumerations. -/
def Codec.Sound (t : MsgType) : (c : Codec) → c.Ty → Prop
  | type, t' => t' = t
  | str, s => s ≠ none
  | enum lib _, n => n < lib.length
  | _, _ => True

def Fields.Sound (t : MsgType) : (fs : Fields) → fs.Msg → Prop
  | nil, _ => True
  | field _ codec rest, (x, msg) => codec.Sound t x ∧ rest.Sound t msg
  | array _ elems rest, (items, msg) => (∀ item ∈ items, elems.Sound t item) ∧ rest.Sound t msg
  | table _ codec rest, (items, msg) => (∀ item ∈ items, codec.Sound t item) ∧ rest.Sound t msg

/-- The same content, whatever size a `v` gives to its characters. -/
def Codec.Same : (c : Codec) → c.Ty → c.Ty → Prop
  | v, a, a' => a'.items = a.items
  | _, x, x' => x' = x

def Fields.Same : (fs : Fields) → fs.Msg → fs.Msg → Prop
  | nil, _, _ => True
  | field _ codec rest, (x, msg), (x', msg') => codec.Same x x' ∧ rest.Same msg msg'
  | array _ elems rest, (items, msg), (items', msg') =>
    List.Forall₂ elems.Same items items' ∧ rest.Same msg msg'
  | table _ codec rest, (items, msg), (items', msg') =>
    List.Forall₂ codec.Same items items' ∧ rest.Same msg msg'

/-- A date after 1970-01-01T00:00:00Z in whole milliseconds, which the host has as a local time.
For one that has not four digits of year, or no nanoseconds, what the writer makes of it is
read back. -/
structure TimeKept (X : RsmpExt) (t : HoroDate) : Prop where
  inRange : HoroDate.InRange t → 0 < t.sec ∧ t.nsec % 1000000 = 0 ∧ X.zone.Reads t.sec
  outside : ¬ HoroDate.InRange t → tsFromString X (tsToString X t) = some t

/-- A date that is kept, a `v` without character. -/
def Codec.Kept (X : RsmpExt) : (c : Codec) → c.Ty → Prop
  | ts, t => TimeKept X t
  | v, a => a.items = []
  | _, _ => True

def Fields.Kept (X : RsmpExt) : (fs : Fields) → fs.Msg → Prop
  | nil, _ => True
  | field _ codec rest, (x, msg) => codec.Kept X x ∧ rest.Kept X msg
  | array _ elems rest, (items, msg) => (∀ item ∈ items, elems.Kept X item) ∧ rest.Kept X msg
  | table _ codec rest, (items, msg) => (∀ item ∈ items, codec.Kept X item) ∧ rest.Kept X msg

/-! ### Dates

A date is printed as a local time of the host with its milliseconds and read back through
`mktime`. What is below the millisecond is lost, and so are the other dates that `TimeKept`
leaves out. -/

/-- A date is read back exactly when it is kept. -/
theorem tsFromString_tsToString (hX : X.Lawful) (t : HoroDate) :
    tsFromString X (tsToString X t) = some t ↔ TimeKept X t := by
  by_cases ht : HoroDate.InRange t
  · have htext : tsToString X t = zuluText t := by
      rw [tsToString, hX.date t ht, cstr_eq_self (nul_not_mem_zuluText t)]
    have hiff : TimeKept X t ↔ 0 < t.sec ∧ t.nsec % 1000000 = 0 ∧ X.zone.Reads t.sec :=
      ⟨fun h => h.inRange ht, fun h => ⟨fun _ => h, fun hout => absurd ht hout⟩⟩
    rw [hiff, htext, tsFromString, cstr_eq_self (nul_not_mem_zuluText t),
      str2ZuluHorodate_zuluText _ _ ht]
    obtain ⟨sec, nsec⟩ := t
    rw [← Zone.utcOfLocal_eq_iff hX.zone]
    constructor
    · intro h
      dsimp only at h
      split at h
      · next hpos =>
        simp only [Option.some.injEq, HoroDate.mk.injEq] at h
        obtain ⟨hsec, hnsec⟩ := h
        dsimp only
        refine ⟨by omega, by omega, hsec⟩
      · cases h
    · rintro ⟨hpos, hms, hsec⟩
      dsimp only at hpos hms hsec ⊢
      have hnsec : nsec / 1000000 * 1000000 = nsec := by omega
      rw [hsec, if_pos hpos, hnsec]
  · constructor
    · intro h
      exact ⟨fun hin => absurd hin ht, fun _ => h⟩
    · intro h
      exact h.outside ht

/-! ## What is read back

Along the table: a field is found, decoded, and gives what was written, if and only if it is
kept. -/

/-- A field that was written is read back exactly when it is kept. -/
theorem jsonExtractField_toJson (hX : X.Lawful) {c : Codec} (hc : c.WellNamed) {t : MsgType}
    {x x0 : c.Ty} (hx : c.Sound t x) (hx0 : c.Unsized x0) :
    (∃ x', jsonExtractField X c (c.toJson X x) x0 = .ok x' ∧ c.Same x x') ↔ c.Kept X x := by
  cases c with
  | mType =>
    refine ⟨fun _ => trivial, fun _ => ⟨(), ?_, rfl⟩⟩
    show (if cstr mTypeValue = mTypeValue then Except.ok () else .error .error) = _
    exact if_pos (by decide)
  | type =>
    refine ⟨fun _ => trivial, fun _ => ⟨x, ?_, rfl⟩⟩
    show typeDecode (.string (some (MsgType.lib x))) x0 = .ok x
    simp only [typeDecode, Option.bind_some, rsmpTypeFromString_lib]
  | uuid =>
    refine ⟨fun _ => trivial, fun _ => ⟨x, ?_, rfl⟩⟩
    obtain ⟨hne, hnul⟩ := hX.uuidText x
    show uuidDecode X (.string (some (X.uuidUnparse x))) x0 = .ok x
    simp only [uuidDecode, cstr_eq_self hnul, if_neg hne, hX.uuid]
  | str =>
    refine ⟨fun _ => trivial, fun _ => ⟨x, ?_, rfl⟩⟩
    cases x with
    | none => exact absurd rfl hx
    | some s => exact congrArg (Except.ok ∘ some) (CStr.dup_val s)
  | ts =>
    show (∃ x', tsDecode X (.string (some (tsToString X x))) x0 = .ok x' ∧ x' = x) ↔ TimeKept X x
    rw [← tsFromString_tsToString hX, exists_eq_right, tsDecode]
    cases tsFromString X (tsToString X x) <;> simp
  | bool => exact ⟨fun _ => trivial, fun _ => ⟨x, rfl, rfl⟩⟩
  | v =>
    have hlen : x0.itemLen = 0 := hx0
    show (∃ x', vDecode (.string (some x.items)) x0 = .ok x' ∧ x'.items = x.items) ↔ x.items = []
    simp only [vDecode, hlen, Nat.mul_zero, Option.getD_some, List.length_pos_iff]
    by_cases hnil : x.items = [] <;> simp [hnil]
  | enum lib strict =>
    refine ⟨fun _ => trivial, fun _ => ⟨x, ?_, rfl⟩⟩
    have hname : lib[x]? = some lib[x] := List.getElem?_eq_getElem hx
    show enumDecode lib strict (.string (some ((lib[x]?).getD []))) x0 = .ok x
    rw [hname, Option.getD_some, enumDecode, Option.bind_some, rsmpLibFind_name hc hname]

/-- The member of a key that no other member has. -/
theorem get?_of_mem {members : List (Bytes × Json)} (hnodup : (members.map Prod.fst).Nodup)
    {key : Bytes} {value : Json} (h : (key, value) ∈ members) :
    (Json.obj members).get? key = some value := by
  induction members with
  | nil => cases h
  | cons m members ih =>
    obtain ⟨k, v⟩ := m
    rw [List.map_cons, List.nodup_cons] at hnodup
    rw [Json.get?_obj_cons]
    rcases List.mem_cons.mp h with heq | h
    · cases heq
      rw [if_pos rfl]
    · have hne : k ≠ key := by
        rintro rfl
        exact hnodup.1 (List.mem_map.mpr ⟨_, h, rfl⟩)
      rw [if_neg hne, ih hnodup.2 h]

/-! ### Members of an object

The decoder looks a member up by its key, so that their order is of no importance: it is enough
that the object has the members that were written, each under its own key. An object with `SXLG`
added has them too. -/

/-- The object has the members that were written. -/
def Has (jobj : Json) (members : List (Bytes × Json)) : Prop :=
  ∀ m ∈ members, jobj.get? m.1 = some m.2

theorem Fields.libs_nodup {fs : Fields} (h : fs.Distinct) : fs.libs.Nodup := by
  induction fs with
  | nil => exact List.nodup_nil
  | field _ _ _ ih => exact List.nodup_cons.mpr ⟨h.1, ih h.2⟩
  | array _ _ _ _ ih => exact List.nodup_cons.mpr ⟨h.1, ih h.2.2⟩
  | table _ _ _ ih => exact List.nodup_cons.mpr ⟨h.1, ih h.2⟩

theorem Fields.has_toMembers (X : RsmpExt) {fs : Fields} (h : fs.Distinct) (m : fs.Msg) :
    Has (.obj (fs.toMembers X m)) (fs.toMembers X m) := by
  intro member hmem
  have hnodup : ((fs.toMembers X m).map Prod.fst).Nodup := by
    rw [fs.toMembers_keys X m]
    exact fs.libs_nodup h
  exact get?_of_mem hnodup hmem

theorem Codec.toJson_ne_null (X : RsmpExt) (c : Codec) (x : c.Ty) : c.toJson X x ≠ .null := by
  cases c <;> exact nofun

/-- The member is there for the decoder. -/
theorem Has.rsmpJsonObjectGet {jobj : Json} {members : List (Bytes × Json)} {key : Bytes}
    {value : Json} (h : Has jobj ((key, value) :: members)) (hvalue : value ≠ .null) :
    rsmpJsonObjectGet jobj key = some value ∧ Has jobj members := by
  obtain ⟨hfirst, hrest⟩ := List.forall_mem_cons.mp h
  refine ⟨?_, hrest⟩
  rw [Rsmp.rsmpJsonObjectGet, hfirst]
  cases value with
  | null => exact absurd rfl hvalue
  | _ => rfl

/-- What was written is read back exactly when it is kept. The keys of the object may be more. -/
theorem Fields.jsonExtractFields_toMembers (hX : X.Lawful) {fs : Fields} (hfs : fs.Distinct)
    (hnamed : fs.WellNamed) {t : MsgType} {jobj : Json} {m m0 : fs.Msg} (hm : fs.Sound t m)
    (hm0 : fs.Unsized m0) (hjobj : Has jobj (fs.toMembers X m)) :
    (∃ m', fs.jsonExtractFields X jobj m0 = .ok m' ∧ fs.Same m m') ↔ fs.Kept X m := by
  induction fs generalizing jobj with
  | nil => exact ⟨fun _ => trivial, fun _ => ⟨(), rfl, trivial⟩⟩
  | field lib codec rest ih =>
    obtain ⟨x, m⟩ := m
    obtain ⟨x0, m0⟩ := m0
    obtain ⟨hget, hrest⟩ := hjobj.rsmpJsonObjectGet (codec.toJson_ne_null X x)
    rw [jsonExtractFields, hget, Kept, ← ih hfs.2 hnamed.2 hm.2 hm0.2 hrest,
      ← jsonExtractField_toJson hX hnamed.1 hm.1 hm0.1]
    exact pair_ok_and_iff
  | array lib elems rest ihe ih =>
    obtain ⟨items, m⟩ := m
    obtain ⟨items0, m0⟩ := m0
    obtain ⟨hget, hrest⟩ := hjobj.rsmpJsonObjectGet (by intro h; cases h)
    have hitems : (∃ items', ((items.map fun item => Json.obj (elems.toMembers X item)).mapM
          fun value => elems.jsonExtractFields X value elems.zero) = .ok items' ∧
          List.Forall₂ elems.Same items items') ↔ ∀ item ∈ items, elems.Kept X item := by
      rw [mapM_map_ok_iff]
      refine forall₂_congr fun item hmem => ?_
      exact ihe hfs.2.1 hnamed.1 (hm.1 item hmem) elems.zero_unsized
        (elems.has_toMembers X hfs.2.1 item)
    rw [jsonExtractFields, hget, Kept, ← ih hfs.2.2 hnamed.2 hm.2 hm0 hrest, ← hitems]
    exact pair_ok_and_iff
  | table lib codec rest ih =>
    obtain ⟨items, m⟩ := m
    obtain ⟨items0, m0⟩ := m0
    obtain ⟨hget, hrest⟩ := hjobj.rsmpJsonObjectGet (by intro h; cases h)
    have hitems : (∃ items', ((items.map (codec.toJson X)).mapM
          fun value => jsonExtractField X codec value codec.zero) = .ok items' ∧
          List.Forall₂ codec.Same items items') ↔ ∀ item ∈ items, codec.Kept X item := by
      rw [mapM_map_ok_iff]
      refine forall₂_congr fun item hmem => ?_
      exact jsonExtractField_toJson hX hnamed.1 (hm.1 item hmem) codec.zero_unsized
    rw [jsonExtractFields, hget, Kept, ← ih hfs.2 hnamed.2 hm.2 hm0 hrest, ← hitems]
    exact pair_ok_and_iff

/-! ## Messages

With the header, and with what json-c prints. -/

theorem MsgType.desc_wellNamed (t : MsgType) : t.desc.WellNamed := by
  have hnames : aSp.WellNamed ∧ ack.WellNamed ∧ aS.WellNamed ∧ sS.WellNamed ∧ cat.WellNamed ∧
      pri.WellNamed ∧ age.WellNamed ∧ q.WellNamed := by decide
  obtain ⟨_, _, _, _, _, _, _, _⟩ := hnames
  cases t <;> repeat' first | assumption | exact trivial | constructor

/-- The member that `rsmp_json_msg2payload` adds to what it takes for a `Version` is that of no
description. -/
theorem MsgType.sxlg_not_mem (t : MsgType) : ascii "SXLG" ∉ t.desc.libs := by
  cases t <;> decide

/-- Every description begins with `mType` and `type`. -/
theorem MsgType.desc_header {t : MsgType} (h : t.Described) :
    ∃ rest, t.desc = .field (ascii "mType") .mType (.field (ascii "type") .type rest) := by
  cases t <;> first
    | exact absurd h (by decide)
    | exact ⟨_, rfl⟩

theorem Fields.header_mem (X : RsmpExt) {fs rest : Fields}
    (hfs : fs = field (ascii "mType") .mType (field (ascii "type") .type rest)) {t : MsgType}
    {m : fs.Msg} (hm : fs.Sound t m) :
    (ascii "mType", .str mTypeValue) ∈ fs.toMembers X m ∧
      (ascii "type", .str t.lib) ∈ fs.toMembers X m := by
  subst hfs
  obtain ⟨_, t', m⟩ := m
  obtain rfl : t' = t := hm.2.1
  exact ⟨List.mem_cons_self, List.mem_cons_of_mem _ List.mem_cons_self⟩

namespace Message

/-! ### Sound and kept

`Sound` is what a program that fills a message in sees to. `Kept` is what the round trip asks for
beside it, and it is the condition of the theorem. -/

/-- A message of a registered type, with strings that are not null and values of the
enumerations. -/
structure Sound (m : Message) : Prop where
  described : m.1.Described
  fields : m.1.desc.Sound m.1 m.2

/-- The members of its object. -/
def members (X : RsmpExt) (m : Message) : List (Bytes × Json) := m.1.desc.toMembers X m.2

/-- json-c has a text for its object, and where this text has `"Version"`, one for the object
with `SXLG`. -/
def Printed (X : RsmpExt) (m : Message) : Prop :=
  ∃ text, X.json.print (.obj (m.members X)) = some text ∧
    (strstr text (ascii "\"Version\"") = true →
      ∃ text', X.json.print (withESXLG (.obj (m.members X))) = some text')

/-- Its dates are kept, and no `v` has a character. -/
def Kept (X : RsmpExt) (m : Message) : Prop := m.1.desc.Kept X m.2

/-- The payload gives a message of the same type with the same content. -/
def RoundTrips (X : RsmpExt) (B : Birth) (m : Message) : Prop :=
  ∃ payload m', rsmpJsonMsg2payload X m = .ok (some payload) ∧
    rsmpJsonPayload2msg X B payload = .msg ⟨m.1, m'⟩ ∧ m.1.desc.Same m.2 m'

variable {m : Message}

/-! ### The payload

The object of the message goes through json-c. Where `"Version"` occurs in its text, the object
is given a member `SXLG` and printed again. -/

theorem members_keys (X : RsmpExt) (m : Message) : (m.members X).map Prod.fst = m.1.desc.libs :=
  m.1.desc.toMembers_keys X m.2

/-- The header of a sound message is that of its type. -/
theorem Sound.header (h : m.Sound) (X : RsmpExt) :
    (ascii "mType", .str mTypeValue) ∈ m.members X ∧
      (ascii "type", .str m.1.lib) ∈ m.members X := by
  obtain ⟨rest, hrest⟩ := MsgType.desc_header h.described
  exact Fields.header_mem X hrest h.fields

theorem has_withESXLG (X : RsmpExt) (m : Message) :
    Has (withESXLG (.obj (m.members X))) (m.members X) := by
  have hnew : ascii "SXLG" ∉ (m.members X).map Prod.fst := by
    rw [members_keys]
    exact m.1.sxlg_not_mem
  have hnodup : ((m.members X).map Prod.fst).Nodup := by
    rw [members_keys]
    exact m.1.desc.libs_nodup m.1.desc_distinct
  intro member hmem
  rw [withESXLG, addMember_new hnew]
  refine get?_of_mem ?_ (List.mem_append_left _ hmem)
  rw [List.map_append, List.nodup_append_comm]
  exact List.nodup_cons.mpr ⟨hnew, hnodup⟩

theorem msg2payload_eq (X : RsmpExt) (h : m.1.Described) :
    rsmpJsonMsg2payload X m =
      match X.json.print (.obj (m.members X)) with
      | none => .ok none
      | some text =>
        if strstr text (ascii "\"Version\"") then do
          let updated ← addESXLGToJson X text
          return some (updated.getD text)
        else .ok (some text) := by
  obtain ⟨fs, hfs⟩ := Option.isSome_iff_exists.mp h
  have hadd : m.1.desc.jsonAddFields X m.2 [] = some ([] ++ m.members X) :=
    m.1.desc.jsonAddFields_eq X m.1.desc_distinct m.2 (by simp)
  unfold rsmpJsonMsg2payload
  rw [hfs, hadd]
  rfl

/-- The object of a payload that is made has the members. -/
theorem msg2payload_some (hX : X.Lawful) (h : m.1.Described) {payload : Bytes}
    (hpayload : rsmpJsonMsg2payload X m = .ok (some payload)) :
    m.Printed X ∧ ∃ jobj, X.json.parse payload = some jobj ∧ Has jobj (m.members X) := by
  rw [msg2payload_eq X h] at hpayload
  split at hpayload
  · cases hpayload
  · next text hprint =>
    have hparse := hX.json.parse_print hprint
    by_cases hversion : strstr text (ascii "\"Version\"") = true
    · rw [if_pos hversion, addESXLGToJson, hparse] at hpayload
      dsimp only at hpayload
      obtain ⟨updated, hupdated, hreturn⟩ := Except.bind_eq_ok.mp hpayload
      split at hupdated
      · cases hupdated
      · next text' hprint' =>
        cases hupdated
        cases hreturn
        exact ⟨⟨text, hprint, fun _ => ⟨_, hprint'⟩⟩, _, hX.json.parse_print hprint',
          m.has_withESXLG X⟩
    · rw [if_neg hversion] at hpayload
      cases hpayload
      exact ⟨⟨_, hprint, fun htrue => absurd htrue hversion⟩, _, hparse,
        m.1.desc.has_toMembers X m.1.desc_distinct m.2⟩

theorem Printed.payload (hX : X.Lawful) (h : m.1.Described) (hm : m.Printed X) :
    ∃ payload, rsmpJsonMsg2payload X m = .ok (some payload) := by
  obtain ⟨text, hprint, hsxlg⟩ := hm
  rw [msg2payload_eq X h, hprint]
  dsimp only
  split
  · next hversion =>
    obtain ⟨text', hprint'⟩ := hsxlg hversion
    rw [addESXLGToJson, hX.json.parse_print hprint]
    dsimp only
    rw [hprint']
    exact ⟨text', rfl⟩
  · exact ⟨text, rfl⟩

/-- The header of what a sound message gives. -/
theorem Sound.headerIs (h : m.Sound) {payload : Bytes} {jobj : Json}
    (hparse : X.json.parse payload = some jobj) (hhas : Has jobj (m.members X)) :
    HeaderIs X payload jobj m.1 := by
  obtain ⟨hmType, htype⟩ := h.header X
  refine ⟨hparse, ?_, ?_⟩
  · have hget := hhas _ hmType
    dsimp only at hget
    simp only [rsmpJsonMTypeCheck, rsmpJsonObjectGet, hget, mTypeCheck]
    decide
  · have hget := hhas _ htype
    dsimp only at hget
    simp only [rsmpJsonExtractType, rsmpJsonObjectGet, hget, rsmpTypeFromString_lib]

/-- The payload of a message is decoded as its object has the members. -/
theorem Sound.payload2msg_iff (hX : X.Lawful) (B : Birth) (hm : m.Sound) {payload : Bytes}
    {jobj : Json} (hparse : X.json.parse payload = some jobj) (hhas : Has jobj (m.members X)) :
    (∃ m', rsmpJsonPayload2msg X B payload = .msg ⟨m.1, m'⟩ ∧ m.1.desc.Same m.2 m') ↔
      m.Kept X := by
  rw [Kept, ← Fields.jsonExtractFields_toMembers hX m.1.desc_distinct m.1.desc_wellNamed
    hm.fields (m.1.new_unsized B) hhas, (hm.headerIs hparse hhas).payload2msg,
    if_pos hm.described]
  refine exists_congr fun m' => and_congr_left fun _ => ?_
  cases m.1.desc.jsonExtractFields X jobj (m.1.new B) with
  | ok m'' => simp
  | error s => cases s <;> simp

/-- **The round trip of messages.** -/
theorem roundTrip_iff (hX : X.Lawful) (B : Birth) (hm : m.Sound) :
    m.RoundTrips X B ↔ m.Kept X ∧ m.Printed X := by
  constructor
  · rintro ⟨payload, m', hpayload, hmsg, hsame⟩
    obtain ⟨hprinted, jobj, hparse, hhas⟩ := msg2payload_some hX hm.described hpayload
    exact ⟨(hm.payload2msg_iff hX B hparse hhas).mp ⟨m', hmsg, hsame⟩, hprinted⟩
  · rintro ⟨hkept, hprinted⟩
    obtain ⟨payload, hpayload⟩ := hprinted.payload hX hm.described
    obtain ⟨-, jobj, hparse, hhas⟩ := msg2payload_some hX hm.described hpayload
    obtain ⟨m', hmsg, hsame⟩ := (hm.payload2msg_iff hX B hparse hhas).mpr hkept
    exact ⟨payload, m', hpayload, hmsg, hsame⟩

end Message

/-! ### A host in UTC

A host, libuuid and json-c for a list of messages, for the examples here and further on. -/

/-- The value of a hexadecimal digit. -/
def hexValue (c : UInt8) : Option Nat :=
  if isDigit c then some (c.toNat - 0x30)
  else if 0x61 ≤ c ∧ c ≤ 0x66 then some (c.toNat - 0x57)
  else if 0x41 ≤ c ∧ c ≤ 0x46 then some (c.toNat - 0x37)
  else none

/-- The digit `d < 16`, in lower case. -/
def hexDigit (d : Nat) : UInt8 := if d < 10 then (0x30 + d).toUInt8 else (0x57 + d).toUInt8

theorem hexValue_hexDigit {d : Nat} (h : d < 16) :
    hexValue (hexDigit d) = some d ∧ hexDigit d ≠ 0 := by
  revert d; decide

/-- The last digits of a number at the places of a layout, and dashes elsewhere. -/
def writeHex : List Bool → Nat → Bytes
  | [], _ => []
  | true :: layout, n => hexDigit (n / 16 ^ layout.count true % 16) :: writeHex layout n
  | false :: layout, n => 0x2D :: writeHex layout n

def readHex : List Bool → Nat → Bytes → Option Nat
  | [], n, [] => some n
  | true :: layout, n, c :: cs => (hexValue c).bind fun d => readHex layout (n * 16 + d) cs
  | false :: layout, n, c :: cs => if c = 0x2D then readHex layout n cs else none
  | _, _, _ => none

theorem readHex_writeHex (layout : List Bool) (n k : Nat) :
    readHex layout k (writeHex layout n) =
      some (k * 16 ^ layout.count true + n % 16 ^ layout.count true) := by
  induction layout generalizing k with
  | nil => simp [readHex, writeHex, Nat.mod_one]
  | cons b layout ih =>
    cases b with
    | true =>
      have hd : n / 16 ^ layout.count true % 16 < 16 := Nat.mod_lt _ (by decide)
      rw [writeHex, readHex, (hexValue_hexDigit hd).1, Option.bind_some, ih, List.count_cons_self,
        Nat.mod_pow_succ]
      congr 1
      ring
    | false =>
      rw [writeHex, readHex, if_pos rfl, ih, List.count_cons_of_ne (by decide)]

theorem nul_not_mem_writeHex (layout : List Bool) (n : Nat) : (0 : UInt8) ∉ writeHex layout n := by
  induction layout with
  | nil => exact List.not_mem_nil
  | cons b layout ih =>
    cases b with
    | true =>
      intro h
      rcases List.mem_cons.mp h with h | h
      · exact (hexValue_hexDigit (Nat.mod_lt _ (by decide))).2 h.symm
      · exact ih h
    | false =>
      intro h
      rcases List.mem_cons.mp h with h | h
      · exact absurd h (by decide)
      · exact ih h

/-- The places of the digits of an identifier. -/
def uuidLayout : List Bool :=
  [8, 4, 4, 4].flatMap (fun n => List.replicate n true ++ [false]) ++ List.replicate 12 true

/-- json-c for the objects of some messages, with `SXLG` and without, in UTC, with libuuid. -/
def hostExt (messages : List Message) : RsmpExt :=
  let X : RsmpExt :=
    { tableExt [] with
      uuidParse := fun text => (readHex uuidLayout 0 text).map (BitVec.ofNat 128)
      uuidUnparse := fun id => writeHex uuidLayout id.toNat }
  let objects : List Json := messages.map fun m => .obj (m.members X)
  { X with json := .ofPlain (objects ++ objects.map withESXLG) }

theorem hostExt_lawful {messages : List Message} (hjson : (hostExt messages).json.Lawful) :
    (hostExt messages).Lawful where
  json := hjson
  date _ _ := rfl
  zone := Zone.utc_lawful
  uuid id := by
    have hcount : uuidLayout.count true = 32 := by decide
    have hlt : id.toNat < 16 ^ 32 := id.isLt
    show (readHex uuidLayout 0 (writeHex uuidLayout id.toNat)).map (BitVec.ofNat 128) = some id
    rw [readHex_writeHex, hcount, Nat.mod_eq_of_lt hlt, Nat.zero_mul, Nat.zero_add,
      Option.map_some, BitVec.ofNat_toNat, BitVec.setWidth_eq]
  uuidText id := ⟨List.cons_ne_nil _ _, nul_not_mem_writeHex uuidLayout id.toNat⟩

/-- A `Watchdog` of 2016. -/
def watchdog2016 : Message := ⟨.watchdog, (), .watchdog, (0x2a : Uuid), ⟨1457012463, 789000000⟩, ()⟩

/-- A `CommandRequest` that has a value. -/
def requestWithValue : Message :=
  ⟨.commandRequest, (), .commandRequest, (0x2b : Uuid), some (CStr.dup []), some (CStr.dup []),
    some (CStr.dup (ascii "TC1")),
    [(some (CStr.dup (ascii "M0001")), some (CStr.dup (ascii "status")),
      some (CStr.dup (ascii "setPlan")), ⟨ascii "1", 1⟩, ())], ()⟩

def twoMessages : RsmpExt := hostExt [watchdog2016, requestWithValue]

theorem twoMessages_lawful : twoMessages.Lawful := by
  refine hostExt_lawful (JsonLib.ofTable_lawful ?_ ?_)
  · decide +kernel
  · decide +kernel

namespace Message

/-- The `Watchdog` is read back. -/
theorem roundTrip_watchdog : watchdog2016.RoundTrips twoMessages bareBirth := by
  have hsound : watchdog2016.Sound := ⟨by decide, trivial, rfl, trivial, trivial, trivial⟩
  refine (roundTrip_iff twoMessages_lawful bareBirth hsound).mpr ⟨?_, ?_⟩
  · refine ⟨trivial, trivial, trivial, ?_, trivial⟩
    exact ⟨fun _ => ⟨by decide, by decide, Zone.utc_reads _⟩,
      fun h => absurd (⟨by decide, by decide⟩ : HoroDate.InRange ⟨1457012463, 789000000⟩) h⟩
  · refine ⟨(Json.obj (watchdog2016.members twoMessages)).toPlain, by decide, ?_⟩
    intro hversion
    exact absurd hversion (by decide)

/-- A `v` with one character is not. -/
theorem not_roundTrip_request :
    twoMessages.Lawful ∧ requestWithValue.Sound ∧ requestWithValue.Printed twoMessages ∧
      ¬ requestWithValue.RoundTrips twoMessages bareBirth := by
  have hsound : requestWithValue.Sound := by
    refine ⟨by decide, trivial, rfl, trivial, nofun, nofun, nofun, ?_, trivial⟩
    intro item hitem
    obtain rfl := List.mem_singleton.mp hitem
    exact ⟨nofun, nofun, nofun, trivial, trivial⟩
  refine ⟨twoMessages_lawful, hsound, ?_, ?_⟩
  · refine ⟨(Json.obj (requestWithValue.members twoMessages)).toPlain, by decide +kernel, ?_⟩
    intro hversion
    exact absurd hversion (by decide +kernel)
  · rintro ⟨payload, m', hpayload, hmsg, hsame⟩
    obtain ⟨-, jobj, hparse, hhas⟩ := msg2payload_some twoMessages_lawful hsound.described hpayload
    have hkept := (hsound.payload2msg_iff twoMessages_lawful bareBirth hparse hhas).mp
      ⟨m', hmsg, hsame⟩
    obtain ⟨-, -, -, -, -, -, hargs, -⟩ := hkept
    obtain ⟨-, -, -, hv, -⟩ := hargs _ List.mem_cons_self
    have hempty : ascii "1" = [] := hv
    exact absurd hempty (by decide)

end Message

end RsmpGateway.Rsmp
