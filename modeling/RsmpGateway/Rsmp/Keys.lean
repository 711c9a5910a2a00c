import RsmpGateway.Coder.Classes
import RsmpGateway.Rsmp.RoundTrip

/-!
# The keys of encoded messages

`rsmp_json_msg2payload` looks for `"Version"` in the text that it has made, and where it finds it
adds the member `SXLG`. It finds it in every `Version`, and in any other message that has a
string ending with this word (`exactKeys_iff`).

The search is that of `Lib/Quoted.lean`. A word between quotes may also end a longer string, when
the character before it is a quote itself; the condition speaks of all strings of the message,
and of those only.
-/

namespace RsmpGateway.Rsmp

open RsmpGateway.Lib RsmpGateway.Coder

variable {X : RsmpExt}

/-! ## Strings of a message

The strings that the object of a message has, as keys and as values, at every depth. -/

/-- The keys, at every depth. -/
def Fields.keys : Fields → List Bytes
  | nil => []
  | field lib _ rest => lib :: rest.keys
  | array lib elems rest => lib :: elems.keys ++ rest.keys
  | table lib _ rest => lib :: rest.keys

/-- The strings that are written of the fields, at every depth. -/
def Fields.strings (X : RsmpExt) : (fs : Fields) → fs.Msg → List Bytes
  | nil, _ => []
  | field _ codec rest, (x, msg) => (codec.toJson X x).texts ++ rest.strings X msg
  | array _ elems rest, (items, msg) => items.flatMap (elems.strings X) ++ rest.strings X msg
  | table _ codec rest, (items, msg) =>
    items.flatMap (fun x => (codec.toJson X x).texts) ++ rest.strings X msg

theorem Codec.strings_toJson (X : RsmpExt) {c : Codec} (x : c.Ty) :
    (c.toJson X x).strings = (c.toJson X x).texts := by
  cases c <;> rfl

theorem Codec.flat_toJson (X : RsmpExt) {c : Codec} (x : c.Ty) : (c.toJson X x).Flat := by
  cases c <;> exact trivial

/-- The text of each member shows its strings. -/
theorem Fields.shows_toMembers {w sp : Bytes} (hw : Json.Word w) (hsp : ∀ c ∈ sp, c = 0x20)
    (X : RsmpExt) (fs : Fields) (msg : fs.Msg) :
    ∀ m ∈ fs.toMembers X msg, Json.Shows w (m.2.layout sp) m.2.strings := by
  have hcodec : ∀ {c : Codec} (x : c.Ty),
      Json.Shows w ((c.toJson X x).layout sp) (c.toJson X x).strings := by
    intro c x
    rw [Codec.strings_toJson]
    exact hw.shows_flat hsp (Codec.flat_toJson X x)
  induction fs with
  | nil => nofun
  | field lib codec rest ih =>
    obtain ⟨x, msg⟩ := msg
    exact List.forall_mem_cons.mpr ⟨hcodec x, ih msg⟩
  | array lib elems rest ihe ih =>
    obtain ⟨items, msg⟩ := msg
    refine List.forall_mem_cons.mpr ⟨?_, ih msg⟩
    rw [Json.strings_arr]
    apply hw.shows_arr hsp
    intro j hj
    obtain ⟨item, -, rfl⟩ := List.mem_map.mp hj
    rw [Json.strings_obj]
    exact hw.shows_obj hsp (ihe item)
  | table lib codec rest ih =>
    obtain ⟨items, msg⟩ := msg
    refine List.forall_mem_cons.mpr ⟨?_, ih msg⟩
    rw [Json.strings_arr]
    apply hw.shows_arr hsp
    intro j hj
    obtain ⟨x, -, rfl⟩ := List.mem_map.mp hj
    exact hcodec x

theorem exists_flatMap {α : Type} {P : Bytes → Prop} {f g : α → List Bytes}
    (h : ∀ a, (∃ s ∈ f a, P s) ↔ ∃ s ∈ g a, P s) (l : List α) :
    (∃ s ∈ l.flatMap f, P s) ↔ ∃ s ∈ l.flatMap g, P s := by
  induction l with
  | nil => rfl
  | cons a l ih =>
    simp only [List.flatMap_cons, List.mem_append, or_and_right, exists_or, h, ih]

/-- What no key meets is met in the members where the fields meet it. -/
theorem Fields.exists_string (X : RsmpExt) {P : Bytes → Prop} {fs : Fields}
    (hkeys : ∀ k ∈ fs.keys, ¬ P k) (msg : fs.Msg) :
    (∃ s ∈ (Json.obj (fs.toMembers X msg)).strings, P s) ↔ ∃ s ∈ fs.strings X msg, P s := by
  rw [Json.strings_obj]
  induction fs with
  | nil => rfl
  | field lib codec rest ih =>
    obtain ⟨x, msg⟩ := msg
    obtain ⟨hlib, hrest⟩ := List.forall_mem_cons.mp hkeys
    simp only [toMembers, strings, List.flatMap_cons, List.mem_append, List.mem_cons, or_and_right,
      exists_or, exists_eq_left, hlib, false_or, ih hrest msg, Codec.strings_toJson]
  | array lib elems rest ihe ih =>
    obtain ⟨items, msg⟩ := msg
    obtain ⟨hlib, hdeep⟩ := List.forall_mem_cons.mp hkeys
    obtain ⟨helems, hrest⟩ := List.forall_mem_append.mp hdeep
    have hitems : (∃ s ∈ (Json.arr (items.map fun i => .obj (elems.toMembers X i))).strings, P s) ↔
        ∃ s ∈ items.flatMap (elems.strings X), P s := by
      rw [Json.strings_arr, List.flatMap_map]
      refine exists_flatMap (fun item => ?_) items
      rw [Json.strings_obj]
      exact ihe helems item
    simp only [toMembers, strings, List.flatMap_cons, List.mem_append, List.mem_cons, or_and_right,
      exists_or, exists_eq_left, hlib, false_or, ih hrest msg, hitems]
  | table lib codec rest ih =>
    obtain ⟨items, msg⟩ := msg
    obtain ⟨hlib, hrest⟩ := List.forall_mem_cons.mp hkeys
    have hitems : (Json.arr (items.map (codec.toJson X))).strings =
        items.flatMap fun x => (codec.toJson X x).texts := by
      simp only [Json.strings_arr, List.flatMap_map, Codec.strings_toJson]
    simp only [toMembers, strings, List.flatMap_cons, List.mem_append, List.mem_cons, or_and_right,
      exists_or, exists_eq_left, hlib, false_or, ih hrest msg, hitems]

/-- A member that is a string is one of the strings. -/
theorem Fields.string_mem (X : RsmpExt) {fs : Fields} {msg : fs.Msg} {key s : Bytes}
    (h : (key, .str s) ∈ fs.toMembers X msg) : s ∈ fs.strings X msg := by
  induction fs with
  | nil => cases h
  | field lib codec rest ih =>
    obtain ⟨x, msg⟩ := msg
    rw [toMembers, List.mem_cons, Prod.mk.injEq] at h
    rw [strings, List.mem_append]
    rcases h with ⟨-, hvalue⟩ | h
    · left
      rw [← hvalue]
      exact List.mem_singleton_self s
    · exact .inr (ih h)
  | array lib elems rest _ ih =>
    obtain ⟨items, msg⟩ := msg
    rw [toMembers, List.mem_cons, Prod.mk.injEq] at h
    rcases h with ⟨-, hvalue⟩ | h
    · cases hvalue
    · exact List.mem_append_right _ (ih h)
  | table lib codec rest ih =>
    obtain ⟨items, msg⟩ := msg
    rw [toMembers, List.mem_cons, Prod.mk.injEq] at h
    rcases h with ⟨-, hvalue⟩ | h
    · cases hvalue
    · exact List.mem_append_right _ (ih h)

/-! ## The member of a `Version`

The text is searched as text. The type of the message is one of its strings. -/

/-- The word that is looked for. -/
def versionWord : Bytes := ascii "Version"

theorem versionWord_word : Json.Word versionWord where
  bare := Json.bare_of_gt (by simp [versionWord, ascii])
  ne_nil := by simp [versionWord, ascii]
  starts := by simp [versionWord, ascii, Json.structural]

/-- No key of a description ends with it. -/
theorem MsgType.keys_not_version (t : MsgType) :
    ∀ k ∈ t.desc.keys, ¬ Json.EndsQuoted versionWord k := by
  cases t <;> decide

/-- `SXLG`, with the list. -/
def sxlgMember : Bytes × Json :=
  (ascii "SXLG",
    .arr (eSXLGDef.map fun e => .obj [(ascii "sg", .str e.1), (ascii "vers", .str e.2)]))

namespace Message

variable {m : Message}

/-- The type of a message is what its field `type` says. -/
def OwnType (X : RsmpExt) (m : Message) : Prop := (ascii "type", .str m.1.lib) ∈ m.members X

/-- The strings of its content, at every depth. -/
def strings (X : RsmpExt) (m : Message) : List Bytes := m.1.desc.strings X m.2

/-- The members of the payload are those of the description, and in a `Version` the list. -/
def Exact (X : RsmpExt) (m : Message) (payload : Bytes) : Prop :=
  X.json.parse payload =
    some (.obj (m.members X ++ if m.1 = .version then [sxlgMember] else []))

theorem withESXLG_members (X : RsmpExt) (m : Message) :
    withESXLG (.obj (m.members X)) = .obj (m.members X ++ [sxlgMember]) := by
  have hnew : ascii "SXLG" ∉ (m.members X).map Prod.fst := by
    rw [members_keys]
    exact m.1.sxlg_not_mem
  rw [withESXLG, addMember_new hnew]
  rfl

theorem described_of_payload {payload : Bytes}
    (hpayload : rsmpJsonMsg2payload X m = .ok (some payload)) : m.1.Described := by
  by_contra h
  have hnone : m.1.desc? = none := by simpa [MsgType.Described] using h
  rw [rsmpJsonMsg2payload, hnone] at hpayload
  cases hpayload

/-- The payload has the list where its text, without the list, has the word. -/
theorem payload_members (hX : X.json.Lawful) (h : m.1.Described) {payload : Bytes}
    (hpayload : rsmpJsonMsg2payload X m = .ok (some payload)) :
    ∃ text, X.json.print (.obj (m.members X)) = some text ∧
      X.json.parse payload = some (.obj (m.members X ++
        if strstr text (ascii "\"Version\"") = true then [sxlgMember] else [])) := by
  rw [msg2payload_eq X h] at hpayload
  split at hpayload
  case h_1 => cases hpayload
  case h_2 text hprint =>
    have hparse := hX.parse_print hprint
    refine ⟨text, hprint, ?_⟩
    by_cases hversion : strstr text (ascii "\"Version\"") = true
    · rw [if_pos hversion, addESXLGToJson, hparse] at hpayload
      rw [if_pos hversion, ← withESXLG_members]
      obtain ⟨updated, hupdated, hreturn⟩ := Except.bind_eq_ok.mp hpayload
      dsimp only at hupdated
      split at hupdated
      case h_1 => cases hupdated
      case h_2 text' hprint' =>
        cases hupdated
        cases hreturn
        exact hX.parse_print hprint'
    · rw [if_neg hversion] at hpayload
      cases hpayload
      rw [if_neg hversion, List.append_nil]
      exact hparse

/-- The text has the word where a string of the content ends with it. -/
theorem strstr_version_iff (hlayout : X.json.LaysOut) {text : Bytes}
    (hprint : X.json.print (.obj (m.members X)) = some text) :
    strstr text (ascii "\"Version\"") = true ↔
      ∃ s ∈ m.strings X, Json.EndsQuoted versionWord s := by
  obtain ⟨sp, hsp, rfl⟩ := hlayout hprint
  have hmark : ascii "\"Version\"" = Json.quoted versionWord := by decide
  have hshows := versionWord_word.shows_obj hsp
    (m.1.desc.shows_toMembers versionWord_word hsp X m.2)
  rw [strstr_iff, hmark, members, hshows.infix_iff versionWord_word, ← Json.strings_obj]
  exact Fields.exists_string X m.1.keys_not_version m.2

theorem OwnType.string (h : m.OwnType X) : m.1.lib ∈ m.strings X :=
  Fields.string_mem X h

/-- **Exact keys.** The members of a payload are those that are described, with `SXLG` in a
`Version` only, exactly where the message is one or no string of its content ends with that
word. -/
theorem exactKeys_iff (hX : X.json.Lawful) (hlayout : X.json.LaysOut) (htype : m.OwnType X)
    {payload : Bytes} (hpayload : rsmpJsonMsg2payload X m = .ok (some payload)) :
    m.Exact X payload ↔
      m.1 = .version ∨ ∀ s ∈ m.strings X, ¬ Json.EndsQuoted versionWord s := by
  obtain ⟨text, hprint, hparse⟩ := payload_members hX (described_of_payload hpayload) hpayload
  have hword := strstr_version_iff hlayout hprint
  rw [Exact, hparse]
  by_cases hversion : m.1 = .version
  · -- the word is the name of the type
    have hname : Json.EndsQuoted versionWord m.1.lib := by
      rw [hversion]
      decide
    rw [if_pos hversion, if_pos (hword.mpr ⟨m.1.lib, htype.string, hname⟩)]
    exact iff_of_true rfl (.inl hversion)
  · rw [if_neg hversion, List.append_nil]
    by_cases hstring : ∃ s ∈ m.strings X, Json.EndsQuoted versionWord s
    · rw [if_pos (hword.mpr hstring)]
      apply iff_of_false
      · simp
      · simpa [hversion] using hstring
    · rw [if_neg (hword.not.mpr hstring), List.append_nil]
      refine iff_of_true rfl (.inr ?_)
      simpa using hstring

/-! ### A status of that name

A request for a status whose name is the word. -/

/-- The `StatusRequest` for a status named `Version`. -/
def requestForVersion : Message :=
  ⟨.statusRequest, (), .statusRequest, (0x2c : Uuid), some (CStr.dup []), some (CStr.dup []),
    some (CStr.dup (ascii "TC1")),
    [(some (CStr.dup (ascii "S1")), some (CStr.dup versionWord), ())], ()⟩

def withRequest : RsmpExt := hostExt [watchdog2016, requestForVersion]

theorem withRequest_lawful : withRequest.Lawful := by
  refine hostExt_lawful (JsonLib.ofTable_lawful ?_ ?_)
  · decide +kernel
  · decide +kernel

theorem withRequest_laysOut : withRequest.json.LaysOut :=
  JsonLib.ofPlain_laysOut _

/-- A `Watchdog` has its members. -/
theorem exact_watchdog : ∃ payload,
    rsmpJsonMsg2payload withRequest watchdog2016 = .ok (some payload) ∧
      watchdog2016.Exact withRequest payload := by
  have hprinted : watchdog2016.Printed withRequest :=
    ⟨(Json.obj (watchdog2016.members withRequest)).toPlain, by decide,
      fun hversion => absurd hversion (by decide)⟩
  obtain ⟨payload, hpayload⟩ := hprinted.payload withRequest_lawful (by decide)
  refine ⟨payload, hpayload, ?_⟩
  refine (exactKeys_iff withRequest_lawful.json withRequest_laysOut ?_ hpayload).mpr (.inr ?_)
  · exact List.mem_cons_of_mem _ List.mem_cons_self
  · decide

/-- The request is sent with `SXLG`. -/
theorem not_exact_requestForVersion :
    requestForVersion.Sound ∧ ∃ payload,
      rsmpJsonMsg2payload withRequest requestForVersion = .ok (some payload) ∧
        ¬ requestForVersion.Exact withRequest payload := by
  have hsound : requestForVersion.Sound := by
    refine ⟨by decide, trivial, rfl, trivial, nofun, nofun, nofun, ?_, trivial⟩
    intro item hitem
    obtain rfl := List.mem_singleton.mp hitem
    exact ⟨nofun, nofun, trivial⟩
  have hprinted : requestForVersion.Printed withRequest :=
    ⟨(Json.obj (requestForVersion.members withRequest)).toPlain, by decide +kernel,
      fun _ => ⟨(withESXLG (.obj (requestForVersion.members withRequest))).toPlain,
        by decide +kernel⟩⟩
  obtain ⟨payload, hpayload⟩ := hprinted.payload withRequest_lawful hsound.described
  refine ⟨hsound, payload, hpayload, ?_⟩
  obtain ⟨text, hprint, hparse⟩ :=
    payload_members withRequest_lawful.json hsound.described hpayload
  have hword : strstr text (ascii "\"Version\"") = true :=
    (strstr_version_iff withRequest_laysOut hprint).mpr
      ⟨versionWord, by decide, by decide⟩
  rw [Exact, hparse, if_pos hword, if_neg (by decide), List.append_nil]
  simp

end Message

end RsmpGateway.Rsmp
