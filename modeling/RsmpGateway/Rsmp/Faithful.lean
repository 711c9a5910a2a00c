import RsmpGateway.Rsmp.Decode

/-!
# What an accepted message holds

A codec may answer that it has decoded a value and keep nothing of it, or part of it: a decoder
of an identifier, an enumeration or a `v` leaves what is there for a value that is no string, a
string is cut at its first null character, and of a date that is not complete the rest is what
was there before. A message that is accepted holds what its payload carries exactly when none of
this happens (`payload2msg_faithful_iff`).

The relation between a value and what is stored (`Codec.Carries`) says nothing of how it is
decoded; it is what a reader of the payload would expect. Of the texts of a date, only the whole
one with its milliseconds is taken to carry the date. `Fields.Carries` lifts the relation to
objects, arrays and nested objects, by the table of the message.
-/

namespace RsmpGateway.Rsmp

open RsmpGateway.Lib RsmpGateway.Auth RsmpGateway.Coder

variable {X : RsmpExt}

/-! ## Values carried

Both what is carried and what is formatted follow the type of the field; they are the two sides
of the equivalence. -/

/-- What a JSON value carries for a field. An empty string is the null identifier. -/
def Codec.Carries (X : RsmpExt) : (c : Codec) → Json → c.Ty → Prop
  | mType, value, _ => value = .str mTypeValue
  | type, value, t => value = .str t.lib
  | uuid, value, id =>
    ∃ s, value = .str s ∧ (0 : UInt8) ∉ s ∧ (if s = [] then id = 0 else X.uuidParse s = some id)
  | str, value, x => ∃ s, x = some s ∧ value = .str s.val
  | ts, value, t => HoroDate.InRange t ∧ t.nsec % 1000000 = 0 ∧ value = .str (zuluText t)
  | bool, value, b => value = .bool b
  | v, value, a => value = .str a.items
  | enum lib _, value, n => ∃ name, lib[n]? = some name ∧ value = .str name

/-- The message holds what the object carries, at every depth. -/
def Fields.Carries (X : RsmpExt) : (fs : Fields) → Json → fs.Msg → Prop
  | nil, _, _ => True
  | field lib codec rest, jobj, (x, msg) =>
    (∃ v, jobj.get? lib = some v ∧ codec.Carries X v x) ∧ rest.Carries X jobj msg
  | array lib elems rest, jobj, (items, msg) =>
    (∃ values, jobj.get? lib = some (.arr values) ∧
      List.Forall₂ (elems.Carries X) values items) ∧ rest.Carries X jobj msg
  | table lib codec rest, jobj, (items, msg) =>
    (∃ values, jobj.get? lib = some (.arr values) ∧
      List.Forall₂ (codec.Carries X) values items) ∧ rest.Carries X jobj msg

/-- The value is a string without null character; a date is a whole one, to the millisecond,
that the host has as a local time. -/
def Codec.Formatted (X : RsmpExt) : Codec → Json → Prop
  | bool, _ => True
  | v, value => ∃ s, value = .str s
  | ts, value => ∃ t, HoroDate.InRange t ∧ t.nsec % 1000000 = 0 ∧ value = .str (zuluText t) ∧
      X.zone.Reads t.sec
  | _, value => ∃ s, value = .str s ∧ (0 : UInt8) ∉ s

/-- All the values of the object are. -/
def Fields.Formatted (X : RsmpExt) : Fields → Json → Prop
  | nil, _ => True
  | field lib codec rest, jobj =>
    (∀ v, jobj.get? lib = some v → codec.Formatted X v) ∧ rest.Formatted X jobj
  | array lib elems rest, jobj =>
    (∀ values, jobj.get? lib = some (.arr values) →
      ∀ value ∈ values, elems.Formatted X value) ∧ rest.Formatted X jobj
  | table lib codec rest, jobj =>
    (∀ values, jobj.get? lib = some (.arr values) →
      ∀ value ∈ values, codec.Formatted X value) ∧ rest.Formatted X jobj

theorem get?_of_rsmpJsonObjectGet {jobj v : Json} {key : Bytes}
    (h : rsmpJsonObjectGet jobj key = some v) : jobj.get? key = some v := by
  unfold rsmpJsonObjectGet at h
  split at h
  · cases h
  · exact h

theorem cstr_eq_self_iff {s : Bytes} : cstr s = s ↔ (0 : UInt8) ∉ s :=
  ⟨fun h => h ▸ nul_not_mem_cstr s, cstr_eq_self⟩

/-- A name that the decoder found is the string, unless it was cut. -/
theorem eq_name_iff {s name : Bytes} (h : cstr s = name) : s = name ↔ (0 : UInt8) ∉ s := by
  rw [← cstr_eq_self_iff, h]
  exact eq_comm

/-! ## One field

The case analysis over the codecs. Everything else is induction over the table. -/

/-- Only a boolean is carried by what is no string. -/
theorem Codec.Carries.str {c : Codec} {v : Json} {x : c.Ty} (h : c.Carries X v x) :
    c = .bool ∨ ∃ s, v = .str s := by
  cases c with
  | bool => exact .inl rfl
  | mType => exact .inr ⟨_, h⟩
  | type => exact .inr ⟨_, h⟩
  | v => exact .inr ⟨_, h⟩
  | uuid =>
    obtain ⟨s, hs, -⟩ := h
    exact .inr ⟨s, hs⟩
  | str =>
    obtain ⟨s, -, hs⟩ := h
    exact .inr ⟨s.val, hs⟩
  | ts =>
    obtain ⟨-, -, hs⟩ := h
    exact .inr ⟨_, hs⟩
  | enum lib strict =>
    obtain ⟨name, -, hs⟩ := h
    exact .inr ⟨name, hs⟩

theorem Codec.Formatted.str {c : Codec} {v : Json} (h : c.Formatted X v) :
    c = .bool ∨ ∃ s, v = .str s := by
  cases c with
  | bool => exact .inl rfl
  | v => exact .inr h
  | ts =>
    obtain ⟨_, -, -, hs, -⟩ := h
    exact .inr ⟨_, hs⟩
  | _ =>
    obtain ⟨s, hs, -⟩ := h
    exact .inr ⟨s, hs⟩

/-- A date that is read from its own text is a local time of the host. -/
theorem tsFromString_zuluText (hZ : X.zone.Lawful) {t ts : HoroDate} (ht : HoroDate.InRange t)
    (hms : t.nsec % 1000000 = 0) (h : tsFromString X (zuluText t) = some ts) :
    ts = t ↔ X.zone.Reads t.sec := by
  rw [tsFromString, cstr_eq_self (nul_not_mem_zuluText t), str2ZuluHorodate_zuluText _ _ ht] at h
  dsimp only at h
  split at h
  · cases h
    have hnsec : t.nsec / 1000000 * 1000000 = t.nsec := by omega
    rw [← Zone.utcOfLocal_eq_iff hZ, hnsec]
    constructor
    · intro heq
      exact congrArg HoroDate.sec heq
    · intro hsec
      rw [hsec]
  · cases h

/-- A codec keeps what a formatted value carries, and no other. -/
theorem Codec.carries_iff (hZ : X.zone.Lawful) {c : Codec} {v : Json} {x x' : c.Ty}
    (h : jsonExtractField X c v x = .ok x') : c.Carries X v x' ↔ c.Formatted X v := by
  by_cases hbool : c = .bool
  · subst hbool
    cases v with
    | bool b =>
      cases h
      exact ⟨fun _ => trivial, fun _ => rfl⟩
    | _ => cases h
  -- every other codec carries strings only
  by_cases hstr : ∃ s, v = .str s
  · obtain ⟨s, rfl⟩ := hstr
    have hdecode : c.decode X (.string (some s)) x = .ok x' := h
    cases c with
    | bool => exact absurd rfl hbool
    | mType =>
      simp only [decode, mTypeDecode] at hdecode
      split at hdecode
      · next hs =>
        show Json.str s = .str mTypeValue ↔ ∃ s', Json.str s = .str s' ∧ (0 : UInt8) ∉ s'
        simp only [Json.str.injEq, eq_name_iff hs, exists_eq_left']
      · cases hdecode
    | type =>
      simp only [decode, typeDecode, Option.bind_some] at hdecode
      split at hdecode
      · next t ht =>
        cases hdecode
        show Json.str s = .str x'.lib ↔ ∃ s', Json.str s = .str s' ∧ (0 : UInt8) ∉ s'
        simp only [Json.str.injEq, eq_name_iff (rsmpTypeFromString_some ht), exists_eq_left']
      · cases hdecode
    -- a text without NUL is read whole, and what is stored is read of it
    | uuid =>
      show (∃ s', Json.str s = .str s' ∧ (0 : UInt8) ∉ s' ∧ _) ↔
        ∃ s', Json.str s = .str s' ∧ (0 : UInt8) ∉ s'
      simp only [Json.str.injEq, exists_eq_left']
      refine ⟨fun h => h.1, fun hnul => ⟨hnul, ?_⟩⟩
      simp only [decode, uuidDecode, cstr_eq_self hnul] at hdecode
      split at hdecode
      · next hs =>
        cases hdecode
        rw [if_pos hs]
      · next hs =>
        rw [if_neg hs]
        split at hdecode
        · next id hid =>
          cases hdecode
          exact hid
        · cases hdecode
    | str =>
      cases hdecode
      show (∃ s', some (CStr.dup s) = some s' ∧ Json.str s = .str s'.val) ↔
        ∃ s', Json.str s = .str s' ∧ (0 : UInt8) ∉ s'
      simp only [Option.some.injEq, exists_eq_left', Json.str.injEq]
      exact eq_name_iff rfl
    | ts =>
      simp only [decode, tsDecode] at hdecode
      split at hdecode
      · next ts hts =>
        cases hdecode
        constructor
        · -- the date is the one of the text when the host reads it so
          rintro ⟨hrange, hms, hs⟩
          obtain rfl := Json.str.inj hs
          exact ⟨x', hrange, hms, rfl, (tsFromString_zuluText hZ hrange hms hts).mp rfl⟩
        · rintro ⟨t, hrange, hms, hs, hreads⟩
          obtain rfl := Json.str.inj hs
          rw [(tsFromString_zuluText hZ hrange hms hts).mpr hreads]
          exact ⟨hrange, hms, rfl⟩
      · cases hdecode
    | v =>
      simp only [decode, vDecode, Option.getD_some] at hdecode
      split at hdecode
      · cases hdecode
      · cases hdecode
        exact ⟨fun _ => ⟨s, rfl⟩, fun _ => rfl⟩
    | enum lib strict =>
      simp only [decode, enumDecode, Option.bind_some] at hdecode
      split at hdecode
      · next n hn =>
        cases hdecode
        show (∃ name, lib[x']? = some name ∧ Json.str s = .str name) ↔
          ∃ s', Json.str s = .str s' ∧ (0 : UInt8) ∉ s'
        simp only [rsmpLibFind_some hn, Option.some.injEq, exists_eq_left', Json.str.injEq]
        exact eq_name_iff rfl
      · cases hdecode
  · constructor
    · intro hcarries
      exact absurd (hcarries.str.resolve_left hbool) hstr
    · intro hformatted
      exact absurd (hformatted.str.resolve_left hbool) hstr

/-! ## All the fields

By induction on the fields, over arrays and objects inside them. -/

theorem Fields.carries_iff (hZ : X.zone.Lawful) {fs : Fields} {jobj : Json} {m m' : fs.Msg}
    (h : fs.jsonExtractFields X jobj m = .ok m') : fs.Carries X jobj m' ↔ fs.Formatted X jobj := by
  induction fs generalizing jobj with
  | nil => exact ⟨fun _ => trivial, fun _ => trivial⟩
  | field lib codec rest ih =>
    obtain ⟨x, m⟩ := m
    obtain ⟨x', m'⟩ := m'
    rw [jsonExtractFields] at h
    split at h
    · cases h
    · next v hget =>
      obtain ⟨hx, hm⟩ := pair_eq_ok.mp h
      rw [Carries, Formatted, get?_of_rsmpJsonObjectGet hget, ih hm]
      simp only [Option.some.injEq, exists_eq_left', forall_eq', Codec.carries_iff hZ hx]
  | array lib elems rest ihe ih =>
    obtain ⟨x, m⟩ := m
    obtain ⟨items, m'⟩ := m'
    rw [jsonExtractFields] at h
    split at h
    · cases h
    · next values hget =>
      obtain ⟨hitems, hm⟩ := pair_eq_ok.mp h
      have helems : List.Forall₂ (elems.Carries X) values items ↔
          ∀ value ∈ values, elems.Formatted X value :=
        forall₂_iff_forall (mapM_eq_ok.mp hitems) fun _ _ hvalue => ihe hvalue
      rw [Carries, Formatted, get?_of_rsmpJsonObjectGet hget, ih hm]
      simp only [Option.some.injEq, Json.arr.injEq, exists_eq_left', forall_eq', helems]
    · cases h
  | table lib codec rest ih =>
    obtain ⟨x, m⟩ := m
    obtain ⟨items, m'⟩ := m'
    rw [jsonExtractFields] at h
    split at h
    · cases h
    · next values hget =>
      obtain ⟨hitems, hm⟩ := pair_eq_ok.mp h
      have helems : List.Forall₂ (codec.Carries X) values items ↔
          ∀ value ∈ values, codec.Formatted X value :=
        forall₂_iff_forall (mapM_eq_ok.mp hitems) fun _ _ hvalue => Codec.carries_iff hZ hvalue
      rw [Carries, Formatted, get?_of_rsmpJsonObjectGet hget, ih hm]
      simp only [Option.some.injEq, Json.arr.injEq, exists_eq_left', forall_eq', helems]
    · cases h

/-! ## Messages -/

/-- A message that is returned holds what its payload carries. -/
def Faithful (X : RsmpExt) (payload : Bytes) (r : Decoded) : Prop :=
  ∀ m, r = .msg m → ∃ jobj, X.json.parse payload = some jobj ∧ m.1.desc.Carries X jobj m.2

/-- If the payload is accepted, its values are formatted. -/
def WellFormatted (X : RsmpExt) (payload : Bytes) : Prop :=
  ∀ jobj t, HeaderIs X payload jobj t → t.Described → t.desc.Decodes X jobj →
    t.desc.EmptyV jobj → t.desc.Formatted X jobj

/-- **Faithful decoding.** -/
theorem payload2msg_faithful_iff (hZ : X.zone.Lawful) (B : Birth) (payload : Bytes) :
    Faithful X payload (rsmpJsonPayload2msg X B payload) ↔ WellFormatted X payload := by
  by_cases hheader : ∃ jobj t, HeaderIs X payload jobj t
  · obtain ⟨jobj, t, h⟩ := hheader
    have hmsg : ∀ {m}, rsmpJsonPayload2msg X B payload = .msg m →
        ∃ body, m = ⟨t, body⟩ ∧ t.desc.jsonExtractFields X jobj (t.new B) = .ok body := by
      intro m hm
      rw [h.payload2msg] at hm
      split at hm
      · split at hm
        · next body hextract =>
          cases hm
          exact ⟨body, rfl, hextract⟩
        · cases hm
        · cases hm
      · cases hm
    constructor
    · intro hfaithful jobj' t' h' hdesc hdecodes hempty
      obtain ⟨rfl, rfl⟩ := h.unique h'
      obtain ⟨m, hm⟩ := (h.msg_iff B).mpr ⟨hdesc, hdecodes, hempty⟩
      obtain ⟨body, rfl, hextract⟩ := hmsg hm
      obtain ⟨jobj, hparse, hcarries⟩ := hfaithful _ hm
      obtain rfl : jobj = jobj' := Option.some.inj (hparse.symm.trans h.parse)
      exact (Fields.carries_iff hZ hextract).mp hcarries
    · intro hformatted m hm
      obtain ⟨hdesc, hdecodes, hempty⟩ := (h.msg_iff B).mp ⟨m, hm⟩
      obtain ⟨body, rfl, hextract⟩ := hmsg hm
      exact ⟨jobj, h.parse, (Fields.carries_iff hZ hextract).mpr
        (hformatted jobj t h hdesc hdecodes hempty)⟩
  · have hrefused : ∀ jobj t, ¬ HeaderIs X payload jobj t := by
      intro jobj t h
      exact hheader ⟨jobj, t, h⟩
    constructor
    · intro _ jobj t h
      exact absurd h (hrefused jobj t)
    · intro _ m hm
      rw [payload2msg_refused hrefused B] at hm
      cases hm

/-! ### An identifier that is a number -/

/-- A `Watchdog` of 2016, with its identifier. -/
def watchdogPayload (text : String) (mId : Json) : Bytes × Json :=
  rsmpPayload "Watchdog"
    ("\",\"mId\":" ++ text ++ ",\"wTs\":\"2016-03-03T13:41:03.789Z\"\x7d")
    [(ascii "mId", mId), (ascii "wTs", .str (ascii "2016-03-03T13:41:03.789Z"))]

/-- One with an empty identifier, and one whose identifier is a number. -/
def watchdogTable : List (Bytes × Json) :=
  [watchdogPayload "\"\"" (.str []), watchdogPayload "12" (.int 12)]

/-- The message of the first payload holds what the payload carries. -/
theorem payload2msg_faithful_empty :
    Faithful (tableExt watchdogTable) (watchdogPayload "\"\"" (.str [])).1
      (rsmpJsonPayload2msg (tableExt watchdogTable) bareBirth
        (watchdogPayload "\"\"" (.str [])).1) := by
  apply (payload2msg_faithful_iff Zone.utc_lawful bareBirth _).mpr
  intro jobj t h _ _ _
  have hparse : (tableExt watchdogTable).json.parse (watchdogPayload "\"\"" (.str [])).1 =
      some (watchdogPayload "\"\"" (.str [])).2 := by
    simp [tableExt, JsonLib.ofTable, watchdogTable]
  have htype : rsmpJsonExtractType (watchdogPayload "\"\"" (.str [])).2 = some .watchdog :=
    rsmpTypeFromString_lib .watchdog
  obtain rfl := Option.some.inj (hparse.symm.trans h.parse)
  obtain rfl := Option.some.inj (htype.symm.trans h.type)
  refine ⟨?_, ?_, ?_, ?_, trivial⟩
  · intro v hv
    cases hv
    exact ⟨mTypeValue, rfl, by decide⟩
  · intro v hv
    cases hv
    exact ⟨ascii "Watchdog", rfl, by decide⟩
  · intro v hv
    cases hv
    exact ⟨[], rfl, List.not_mem_nil⟩
  · intro v hv
    cases hv
    have htext : ascii "2016-03-03T13:41:03.789Z" = zuluText ⟨1457012463, 789000000⟩ := by
      decide
    exact ⟨⟨1457012463, 789000000⟩, ⟨by decide, by decide⟩, rfl, congrArg Json.str htext,
      Zone.utc_reads _⟩

/-- That of the second one keeps the identifier that its constructor has drawn. -/
theorem payload2msg_unfaithful :
    ∃ m, rsmpJsonPayload2msg (tableExt watchdogTable) bareBirth
        (watchdogPayload "12" (.int 12)).1 = .msg m ∧
      ¬ Faithful (tableExt watchdogTable) (watchdogPayload "12" (.int 12)).1 (.msg m) := by
  have haccepted : (match rsmpJsonPayload2msg (tableExt watchdogTable) bareBirth
      (watchdogPayload "12" (.int 12)).1 with
      | .msg m => decide (m.1 = .watchdog)
      | _ => false) = true := by decide
  have hparse : ((tableExt watchdogTable).json.parse (watchdogPayload "12" (.int 12)).1).any
      (fun jobj => jobj.same (watchdogPayload "12" (.int 12)).2) = true := by decide
  split at haccepted
  · next m hm =>
    obtain ⟨t, body⟩ := m
    obtain rfl : t = .watchdog := of_decide_eq_true haccepted
    refine ⟨_, hm, ?_⟩
    intro hfaithful
    obtain ⟨jobj, hjobj, -, -, ⟨v, hv, s, hs, -⟩, -⟩ := hfaithful _ rfl
    rw [hjobj, Option.any_some] at hparse
    obtain rfl := Json.eq_of_same hparse
    cases hv
    cases hs
  · cases haccepted

end RsmpGateway.Rsmp
