import RsmpGateway.Cyber.Exchange

/-!
# The codec of `CipherAgreement`

`CipherAgreement_deserial` with its four outputs, its allocations and its common exit. What
`CipherAgreement_serial` makes is read back. Any other value is decoded as a whole, or refused
with its outputs emptied, as long as the values that are copied or compared are not `null`, and
the list is an array (`codec_right`).

An output may hold anything when the function is called, and the allocator may refuse any of the
copies: the common exit frees what was copied and sets the outputs to null. What goes wrong goes
wrong before it, where json-c gives a null pointer for `null` and stops the process for what is
no array.
-/

namespace RsmpGateway.Cyber

open RsmpGateway.Lib

/-! ## Decoding

The outputs are allocated one after the other, and freed together when something is missing. -/

/-- `*ciphers_list`, `*ciphers_len`, `*mId` and `*sId_Remote_rxed`. -/
structure Outputs where
  ciphersList : Option (List (Option Bytes))
  ciphersLen : Nat
  mId : Option Bytes
  sIdRemoteRxed : Option Bytes
  deriving DecidableEq

/-- How a call ends: with `_rsmp_errcod_gen_no_error_` or another code, or not at all. -/
inductive Returned
  | code (ok : Bool) (out : Outputs)
  | fault
  deriving DecidableEq

/-- What the exit frees of the list: the elements that `ciphers_len` counts, then the array. To
read past the array is a fault. -/
def Outputs.freeList (o : Outputs) : Outcome Outputs :=
  match o.ciphersList with
  | none => .ok o
  | some list =>
    if o.ciphersLen ≤ list.length then .ok { o with ciphersList := none } else .fault

/-- `cleanup` of `CipherAgreement_deserial`, on an error. -/
def Outputs.cleanup (o : Outputs) : Returned :=
  match { o with mId := none }.freeList with
  | .ok o => .code false { o with ciphersLen := 0, sIdRemoteRxed := none }
  | _ => .fault

section Deserial

-- `alloc k` tells whether the allocation number `k` of the call succeeds
variable (J : JsonLib) (alloc : Nat → Bool)

/-- `strdup(json_object_get_string(j))` -/
def strdup (k : Nat) (j : Json) : Outcome Bytes := do
  let s ← stringOf J j
  if alloc k then .ok s else .err

/-- The members that are asked for: `mType`, `type`, `mId`, `sId` and `cipher`. -/
def agreementFields (j : Json) : Option (Json × Json × Json × Json × Json) := do
  let mType ← j.get? (ascii "mType")
  let type ← j.get? (ascii "type")
  let mId ← j.get? (ascii "mId")
  let sId ← j.get? (ascii "sId")
  let ciphers ← j.get? (ascii "cipher")
  return (mType, type, mId, sId, ciphers)

/-- The `mId`, the `sId` and the list of a `CipherAgreement`. -/
def agreementMembers (payload : Bytes) : Outcome (Json × Json × Json) := do
  let j ← Outcome.ofOption (J.parse payload)
  let (mType, type, mId, sId, ciphers) ← Outcome.ofOption (agreementFields j)
  if (← stringOf J mType) ≠ ascii "eRMsg" then .err
  else if (← stringOf J type) ≠ ascii "CipherAgreement" then .err
  else return (mId, sId, ciphers)

/-- The loop over the list: the elements that are not copied stay null. -/
def dupItems : Nat → List Json → Outcome Unit × List (Option Bytes)
  | _, [] => (.ok (), [])
  | k, j :: js =>
    match strdup J alloc k j with
    | .ok s =>
      let (ret, list) := dupItems (k + 1) js
      (ret, some s :: list)
    | .err => (.err, none :: js.map fun _ => none)
    | .fault => (.fault, none :: js.map fun _ => none)

/-- The list is filled. What is no array has no length. -/
def fillList (ciphers : Json) (o : Outputs) : Outcome Unit × Outputs :=
  match ciphers with
  | .arr items =>
    let o := { o with ciphersLen := items.length }
    if items = [] then (.err, o)
    else if alloc 2 then
      let (ret, list) := dupItems J alloc 3 items
      (ret, { o with ciphersList := some list })
    else (.err, { o with ciphersList := none })
  | _ => (.fault, o)

/-- The outputs are filled, in order. -/
def fillOutputs (mId sId ciphers : Json) (o : Outputs) : Outcome Unit × Outputs :=
  match strdup J alloc 0 mId with
  | .err => (.err, { o with mId := none })
  | .fault => (.fault, o)
  | .ok mId =>
    let o := { o with mId := some mId }
    match strdup J alloc 1 sId with
    | .err => (.err, { o with sIdRemoteRxed := none })
    | .fault => (.fault, o)
    | .ok sId => fillList J alloc ciphers { o with sIdRemoteRxed := some sId }

/-- The exit, once the outputs are filled or an error is met. -/
def finish : Outcome Unit × Outputs → Returned
  | (.ok (), o) => .code true o
  | (.err, o) => o.cleanup
  | (.fault, _) => .fault

/-- `CipherAgreement_deserial`, with what its outputs hold before. -/
def cipherAgreementDeserialOut (payload : Bytes) (o : Outputs) : Returned :=
  let o := { o with ciphersLen := 0 }
  if payload = [] ∨ o.mId.isSome then o.cleanup
  else
    match agreementMembers J payload with
    | .err => o.cleanup
    | .fault => .fault
    | .ok (mId, sId, ciphers) => finish (fillOutputs J alloc mId sId ciphers o)

end Deserial

/-! ## What is asked of it

The round trip, and what is left of the outputs after a failure, for every payload and every
answer of the allocator. -/

/-- All the outputs of a message: its list, which is not empty, its `mId` and its `sId`. -/
def Outputs.of (names : List Bytes) (mId sId : Bytes) : Outputs :=
  ⟨some (names.map some), names.length, some mId, some sId⟩

/-- **Complete outputs, or an error and none.** -/
def Returned.Right : Returned → Prop
  | .code true o => ∃ names mId sId, names ≠ [] ∧ o = .of names mId sId
  | .code false o => o = ⟨none, 0, none, none⟩
  | .fault => False

section Whole

variable (J : JsonLib) (alloc : Nat → Bool)

/-- The value is not `null`, and has a text. -/
def HasText (j : Json) : Prop := j.getString J ≠ none

/-- Each element has a text, as long as those before it are copied. -/
def ItemsWhole : Nat → List Json → Prop
  | _, [] => True
  | k, j :: js => HasText J j ∧ (alloc k = true → ItemsWhole (k + 1) js)

/-- The list is an array, whose elements have a text. -/
def ListWhole (ciphers : Json) : Prop :=
  ∃ items, ciphers = .arr items ∧ (alloc 2 = true → ItemsWhole J alloc 3 items)

/-- The members that are copied have a text, and the list is one. -/
def FieldsWhole (mId sId ciphers : Json) : Prop :=
  HasText J mId ∧ (alloc 0 = true → HasText J sId ∧ (alloc 1 = true → ListWhole J alloc ciphers))

/-- What is compared or copied of the value has a text, and its list is an array, as far as the
decoder comes. -/
def Whole (j : Json) : Prop :=
  ∀ mType type mId sId ciphers, agreementFields j = some (mType, type, mId, sId, ciphers) →
    HasText J mType ∧ (stringOf J mType = .ok (ascii "eRMsg") →
      HasText J type ∧ (stringOf J type = .ok (ascii "CipherAgreement") →
        FieldsWhole J alloc mId sId ciphers))

end Whole

/-! ## Pieces

The decoder is cut where it allocates. Each piece either goes on with one output more, or comes
to the end with all of them freed. -/

section Pieces

variable {J : JsonLib} {alloc : Nat → Bool}

theorem hasText_iff {j : Json} : HasText J j ↔ ∃ s, stringOf J j = .ok s := by
  rw [HasText, stringOf]
  cases j.getString J <;> simp

theorem not_hasText {j : Json} (h : ¬ HasText J j) : stringOf J j = .fault := by
  rw [HasText, not_not] at h
  rw [stringOf, h]

/-! ### Copies that may fail

A copy of a null string is a fault, and one without memory an error. In the list it leaves the
rest of the pointers null, which the exit may free. -/

variable (J alloc) in
theorem strdup_cases (k : Nat) (j : Json) :
    (∃ s, stringOf J j = .ok s ∧ HasText J j ∧
        strdup J alloc k j = if alloc k then .ok s else .err) ∨
      (¬ HasText J j ∧ strdup J alloc k j = .fault) := by
  by_cases h : HasText J j
  · obtain ⟨s, hs⟩ := hasText_iff.mp h
    exact .inl ⟨s, hs, h, by rw [strdup, hs]; rfl⟩
  · exact .inr ⟨h, by rw [strdup, not_hasText h]; rfl⟩

variable (J alloc) in
/-- How the loop ends. -/
theorem dupItems_cases (k : Nat) (items : List Json) :
    (ItemsWhole J alloc k items ∧
        ((∃ names : List Bytes, names.length = items.length ∧
            dupItems J alloc k items = (.ok (), names.map some)) ∨
          ∃ list : List (Option Bytes), list.length = items.length ∧
            dupItems J alloc k items = (.err, list))) ∨
      (¬ ItemsWhole J alloc k items ∧ (dupItems J alloc k items).1 = .fault) := by
  induction items generalizing k with
  | nil => exact .inl ⟨trivial, .inl ⟨[], rfl, rfl⟩⟩
  | cons j js ih =>
    rw [dupItems, ItemsWhole]
    rcases strdup_cases J alloc k j with ⟨s, -, htext, hdup⟩ | ⟨htext, hdup⟩
    · rw [hdup]
      cases halloc : alloc k with
      | false => exact .inl ⟨⟨htext, nofun⟩, .inr ⟨_, by simp, rfl⟩⟩
      | true =>
        rcases ih (k + 1) with ⟨hwhole, ⟨names, hlen, hdup'⟩ | ⟨list, hlen, hdup'⟩⟩ |
          ⟨hwhole, hdup'⟩
        · exact .inl ⟨⟨htext, fun _ => hwhole⟩,
            .inl ⟨s :: names, by simp [hlen], by simp [hdup']⟩⟩
        · exact .inl ⟨⟨htext, fun _ => hwhole⟩,
            .inr ⟨some s :: list, by simp [hlen], by simp [hdup']⟩⟩
        · exact .inr ⟨fun h => hwhole (h.2 rfl), hdup'⟩
    · rw [hdup]
      exact .inr ⟨fun h => htext h.1, rfl⟩

/-! ### The exit

It frees as many elements of the list as `ciphers_len` counts, which have to be in it, and then
the list. -/

/-- The exit empties the outputs when it does not read past the list. -/
theorem cleanup_eq {o : Outputs}
    (h : ∀ list, o.ciphersList = some list → o.ciphersLen ≤ list.length) :
    o.cleanup = .code false ⟨none, 0, none, none⟩ := by
  rw [Outputs.cleanup, Outputs.freeList]
  cases hlist : o.ciphersList with
  | none => rfl
  | some list =>
    simp only [if_pos (h list hlist)]

theorem cleanup_zero (list : Option (List (Option Bytes))) (mId sId : Option Bytes) :
    (Outputs.mk list 0 mId sId).cleanup = .code false ⟨none, 0, none, none⟩ :=
  cleanup_eq fun _ _ => Nat.zero_le _

theorem cleanup_right {o : Outputs}
    (h : ∀ list, o.ciphersList = some list → o.ciphersLen ≤ list.length) : o.cleanup.Right := by
  rw [cleanup_eq h]
  rfl

theorem cleanup_len_zero {o : Outputs} (h : o.ciphersLen = 0) : o.cleanup.Right :=
  cleanup_right fun _ _ => by rw [h]; exact Nat.zero_le _

theorem finish_err (o : Outputs) : finish (.err, o) = o.cleanup := rfl

theorem finish_list {ciphers : Json} {o : Outputs} {mId sId : Bytes} (hmId : o.mId = some mId)
    (hsId : o.sIdRemoteRxed = some sId) :
    (finish (fillList J alloc ciphers o)).Right ↔ ListWhole J alloc ciphers := by
  rw [fillList.eq_def, ListWhole]
  split
  case h_2 hnot =>
    apply iff_of_false id
    rintro ⟨items, rfl, -⟩
    exact hnot items rfl
  case h_1 items =>
    simp only [Json.arr.injEq, exists_eq_left']
    by_cases hnil : items = []
    · subst hnil
      rw [if_pos rfl]
      exact iff_of_true (cleanup_len_zero rfl) fun _ => trivial
    · rw [if_neg hnil]
      cases halloc : alloc 2 with
      | false =>
        rw [if_neg Bool.false_ne_true, finish_err]
        exact iff_of_true (cleanup_right (by rintro _ ⟨⟩)) nofun
      | true =>
        rw [if_pos rfl]
        rcases dupItems_cases J alloc 3 items with
          ⟨hwhole, ⟨names, hlen, hdup⟩ | ⟨list, hlen, hdup⟩⟩ | ⟨hwhole, hdup⟩
        · rw [hdup]
          refine iff_of_true ⟨names, mId, sId, ?_, ?_⟩ fun _ => hwhole
          · rintro rfl
            exact hnil (List.eq_nil_of_length_eq_zero hlen.symm)
          · rw [Outputs.of, hlen, hmId, hsId]
        · rw [hdup, finish_err]
          refine iff_of_true (cleanup_right ?_) fun _ => hwhole
          rintro _ ⟨⟩
          exact hlen.ge
        · generalize dupItems J alloc 3 items = r at hdup
          obtain ⟨ret, list⟩ := r
          cases hdup
          exact iff_of_false id fun h => hwhole (h rfl)

/-- The outputs are filled as a whole, or emptied. -/
theorem finish_right {mId sId ciphers : Json} {o : Outputs} (ho : o.ciphersLen = 0) :
    (finish (fillOutputs J alloc mId sId ciphers o)).Right ↔
      FieldsWhole J alloc mId sId ciphers := by
  rw [fillOutputs, FieldsWhole]
  rcases strdup_cases J alloc 0 mId with ⟨m, -, hmId, hdup⟩ | ⟨hmId, hdup⟩
  case inr =>
    rw [hdup]
    exact iff_of_false id fun h => hmId h.1
  cases hm : alloc 0 with
  | false =>
    rw [hdup, hm]
    exact iff_of_true (cleanup_len_zero ho) ⟨hmId, nofun⟩
  | true =>
    rw [hdup, hm, if_pos rfl]
    rcases strdup_cases J alloc 1 sId with ⟨i, -, hsId, hdup⟩ | ⟨hsId, hdup⟩
    case inr =>
      simp only [hdup]
      exact iff_of_false id fun h => hsId (h.2 trivial).1
    cases hs : alloc 1 with
    | false =>
      simp only [hdup, hs]
      exact iff_of_true (cleanup_len_zero ho) ⟨hmId, fun _ => ⟨hsId, nofun⟩⟩
    | true =>
      simp only [hdup, hs, if_true]
      rw [finish_list rfl rfl]
      simp [hmId, hsId]

/-! ### The whole decoder

From the payload to the outputs: what is no message is an error with nothing allocated, and what
is one is copied member by member. -/

/-- What the marks of a message lead to. -/
theorem agreementMembers_cases {payload : Bytes} {j mType type mId sId ciphers : Json}
    (hparse : J.parse payload = some j)
    (hfields : agreementFields j = some (mType, type, mId, sId, ciphers)) {P : Prop} :
    (agreementMembers J payload = .fault ∧ ¬ (HasText J mType ∧
        (stringOf J mType = .ok (ascii "eRMsg") → HasText J type ∧
          (stringOf J type = .ok (ascii "CipherAgreement") → P)))) ∨
      (agreementMembers J payload = .err ∧ HasText J mType ∧
        (stringOf J mType = .ok (ascii "eRMsg") → HasText J type ∧
          (stringOf J type = .ok (ascii "CipherAgreement") → P))) ∨
        (agreementMembers J payload = .ok (mId, sId, ciphers) ∧
          ((HasText J mType ∧ (stringOf J mType = .ok (ascii "eRMsg") → HasText J type ∧
            (stringOf J type = .ok (ascii "CipherAgreement") → P))) ↔ P)) := by
  have hmembers : agreementMembers J payload = do
      if (← stringOf J mType) ≠ ascii "eRMsg" then .err
      else if (← stringOf J type) ≠ ascii "CipherAgreement" then .err
      else return (mId, sId, ciphers) := by
    rw [agreementMembers, hparse, Outcome.ofOption, Outcome.ok_bind, hfields]
    rfl
  rw [hmembers]
  by_cases hmType : HasText J mType
  case neg =>
    rw [not_hasText hmType]
    exact .inl ⟨rfl, fun h => hmType h.1⟩
  obtain ⟨m, hm⟩ := hasText_iff.mp hmType
  rw [hm, Outcome.ok_bind]
  by_cases hmark : m = ascii "eRMsg"
  case neg =>
    rw [if_pos hmark]
    exact .inr (.inl ⟨rfl, hmType, fun h => absurd (Outcome.ok.inj h) hmark⟩)
  rw [if_neg (not_not.mpr hmark)]
  by_cases htype : HasText J type
  case neg =>
    rw [not_hasText htype]
    exact .inl ⟨rfl, fun h => htype (h.2 (by rw [hmark])).1⟩
  obtain ⟨t, ht⟩ := hasText_iff.mp htype
  rw [ht, Outcome.ok_bind]
  by_cases hname : t = ascii "CipherAgreement"
  case neg =>
    rw [if_pos hname]
    exact .inr (.inl ⟨rfl, hmType, fun _ => ⟨htype, fun h => absurd (Outcome.ok.inj h) hname⟩⟩)
  rw [if_neg (not_not.mpr hname)]
  exact .inr (.inr ⟨rfl, by simp [hmType, hmark, htype, hname]⟩)

/-- A payload that is parsed, in a call with nothing in `*mId`. -/
theorem deserialOut_parsed {payload : Bytes} {j : Json} {o : Outputs} (hpayload : payload ≠ [])
    (ho : o.mId = none) (hparse : J.parse payload = some j) :
    (cipherAgreementDeserialOut J alloc payload o).Right ↔ Whole J alloc j := by
  rw [cipherAgreementDeserialOut, if_neg (by simp [hpayload, ho])]
  cases hfields : agreementFields j with
  | none =>
    have hmembers : agreementMembers J payload = .err := by
      rw [agreementMembers, hparse, Outcome.ofOption, Outcome.ok_bind, hfields]
      rfl
    rw [hmembers]
    apply iff_of_true (cleanup_len_zero (o := { o with ciphersLen := 0 }) rfl)
    intro mType type mId sId ciphers h
    rw [hfields] at h
    cases h
  | some fields =>
    obtain ⟨mType, type, mId, sId, ciphers⟩ := fields
    have hwhole : Whole J alloc j ↔ HasText J mType ∧ (stringOf J mType = .ok (ascii "eRMsg") →
        HasText J type ∧ (stringOf J type = .ok (ascii "CipherAgreement") →
          FieldsWhole J alloc mId sId ciphers)) := by
      rw [Whole, hfields]
      constructor
      · intro h
        exact h mType type mId sId ciphers rfl
      · rintro h _ _ _ _ _ ⟨⟩
        exact h
    rw [hwhole]
    rcases agreementMembers_cases (P := FieldsWhole J alloc mId sId ciphers) hparse hfields with
      ⟨hmembers, hnot⟩ | ⟨hmembers, hmet⟩ | ⟨hmembers, hiff⟩
    · rw [hmembers]
      exact iff_of_false id hnot
    · rw [hmembers]
      exact iff_of_true (cleanup_len_zero (o := { o with ciphersLen := 0 }) rfl) hmet
    · rw [hmembers, hiff]
      exact finish_right rfl

/-- **Decoding anything.** The decoder is right where what it takes is whole, and where it looks at
nothing. -/
theorem deserialOut_right (payload : Bytes) (o : Outputs) :
    (cipherAgreementDeserialOut J alloc payload o).Right ↔
      payload = [] ∨ o.mId ≠ none ∨ ∀ j, J.parse payload = some j → Whole J alloc j := by
  by_cases hpayload : payload = []
  · rw [cipherAgreementDeserialOut, if_pos (.inl hpayload)]
    exact iff_of_true (cleanup_len_zero (o := { o with ciphersLen := 0 }) rfl) (.inl hpayload)
  by_cases ho : o.mId = none
  case neg =>
    rw [cipherAgreementDeserialOut, if_pos (.inr (Option.isSome_iff_ne_none.mpr ho))]
    exact iff_of_true (cleanup_len_zero (o := { o with ciphersLen := 0 }) rfl) (.inr (.inl ho))
  cases hparse : J.parse payload with
  | none =>
    rw [cipherAgreementDeserialOut, if_neg (by simp [hpayload, ho]), agreementMembers, hparse]
    exact iff_of_true (cleanup_len_zero (o := { o with ciphersLen := 0 }) rfl) (.inr (.inr nofun))
  | some j =>
    rw [deserialOut_parsed hpayload ho hparse]
    simp [hpayload, ho]

end Pieces

/-! ## The round trip

What is encoded is found member by member. -/

section RoundTrip

variable {J : JsonLib} {alloc : Nat → Bool} (halloc : ∀ k, alloc k = true)

include halloc

theorem strdup_str (k : Nat) {s : Bytes} (hs : (0 : UInt8) ∉ s) :
    strdup J alloc k (.str s) = .ok s := by
  have hstring : stringOf J (.str s) = .ok (cstr s) := rfl
  rw [strdup, hstring, Outcome.ok_bind, halloc, if_pos rfl, cstr_eq_self hs]

theorem dupItems_strs (k : Nat) {names : List Bytes} (hnames : ∀ name ∈ names, (0 : UInt8) ∉ name) :
    dupItems J alloc k (names.map .str) = (.ok (), names.map some) := by
  induction names generalizing k with
  | nil => rfl
  | cons name names ih =>
    obtain ⟨hname, hrest⟩ := List.forall_mem_cons.mp hnames
    rw [List.map_cons, dupItems, strdup_str halloc k hname, ih (k + 1) hrest]
    rfl

/-- What is made is read back. -/
theorem deserialOut_serial (hJ : J.Lawful) {sId mId payload : Bytes} {names : List Bytes}
    (hsId : (0 : UInt8) ∉ sId) (hmId : (0 : UInt8) ∉ mId)
    (hnames : ∀ name ∈ names, (0 : UInt8) ∉ name)
    (h : cipherAgreementSerial J sId names mId = .ok payload) {o : Outputs} (ho : o.mId = none) :
    cipherAgreementDeserialOut J alloc payload o = .code true (.of names mId sId) := by
  rw [cipherAgreementSerial] at h
  split at h
  · cases h
  · next hne =>
    have hparse := hJ.parse_print (Outcome.ofOption_eq_ok.mp h)
    have hpayload : payload ≠ [] := by
      rintro rfl
      rw [hJ.parse_nil] at hparse
      cases hparse
    have hmembers : agreementMembers J payload =
        .ok (.str mId, .str sId, .arr (names.map .str)) := by
      rw [agreementMembers, hparse]
      have hmark : cstr (ascii "eRMsg") = ascii "eRMsg" := by decide
      have hname : cstr (ascii "CipherAgreement") = ascii "CipherAgreement" := by decide
      show (if cstr (ascii "eRMsg") ≠ ascii "eRMsg" then Outcome.err
        else if cstr (ascii "CipherAgreement") ≠ ascii "CipherAgreement" then .err else _) = _
      rw [hmark, hname, if_neg (not_not.mpr rfl), if_neg (not_not.mpr rfl)]
      rfl
    have hitems : names.map Json.str ≠ [] := by simpa using hne
    rw [cipherAgreementDeserialOut, if_neg (by simp [hpayload, ho]), hmembers]
    simp only [fillOutputs, strdup_str halloc _ hmId, strdup_str halloc _ hsId, fillList,
      if_neg hitems, halloc, if_true, dupItems_strs halloc _ hnames, finish, Outputs.of,
      List.length_map]

end RoundTrip

/-! ## What the exchange reads

The exchange of `Cyber/Exchange.lean` uses a decoder without memory, which this one comes to. -/

section Forget

variable {J : JsonLib} {alloc : Nat → Bool} (halloc : ∀ k, alloc k = true)

/-- The outputs that the exchange reads, of the members. -/
def agreementOf (J : JsonLib) (mId sId ciphers : Json) : Outcome (Bytes × List Bytes) := do
  let _ ← stringOf J mId
  let sId ← stringOf J sId
  match ciphers with
  | .arr [] => .err
  | .arr items => return (sId, ← items.mapM (stringOf J))
  | _ => .fault

theorem deserial_members (payload : Bytes) :
    cipherAgreementDeserial J payload =
      agreementMembers J payload >>= fun m => agreementOf J m.1 m.2.1 m.2.2 := by
  rw [cipherAgreementDeserial, agreementMembers]
  cases J.parse payload with
  | none => rfl
  | some j =>
    simp only [Outcome.ofOption, Outcome.ok_bind, agreementFields]
    cases j.get? (ascii "mType") with
    | none => rfl
    | some mType =>
    cases j.get? (ascii "type") with
    | none => rfl
    | some type =>
    cases j.get? (ascii "mId") with
    | none => rfl
    | some mId =>
    cases j.get? (ascii "sId") with
    | none => rfl
    | some sId =>
    cases j.get? (ascii "cipher") with
    | none => rfl
    | some ciphers =>
    show (stringOf J mType >>= _) = (stringOf J mType >>= _) >>= _
    rw [bind_assoc]
    refine bind_congr fun m => ?_
    by_cases hmark : m ≠ ascii "eRMsg"
    · rw [if_pos hmark, if_pos hmark]
      rfl
    · rw [if_neg hmark, if_neg hmark, bind_assoc]
      refine bind_congr fun t => ?_
      by_cases hname : t ≠ ascii "CipherAgreement"
      · rw [if_pos hname, if_pos hname]
        rfl
      · rw [if_neg hname, if_neg hname]
        rfl

include halloc

theorem dupItems_mapM (k : Nat) (items : List Json) :
    match items.mapM (stringOf J) with
    | .ok names =>
      names.length = items.length ∧ dupItems J alloc k items = (.ok (), names.map some)
    | .err => False
    | .fault => (dupItems J alloc k items).1 = .fault := by
  induction items generalizing k with
  | nil => exact ⟨rfl, rfl⟩
  | cons j js ih =>
    rw [List.mapM_cons, dupItems]
    rcases strdup_cases J alloc k j with ⟨s, hs, -, hdup⟩ | ⟨htext, hdup⟩
    · rw [hs, hdup, halloc, if_pos rfl, Outcome.ok_bind]
      have hrest := ih (k + 1)
      cases hmap : js.mapM (stringOf J) with
      | ok names =>
        rw [hmap] at hrest
        simp only [Outcome.ok_bind, Outcome.pure_eq, hrest, List.map_cons, List.length_cons,
          and_self]
      | err =>
        rw [hmap] at hrest
        exact hrest
      | fault =>
        rw [hmap] at hrest
        exact hrest
    · rw [not_hasText htext, hdup]
      rfl

/-- With memory for its outputs the decoder gives the exchange what it reads. -/
theorem deserialOut_forget {payload : Bytes} {o : Outputs} (hpayload : payload ≠ [])
    (ho : o.mId = none) :
    match cipherAgreementDeserial J payload with
    | .ok (sId, names) => ∃ mId,
      cipherAgreementDeserialOut J alloc payload o = .code true (.of names mId sId)
    | .err => cipherAgreementDeserialOut J alloc payload o = .code false ⟨none, 0, none, none⟩
    | .fault => cipherAgreementDeserialOut J alloc payload o = .fault := by
  rw [deserial_members, cipherAgreementDeserialOut, if_neg (by simp [hpayload, ho])]
  cases agreementMembers J payload with
  | err => exact cleanup_zero _ _ _
  | fault => rfl
  | ok m =>
    obtain ⟨mId, sId, ciphers⟩ := m
    simp only [Outcome.ok_bind, agreementOf, fillOutputs]
    rcases strdup_cases J alloc 0 mId with ⟨m, hm, -, hdup⟩ | ⟨htext, hdup⟩
    case inr =>
      rw [not_hasText htext, hdup]
      rfl
    rw [hm, hdup, halloc, if_pos rfl, Outcome.ok_bind]
    rcases strdup_cases J alloc 1 sId with ⟨i, hi, -, hdup⟩ | ⟨htext, hdup⟩
    case inr =>
      rw [not_hasText htext]
      simp only [hdup]
      rfl
    simp only [hi, hdup, halloc, if_true, Outcome.ok_bind]
    rw [fillList.eq_def]
    cases ciphers with
    | arr items =>
      cases items with
      | nil => exact cleanup_zero _ _ _
      | cons j js =>
        have hitems := dupItems_mapM (J := J) halloc 3 (j :: js)
        simp only [if_neg (List.cons_ne_nil j js), halloc, if_true]
        cases hmap : (j :: js).mapM (stringOf J) with
        | ok names =>
          rw [hmap] at hitems
          obtain ⟨hlen, hdup⟩ := hitems
          refine ⟨m, ?_⟩
          rw [hdup, Outputs.of, hlen]
          rfl
        | err =>
          rw [hmap] at hitems
          exact hitems.elim
        | fault =>
          rw [hmap] at hitems
          generalize dupItems J alloc 3 (j :: js) = r at hitems
          obtain ⟨ret, list⟩ := r
          cases hitems
          rfl
    | _ => rfl

end Forget

/-! ## The codec

Both parts together, with the condition on the values. -/

/-- **The codec of `CipherAgreement`.** What is made is read back, and anything else is decoded as
a whole or refused with its outputs emptied, exactly where nothing that is used is missing. -/
theorem codec_right {J : JsonLib} (hJ : J.Lawful) :
    (∀ sId mId names payload, (0 : UInt8) ∉ sId → (0 : UInt8) ∉ mId →
      (∀ name ∈ names, (0 : UInt8) ∉ name) → cipherAgreementSerial J sId names mId = .ok payload →
        ∀ alloc o, (∀ k, alloc k = true) → o.mId = none →
          cipherAgreementDeserialOut J alloc payload o = .code true (.of names mId sId)) ∧
      ∀ alloc payload o, (cipherAgreementDeserialOut J alloc payload o).Right ↔
        payload = [] ∨ o.mId ≠ none ∨ ∀ j, J.parse payload = some j → Whole J alloc j := by
  constructor
  · intro sId mId names payload hsId hmId hnames h alloc o halloc ho
    exact deserialOut_serial halloc hJ hsId hmId hnames h ho
  · intro alloc payload o
    exact deserialOut_right payload o

/-- An offer is read back. -/
theorem codec_offer :
    cipherAgreementDeserialOut agreementJson (fun _ => true)
        (cipherAgreementJson (ascii "m2") (ascii "B") [ascii "AES256CTR"]).toText
        ⟨none, 0, none, none⟩ =
      .code true (.of [ascii "AES256CTR"] (ascii "m2") (ascii "B")) :=
  (codec_right agreementJson_lawful).1 (ascii "B") (ascii "m2") [ascii "AES256CTR"] _ (by decide)
    (by decide) (by decide) (by decide) _ _ (fun _ => rfl) rfl

/-- A message without the name of its sender. -/
def nullSender : Json :=
  .obj [(ascii "mType", .str (ascii "eRMsg")), (ascii "type", .str (ascii "CipherAgreement")),
    (ascii "mId", .str (ascii "m1")), (ascii "sId", .null),
    (ascii "cipher", .arr [.str (ascii "C")])]

/-- Its decoding copies a null pointer. -/
theorem not_right_nullSender :
    ¬ (cipherAgreementDeserialOut (.ofValues [nullSender]) (fun _ => true) nullSender.toText
      ⟨none, 0, none, none⟩).Right := by
  have hfault : cipherAgreementDeserialOut (.ofValues [nullSender]) (fun _ => true)
      nullSender.toText ⟨none, 0, none, none⟩ = .fault := by decide
  rw [hfault]
  exact id

end RsmpGateway.Cyber
