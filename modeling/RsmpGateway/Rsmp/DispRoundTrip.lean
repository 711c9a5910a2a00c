import RsmpGateway.Rsmp.DispCodec

/-!
# Round trips of the DISP answers

The lists of `S30` and `S40` are decoded as they were encoded (`lists_round_trip`), for any
number of items. The texts of an item are those that fit its arrays with their NUL; the
identifiers of `S30` are copied to the heap, and may be of any length.
-/

namespace RsmpGateway.Rsmp.Disp

open RsmpGateway.Lib

/-! ## Members

A member that was written is read as it was. -/

section Members

variable {J : JsonLib} {R : JsonReads} {obj : Json} {key : Bytes}

/-- A copy of `n - 1` characters to an array of NULs pads it too. -/
theorem zero_strncpy {n k : Nat} (hk : k ≤ n) {s : CString} (hs : s.strlen ≤ k)
    (hn : s.strlen < n) :
    (CharArray.zero : Lib.CharArray n).strncpy s hk = CharArray.zero.strncpy s le_rfl := by
  apply Subtype.ext
  have hlen : s.val.length = s.strlen := rfl
  rw [CharArray.strncpy_val_of_lt _ hn]
  show (s.val ++ List.replicate k 0).take k ++ (List.replicate n 0).drop k = _
  rw [List.take_append, hlen, List.take_of_length_le (by omega), List.take_replicate,
    List.drop_replicate, List.append_assoc, ← List.replicate_add]
  have hcount : min (k - s.strlen) k + (n - k) = n - s.strlen - 1 + 1 := by omega
  rw [hcount, List.replicate_succ]

/-- What a padded array holds. -/
theorem read_padded {n : Nat} (s : Buffer n) : (padded s).read = .ok s.val :=
  CharArray.read_strncpy _ s.2

theorem getString_newString (s : CString) :
    jsonObjectGetString J (jsonObjectNewString s) = some s := by
  rw [jsonObjectGetString, jsonObjectNewString, Json.getString]
  exact congrArg some (CString.ofBytes_val s)

/-- A string that was written is copied. -/
theorem copyMember_newString {n k : Nat} (hk : k ≤ n) {s : Buffer n} (hs : s.val.strlen ≤ k)
    (h : obj.get? key = some (jsonObjectNewString s.val)) :
    copyMember J hk obj key .zero = .ok (padded s) := by
  unfold copyMember
  rw [h]
  simp only [getString_newString]
  rw [zero_strncpy hk hs s.2, padded]

theorem getInt_newInt (n : Int32) : jsonObjectGetInt R (jsonObjectNewInt n) = n := by
  have hlt := n.toInt_lt
  have hle := n.le_toInt
  have hclamp : max (-2 ^ 31) (min n.toInt (2 ^ 31 - 1)) = n.toInt := by omega
  rw [jsonObjectNewInt, jsonObjectGetInt, hclamp, Int32.ofInt_toInt]

/-- A number that was written is read. -/
theorem getIntMember_newInt {n : Int32} (h : obj.get? key = some (jsonObjectNewInt n))
    (old : Int32) : getIntMember R obj key old = n := by
  unfold getIntMember
  rw [h]
  exact getInt_newInt n

theorem getIntMember_none (h : obj.get? key = none) (old : Int32) :
    getIntMember R obj key old = old := by
  unfold getIntMember
  rw [h]

/-- The text of an object is parsed to the object. -/
theorem parse_print_obj (hJ : J.Lawful) {members : List (Bytes × Json)} {text : Bytes}
    (hprint : J.print (.obj members) = some text) :
    jsonTokenerParse J (text ++ [0]) = .ok (.obj members) := by
  have hne : Json.obj members ≠ .null := nofun
  exact jsonTokenerParse_print hJ hne hprint

end Members

/-! ## Lists

By induction on the items. -/

section Lists

variable {J : JsonLib} {R : JsonReads}

/-- `S30`: the text is that of the value. -/
theorem decode_encode_s30 (hJ : J.Lawful) {res : DispS30StatusResponse} (hres : res.Valid)
    {text : Bytes} (hprint : J.print (encodeDispS30StatusResponse res) = some text) :
    decodeDispS30StatusResponse J (text ++ [0]) = .ok res := by
  obtain ⟨list, count⟩ := res
  have hcount : count.toNat = list.length := hres
  have hcopy : (list.map jsonObjectNewString).mapM (strdupText J) = .ok list := by
    have h := Outcome.mapM_map_eq_ok (f := strdupText J) (g := jsonObjectNewString) (h := id)
      (l := list) fun s _ => by simp only [strdupText, getString_newString, id]
    rwa [List.map_id] at h
  rw [encodeDispS30StatusResponse, hcount, List.take_length] at hprint
  rw [decodeDispS30StatusResponse, parse_print_obj hJ hprint, Outcome.ok_bind,
    Json.get?_obj_cons, if_pos rfl]
  simp only [Outcome.ofOption, Outcome.ok_bind, jsonObjectArray, hcopy, Outcome.pure_eq]
  rw [List.length_map, ← hcount, UInt64.ofNat_toNat]

/-- The names of an element are different. -/
theorem element_keys (elem : DisplayPoolElementObject Buffer) : elem.encode.keys.Nodup := by
  have h : (([ascii "msgId", ascii "maxWaitTime", ascii "maxWaitTimeRemain",
      ascii "displayDuration", ascii "displayDurationRemain", ascii "displayPriority",
      ascii "dynamicData"] : List Bytes)).Nodup := by decide +kernel
  exact h

/-- An element of `S40`, member by member. -/
theorem decode_encode_element (elem : DisplayPoolElementObject Buffer) :
    decodeDisplayPoolElement J R elem.encode = .ok elem.padded := by
  have hget {key : Bytes} {v : Json} (h : (key, v) ∈ _) : elem.encode.get? key = some v :=
    Json.get?_of_mem (element_keys elem) h
  rw [decodeDisplayPoolElement,
    copyMember_newString le_rfl elem.msgId.2.le (hget (by simp)), Outcome.ok_bind,
    copyMember_newString le_rfl elem.dynamicData.2.le (hget (by simp)), Outcome.ok_bind,
    getIntMember_newInt (n := elem.maxWaitTime.toInt32) (hget (by simp)),
    getIntMember_newInt (n := elem.maxWaitTimeRemain.toInt32) (hget (by simp)),
    getIntMember_newInt (n := elem.displayDuration.toInt32) (hget (by simp)),
    getIntMember_newInt (n := elem.displayDurationRemain.toInt32) (hget (by simp)),
    getIntMember_newInt (n := elem.displayPriority.toInt32) (hget (by simp))]
  simp only [UInt32.toUInt32_toInt32]
  rfl

/-- `S40`: the text is that of the value. -/
theorem decode_encode_s40 (hJ : J.Lawful) {res : DispS40StatusResponse Buffer} (hres : res.Valid)
    {text : Bytes} (hprint : J.print (encodeDispS40StatusResponse res) = some text) :
    decodeDispS40StatusResponse J R (text ++ [0]) = .ok res.padded := by
  obtain ⟨list, count⟩ := res
  have hcount : count.toNat = list.length := hres
  rw [encodeDispS40StatusResponse, hcount, List.take_length] at hprint
  rw [decodeDispS40StatusResponse, parse_print_obj hJ hprint, Outcome.ok_bind,
    decodeDisplayPool, Json.get?_obj_cons, if_pos rfl]
  simp only [Outcome.ofOption, Outcome.ok_bind, jsonObjectArray, List.length_map]
  rw [← hcount, UInt32.ofNat_toNat, hcount, ← List.length_map DisplayPoolElementObject.encode,
    List.take_length, Outcome.mapM_map_eq_ok fun elem _ => decode_encode_element elem]
  rfl

/-- **The lists are decoded as they were encoded**: the strings of an element are in its arrays,
where they are read again. -/
theorem lists_round_trip (hJ : J.Lawful) (R : JsonReads) :
    (∀ (res : DispS30StatusResponse) (text : Bytes), res.Valid →
      J.print (encodeDispS30StatusResponse res) = some text →
        decodeDispS30StatusResponse J (text ++ [0]) = .ok res) ∧
    (∀ (res : DispS40StatusResponse Buffer) (text : Bytes), res.Valid →
      J.print (encodeDispS40StatusResponse res) = some text →
        decodeDispS40StatusResponse J R (text ++ [0]) = .ok res.padded) ∧
    ∀ (n : Nat) (s : Buffer n), (padded s).read = .ok s.val :=
  ⟨fun _ _ hres hprint => decode_encode_s30 hJ hres hprint,
    fun _ _ hres hprint => decode_encode_s40 hJ hres hprint,
    fun _ s => read_padded s⟩

end Lists

/-- Two identifiers. -/
def twoMsgIds : DispS30StatusResponse := ⟨[welcome.val, welcome.val], 2⟩

/-- One element, with a number that is negative in the text. -/
def onePool : DispS40StatusResponse Buffer :=
  ⟨[⟨welcome, 4294967295, 0, 0, 0, 100, noText (by decide)⟩], 1⟩

/-- json-c for the two. -/
def listsLib : JsonLib :=
  .ofValues [encodeDispS30StatusResponse twoMsgIds, encodeDispS40StatusResponse onePool]

/-- What reads no text as a number. -/
def noReads : JsonReads := ⟨fun _ => 0, fun _ => 0, fun _ => false⟩

theorem listsLib_lawful : listsLib.Lawful := by
  refine JsonLib.ofTable_lawful ?_ ?_
  · decide +kernel
  · decide +kernel

theorem lists_round_trip_two :
    decodeDispS30StatusResponse listsLib ((encodeDispS30StatusResponse twoMsgIds).toText ++ [0]) =
        .ok twoMsgIds ∧
      decodeDispS40StatusResponse listsLib noReads
        ((encodeDispS40StatusResponse onePool).toText ++ [0]) = .ok onePool.padded :=
  ⟨(lists_round_trip listsLib_lawful noReads).1 twoMsgIds _ rfl rfl,
    (lists_round_trip listsLib_lawful noReads).2.1 onePool _ rfl rfl⟩

end RsmpGateway.Rsmp.Disp
