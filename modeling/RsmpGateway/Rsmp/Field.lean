import RsmpGateway.Coder.Timestamp
import RsmpGateway.Lib.Json

/-!
# The fields of RSMP messages

Each field has a codec, between what the structure of the message holds and a variable
(`rsmp_var_t`) that is written to or read from JSON.

* `Codec.Ty` is the type of what the structure holds, so that a field cannot hold a value of
  another type; `Codec.zero` is what its constructor leaves.
* `Codec.decode` gets what the field held before, and may leave it: several codecs do, and say
  that they have succeeded.
* What stops the process is a `Stop`, with its cause.

Enumerations are tables of names; their codecs are one definition with the table as a parameter.
-/

namespace RsmpGateway.Rsmp

open RsmpGateway.Lib RsmpGateway.Auth RsmpGateway.Coder

/-! ## What a message holds

Strings are copied and may be null, identifiers are those of libuuid, and a date is a date. -/

/-- A string that is not null. -/
abbrev CStr := { s : Bytes // (0 : UInt8) ∉ s }

theorem nul_not_mem_cstr (b : Bytes) : (0 : UInt8) ∉ cstr b := by
  intro h
  simpa using List.mem_takeWhile_imp h

/-- `strdup` -/
def CStr.dup (b : Bytes) : CStr := ⟨cstr b, nul_not_mem_cstr b⟩

theorem CStr.dup_val (s : CStr) : CStr.dup s.val = s :=
  Subtype.ext (cstr_eq_self s.property)

/-- `uuid_t` -/
abbrev Uuid := BitVec 128

/-- `rsmp_array_char_t`: its bytes, and the size that it gives to each. -/
structure CharArray where
  items : Bytes
  itemLen : Nat
  deriving Repr, DecidableEq

/-- `type_t` -/
inductive MsgType
  | alarm | aggregatedStatus | aggregatedStatusRequest | statusRequest | statusResponse
  | statusSubscribe | statusUpdate | statusUnsubscribe | commandRequest
  | commandRequestAckIncluded | commandResponseAckIncluded | statusResponseAckIncluded
  | statusRequestAckIncluded | commandResponse | messageAck | messageNotAck | version | watchdog
  deriving Repr, DecidableEq

/-- What the fields take from outside: json-c, the writer of dates, the time zone, what is in
`tm_info` before a reading, and libuuid. -/
structure RsmpExt where
  json : JsonLib
  strGmtHorodate : DateWriter
  zone : Zone
  junk : Tm
  uuidParse : Bytes → Option Uuid
  uuidUnparse : Uuid → Bytes

/-- `rsmp_var_t`. No codec makes or reads the other kinds. -/
inductive Var
  | bool (b : Bool)
  | string (t : Option Bytes)
  | other
  deriving Repr, DecidableEq

/-- How a decoding ends before its message is complete: the error that it returns, or what
stops the process. -/
inductive Stop
  | error
  | nullString
  | overflow
  | notArray
  | noDescription
  deriving Repr, DecidableEq

/-! ## Codecs

The functions of `fields/*.c`, one for each kind of field. -/

/-- The pairs of functions `__rsmp_field_*_encode` and `__rsmp_field_*_decode`. An enumeration
has its names, and `strict` tells whether its decoder refuses what is no string. -/
inductive Codec
  | mType
  | type
  | uuid
  | str
  | ts
  | bool
  | v
  | enum (lib : List Bytes) (strict : Bool)
  deriving Repr, DecidableEq

/-- What the structure holds of the field. Nothing is kept of `mType`. -/
abbrev Codec.Ty : Codec → Type
  | mType => Unit
  | type => MsgType
  | uuid => Uuid
  | str => Option CStr
  | ts => HoroDate
  | bool => Bool
  | v => CharArray
  | enum _ _ => Nat

/-- What `calloc` leaves there. -/
def Codec.zero : (c : Codec) → c.Ty
  | mType => ()
  | type => .alarm
  | uuid => 0
  | str => none
  | ts => ⟨0, 0⟩
  | bool => false
  | v => ⟨[], 0⟩
  | enum _ _ => (0 : Nat)

/-- `mType_value` -/
def mTypeValue : Bytes := ascii "rSMsg"

/-- `rsmp_mType_check` -/
def mTypeCheck (value : Bytes) : Bool := cstr value = mTypeValue

/-- `_rsmp_type_lib` -/
def MsgType.lib : MsgType → Bytes
  | alarm => ascii "Alarm"
  | aggregatedStatus => ascii "AggregatedStatus"
  | aggregatedStatusRequest => ascii "AggregatedStatusRequest"
  | statusRequest => ascii "StatusRequest"
  | statusResponse => ascii "StatusResponse"
  | statusSubscribe => ascii "StatusSubscribe"
  | statusUpdate => ascii "StatusUpdate"
  | statusUnsubscribe => ascii "StatusUnsubscribe"
  | commandRequest => ascii "CommandRequest"
  | commandRequestAckIncluded => ascii "CommandRequestAckIncluded"
  | commandResponseAckIncluded => ascii "CommandResponseAckIncluded"
  | statusResponseAckIncluded => ascii "StatusResponseAckIncluded"
  | statusRequestAckIncluded => ascii "StatusRequestAckIncluded"
  | commandResponse => ascii "CommandResponse"
  | messageAck => ascii "MessageAck"
  | messageNotAck => ascii "MessageNotAck"
  | version => ascii "Version"
  | watchdog => ascii "Watchdog"

/-- The types, in the order of the enumeration. -/
def MsgType.all : List MsgType :=
  [alarm, aggregatedStatus, aggregatedStatusRequest, statusRequest, statusResponse,
    statusSubscribe, statusUpdate, statusUnsubscribe, commandRequest, commandRequestAckIncluded,
    commandResponseAckIncluded, statusResponseAckIncluded, statusRequestAckIncluded,
    commandResponse, messageAck, messageNotAck, version, watchdog]

/-- `rsmp_type_from_string` -/
def rsmpTypeFromString (str : Bytes) : Option MsgType :=
  if cstr str = [] then none else MsgType.all.find? fun t => cstr str = t.lib

/-- `rsmp_lib_find` -/
def rsmpLibFind (lib : List Bytes) (str : Bytes) : Option Nat :=
  if cstr str = [] then none else lib.findIdx? fun name => cstr str = name

section Decode

variable (X : RsmpExt)

/-- `__rsmp_field_mType_decode` -/
def mTypeDecode : Var → Unit → Except Stop Unit
  | .string (some t), _ => if cstr t = mTypeValue then .ok () else .error .error
  | .string none, _ => .error .nullString
  | _, _ => .ok ()

/-- `__rsmp_field_type_decode` -/
def typeDecode : Var → MsgType → Except Stop MsgType
  | .string t, _ =>
    match t.bind rsmpTypeFromString with
    | some type => .ok type
    | none => .error .error
  | _, type => .ok type

/-- `__rsmp_field_uuid_decode` -/
def uuidDecode : Var → Uuid → Except Stop Uuid
  | .string none, _ => .ok 0
  | .string (some t), _ =>
    if cstr t = [] then .ok 0
    else
      match X.uuidParse (cstr t) with
      | some id => .ok id
      | none => .error .error
  | _, id => .ok id

/-- `__rsmp_field_str_decode` -/
def strDecode : Var → Option CStr → Except Stop (Option CStr)
  | .string t, _ => .ok (t.map CStr.dup)
  | _, _ => .error .error

/-- `rsmp_ts_to_string` -/
def tsToString (ts : HoroDate) : Bytes := cstr (X.strGmtHorodate ts)

/-- `rsmp_ts_from_string` -/
def tsFromString (str : Bytes) : Option HoroDate :=
  let ts := str2ZuluHorodate X.zone X.junk (cstr str)
  if 0 < ts.sec then some ts else none

/-- `__rsmp_field_ts_decode` -/
def tsDecode : Var → HoroDate → Except Stop HoroDate
  | .string none, _ => .error .nullString
  | .string (some t), _ =>
    match tsFromString X t with
    | some ts => .ok ts
    | none => .error .error
  | _, _ => .error .error

/-- `__rsmp_field_bool_decode` -/
def boolDecode : Var → Bool → Except Stop Bool
  | .bool b, _ => .ok b
  | _, _ => .error .error

/-- `__rsmp_field_v_decode`: the items are allocated with the size of the array, and copied
with that of a character. -/
def vDecode : Var → CharArray → Except Stop CharArray
  | .string t, v =>
    let s := t.getD []
    if s.length * v.itemLen < s.length then .error .overflow else .ok { v with items := s }
  | _, v => .ok v

/-- `__rsmp_field_*_decode` of an enumeration. -/
def enumDecode (lib : List Bytes) (strict : Bool) : Var → Nat → Except Stop Nat
  | .string t, _ =>
    match t.bind (rsmpLibFind lib) with
    | some n => .ok n
    | none => .error .error
  | _, n => if strict then .error .error else .ok n

/-- The decoder of a field. -/
def Codec.decode : (c : Codec) → Var → c.Ty → Except Stop c.Ty
  | mType => mTypeDecode
  | type => typeDecode
  | uuid => uuidDecode X
  | str => strDecode
  | ts => tsDecode X
  | bool => boolDecode
  | v => vDecode
  | enum lib strict => enumDecode lib strict

/-- The encoder of a field: none of them fails. -/
def Codec.encode : (c : Codec) → c.Ty → Var
  | mType, _ => .string (some mTypeValue)
  | type, t => .string (some t.lib)
  | uuid, id => .string (some (X.uuidUnparse id))
  | str, s => .string (s.map Subtype.val)
  | ts, t => .string (some (tsToString X t))
  | bool, b => .bool b
  | v, a => .string (some a.items)
  | enum lib _, n => .string (lib[n]?)

end Decode

/-! ### Enumerations

The names, in the order of their numbers, with the end mark last. -/

def aSp : Codec :=
  .enum [ascii "Issue", ascii "Request", ascii "Acknowledge", ascii "Suspend", ascii "Resume"] true

def ack : Codec := .enum [ascii "notAcknowledged", ascii "Acknowledged"] false

def aS : Codec := .enum [ascii "inActive", ascii "Active"] false

def sS : Codec := .enum [ascii "Suspended", ascii "notSuspended"] false

def cat : Codec := .enum [ascii "T", ascii "D"] false

def pri : Codec := .enum [ascii "1", ascii "2", ascii "3"] true

def age : Codec := .enum [ascii "unknown", ascii "recent", ascii "old", ascii "undefined"] true

def q : Codec := .enum [ascii "unknown", ascii "recent", ascii "old", ascii "undefined"] false

/-! ## Names

A name is found again in its table. -/

theorem MsgType.mem_all (t : MsgType) : t ∈ MsgType.all := by
  cases t <;> decide

theorem MsgType.lib_injective {t t' : MsgType} (h : t.lib = t'.lib) : t = t' := by
  have hnodup : (MsgType.all.map MsgType.lib).Nodup := by decide
  exact List.inj_on_of_nodup_map hnodup t.mem_all t'.mem_all h

theorem MsgType.cstr_lib (t : MsgType) : cstr t.lib = t.lib ∧ t.lib ≠ [] := by
  cases t <;> decide

/-- The name of a type is that of no other. -/
theorem rsmpTypeFromString_lib (t : MsgType) : rsmpTypeFromString t.lib = some t := by
  obtain ⟨hcstr, hne⟩ := t.cstr_lib
  rw [rsmpTypeFromString, hcstr, if_neg hne]
  cases hfind : MsgType.all.find? fun t' => t.lib = t'.lib with
  | none =>
    rw [List.find?_eq_none] at hfind
    exact absurd (decide_eq_true rfl) (hfind t t.mem_all)
  | some t' =>
    have hlib : t.lib = t'.lib := by simpa using List.find?_some hfind
    rw [MsgType.lib_injective hlib]

theorem rsmpTypeFromString_some {str : Bytes} {t : MsgType} (h : rsmpTypeFromString str = some t) :
    cstr str = t.lib := by
  rw [rsmpTypeFromString] at h
  split at h
  · cases h
  · simpa using List.find?_some h

/-- A list of names, all different and none of them empty. -/
structure Names (lib : List Bytes) : Prop where
  nodup : lib.Nodup
  nul : ∀ name ∈ lib, name ≠ [] ∧ (0 : UInt8) ∉ name

instance (lib : List Bytes) : Decidable (Names lib) :=
  decidable_of_iff (lib.Nodup ∧ ∀ name ∈ lib, name ≠ [] ∧ (0 : UInt8) ∉ name)
    ⟨fun h => ⟨h.1, h.2⟩, fun h => ⟨h.1, h.2⟩⟩

theorem rsmpLibFind_some {lib : List Bytes} {str : Bytes} {n : Nat}
    (h : rsmpLibFind lib str = some n) : lib[n]? = some (cstr str) := by
  rw [rsmpLibFind] at h
  split at h
  · cases h
  · obtain ⟨hn, hname, -⟩ := List.findIdx?_eq_some_iff_getElem.mp h
    rw [List.getElem?_eq_getElem hn]
    exact congrArg some (of_decide_eq_true hname).symm

theorem rsmpLibFind_name {lib : List Bytes} (hlib : Names lib) {n : Nat} {name : Bytes}
    (h : lib[n]? = some name) : rsmpLibFind lib name = some n := by
  obtain ⟨hn, rfl⟩ := List.getElem?_eq_some_iff.mp h
  obtain ⟨hne, hnul⟩ := hlib.nul _ (List.getElem_mem hn)
  rw [rsmpLibFind, cstr_eq_self hnul, if_neg hne, List.findIdx?_eq_some_iff_getElem]
  refine ⟨hn, decide_eq_true rfl, ?_⟩
  intro i hi heq
  have := (List.Nodup.getElem_inj_iff hlib.nodup).mp (of_decide_eq_true heq)
  omega

end RsmpGateway.Rsmp
