import RsmpGateway.Coder.Timestamp
import RsmpGateway.Lib.Json
import RsmpGateway.Lib.Outcome

/-!
# Plain texts

What is encrypted: the text of a message, its class and the time it was made, in JSON.

* `ptxt_set` gives a text its class and its time, `ptxt_serialize` writes the three and
  `ptxt_deserial` reads them. The class is found in the text, and not found again when it is read.
* `ptxt_is_valid` admits a text that was made in a window around now. It narrows the difference of
  the two times to an `int`.
* The line that `ptxt_extract_timestamp` logs prints a date as if it were a string, so that a date
  before 1970 stops the process.

The window is the subject of `Coder/Window.lean`, the extraction that of `Coder/Extraction.lean`,
and the classes that of `Coder/Classes.lean`.
-/

namespace RsmpGateway.Coder

open RsmpGateway.Lib RsmpGateway.Auth

/-- `pt_enum_class_t` -/
inductive PtClass
  | internal
  | external
  deriving Repr, DecidableEq

/-- `ptxt_t` -/
structure Ptxt where
  original : Bytes
  cls : PtClass
  timestamp : HoroDate
  deriving Repr, DecidableEq

/-- What the coder takes from outside: json-c, the writer of dates, the time zone, what is
in `tm_info` before a reading, the difference of two dates and `_coder_time_windows`. -/
structure TextExt where
  json : JsonLib
  strGmtHorodate : DateWriter
  zone : Zone
  junk : Tm
  diffHorodateMs : HoroDate → HoroDate → Int
  timeWindows : Int

/-- `strstr` finds it. -/
def strstr (text part : Bytes) : Bool := text.tails.any part.isPrefixOf

/-- The mark of an external message. -/
def externalMark : Bytes := ascii "\"rSMsg\""

/-- The mark of an internal message. -/
def internalMark : Bytes := ascii "\"eRMsg\""

/-- `ptxt_set` of a text. -/
def ptxtSet (now : HoroDate) (timestamp : Option HoroDate) (original : Bytes) : Outcome Ptxt :=
  let timestamp := timestamp.getD now
  if strstr original externalMark then .ok ⟨original, .external, timestamp⟩
  else if strstr original internalMark then .ok ⟨original, .internal, timestamp⟩
  else .err

/-- The name of a class. -/
def PtClass.text : PtClass → Bytes
  | internal => ascii "INTERNAL"
  | external => ascii "EXTERNAL"

variable (X : TextExt)

/-- The JSON of a plain text. -/
def ptxtJson (ptxt : Ptxt) : Json :=
  .obj [(ascii "timestamp", .str (X.strGmtHorodate ptxt.timestamp)),
    (ascii "original", .str ptxt.original), (ascii "class", .str ptxt.cls.text)]

/-- `ptxt_serialize`. A text that json-c does not print is not copied either. -/
def ptxtSerialize (ptxt : Ptxt) : Outcome Bytes :=
  match X.json.print (ptxtJson X ptxt) with
  | some text => .ok text
  | none => .fault

/-- `ptxt_json_extract_field`, as a C string. -/
def ptxtJsonExtractField (j : Json) (key : Bytes) : Outcome Bytes :=
  Outcome.ofOption (((j.get? key).bind Json.str?).map cstr)

/-- `ptxt_extract_timestamp`. The error line prints the date itself with `%s`: its first word, the
seconds, is taken as the address of a string. At 0 it is a null pointer, which is printed as
such; before 1970 it is the address of nothing, and the process stops. -/
def ptxtExtractTimestamp (j : Json) : Outcome HoroDate := do
  let str ← ptxtJsonExtractField j (ascii "timestamp")
  let ts := str2ZuluHorodate X.zone X.junk str
  if ts.sec < 0 then .fault
  else if ts.sec = 0 then .err
  else .ok ts

/-- `ptxt_extract_class` -/
def ptxtExtractClass (j : Json) : Outcome PtClass := do
  let str ← ptxtJsonExtractField j (ascii "class")
  if str = ascii "INTERNAL" then .ok .internal
  else if str = ascii "EXTERNAL" then .ok .external
  else .err

/-- `ptxt_deserial` -/
def ptxtDeserial (payload : Bytes) : Outcome Ptxt := do
  let j ← Outcome.ofOption (X.json.parse payload)
  let timestamp ← ptxtExtractTimestamp X j
  let cls ← ptxtExtractClass j
  let original ← ptxtJsonExtractField j (ascii "original")
  return ⟨original, cls, timestamp⟩

/-- `abs((int) ms)`, which leaves the least `int` as it is. -/
def absInt (ms : Int) : Int :=
  if ms.bmod (2 ^ 32) = -2 ^ 31 then -2 ^ 31 else (ms.bmod (2 ^ 32)).natAbs

/-- The test of the time in `ptxt_is_valid`. -/
def timeAdmitted (now ts : HoroDate) : Bool :=
  !(decide (0 < X.timeWindows) && decide (X.timeWindows < absInt (X.diffHorodateMs ts now)))

/-- `ptxt_is_valid` -/
def ptxtIsValid (now : HoroDate) (ptxt : Ptxt) : Bool :=
  timeAdmitted X now ptxt.timestamp &&
    (strstr ptxt.original externalMark || strstr ptxt.original internalMark)

/-! ## Round trip

For a text that was made by `ptxt_set`, and a time that the host writes and reads. -/

variable {X}

/-- The plain text that is read: its time to the millisecond. -/
def Ptxt.toMs (ptxt : Ptxt) : Ptxt :=
  { ptxt with timestamp :=
    ⟨ptxt.timestamp.sec, ptxt.timestamp.nsec / 1000000 * 1000000⟩ }

/-- The time is after the first second of 1970, and before the year 10000. -/
structure Ptxt.Dated (ptxt : Ptxt) : Prop where
  inRange : HoroDate.InRange ptxt.timestamp
  pos : 0 < ptxt.timestamp.sec

/-- A plain text that `ptxt_set` makes of a C string. -/
def Ptxt.Made (ptxt : Ptxt) : Prop :=
  ∃ now timestamp original, (0 : UInt8) ∉ original ∧ ptxtSet now timestamp original = .ok ptxt

theorem Ptxt.Made.nul {ptxt : Ptxt} (h : ptxt.Made) : (0 : UInt8) ∉ ptxt.original := by
  obtain ⟨now, timestamp, original, hnul, hset⟩ := h
  rw [ptxtSet] at hset
  split at hset
  · cases hset
    exact hnul
  · split at hset
    · cases hset
      exact hnul
    · cases hset

theorem Ptxt.Made.marked {ptxt : Ptxt} (h : ptxt.Made) :
    (strstr ptxt.original externalMark || strstr ptxt.original internalMark) = true := by
  obtain ⟨now, timestamp, original, -, hset⟩ := h
  rw [ptxtSet] at hset
  split at hset
  · next hmark =>
    cases hset
    simp [hmark]
  · split at hset
    · next hmark =>
      cases hset
      simp [hmark]
    · cases hset

theorem extractField_json {ptxt : Ptxt} (key : Bytes) {text : Bytes}
    (hget : (ptxtJson X ptxt).get? key = some (.str text)) (hnul : (0 : UInt8) ∉ text) :
    ptxtJsonExtractField (ptxtJson X ptxt) key = .ok text := by
  rw [ptxtJsonExtractField, hget]
  show Outcome.ofOption (some (cstr text)) = _
  rw [cstr_eq_self hnul]
  rfl

theorem nul_not_mem_zuluText (ts : HoroDate) : (0 : UInt8) ∉ zuluText ts := by
  have hfield : ∀ f : TmField, (0 : UInt8) ∉ padded f.width (f.get (utcOf ts.sec)) := by
    intro f h
    exact absurd (isDigit_of_mem_padded h) (by decide)
  intro h
  simp only [zuluText, dateFormat, dateText, List.mem_append, List.mem_cons, List.not_mem_nil,
    or_false, hfield, false_or] at h
  have hmillis : (0 : UInt8) ∉ padded 3 (ts.nsec / 1000000).toNat := by
    intro h
    exact absurd (isDigit_of_mem_padded h) (by decide)
  rcases h with h | h
  · revert h
    decide
  · simp only [hmillis, false_or] at h
    revert h
    decide

/-- What is serialized is read, where the zone has the local time. -/
theorem ptxtDeserial_ptxtSerialize (hJ : X.json.Lawful) (hW : X.strGmtHorodate.Lawful)
    (hZ : X.zone.Lawful) {ptxt : Ptxt} (hmade : ptxt.Made) (hdated : ptxt.Dated)
    (hlocal : X.zone.Reads ptxt.timestamp.sec) {text : Bytes}
    (h : ptxtSerialize X ptxt = .ok text) : ptxtDeserial X text = .ok ptxt.toMs := by
  have hprint : X.json.print (ptxtJson X ptxt) = some text := by
    rw [ptxtSerialize] at h
    split at h
    · next hprint =>
      cases h
      exact hprint
    · cases h
  have hts : ptxtExtractTimestamp X (ptxtJson X ptxt) = .ok ptxt.toMs.timestamp := by
    have hfield : ptxtJsonExtractField (ptxtJson X ptxt) (ascii "timestamp") =
        .ok (zuluText ptxt.timestamp) := by
      rw [← hW _ hdated.inRange]
      apply extractField_json
      · rfl
      · rw [hW _ hdated.inRange]
        exact nul_not_mem_zuluText _
    have hsec : X.zone.utcOfLocal ptxt.timestamp.sec = ptxt.timestamp.sec := hZ _ hlocal
    rw [ptxtExtractTimestamp, hfield, Outcome.ok_bind,
      str2ZuluHorodate_zuluText _ _ hdated.inRange, hsec]
    dsimp only
    have hpos := hdated.pos
    rw [if_neg (by omega), if_neg (by omega)]
    rfl
  have hcls : ptxtExtractClass (ptxtJson X ptxt) = .ok ptxt.cls := by
    have hfield : ptxtJsonExtractField (ptxtJson X ptxt) (ascii "class") = .ok ptxt.cls.text := by
      apply extractField_json
      · rfl
      · cases ptxt.cls <;> decide
    rw [ptxtExtractClass, hfield, Outcome.ok_bind]
    cases ptxt.cls <;> rfl
  have horiginal : ptxtJsonExtractField (ptxtJson X ptxt) (ascii "original") =
      .ok ptxt.original := by
    apply extractField_json
    · rfl
    · exact hmade.nul
  rw [ptxtDeserial, hJ.parse_print hprint]
  show (ptxtExtractTimestamp X (ptxtJson X ptxt) >>= _) = _
  rw [hts, Outcome.ok_bind, hcls, Outcome.ok_bind, horiginal, Outcome.ok_bind]
  rfl

end RsmpGateway.Coder
