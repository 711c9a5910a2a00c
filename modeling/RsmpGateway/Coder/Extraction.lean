import RsmpGateway.Coder.Ptxt

/-!
# The timestamp of a plain text

`ptxt_extract_timestamp` takes the date that `str2ZuluHorodate` makes of a string, whatever the
string is: nothing tells it that `strptime` stopped early, that the milliseconds are not three
digits, or that the host has no such local time. It only tests that the date is after 1970, and
the line it then logs prints the date as if it were a string. So a date is refused at the first
second of 1970 only; before it the process stops (`extract_outcome`).

What is asked of the extraction is therefore met by two kinds of strings: the texts of instants that
the host has as a local time, which give that instant, and those read as the first second of 1970,
whatever they are (`extractsOnly_iff`).
-/

namespace RsmpGateway.Coder

open RsmpGateway.Lib RsmpGateway.Auth

/-- The string is the text of the instant: its date in UTC, from 1970 to 9999, and three digits of
milliseconds. -/
structure IsText (str : Bytes) (ts : HoroDate) : Prop where
  inRange : HoroDate.InRange ts
  millis : ts.nsec % 1000000 = 0
  text : str = zuluText ts

/-- **The timestamp is that of the string.** A string is accepted only when it is the text of an
instant, which it then gives. Any other is an error. -/
def ExtractsOnly (X : TextExt) (j : Json) (str : Bytes) : Prop :=
  match ptxtExtractTimestamp X j with
  | .ok ts => IsText str ts
  | .err => True
  | .fault => False

/-- The date of the fields that are read, the others being those that `tm_info` holds. -/
def dateRead (X : TextExt) (str : Bytes) : Tm := strptime timestampFormat str X.junk

/-- As a local time of the host it is before 1970-01-01T00:00:00. -/
def ReadBefore1970 (X : TextExt) (str : Bytes) : Prop :=
  X.zone.utcOfLocal (timegm (dateRead X str)) < 0

/-- As a local time of the host it is 1970-01-01T00:00:00. -/
def ReadAt1970 (X : TextExt) (str : Bytes) : Prop :=
  X.zone.utcOfLocal (timegm (dateRead X str)) = 0

variable {X : TextExt} {j : Json} {str : Bytes}

/-! ## What becomes of a string

A string is read, whatever it is; what is read is after the first second of 1970, or at it, or
before it. -/

/-- The three ways out, by the second that is read. -/
theorem extract_outcome (hfield : ptxtJsonExtractField j (ascii "timestamp") = .ok str) :
    (ReadBefore1970 X str ∧ ptxtExtractTimestamp X j = .fault) ∨
      (ReadAt1970 X str ∧ ptxtExtractTimestamp X j = .err) ∨
      (0 < X.zone.utcOfLocal (timegm (dateRead X str)) ∧
        ptxtExtractTimestamp X j = .ok (str2ZuluHorodate X.zone X.junk str)) := by
  have hextract : ptxtExtractTimestamp X j =
      if X.zone.utcOfLocal (timegm (dateRead X str)) < 0 then .fault
      else if X.zone.utcOfLocal (timegm (dateRead X str)) = 0 then .err
      else .ok (str2ZuluHorodate X.zone X.junk str) := by
    rw [ptxtExtractTimestamp, hfield]
    rfl
  rw [hextract]
  by_cases hbefore : X.zone.utcOfLocal (timegm (dateRead X str)) < 0
  · left
    exact ⟨hbefore, if_pos hbefore⟩
  · right
    rw [if_neg hbefore]
    by_cases hat : X.zone.utcOfLocal (timegm (dateRead X str)) = 0
    · left
      exact ⟨hat, if_pos hat⟩
    · right
      exact ⟨by omega, if_neg hat⟩

/-- The process stops at a date before 1970, and at no other. -/
theorem extract_eq_fault_iff (hfield : ptxtJsonExtractField j (ascii "timestamp") = .ok str) :
    ptxtExtractTimestamp X j = .fault ↔ ReadBefore1970 X str := by
  rcases extract_outcome (X := X) hfield with ⟨hbefore, h⟩ | ⟨hat, h⟩ | ⟨hpos, h⟩
  · exact iff_of_true h hbefore
  · rw [h]
    apply iff_of_false
    · intro hfault
      cases hfault
    · rw [ReadBefore1970, show X.zone.utcOfLocal (timegm (dateRead X str)) = 0 from hat]
      exact lt_irrefl _
  · rw [h]
    apply iff_of_false
    · intro hfault
      cases hfault
    · exact not_lt.mpr hpos.le

/-- Of the text of an instant the date is read, and put in local time. -/
theorem IsText.read {ts : HoroDate} (h : IsText str ts) (Z : Zone) (junk : Tm) :
    str2ZuluHorodate Z junk str = ⟨Z.utcOfLocal ts.sec, ts.nsec⟩ := by
  have hmillis := h.millis
  rw [h.text, str2ZuluHorodate_zuluText Z junk h.inRange]
  congr 1
  omega

/-- An instant that the host has as a local time is read as it is. -/
theorem IsText.second (hZ : X.zone.Lawful) {ts : HoroDate} (h : IsText str ts)
    (hreads : X.zone.Reads ts.sec) : X.zone.utcOfLocal (timegm (dateRead X str)) = ts.sec := by
  have hread := congrArg HoroDate.sec (h.read X.zone X.junk)
  exact hread.trans ((Zone.utcOfLocal_eq_iff hZ _).mpr hreads)

/-- **The extraction of a timestamp.** It is right exactly where the date read is the first second
of 1970, or the string is the text of an instant that the host has as a local time. -/
theorem extractsOnly_iff (hZ : X.zone.Lawful)
    (hfield : ptxtJsonExtractField j (ascii "timestamp") = .ok str) :
    ExtractsOnly X j str ↔
      ReadAt1970 X str ∨ ∃ ts, IsText str ts ∧ X.zone.Reads ts.sec := by
  rw [ExtractsOnly]
  rcases extract_outcome (X := X) hfield with ⟨hbefore, h⟩ | ⟨hat, h⟩ | ⟨hpos, h⟩
  · rw [h]
    apply iff_of_false id
    -- a text is never of an instant before 1970
    rintro (hat | ⟨ts, htext, hreads⟩)
    · exact hbefore.ne hat
    · have hsec := htext.second hZ hreads
      have hrange := htext.inRange.sec.1
      rw [ReadBefore1970, hsec] at hbefore
      exact absurd hbefore (not_lt.mpr hrange)
  · rw [h]
    exact iff_of_true trivial (.inl hat)
  · rw [h]
    constructor
    · intro htext
      right
      refine ⟨_, htext, (Zone.utcOfLocal_eq_iff hZ _).mp ?_⟩
      exact (congrArg HoroDate.sec (htext.read X.zone X.junk)).symm
    · rintro (hat | ⟨ts, htext, hreads⟩)
      · exact absurd hat hpos.ne'
      · show IsText str (str2ZuluHorodate X.zone X.junk str)
        rw [htext.read, (Zone.utcOfLocal_eq_iff hZ _).mpr hreads]
        exact htext

/-! ### A fraction of four digits

A fraction of a thousand milliseconds is taken for one second more. -/

/-- The coder in UTC, without a text of json-c. -/
def utcText : TextExt where
  json := .ofValues []
  strGmtHorodate := zuluText
  zone := .utc
  junk := ⟨0, 0, 0, 0, 0, 0⟩
  diffHorodateMs a b := (a.sec - b.sec) * 1000 + (a.nsec - b.nsec) / 1000000
  timeWindows := -1

def timestamped (str : Bytes) : Json := .obj [(ascii "timestamp", .str str)]

/-- An instant of 2016 is that of its text. -/
theorem extractsOnly_2016 :
    ExtractsOnly utcText (timestamped (ascii "2016-03-03T13:41:03.789Z"))
      (ascii "2016-03-03T13:41:03.789Z") := by
  have htext : IsText (ascii "2016-03-03T13:41:03.789Z") ⟨1457012463, 789000000⟩ :=
    ⟨⟨by decide, by decide⟩, by decide, by decide⟩
  exact (extractsOnly_iff Zone.utc_lawful (by decide)).mpr
    (.inr ⟨_, htext, Zone.utc_reads _⟩)

/-- A thousand milliseconds are accepted, and make a thousand million nanoseconds. -/
theorem not_extractsOnly_thousand :
    ¬ ExtractsOnly utcText (timestamped (ascii "2016-03-03T13:41:03.1000Z"))
      (ascii "2016-03-03T13:41:03.1000Z") := by
  intro h
  have hok : ptxtExtractTimestamp utcText (timestamped (ascii "2016-03-03T13:41:03.1000Z")) =
      .ok ⟨1457012463, 1000000000⟩ := by decide
  rw [ExtractsOnly, hok] at h
  exact absurd h.inRange.nsec.2 (by decide)

end RsmpGateway.Coder
