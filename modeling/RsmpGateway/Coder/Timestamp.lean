import RsmpGateway.Auth.Store
import RsmpGateway.Lib.Calendar

/-!
# Timestamps

`str2ZuluHorodate`, which `coder.c` and `timestamp.c` both have. Its format is not one of
`strptime`: the reading stops at `#`, once the date is set. The milliseconds are those after the
last dot of the text.

Nothing is checked: the result of `strptime` is not looked at, and `strtoul` gives 0 where there
is no number. So every text gives a date; that the text of a date gives this date is
`str2ZuluHorodate_zuluText`. The zone of the host is a parameter, since the fields are first
taken for those of a local time.
-/

namespace RsmpGateway.Coder

open RsmpGateway.Lib RsmpGateway.Auth

/-- `%Y-%m-%dT%H:%M:%S` -/
def dateFormat : List Directive :=
  [.num .year, .lit 0x2D, .num .mon, .lit 0x2D, .num .mday, .lit 0x54,
    .num .hour, .lit 0x3A, .num .min, .lit 0x3A, .num .sec]

/-- `TIMESTAMP_FORMAT_DEF` -/
def timestampFormat : List Directive := dateFormat ++ (ascii ".#mlZ").map .lit

/-- The date that the writer of dates prints, with its milliseconds. -/
def zuluText (ts : HoroDate) : Bytes :=
  dateText (utcOf ts.sec) dateFormat ++ 0x2E :: (padded 3 (ts.nsec / 1000000).toNat ++ [0x5A])

/-- A date from 1970 to 9999. -/
structure HoroDate.InRange (ts : HoroDate) : Prop where
  sec : 0 ≤ ts.sec ∧ ts.sec ≤ lastSecond
  nsec : 0 ≤ ts.nsec ∧ ts.nsec < 1000000000

/-- `strGmtHorodate` with `TIMESTAMP_FORMAT_DEF`. -/
abbrev DateWriter := HoroDate → Bytes

/-- What is assumed of the writer: UTC and three digits of milliseconds. -/
def DateWriter.Lawful (W : DateWriter) : Prop := ∀ ts, HoroDate.InRange ts → W ts = zuluText ts

/-- `isspace` -/
def isSpace (c : UInt8) : Bool := c = 0x20 || (0x09 ≤ c && c ≤ 0x0D)

/-- `strtoul` in base 10, `none` for an overflow. -/
def strtoul (text : Bytes) : Option Nat :=
  let text := text.dropWhile isSpace
  let neg := text.head? = some 0x2D
  let digits := if neg ∨ text.head? = some 0x2B then text.tail else text
  let n := (digits.takeWhile isDigit).foldl (fun n c => n * 10 + (c.toNat - 0x30)) 0
  if 2 ^ 64 ≤ n then none else some (if neg then (2 ^ 64 - n) % 2 ^ 64 else n)

/-- What follows the last dot. -/
def afterLastDot (str : Bytes) : Option Bytes :=
  if 0x2E ∈ str then some (str.reverse.takeWhile (· ≠ 0x2E)).reverse else none

/-- The nanoseconds that `str2ZuluHorodate` finds, in an `unsigned long`. -/
def nanosOf (str : Bytes) : Nat :=
  match (afterLastDot str).bind strtoul with
  | some ml => ml * 1000000 % 2 ^ 64
  | none => 0

/-- `str2ZuluHorodate`. `junk` is what the fields of `tm_info` hold before. -/
def str2ZuluHorodate (Z : Zone) (junk : Tm) (str : Bytes) : HoroDate :=
  ⟨Z.utcOfLocal (timegm (strptime timestampFormat str junk)), nanosOf str⟩

theorem isDigit_of_mem_padded {k n : Nat} {c : UInt8} (h : c ∈ padded k n) : isDigit c = true := by
  induction k with
  | zero => cases h
  | succ k ih =>
    rcases List.mem_cons.mp h with rfl | h
    · exact isDigit_digitByte (Nat.mod_lt _ (by decide))
    · exact ih h

/-- A digit is no space, and no sign. -/
theorem isDigit.plain {c : UInt8} (h : isDigit c = true) :
    isSpace c = false ∧ c ≠ 0x2D ∧ c ≠ 0x2B := by
  simp only [isDigit, Bool.and_eq_true, decide_eq_true_eq, UInt8.le_iff_toNat_le] at h
  refine ⟨?_, ?_, ?_⟩
  · simp only [isSpace, Bool.or_eq_false_iff, Bool.and_eq_false_iff, decide_eq_false_iff_not,
      UInt8.le_iff_toNat_le, ← UInt8.toNat_inj]
    simp only [UInt8.reduceToNat] at h ⊢
    omega
  · rintro rfl
    exact absurd h.1 (by decide)
  · rintro rfl
    exact absurd h.1 (by decide)

/-- The value of the last digits, after those already read. -/
theorem foldl_padded (k val n : Nat) :
    (padded k n).foldl (fun n c => n * 10 + (c.toNat - 0x30)) val = val * 10 ^ k + n % 10 ^ k := by
  induction k generalizing val with
  | zero => simp [padded, Nat.mod_one]
  | succ k ih =>
    have hd : n / 10 ^ k % 10 < 10 := Nat.mod_lt _ (by decide)
    have hmod : n % 10 ^ (k + 1) = n / 10 ^ k % 10 * 10 ^ k + n % 10 ^ k := by
      rw [Nat.pow_succ, Nat.mod_mul, Nat.mul_comm, Nat.add_comm]
    rw [padded, List.foldl_cons, ih, digitByte_sub hd, hmod, Nat.pow_succ, Nat.add_mul]
    ring

/-- A number that was written is read, up to what follows it. -/
theorem strtoul_padded {k n : Nat} (hk : 0 < k) (hn : n < 10 ^ k) (hlt : n < 2 ^ 64) {c : UInt8}
    (hc : isDigit c = false) : strtoul (padded k n ++ [c]) = some n := by
  obtain ⟨k, rfl⟩ : ∃ k', k = k' + 1 := ⟨k - 1, by omega⟩
  have hd : n / 10 ^ k % 10 < 10 := Nat.mod_lt _ (by decide)
  obtain ⟨hspace, hminus, hplus⟩ := isDigit.plain (isDigit_digitByte hd)
  have htext : (padded (k + 1) n ++ [c]).dropWhile isSpace = padded (k + 1) n ++ [c] := by
    rw [padded, List.cons_append, List.dropWhile_cons_of_neg (by simp [hspace])]
  have hhead : (padded (k + 1) n ++ [c]).head? = some (digitByte (n / 10 ^ k % 10)) := rfl
  have hdigits : (padded (k + 1) n ++ [c]).takeWhile isDigit = padded (k + 1) n := by
    rw [List.takeWhile_append_of_pos fun _ => isDigit_of_mem_padded,
      List.takeWhile_cons_of_neg (by simp [hc]), List.append_nil]
  simp only [strtoul, htext, hhead, Option.some.injEq, hminus, hplus, or_self, if_false, hdigits,
    foldl_padded, Nat.zero_mul, Nat.zero_add, Nat.mod_eq_of_lt hn]
  rw [if_neg (by omega)]

/-- The milliseconds are read. -/
theorem nanosOf_zuluText (date : Bytes) {ms : Nat} (h : ms < 1000) :
    nanosOf (date ++ 0x2E :: (padded 3 ms ++ [0x5A])) = ms * 1000000 := by
  have hdot : ∀ c ∈ (padded 3 ms ++ [0x5A]).reverse, (c ≠ 0x2E : Bool) = true := by
    intro c hc
    rcases List.mem_append.mp (List.mem_reverse.mp hc) with hc | hc
    · have := isDigit_of_mem_padded hc
      simp only [decide_eq_true_eq]
      rintro rfl
      exact absurd this (by decide)
    · obtain rfl := List.mem_singleton.mp hc
      decide
  have hafter : afterLastDot (date ++ 0x2E :: (padded 3 ms ++ [0x5A])) =
      some (padded 3 ms ++ [0x5A]) := by
    rw [afterLastDot, if_pos (by simp), List.reverse_append, List.reverse_cons, List.append_assoc,
      List.takeWhile_append_of_pos hdot]
    simp
  rw [nanosOf, hafter, Option.bind_some, strtoul_padded (by decide) h (by omega) (by decide)]
  exact Nat.mod_eq_of_lt (by omega)

/-- The reading stops at the milliseconds. -/
theorem strptime_millis (ms : Nat) (rest : Bytes) (tm : Tm) :
    strptime ((ascii ".#mlZ").map .lit) (0x2E :: (padded 3 ms ++ rest)) tm = tm := by
  have hdigit : isDigit (digitByte (ms / 10 ^ 2 % 10)) = true :=
    isDigit_digitByte (Nat.mod_lt _ (by decide))
  have hne : (0x23 : UInt8) ≠ digitByte (ms / 10 ^ 2 % 10) := by
    intro h
    rw [← h] at hdigit
    exact absurd hdigit (by decide)
  show (if (0x23 : UInt8) = digitByte (ms / 10 ^ 2 % 10) then _ else tm) = tm
  rw [if_neg hne]

/-- All fields are in the format. -/
theorem copyFields_dateFormat {tm : Tm} (h : tm.InRange) (junk : Tm) :
    copyFields tm dateFormat junk = tm := by
  obtain ⟨_, _, _, _, _, _⟩ := h
  cases tm
  simp only [dateFormat, copyFields, TmField.set, TmField.get, Tm.mk.injEq] at *
  omega

/-- A date that was written is read, to the millisecond. -/
theorem str2ZuluHorodate_zuluText (Z : Zone) (junk : Tm) {ts : HoroDate}
    (h : HoroDate.InRange ts) :
    str2ZuluHorodate Z junk (zuluText ts) =
      ⟨Z.utcOfLocal ts.sec, ts.nsec / 1000000 * 1000000⟩ := by
  have htm := utcOf_inRange h.sec.1 h.sec.2
  obtain ⟨hnsec0, hnsec1⟩ := h.nsec
  have hms : (ts.nsec / 1000000).toNat < 1000 := by omega
  have hdate : strptime timestampFormat (zuluText ts) junk = utcOf ts.sec := by
    rw [timestampFormat, zuluText, strptime_dateText htm, strptime_millis,
      copyFields_dateFormat htm]
  rw [str2ZuluHorodate, hdate, timegm_utcOf, zuluText, nanosOf_zuluText _ hms]
  congr 1
  omega

end RsmpGateway.Coder
