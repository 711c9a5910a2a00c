import Mathlib.Tactic.Linarith
import Mathlib.Tactic.Positivity
import Mathlib.Tactic.Ring
import RsmpGateway.Lib.Text

/-!
# Dates

The Gregorian calendar counted from March, so that the leap day ends a year, and the reading of a
date with `strptime` as the C library does it: the fields that are read are set one after the
other, and those after a mismatch are left as they were.

A time zone is what `mktime` and `localtime` need of it. Reading a date as if it were a local one
and adding the offset gives the date back where the local time exists (`Zone.utcOfLocal_eq_iff`).

The seconds count from 1970 and may be negative; the years are those of four digits.
-/

namespace RsmpGateway.Lib

/-! ## Days

The year of a day is found by division, with a first guess that is wrong by one at most; the
other way round is a sum. -/

/-- The days before the year `y`, counted from March of year 0. -/
def yearDays (y : Int) : Int := 365 * y + y / 4 - y / 100 + y / 400

/-- The year, from March, of a day. The first guess is wrong by one at most. -/
def marchYear (day : Int) : Int :=
  if yearDays (400 * day / 146097 + 1) ≤ day then 400 * day / 146097 + 1
  else if yearDays (400 * day / 146097) ≤ day then 400 * day / 146097
  else 400 * day / 146097 - 1

theorem yearDays_marchYear_le (day : Int) : yearDays (marchYear day) ≤ day := by
  unfold marchYear
  split
  · assumption
  · split
    · assumption
    · simp only [yearDays]
      omega

theorem lt_yearDays_marchYear (day : Int) : day < yearDays (marchYear day + 1) := by
  unfold marchYear
  split
  · simp only [yearDays]
    omega
  · split
    · omega
    · simp only [yearDays] at *
      omega

theorem yearDays_succ_le (y : Int) : yearDays (y + 1) ≤ yearDays y + 366 := by
  simp only [yearDays]
  omega

/-- `struct tm`: `mon` counts from 0, `year` is the year itself. -/
structure Tm where
  year : Int
  mon : Int
  mday : Int
  hour : Int
  min : Int
  sec : Int
  deriving Repr, DecidableEq

/-- The day 1970-01-01, counted from March of year 0. -/
def epochDay : Int := 719468

/-- The day of a date, counted from 1970-01-01. A month may be out of its range. -/
def dayOfDate (year mon mday : Int) : Int :=
  let year := year + mon / 12
  let march := if mon % 12 < 2 then year - 1 else year
  yearDays march + (153 * ((mon % 12 + 10) % 12) + 2) / 5 + mday - 1 - epochDay

/-- The seconds of a date from 1970 on, in UTC. -/
def timegm (tm : Tm) : Int :=
  86400 * dayOfDate tm.year tm.mon tm.mday + 3600 * tm.hour + 60 * tm.min + tm.sec

/-- The month, from March, of a day of the year. -/
def marchMonth (yday : Int) : Int := (5 * yday + 2) / 153

/-- The date of a number of seconds, in UTC. -/
def utcOf (t : Int) : Tm :=
  let march := marchYear (t / 86400 + epochDay)
  let yday := t / 86400 + epochDay - yearDays march
  { year := if 10 ≤ marchMonth yday then march + 1 else march
    mon := (marchMonth yday + 2) % 12
    mday := yday - (153 * marchMonth yday + 2) / 5 + 1
    hour := t % 86400 / 3600
    min := t % 3600 / 60
    sec := t % 60 }

/-- The last second of the year 9999. -/
def lastSecond : Int := 253402300799

/-- The fields that `strptime` accepts. -/
structure Tm.InRange (tm : Tm) : Prop where
  year : 0 ≤ tm.year ∧ tm.year ≤ 9999
  mon : 0 ≤ tm.mon ∧ tm.mon ≤ 11
  mday : 1 ≤ tm.mday ∧ tm.mday ≤ 31
  hour : 0 ≤ tm.hour ∧ tm.hour ≤ 23
  min : 0 ≤ tm.min ∧ tm.min ≤ 59
  sec : 0 ≤ tm.sec ∧ tm.sec ≤ 59

/-- The day in its year. -/
theorem yday_range (day : Int) :
    0 ≤ day - yearDays (marchYear day) ∧ day - yearDays (marchYear day) ≤ 365 := by
  have hle := yearDays_marchYear_le day
  have hlt := lt_yearDays_marchYear day
  have hsucc := yearDays_succ_le (marchYear day)
  omega

theorem dayOfDate_of_yday (march : Int) {yday : Int} (h0 : 0 ≤ yday) (h1 : yday ≤ 365) :
    dayOfDate (if 10 ≤ marchMonth yday then march + 1 else march) ((marchMonth yday + 2) % 12)
      (yday - (153 * marchMonth yday + 2) / 5 + 1) = yearDays march + yday - epochDay := by
  have hrange : 0 ≤ marchMonth yday ∧ marchMonth yday ≤ 11 := by
    simp only [marchMonth]
    omega
  have hcarry : (marchMonth yday + 2) % 12 / 12 = 0 := by omega
  have hback : ((marchMonth yday + 2) % 12 % 12 + 10) % 12 = marchMonth yday := by omega
  simp only [dayOfDate, hcarry, hback, Int.add_zero]
  -- January and February belong to the year that began in March before
  by_cases h : 10 ≤ marchMonth yday
  · have hmonth : (marchMonth yday + 2) % 12 % 12 < 2 := by omega
    rw [if_pos hmonth, if_pos h, Int.add_sub_cancel]
    omega
  · have hmonth : ¬ (marchMonth yday + 2) % 12 % 12 < 2 := by omega
    rw [if_neg hmonth, if_neg h]
    omega

theorem timegm_utcOf (t : Int) : timegm (utcOf t) = t := by
  obtain ⟨h0, h1⟩ := yday_range (t / 86400 + epochDay)
  have hday := dayOfDate_of_yday (marchYear (t / 86400 + epochDay)) h0 h1
  simp only [timegm, utcOf, hday]
  omega

/-- From 1970 to 9999 the years have four digits. -/
theorem marchYear_range {day : Int} (h0 : epochDay ≤ day) (h1 : day ≤ 3652364) :
    0 ≤ marchYear day ∧ (marchYear day ≤ 9998 ∨
      marchYear day = 9999 ∧ day - yearDays (marchYear day) ≤ 305) := by
  have hle := yearDays_marchYear_le day
  have hlt := lt_yearDays_marchYear day
  simp only [yearDays, epochDay] at *
  omega

theorem utcOf_inRange {t : Int} (h0 : 0 ≤ t) (h1 : t ≤ lastSecond) : (utcOf t).InRange := by
  obtain ⟨hy0, hy1⟩ := yday_range (t / 86400 + epochDay)
  have hmarch : 0 ≤ marchYear (t / 86400 + epochDay) ∧
      (marchYear (t / 86400 + epochDay) ≤ 9998 ∨ marchYear (t / 86400 + epochDay) = 9999 ∧
        t / 86400 + epochDay - yearDays (marchYear (t / 86400 + epochDay)) ≤ 305) := by
    apply marchYear_range <;> simp only [epochDay, lastSecond] at * <;> omega
  constructor
  · simp only [utcOf]
    split
    · next h =>
      simp only [marchMonth] at h
      omega
    · omega
  · simp only [utcOf]
    omega
  · simp only [utcOf, marchMonth]
    omega
  · simp only [utcOf]
    omega
  · simp only [utcOf]
    omega
  · simp only [utcOf]
    omega

/-! ## Numbers of a date

`strptime` reads at most as many digits as a field has, after blanks, and fails on a number that
is out of the range of the field. -/

/-- The last `k` digits of a number. -/
def padded : Nat → Nat → Bytes
  | 0, _ => []
  | k + 1, n => digitByte (n / 10 ^ k % 10) :: padded k n

/-- The loop of `get_number`: at most `k` digits, as long as the number fits. -/
def takeDigits (hi : Nat) : Nat → Nat → Bytes → Nat × Bytes
  | k + 1, val, c :: rp =>
    if isDigit c && decide (val * 10 ≤ hi) then
      takeDigits hi k (val * 10 + (c.toNat - 0x30)) rp
    else (val, c :: rp)
  | _, val, rp => (val, rp)

/-- `get_number` of `strptime`. -/
def getNumber (lo hi k : Nat) (rp : Bytes) : Option (Nat × Bytes) :=
  match rp.dropWhile (· = 0x20) with
  | [] => none
  | c :: cs =>
    if isDigit c then
      let r := takeDigits hi k 0 (c :: cs)
      if lo ≤ r.1 ∧ r.1 ≤ hi then some r else none
    else none

theorem digitByte_sub {d : Nat} (h : d < 10) : (digitByte d).toNat - 0x30 = d := by
  revert d; decide

theorem takeDigits_padded (hi k : Nat) (val n : Nat) (rest : Bytes)
    (h : val * 10 ^ k + n % 10 ^ k ≤ hi) :
    takeDigits hi k val (padded k n ++ rest) = (val * 10 ^ k + n % 10 ^ k, rest) := by
  induction k generalizing val with
  | zero => simp [takeDigits, padded, Nat.mod_one]
  | succ k ih =>
    have hd : n / 10 ^ k % 10 < 10 := Nat.mod_lt _ (by decide)
    have hsplit : n % 10 ^ (k + 1) = n % 10 ^ k + 10 ^ k * (n / 10 ^ k % 10) := Nat.mod_pow_succ
    have hval : (val * 10 + n / 10 ^ k % 10) * 10 ^ k + n % 10 ^ k =
        val * 10 ^ (k + 1) + n % 10 ^ (k + 1) := by
      rw [hsplit, Nat.pow_succ]
      ring
    have hfit : val * 10 ≤ hi := by
      have : val * 10 ≤ val * 10 * 10 ^ k := Nat.le_mul_of_pos_right _ (by positivity)
      rw [Nat.pow_succ] at h
      nlinarith [Nat.zero_le (n % (10 ^ k * 10))]
    rw [padded, List.cons_append, takeDigits, isDigit_digitByte hd, decide_eq_true hfit,
      Bool.and_self, if_pos rfl, digitByte_sub hd, ih _ (by rw [hval]; exact h), hval]

theorem getNumber_padded {lo hi k n : Nat} (hk : 0 < k) (hlo : lo ≤ n) (hhi : n ≤ hi)
    (hn : n < 10 ^ k) (rest : Bytes) : getNumber lo hi k (padded k n ++ rest) = some (n, rest) := by
  have hmod : n % 10 ^ k = n := Nat.mod_eq_of_lt hn
  have htake := takeDigits_padded hi k 0 n rest (by rw [hmod]; omega)
  rw [hmod, Nat.zero_mul, Nat.zero_add] at htake
  cases k with
  | zero => omega
  | succ k =>
    have hd : n / 10 ^ k % 10 < 10 := Nat.mod_lt _ (by decide)
    have hdigit := isDigit_digitByte hd
    have hspace : digitByte (n / 10 ^ k % 10) ≠ 0x20 := by
      intro h
      rw [h] at hdigit
      exact absurd hdigit (by decide)
    rw [padded, List.cons_append] at htake ⊢
    rw [getNumber, List.dropWhile_cons_of_neg (by simpa using hspace)]
    simp only [hdigit, if_true, htake]
    rw [if_pos ⟨hlo, hhi⟩]

/-! ## Dates as text

A format is a list of directives. A text that was written with a format is read with it, up to
the directive that does not match. -/

inductive TmField
  | year
  | mon
  | mday
  | hour
  | min
  | sec

namespace TmField

def lo : TmField → Nat
  | mon | mday => 1
  | _ => 0

def hi : TmField → Nat
  | year => 9999
  | mon => 12
  | mday => 31
  | hour => 23
  | min => 59
  | sec => 61

def width : TmField → Nat
  | year => 4
  | _ => 2

/-- The number that is written. -/
def get (tm : Tm) : TmField → Nat
  | year => tm.year.toNat
  | mon => (tm.mon + 1).toNat
  | mday => tm.mday.toNat
  | hour => tm.hour.toNat
  | min => tm.min.toNat
  | sec => tm.sec.toNat

def set (tm : Tm) (n : Nat) : TmField → Tm
  | year => { tm with year := n }
  | mon => { tm with mon := n - 1 }
  | mday => { tm with mday := n }
  | hour => { tm with hour := n }
  | min => { tm with min := n }
  | sec => { tm with sec := n }

end TmField

/-- A part of a format: a character, or a field. -/
inductive Directive
  | lit (c : UInt8)
  | num (f : TmField)

/-- `strptime`: the fields set as far as the text goes with the format. -/
def strptime : List Directive → Bytes → Tm → Tm
  | [], _, tm => tm
  | .lit _ :: _, [], tm => tm
  | .lit c :: ds, c' :: rp, tm => if c = c' then strptime ds rp tm else tm
  | .num f :: ds, rp, tm =>
    match getNumber f.lo f.hi f.width rp with
    | some (n, rp) => strptime ds rp (f.set tm n)
    | none => tm

/-- The text of a date, as `strftime` writes it. -/
def dateText (tm : Tm) : List Directive → Bytes
  | [] => []
  | .lit c :: ds => c :: dateText tm ds
  | .num f :: ds => padded f.width (f.get tm) ++ dateText tm ds

/-- The fields of the format, from one date to another. -/
def copyFields (tm : Tm) : List Directive → Tm → Tm
  | [], tm' => tm'
  | .lit _ :: ds, tm' => copyFields tm ds tm'
  | .num f :: ds, tm' => copyFields tm ds (f.set tm' (f.get tm))

theorem TmField.get_range {tm : Tm} (h : tm.InRange) (f : TmField) :
    f.lo ≤ f.get tm ∧ f.get tm ≤ f.hi ∧ f.get tm < 10 ^ f.width := by
  obtain ⟨_, _, _, _, _, _⟩ := h
  cases f <;> simp only [lo, hi, width, get] <;> omega

/-- What is written is read. -/
theorem strptime_dateText {tm : Tm} (h : tm.InRange) (ds ds' : List Directive) (rest : Bytes)
    (tm' : Tm) :
    strptime (ds ++ ds') (dateText tm ds ++ rest) tm' =
      strptime ds' rest (copyFields tm ds tm') := by
  induction ds generalizing tm' with
  | nil => rfl
  | cons d ds ih =>
    cases d with
    | lit c =>
      show (if c = c then strptime (ds ++ ds') (dateText tm ds ++ rest) tm' else tm') = _
      rw [if_pos rfl, ih]
      rfl
    | num f =>
      obtain ⟨hlo, hhi, hwidth⟩ := f.get_range h
      have hpos : 0 < f.width := by cases f <;> decide
      rw [List.cons_append, dateText, List.append_assoc, strptime,
        getNumber_padded hpos hlo hhi hwidth]
      exact ih _

/-! ## Time zones

The hour that is skipped in spring, and the one that comes twice in autumn, are why a local time
may have no instant or two. -/

/-- A time zone: its offset at a time, and the time that `mktime` finds for a local one. -/
structure Zone where
  gmtoff : Int → Int
  mktime : Int → Int

namespace Zone

/-- The time zone has the local time. -/
def Reads (Z : Zone) (l : Int) : Prop := ∃ t, t + Z.gmtoff t = l

/-- `mktime` finds a time for each local one that there is. -/
def Lawful (Z : Zone) : Prop := ∀ l, Z.Reads l → Z.mktime l + Z.gmtoff (Z.mktime l) = l

/-- A date read as a local one, with the offset added. -/
def utcOfLocal (Z : Zone) (l : Int) : Int := Z.mktime l + Z.gmtoff (Z.mktime l)

theorem utcOfLocal_eq_iff {Z : Zone} (hZ : Z.Lawful) (l : Int) :
    Z.utcOfLocal l = l ↔ Z.Reads l := by
  constructor
  · intro h
    exact ⟨Z.mktime l, h⟩
  · exact hZ l

/-- The zone without offset. -/
def utc : Zone where
  gmtoff _ := 0
  mktime := id

theorem utc_lawful : utc.Lawful := fun l _ => Int.add_zero l

theorem utc_reads (l : Int) : utc.Reads l := ⟨l, Int.add_zero l⟩

end Zone

end RsmpGateway.Lib
