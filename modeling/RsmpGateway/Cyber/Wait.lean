import RsmpGateway.Auth.Store
import RsmpGateway.Sync.Queue

/-!
# Waiting for a message of the application

`waitForMessage_external`: the loop asks for the date of its start less the date of the wake-up,
which is never positive, and compares it as a `size_t` with the delay. A second after its start
it ends at the first wake-up without a message, whatever the delay (`waitsRight_iff`).

A call is known by its wake-ups: what the queue holds when `condition_wait` returns, the date
then, and whether the connection is stopped. How long `condition_wait` sleeps is in these dates.
The difference of two dates is that of the library, of which is assumed that it is rounded to one
side or to the other (`DiffLawful`). That the allocation of `msg_q` fails is left out.
-/

namespace RsmpGateway.Cyber

open RsmpGateway.Lib RsmpGateway.Auth RsmpGateway.Sync

/-! ## The loop

The difference is compared after it is made a `size_t`, so that any negative one is beyond the
delay. -/

/-- What the thread finds when `condition_wait` returns. -/
structure WakeUp (ν ι μ : Type) where
  queues : Queues ν ι μ
  now : HoroDate
  stop : Bool

/-- The payload and its length, or `_rsmp_errcod_cyber_generic_`. -/
inductive Waited
  | message (payload : Option Bytes) (len : Nat)
  | timeout
  deriving DecidableEq

/-- A call of `waitForMessage_external`: the external queue, the delay, and the date when it
starts. -/
structure Waiting (ν ι : Type) where
  ldc : LdcLib ν
  diffHorodateSec : HoroDate → HoroDate → Int
  externalQ : ι
  toSec : Nat
  startWaiting : HoroDate

/-- A `long`, converted to `size_t`. -/
def sizeOfLong (d : Int) : Nat := (d % 2 ^ 64).toNat

/-- A date in nanoseconds. -/
def nanoseconds (t : HoroDate) : Int := t.sec * 10 ^ 9 + t.nsec

namespace Waiting

variable {ν ι μ : Type} [DecidableEq ν] [DecidableEq ι] (W : Waiting ν ι)

/-- What the wake-up takes from the queue. -/
def pulled (w : WakeUp ν ι μ) : Option (Sync.QueueMsg μ) :=
  (w.queues.pull W.ldc W.externalQ (0 < w.queues.sem W.externalQ)).1

/-- `waitForMessage_external`, from one wake-up to the next: what it returns, and at which of
them. Before the first one it allocates `msg_q`; that this fails, with the code of the time-out, is
left out. -/
def waitForMessageExternal : List (WakeUp ν ι μ) → Option (Waited × WakeUp ν ι μ)
  | [] => none
  | w :: ws =>
    match W.pulled w with
    | some msg => some (.message msg.buf msg.length, w)
    | none =>
      if !w.stop && sizeOfLong (W.diffHorodateSec W.startWaiting w.now) < W.toSec then
        waitForMessageExternal ws
      else some (.timeout, w)

/-- The nanoseconds since the start. -/
def elapsed (w : WakeUp ν ι μ) : Int := nanoseconds w.now - nanoseconds W.startWaiting

/-- `diffHorodateSec` gives the first date less the second one in seconds, rounded to one side or
to the other. -/
def DiffLawful : Prop :=
  ∀ a b, |nanoseconds a - nanoseconds b - W.diffHorodateSec a b * 10 ^ 9| < 10 ^ 9

/-- The wake-ups of a call: the queue is as the calls on it leave it, the clock does not go back,
and the seconds since the start are a `long`. -/
structure Wakes (ws : List (WakeUp ν ι μ)) : Prop where
  queues : ∀ w ∈ ws, ∃ es, (queueSystem W.ldc ι μ).Run es w.queues
  clock : (W.startWaiting :: ws.map WakeUp.now).Pairwise fun a b => nanoseconds a ≤ nanoseconds b
  long : ∀ w ∈ ws, -2 ^ 63 ≤ W.diffHorodateSec W.startWaiting w.now

/-- **A time-out comes after the delay or when the connection is stopped, and a message that is
there at a wake-up is returned, the oldest one.** -/
structure WaitsRight (ws : List (WakeUp ν ι μ)) : Prop where
  timeout : ∀ w, W.waitForMessageExternal ws = some (.timeout, w) →
    w.stop = true ∨ W.toSec * 10 ^ 9 ≤ W.elapsed w
  oldest : ∀ as w bs msg rest, ws = as ++ w :: bs → W.waitForMessageExternal as = none →
    w.queues.Holds W.externalQ (msg :: rest) →
      W.waitForMessageExternal ws = some (.message msg.buf msg.length, w)

/-- A wake-up before the delay, and a second or more after the start: at it and before it there is
neither a message nor a stop. -/
structure Early (as : List (WakeUp ν ι μ)) (w : WakeUp ν ι μ) : Prop where
  idle : ∀ v ∈ as ++ [w], v.stop = false ∧ v.queues.Holds W.externalQ []
  second : W.diffHorodateSec W.startWaiting w.now < 0
  size : W.toSec ≤ 2 ^ 64 + W.diffHorodateSec W.startWaiting w.now
  delay : W.elapsed w < W.toSec * 10 ^ 9

/-! ## Wake-ups in a row

The loop goes on over wake-ups that bring nothing, as long as no second has passed. -/

variable {W} {as bs ws : List (WakeUp ν ι μ)} {w v : WakeUp ν ι μ}

/-- The loop goes on after a wake-up without a message, when there is no stop and the difference is
less than the delay. -/
def GoesOn (W : Waiting ν ι) (w : WakeUp ν ι μ) : Prop :=
  W.pulled w = none ∧ w.stop = false ∧
    sizeOfLong (W.diffHorodateSec W.startWaiting w.now) < W.toSec

theorem wait_cons (h : W.GoesOn w) :
    W.waitForMessageExternal (w :: ws) = W.waitForMessageExternal ws := by
  obtain ⟨hpulled, hstop, hsize⟩ := h
  rw [waitForMessageExternal, hpulled]
  simp [hstop, hsize]

theorem wait_append (h : ∀ v ∈ as, W.GoesOn v) :
    W.waitForMessageExternal (as ++ ws) = W.waitForMessageExternal ws := by
  induction as with
  | nil => rfl
  | cons v as ih =>
    obtain ⟨hv, has⟩ := List.forall_mem_cons.mp h
    rw [List.cons_append, wait_cons hv, ih has]

theorem wait_none (h : W.waitForMessageExternal as = none) : ∀ v ∈ as, W.GoesOn v := by
  induction as with
  | nil => nofun
  | cons v as ih =>
    have hv : W.GoesOn v := by
      rw [waitForMessageExternal] at h
      split at h
      · cases h
      · next hpulled =>
        split at h
        · next hcond => exact ⟨hpulled, by simpa using hcond⟩
        · cases h
    rw [wait_cons hv] at h
    exact List.forall_mem_cons.mpr ⟨hv, ih h⟩

/-- A time-out comes at the first wake-up after which the loop does not go on, when there is no
message at it. -/
theorem wait_timeout (h : W.waitForMessageExternal ws = some (.timeout, w)) :
    ∃ as bs, ws = as ++ w :: bs ∧ (∀ v ∈ as, W.GoesOn v) ∧ W.pulled w = none ∧ ¬ W.GoesOn w := by
  induction ws with
  | nil => cases h
  | cons v ws ih =>
    by_cases hv : W.GoesOn v
    · rw [wait_cons hv] at h
      obtain ⟨as, bs, rfl, has, hw⟩ := ih h
      exact ⟨v :: as, bs, rfl, List.forall_mem_cons.mpr ⟨hv, has⟩, hw⟩
    · rw [waitForMessageExternal] at h
      split at h
      · cases h
      · next hpulled =>
        split at h
        · next hcond => exact absurd ⟨hpulled, by simpa using hcond⟩ hv
        · cases h
          exact ⟨[], ws, rfl, nofun, hpulled, hv⟩

theorem wait_some_append {r : Waited × WakeUp ν ι μ} (h : W.waitForMessageExternal as = some r) :
    W.waitForMessageExternal (as ++ ws) = some r := by
  induction as with
  | nil => cases h
  | cons v as ih =>
    rw [waitForMessageExternal] at h
    rw [List.cons_append, waitForMessageExternal]
    split at h
    · exact h
    · split at h
      · next hcond =>
        rw [if_pos hcond]
        exact ih h
      · next hcond =>
        rw [if_neg hcond]
        exact h

/-- Where no wake-up has a message, the loop ends once it cannot go on. -/
theorem wait_idle (h : ∀ v ∈ ws, W.pulled v = none) (hw : w ∈ ws) (hnot : ¬ W.GoesOn w) :
    ∃ v ∈ ws, W.waitForMessageExternal ws = some (.timeout, v) := by
  induction ws with
  | nil => cases hw
  | cons v ws ih =>
    obtain ⟨hpulled, hrest⟩ := List.forall_mem_cons.mp h
    by_cases hv : W.GoesOn v
    · have hmem : w ∈ ws := by
        rcases List.mem_cons.mp hw with rfl | hmem
        · exact absurd hv hnot
        · exact hmem
      obtain ⟨u, hu, hwait⟩ := ih hrest hmem
      exact ⟨u, List.mem_cons_of_mem v hu, by rw [wait_cons hv, hwait]⟩
    · refine ⟨v, List.mem_cons_self, ?_⟩
      rw [waitForMessageExternal, hpulled, if_neg]
      simpa [GoesOn, hpulled] using hv

/-! ## The delay

A time-out is to come after the delay, unless the connection is stopped, and the oldest message
that is there at a wake-up is to be returned. -/

section Delay

omit [DecidableEq ν] [DecidableEq ι] in
/-- The date of the start less a later one is not positive. -/
theorem diff_nonpos (hdiff : W.DiffLawful) (h : 0 ≤ W.elapsed w) :
    W.diffHorodateSec W.startWaiting w.now ≤ 0 := by
  have hnear := abs_lt.mp (hdiff W.startWaiting w.now)
  rw [elapsed] at h
  omega

variable (hD : W.ldc.Lawful) (hdiff : W.DiffLawful) (hws : W.Wakes ws)

include hD hws in
theorem pulled_eq {held : List (Sync.QueueMsg μ)} (hw : w ∈ ws)
    (h : w.queues.Holds W.externalQ held) :
    W.pulled w = held.head? := by
  obtain ⟨es, hrun⟩ := hws.queues w hw
  exact pull_oldest hD hrun h

include hD hws in
theorem holds_nil (hw : w ∈ ws) (h : W.pulled w = none) : w.queues.Holds W.externalQ [] := by
  obtain ⟨es, hrun⟩ := hws.queues w hw
  obtain ⟨t, -, hrep⟩ := run_represents hD hrun
  have hholds := hrep.holds W.externalQ
  have hnil : t W.externalQ = [] := by
    have hhead := pulled_eq hD hws hw hholds
    rw [h] at hhead
    exact List.head?_eq_none_iff.mp hhead.symm
  rwa [hnil] at hholds

include hdiff in
/-- Neither stopped nor without time left, a wake-up after which the loop does not go on comes a
second or more after the start. -/
theorem not_goesOn_iff (hnow : 0 ≤ W.elapsed w)
    (hlong : -2 ^ 63 ≤ W.diffHorodateSec W.startWaiting w.now) (hpulled : W.pulled w = none)
    (hstop : w.stop = false) (hdelay : W.elapsed w < W.toSec * 10 ^ 9) :
    ¬ W.GoesOn w ↔ W.diffHorodateSec W.startWaiting w.now < 0 ∧
      W.toSec ≤ 2 ^ 64 + W.diffHorodateSec W.startWaiting w.now := by
  have hdiff := diff_nonpos hdiff hnow
  rw [GoesOn, hpulled, hstop]
  simp only [true_and, not_lt, sizeOfLong]
  omega

include hws in
theorem elapsed_nonneg (hw : w ∈ ws) : 0 ≤ W.elapsed w := by
  have hstart := (List.pairwise_cons.mp hws.clock).1 w.now (List.mem_map_of_mem hw)
  rw [elapsed]
  omega

include hws in
theorem elapsed_le (hsplit : ws = as ++ w :: bs) (hv : v ∈ as ++ [w]) :
    W.elapsed v ≤ W.elapsed w := by
  have hclock := (List.pairwise_cons.mp hws.clock).2
  rw [hsplit, List.map_append, List.map_cons, List.pairwise_append] at hclock
  rw [elapsed, elapsed]
  rcases List.mem_append.mp hv with hv | hv
  · have hle := hclock.2.2 v.now (List.mem_map_of_mem hv) w.now List.mem_cons_self
    omega
  · rw [List.mem_singleton.mp hv]

include hD hdiff hws in
/-- **The wait.** It is right exactly where there is no early wake-up. -/
theorem waitsRight_iff :
    W.WaitsRight ws ↔ ¬ ∃ as w bs, ws = as ++ w :: bs ∧ W.Early as w := by
  constructor
  · rintro hright ⟨as, w, bs, hsplit, hearly⟩
    have hmem : ∀ v ∈ as ++ [w], v ∈ ws := by
      intro v hv
      rw [hsplit, List.append_cons]
      exact List.mem_append_left bs hv
    have hlast : w ∈ as ++ [w] := List.mem_append_right as List.mem_cons_self
    have hpulled : ∀ v ∈ as ++ [w], W.pulled v = none :=
      fun v hv => pulled_eq hD hws (hmem v hv) (hearly.idle v hv).2
    have hnot := (not_goesOn_iff hdiff (elapsed_nonneg hws (hmem w hlast))
      (hws.long w (hmem w hlast)) (hpulled w hlast) (hearly.idle w hlast).1 hearly.delay).mpr
      ⟨hearly.second, hearly.size⟩
    obtain ⟨v, hv, hwait⟩ := wait_idle hpulled hlast hnot
    have hcall : W.waitForMessageExternal ws = some (.timeout, v) := by
      rw [hsplit, List.append_cons]
      exact wait_some_append hwait
    -- the loop ends at `w` or before it
    have hle := elapsed_le hws hsplit hv
    have hdelay := hearly.delay
    rcases hright.timeout v hcall with hstop | htime
    · rw [(hearly.idle v hv).1] at hstop
      cases hstop
    · omega
  · intro hnone
    constructor
    · intro w hcall
      obtain ⟨as, bs, hsplit, has, hpulled, hnot⟩ := wait_timeout hcall
      by_contra hwrong
      obtain ⟨hstop, htime⟩ := not_or.mp hwrong
      have hstop : w.stop = false := by simpa using hstop
      have hmem : ∀ v ∈ as ++ [w], v ∈ ws := by
        intro v hv
        rw [hsplit, List.append_cons]
        exact List.mem_append_left bs hv
      have hw : w ∈ ws := hmem w (List.mem_append_right as List.mem_cons_self)
      obtain ⟨hsecond, hsize⟩ := (not_goesOn_iff hdiff (elapsed_nonneg hws hw) (hws.long w hw)
        hpulled hstop (not_le.mp htime)).mp hnot
      refine hnone ⟨as, w, bs, hsplit, ?_, hsecond, hsize, not_le.mp htime⟩
      intro v hv
      have hidle : W.pulled v = none ∧ v.stop = false := by
        rcases List.mem_append.mp hv with hv | hv
        · exact ⟨(has v hv).1, (has v hv).2.1⟩
        · rw [List.mem_singleton.mp hv]
          exact ⟨hpulled, hstop⟩
      exact ⟨hidle.2, holds_nil hD hws (hmem v hv) hidle.1⟩
    · intro as w bs msg rest hsplit hwaiting hheld
      have hw : w ∈ ws := by simp [hsplit]
      have hpulled : W.pulled w = some msg := pulled_eq hD hws hw hheld
      rw [hsplit, wait_append (wait_none hwaiting), waitForMessageExternal, hpulled]

end Delay

/-! ### A delay of three seconds

A wake-up without a message after one second ends it, and one within the first second does not. -/

/-- A wait on the queue of `noEntry`, for three seconds. -/
def threeSeconds : Waiting (Fin 3) Unit where
  ldc := .ofLinks (Fin 3)
  diffHorodateSec a b := (nanoseconds a - nanoseconds b) / 10 ^ 9
  externalQ := ()
  toSec := 3
  startWaiting := ⟨0, 0⟩

theorem threeSeconds_lawful : threeSeconds.ldc.Lawful ∧ threeSeconds.DiffLawful := by
  refine ⟨LdcLib.ofLinks_lawful (Fin 3), ?_⟩
  intro a b
  show |nanoseconds a - nanoseconds b - (nanoseconds a - nanoseconds b) / 10 ^ 9 * 10 ^ 9| < 10 ^ 9
  rw [abs_lt]
  omega

/-- The thread is woken up at this date, without a message. -/
def wokenAt (now : HoroDate) : WakeUp (Fin 3) Unit Unit := ⟨noEntry, now, false⟩

theorem wakes_wokenAt {now : HoroDate} (h : 0 ≤ nanoseconds now)
    (hlong : nanoseconds now < 2 ^ 63) :
    threeSeconds.Wakes [wokenAt now] where
  queues := by
    intro w hw
    rw [List.mem_singleton.mp hw]
    exact ⟨[], .nil noEntry_init⟩
  clock := by
    apply List.pairwise_pair.mpr
    exact h
  long := by
    intro w hw
    rw [List.mem_singleton.mp hw]
    show -2 ^ 63 ≤ (nanoseconds ⟨0, 0⟩ - nanoseconds now) / 10 ^ 9
    have hzero : nanoseconds ⟨0, 0⟩ = 0 := rfl
    omega

/-- Four seconds later the time-out is right. -/
theorem waitsRight_four : threeSeconds.WaitsRight [wokenAt ⟨4, 0⟩] := by
  refine (waitsRight_iff threeSeconds_lawful.1 threeSeconds_lawful.2
    (wakes_wokenAt (by decide) (by decide))).mpr ?_
  rintro ⟨as, w, bs, hsplit, hearly⟩
  have hw : w = wokenAt ⟨4, 0⟩ := by
    have hmem : w ∈ [wokenAt ⟨4, 0⟩] := by simp [hsplit]
    exact List.mem_singleton.mp hmem
  rw [hw] at hearly
  exact absurd hearly.delay (by decide)

/-- One second later it comes too, two seconds before its time. -/
theorem not_waitsRight_one :
    threeSeconds.Wakes [wokenAt ⟨1, 0⟩] ∧ ¬ threeSeconds.WaitsRight [wokenAt ⟨1, 0⟩] := by
  refine ⟨wakes_wokenAt (by decide) (by decide), ?_⟩
  intro hright
  rcases hright.timeout (wokenAt ⟨1, 0⟩) rfl with hstop | htime
  · cases hstop
  · exact absurd htime (by decide)

end Waiting

end RsmpGateway.Cyber
