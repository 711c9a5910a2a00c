import RsmpGateway.Cyber.Wait
import RsmpGateway.Gateway.Dialogue
import RsmpGateway.Lib.Heartbeat
import RsmpGateway.Lib.Trace

/-!
# The supervision of the link

`external_receive` sends a watchdog every minute, and stops the link where it has waited without
success and no watchdog was received for a minute and a half. What its dates amount to is read in
a log (`supervised_log`). Two gateways that are prompt, on a link that is, never stop it
(`link_kept`, in `Gateway/KeepAlive.lean`).

The loop has a phase for each place where it waits or may be interrupted, so that its steps can
be interleaved with those of the other side and with the dates. Differences of dates are those of
the library, in whole seconds; a difference is made a number without sign before it is compared.
-/

namespace RsmpGateway.Gateway

open RsmpGateway.Lib RsmpGateway.Rsmp
open RsmpGateway.Auth (HoroDate)
open RsmpGateway.Cyber (nanoseconds)

/-! ## The loop

The steps of an iteration, in the order of the source. -/

/-- What the host makes of dates. -/
structure Horodates where
  diffHorodateSec : HoroDate → HoroDate → Int
  addSecond : HoroDate → Int → HoroDate

/-- `diffHorodateSec` gives the first date less the second one in seconds, rounded to one side or
to the other. -/
structure Horodates.Lawful (H : Horodates) : Prop where
  diff : ∀ a b, |nanoseconds a - nanoseconds b - H.diffHorodateSec a b * 10 ^ 9| < 10 ^ 9
  add : ∀ a k, nanoseconds (H.addSecond a k) = nanoseconds a + k * 10 ^ 9

/-- `watchdog_period_sec` -/
def watchdogPeriodSec : Int := 60

/-- `tolerance_sec` -/
def toleranceSec : Int := 30

/-- Where the loop is: at its head, before and after `sendMessage` with a watchdog, and in
`waitForMessage`. -/
inductive Phase
  | top
  | sending
  | sent
  | waiting (toSec : Int)
  deriving DecidableEq

/-- The dates of `external_receive`, where it is and since when, and `isRunning` of its link. -/
structure Supervision where
  now : HoroDate
  lastRxed : HoroDate
  lastSent : HoroDate
  phase : Phase
  since : HoroDate
  isRunning : Bool

section Intervals

variable (H : Horodates) (now since : HoroDate)

/-- A watchdog is to be sent. -/
def watchdogDue : Bool := watchdogPeriodSec ≤ H.diffHorodateSec now since

/-- `to_sec` -/
def toSec : Int := max (watchdogPeriodSec - H.diffHorodateSec now since) 1

/-- A watchdog should have been received. -/
def watchdogMissed : Bool :=
  1 ≤ watchdogPeriodSec && watchdogPeriodSec + toleranceSec ≤ H.diffHorodateSec now since

end Intervals

namespace Supervision

variable (H : Horodates) (v : Supervision) (t : HoroDate)

/-- Before the loop. The first watchdog is due at once. -/
def start : Supervision :=
  ⟨t, t, H.addSecond t (0 - watchdogPeriodSec), .top, t, true⟩

/-- The head of a turn. -/
def check : Supervision :=
  if v.isRunning then
    { v with
      now := t
      phase := if watchdogDue H t v.lastSent then .sending else .waiting (toSec H t v.lastSent)
      since := t }
  else { v with phase := .waiting 1, since := t }

/-- The watchdog was handed to `sendMessage`. -/
def send : Supervision := { v with phase := .sent, since := t }

/-- The date of the watchdog. -/
def stamp : Supervision :=
  { v with lastSent := t, phase := .waiting (toSec H v.now t), since := t }

/-- A message was received. -/
def receive (m : Message) : Supervision :=
  { v with lastRxed := if m.1 = .watchdog then t else v.lastRxed, phase := .top, since := t }

/-- `waitForMessage` has failed. -/
def fail : Supervision :=
  { v with
    now := t
    phase := .top
    since := t
    isRunning := v.isRunning && !watchdogMissed H t v.lastRxed }

end Supervision

/-! ## Two gateways

Each step is made at a date, and dates do not go back. The log is what was done on each side,
with its date. -/

/-- What the log of a side tells. -/
inductive Note
  | started
  | watchdog
  | read (m : Message)
  | failed (stopped : Bool)

/-! ### The two loops

Each side has its loop, its inbox and its log, and the two have one clock. What is on its way
keeps the date at which it was sent. -/

/-- The date, both loops, the messages with their dates, and the logs. -/
structure Supervised (σ : Type) where
  clock : HoroDate
  side : Party → Supervision
  dialogue : Dialogue.State σ (Bytes × HoroDate) (Option Message)
  log : Party → List (HoroDate × Note)

/-- What a side does. Its application sends, and may stop the link. -/
inductive Act
  | offer (payload : Bytes)
  | halt
  | check
  | send (B : Birth) (taken : Bool)
  | stamp
  | receive
  | fail

/-- A step of a side, at a date. -/
structure Supervised.Event where
  date : HoroDate
  party : Party
  act : Act

section System

variable {σ : Type} (X : RsmpExt) (engine : Bytes → σ → Int × σ) (R : SxlRegistry σ) (H : Horodates)

namespace Supervised

variable (s : Supervised σ) (t : HoroDate) (p : Party)

/-- A side has moved on. -/
def moved (v : Supervision) (notes : List Note) : Supervised σ :=
  { s with
    clock := t
    side := Function.update s.side p v
    log := Function.update s.log p (s.log p ++ notes.map (t, ·)) }

/-- A side has sent a payload. -/
def sent (payload : Bytes) : Supervised σ :=
  { s with clock := t, dialogue := s.dialogue.send p (payload, t) }

/-- A side has treated a payload: the replies that the link takes, and those that it refuses. -/
def treated (h : σ) (payload : Bytes × HoroDate) (rest : List (Bytes × HoroDate))
    (outcome : Option Message) (taken lost : List Bytes) : Supervised σ :=
  { s with
    dialogue := s.dialogue.reply p h payload rest outcome (taken.map (·, t)) (lost.map (·, t)) }

/-- `waitForMessage` has failed. -/
def failed : Supervised σ :=
  s.moved t p ((s.side p).fail H t) [.failed (watchdogMissed H t (s.side p).lastRxed)]

end Supervised

open Supervised in
/-- A step of one side. -/
inductive SupervisedStep : Supervised σ → Supervised.Event → Supervised σ → Prop
  | offer {s t} (p payload) : SupervisedStep s ⟨t, p, .offer payload⟩ (s.sent t p payload)
  | halt {s t} (p) :
    SupervisedStep s ⟨t, p, .halt⟩ (s.moved t p { s.side p with isRunning := false } [])
  | check {s t p} : (s.side p).phase = .top →
    SupervisedStep s ⟨t, p, .check⟩ (s.moved t p ((s.side p).check H t) [])
  | send {s t p B payload} : (s.side p).phase = .sending →
    rsmpJsonMsg2payload X ⟨.watchdog, MsgType.new B .watchdog⟩ = .ok (some payload) →
    SupervisedStep s ⟨t, p, .send B true⟩
      ((s.sent t p payload).moved t p ((s.side p).send t) [.watchdog])
  | unsent {s t p B payload} : (s.side p).phase = .sending →
    rsmpJsonMsg2payload X ⟨.watchdog, MsgType.new B .watchdog⟩ = .ok (some payload) →
    SupervisedStep s ⟨t, p, .send B false⟩ (s.moved t p ((s.side p).send t) [.watchdog])
  | stamp {s t p} : (s.side p).phase = .sent →
    SupervisedStep s ⟨t, p, .stamp⟩ (s.moved t p ((s.side p).stamp H t) [])
  | read {s t p k payload m rest replies h taken lost} : (s.side p).phase = .waiting k →
    s.dialogue.inbox p = payload :: rest →
    Receives X engine R (s.dialogue.host p) payload.1 (some m) replies h →
    replies.Perm (taken ++ lost) →
    SupervisedStep s ⟨t, p, .receive⟩
      ((s.treated t p h payload rest (some m) taken lost).moved t p ((s.side p).receive t m)
        [.read m])
  | unread {s t p k payload rest h} : (s.side p).phase = .waiting k →
    s.dialogue.inbox p = payload :: rest →
    Receives X engine R (s.dialogue.host p) payload.1 none [] h →
    SupervisedStep s ⟨t, p, .receive⟩
      ((s.treated t p h payload rest none [] []).failed H t p)
  | fail {s t p k} : (s.side p).phase = .waiting k →
    SupervisedStep s ⟨t, p, .fail⟩ (s.failed H t p)

/-- Both loops have started. -/
def Supervised.start (start : Party → HoroDate) (clock : HoroDate) (host : Party → σ) :
    Supervised σ :=
  ⟨clock, fun p => .start H (start p), Dialogue.start host, fun p => [(start p, .started)]⟩

/-- The runs of two gateways. The clock does not go back. -/
def supervisedSystem : System (Supervised σ) Supervised.Event where
  init s := ∃ start clock host, s = Supervised.start H start clock host ∧
    ∀ p, nanoseconds (start p) ≤ nanoseconds clock
  step s e s' := nanoseconds s.clock ≤ nanoseconds e.date ∧ SupervisedStep X engine R H s e s'

end System

variable {σ : Type} {X : RsmpExt} {engine : Bytes → σ → Int × σ} {R : SxlRegistry σ}
  {H : Horodates}

/-! ## Dates

What is assumed of the differences gives the order of the dates. -/

section Dates

variable (hH : H.Lawful) {a b : HoroDate} {k : Int}
include hH

theorem Horodates.Lawful.lt_of_le (h : k ≤ H.diffHorodateSec a b) :
    (k - 1) * 10 ^ 9 < nanoseconds a - nanoseconds b := by
  have hdiff := abs_lt.mp (hH.diff a b)
  omega

theorem Horodates.Lawful.lt_of_lt (h : H.diffHorodateSec a b < k) :
    nanoseconds a - nanoseconds b < k * 10 ^ 9 := by
  have hdiff := abs_lt.mp (hH.diff a b)
  omega

end Dates

/-! ## The log

The invariant relates the two dates that a loop keeps to its log, phase by phase. -/

/-- What a side has heard of the other one: that it has started, and its watchdogs. -/
def Note.hears : Note → Bool
  | started => true
  | read m => m.1 = .watchdog
  | _ => false

/-- What is told after the log: watchdogs are more than 59 seconds apart; where the wait fails, the
link is stopped if nothing was heard for 90 seconds, and not before 89. -/
structure Founded (log : List (HoroDate × Note)) (t : HoroDate) (note : Note) : Prop where
  watchdog : note = .watchdog → ∀ b, (b, Note.watchdog) ∈ log →
    59 * 10 ^ 9 < nanoseconds t - nanoseconds b
  stopped : note = .failed true → ∀ e ∈ log, e.2.hears = true →
    89 * 10 ^ 9 < nanoseconds t - nanoseconds e.1
  kept : note = .failed false → ∃ e ∈ log, e.2.hears = true ∧
    nanoseconds t - nanoseconds e.1 < 90 * 10 ^ 9

/-- What the variables of a side have to do with its log. -/
structure Told (H : Horodates) (v : Supervision) (clock : HoroDate)
    (log : List (HoroDate × Note)) : Prop where
  past : ∀ e ∈ log, nanoseconds e.1 ≤ nanoseconds clock
  heard : ∃ note, (v.lastRxed, note) ∈ log ∧ note.hears = true
  latest : ∀ e ∈ log, e.2.hears = true → nanoseconds e.1 ≤ nanoseconds v.lastRxed
  sent : v.phase ≠ .sent → ∀ b, (b, Note.watchdog) ∈ log →
    nanoseconds b ≤ nanoseconds v.lastSent
  due : v.phase = .sending → watchdogPeriodSec ≤ H.diffHorodateSec v.now v.lastSent ∧
    nanoseconds v.now ≤ nanoseconds clock
  founded : Each (fun before e => Founded before e.1 e.2) log

section Told

variable {v : Supervision} {clock t : HoroDate} {log : List (HoroDate × Note)}

/-! ### Phase by phase

What the variables say of the log, after each kind of step. No watchdog of the log is later than
`lastSent`, but for the time between the call of `sendMessage` and the date that is taken after
it. -/

theorem Told.start (hclock : nanoseconds t ≤ nanoseconds clock) :
    Told H (.start H t) clock [(t, .started)] := by
  have hstarted : Founded [] t .started := by constructor <;> intro h <;> cases h
  refine ⟨?_, ⟨.started, List.mem_singleton_self _, rfl⟩, ?_, ?_, ?_, Each.nil.snoc hstarted⟩
  · intro e he
    cases List.mem_singleton.mp he
    exact hclock
  · intro e he _
    cases List.mem_singleton.mp he
    exact Int.le_refl _
  · intro _ b hb
    cases List.mem_singleton.mp hb
  · intro hphase
    cases hphase

theorem Told.later (h : Told H v clock log) (ht : nanoseconds clock ≤ nanoseconds t) :
    Told H v t log := by
  refine ⟨fun e he => Int.le_trans (h.past e he) ht, h.heard, h.latest, h.sent, ?_, h.founded⟩
  intro hphase
  obtain ⟨hdue, hnow⟩ := h.due hphase
  exact ⟨hdue, Int.le_trans hnow ht⟩

theorem Told.halt (h : Told H v clock log) : Told H { v with isRunning := false } clock log :=
  ⟨h.past, h.heard, h.latest, h.sent, h.due, h.founded⟩

theorem Told.check (h : Told H v clock log) (hphase : v.phase = .top)
    (ht : nanoseconds clock ≤ nanoseconds t) : Told H (v.check H t) t log := by
  have hlater := h.later ht
  have hsent := h.sent (by rw [hphase]; intro h; cases h)
  unfold Supervision.check
  split
  · refine ⟨hlater.past, h.heard, h.latest, fun _ => hsent, ?_, h.founded⟩
    intro hsending
    dsimp only at hsending
    split at hsending
    · next hdue => exact ⟨of_decide_eq_true hdue, Int.le_refl _⟩
    · cases hsending
  · refine ⟨hlater.past, h.heard, h.latest, fun _ => hsent, ?_, h.founded⟩
    intro hsending
    cases hsending

/-- A note is added. -/
theorem Told.snoc {v' : Supervision} {note : Note} (h : Told H v clock log)
    (ht : nanoseconds clock ≤ nanoseconds t) (hfounded : Founded log t note)
    (hlast : v'.lastRxed = if note.hears then t else v.lastRxed)
    (hsent : v'.phase ≠ .sent → note ≠ .watchdog ∧ v.phase ≠ .sent ∧ v'.lastSent = v.lastSent)
    (hdue : v'.phase ≠ .sending) : Told H v' t (log ++ [(t, note)]) := by
  have hrxed : nanoseconds v.lastRxed ≤ nanoseconds v'.lastRxed := by
    obtain ⟨note', hmem, -⟩ := h.heard
    rw [hlast]
    split
    · exact Int.le_trans (h.past _ hmem) ht
    · exact Int.le_refl _
  refine ⟨?_, ?_, ?_, ?_, fun hphase => absurd hphase hdue, h.founded.snoc hfounded⟩
  · intro e he
    rcases List.mem_append.mp he with he | he
    · exact (h.later ht).past e he
    · cases List.mem_singleton.mp he
      exact Int.le_refl _
  · rw [hlast]
    split
    · next hhears => exact ⟨note, List.mem_append_right _ (List.mem_singleton_self _), hhears⟩
    · obtain ⟨note', hmem, hhears⟩ := h.heard
      exact ⟨note', List.mem_append_left _ hmem, hhears⟩
  · intro e he hhears
    rcases List.mem_append.mp he with he | he
    · exact Int.le_trans (h.latest e he hhears) hrxed
    · cases List.mem_singleton.mp he
      rw [hlast, if_pos hhears]
  · intro hphase b hb
    obtain ⟨hnote, hv, heq⟩ := hsent hphase
    rw [heq]
    rcases List.mem_append.mp hb with hb | hb
    · exact h.sent hv b hb
    · cases List.mem_singleton.mp hb
      exact absurd rfl hnote

/-- A watchdog is sent. -/
theorem Told.send (hH : H.Lawful) (h : Told H v clock log) (hphase : v.phase = .sending)
    (ht : nanoseconds clock ≤ nanoseconds t) :
    Told H (v.send t) t (log ++ [(t, .watchdog)]) := by
  have hfounded : Founded log t .watchdog := by
    obtain ⟨hdue, hnow⟩ := h.due hphase
    have hlate := hH.lt_of_le hdue
    simp only [watchdogPeriodSec] at hlate
    constructor
    · intro _ b hb
      have hsent := h.sent (by rw [hphase]; intro h; cases h) b hb
      omega
    · intro hstopped
      cases hstopped
    · intro hkept
      cases hkept
  exact h.snoc ht hfounded rfl (fun hsent => absurd rfl hsent) (by intro h; cases h)

/-- The date of a watchdog is kept. -/
theorem Told.stamp (h : Told H v clock log) (ht : nanoseconds clock ≤ nanoseconds t) :
    Told H (v.stamp H t) t log := by
  have hlater := h.later ht
  refine ⟨hlater.past, h.heard, h.latest, fun _ b hb => hlater.past _ hb, ?_, h.founded⟩
  intro hsending
  cases hsending

theorem Told.receive {k : Int} (h : Told H v clock log) (hphase : v.phase = .waiting k)
    (ht : nanoseconds clock ≤ nanoseconds t) (m : Message) :
    Told H (v.receive t m) t (log ++ [(t, .read m)]) := by
  have hlast : (v.receive t m).lastRxed = if (Note.read m).hears then t else v.lastRxed := by
    simp only [Supervision.receive, Note.hears, decide_eq_true_eq]
  have hfounded : Founded log t (.read m) := by constructor <;> intro h <;> cases h
  refine h.snoc ht hfounded hlast ?_ (by intro h; cases h)
  intro _
  refine ⟨?_, ?_, rfl⟩
  · intro hnote
    cases hnote
  · rw [hphase]
    intro hsent
    cases hsent

/-- The wait has failed. -/
theorem Told.fail (hH : H.Lawful) {k : Int} (h : Told H v clock log) (hphase : v.phase = .waiting k)
    (ht : nanoseconds clock ≤ nanoseconds t) :
    Told H (v.fail H t) t (log ++ [(t, .failed (watchdogMissed H t v.lastRxed))]) := by
  have hfounded : Founded log t (.failed (watchdogMissed H t v.lastRxed)) := by
    constructor
    · intro hwatchdog
      cases hwatchdog
    · intro hstopped e he hhears
      have hmissed : watchdogMissed H t v.lastRxed = true := by injection hstopped
      simp only [watchdogMissed, Bool.and_eq_true, decide_eq_true_eq] at hmissed
      have hlate := hH.lt_of_le hmissed.2
      have hlatest := h.latest e he hhears
      simp only [watchdogPeriodSec, toleranceSec] at hlate
      omega
    · intro hkept
      have hmissed : watchdogMissed H t v.lastRxed = false := by injection hkept
      have hperiod : decide (1 ≤ watchdogPeriodSec) = true := rfl
      rw [watchdogMissed, hperiod, Bool.true_and, decide_eq_false_iff_not] at hmissed
      have hearly := hH.lt_of_lt (Int.not_le.mp hmissed)
      obtain ⟨note, hmem, hhears⟩ := h.heard
      exact ⟨_, hmem, hhears, hearly⟩
  refine h.snoc ht hfounded rfl ?_ (by intro h; cases h)
  intro _
  refine ⟨?_, ?_, rfl⟩
  · intro hnote
    cases hnote
  · rw [hphase]
    intro hsent
    cases hsent

end Told

theorem Told.step (hH : H.Lawful) {s s' : Supervised σ} {e : Supervised.Event}
    (hs : ∀ p, Told H (s.side p) s.clock (s.log p))
    (h : (supervisedSystem X engine R H).step s e s') (p : Party) :
    Told H (s'.side p) s'.clock (s'.log p) := by
  obtain ⟨hclock, hstep⟩ := h
  -- the log of the side that moves, and that of the other one
  have hmoved : ∀ {d : Dialogue.State σ (Bytes × HoroDate) (Option Message)} {clock : HoroDate}
      {q : Party} {v : Supervision} {notes : List Note},
      Told H v e.date (s.log q ++ notes.map (e.date, ·)) →
      Told H (({ s with clock := clock, dialogue := d }.moved e.date q v notes).side p) e.date
        (({ s with clock := clock, dialogue := d }.moved e.date q v notes).log p) := by
    intro d clock q v notes hv
    rcases q.eq_or_eq_other p with rfl | rfl
    · simpa only [Supervised.moved, Function.update_self] using hv
    · simpa only [Supervised.moved, Function.update_of_ne p.other_ne.symm] using
        (hs p).later hclock
  cases hstep with
  | offer q payload => exact (hs p).later hclock
  | halt q =>
    refine hmoved ?_
    rw [List.map_nil, List.append_nil]
    exact ((hs q).later hclock).halt
  | @check t q hphase =>
    refine hmoved ?_
    rw [List.map_nil, List.append_nil]
    exact (hs q).check hphase hclock
  | @send t q B payload hphase hpayload => exact hmoved ((hs q).send hH hphase hclock)
  | @unsent t q B payload hphase hpayload => exact hmoved ((hs q).send hH hphase hclock)
  | @stamp t q hphase =>
    refine hmoved ?_
    rw [List.map_nil, List.append_nil]
    exact (hs q).stamp hclock
  | @read t q k payload m rest replies h taken lost hphase hinbox hreceives hperm =>
    exact hmoved ((hs q).receive hphase hclock m)
  | @unread t q k payload rest h hphase hinbox hreceives =>
    exact hmoved ((hs q).fail hH hphase hclock)
  | @fail t q k hphase => exact hmoved ((hs q).fail hH hphase hclock)

/-- **The log of a side**, in every run: watchdogs are more than 59 seconds apart. A wait that fails
stops the link if nothing was heard for 90 seconds, and none stops it before 89. -/
theorem supervised_log (hH : H.Lawful) {s : Supervised σ}
    (h : (supervisedSystem X engine R H).Reachable s) (p : Party)
    {before after : List (HoroDate × Note)} {t : HoroDate} {note : Note}
    (hlog : s.log p = before ++ (t, note) :: after) : Founded before t note := by
  have htold : ∀ p, Told H (s.side p) s.clock (s.log p) := by
    refine h.invariant ?_ fun s e s' hs hstep => Told.step hH hs hstep
    rintro s ⟨start, clock, host, rfl, hclock⟩ p
    exact Told.start (hclock p)
  exact (htold p).founded before (t, note) after hlog

/-! ## The dialogue of two loops

Dates and phases are forgotten, and what is left is the dialogue of `Gateway/Dialogue.lean`. -/

section Stamped

variable (X : RsmpExt) (engine : Bytes → σ → Int × σ) (R : SxlRegistry σ)

/-- A turn with a payload and its date, at any date. -/
def StampedReceives (h : σ) (payload : Bytes × HoroDate) (outcome : Option Message)
    (replies : List (Bytes × HoroDate)) (h' : σ) : Prop :=
  ∃ payloads, Receives X engine R h payload.1 outcome payloads h' ∧
    replies.map Prod.fst = payloads

end Stamped

/-- A step of a loop is one of the dialogue, or none. -/
theorem SupervisedStep.dialogue {s s' : Supervised σ} {e : Supervised.Event}
    (h : SupervisedStep X engine R H s e s') : s'.dialogue = s.dialogue ∨
      ∃ e', (Dialogue.system (StampedReceives X engine R)).step s.dialogue e' s'.dialogue := by
  have hstamped : ∀ (payloads : List Bytes) (t : HoroDate),
      (payloads.map (·, t)).map Prod.fst = payloads := by
    intro payloads t
    rw [List.map_map]
    exact List.map_id payloads
  cases h with
  | offer p payload => exact .inr ⟨_, .send p _⟩
  | halt p => exact .inl rfl
  | check hphase => exact .inl rfl
  | send hphase hpayload => exact .inr ⟨_, .send _ _⟩
  | unsent hphase hpayload => exact .inl rfl
  | stamp hphase => exact .inl rfl
  | @read t p k payload m rest replies h taken lost hphase hinbox hreceives hperm =>
    have hperm' : (replies.map (·, t)).Perm (taken.map (·, t) ++ lost.map (·, t)) := by
      rw [← List.map_append]
      exact hperm.map _
    exact .inr ⟨_, .treat hinbox ⟨replies, hreceives, hstamped replies t⟩ hperm'⟩
  | @unread t p k payload rest h hphase hinbox hreceives =>
    exact .inr ⟨_, .treat hinbox ⟨[], hreceives, rfl⟩ (List.Perm.refl ([] ++ []))⟩
  | fail hphase => exact .inl rfl

/-- Runs of two loops are runs of the dialogue. -/
theorem supervised_dialogue {s : Supervised σ}
    (h : (supervisedSystem X engine R H).Reachable s) :
    ∃ es, (Dialogue.system (StampedReceives X engine R)).Run es s.dialogue := by
  induction h with
  | init hs =>
    obtain ⟨start, clock, host, rfl, -⟩ := hs
    exact ⟨[], .nil ⟨host, rfl⟩⟩
  | step _ hstep ih =>
    obtain ⟨es, hrun⟩ := ih
    rcases hstep.2.dialogue with hsame | ⟨e', hstep'⟩
    · exact ⟨es, hsame ▸ hrun⟩
    · exact ⟨es ++ [e'], hrun.snoc hstep'⟩

/-- **Watchdogs are answered**: in every run of two loops, whatever their dates, the
acknowledgements of an identifier that a side has read, that are on their way to it or that the
link refused are as many as the messages of this identifier that the other side has read and that
are to be acknowledged, next to those that its application sent by itself. -/
theorem supervised_acknowledged (hX : X.Lawful) {s : Supervised σ}
    (h : (supervisedSystem X engine R H).Reachable s) (p : Party) (mId : Uuid) :
    s.dialogue.Balanced (fun payload => paid X mId payload.1) (due mId) p := by
  obtain ⟨es, hrun⟩ := supervised_dialogue h
  refine Dialogue.balanced_run ?_ hrun p
  rintro host payload outcome replies host' ⟨payloads, hreceives, rfl⟩
  have htotal : ∀ replies : List (Bytes × HoroDate),
      Dialogue.total (fun payload => paid X mId payload.1) replies =
        Dialogue.total (paid X mId) (replies.map Prod.fst) := by
    intro replies
    rw [Dialogue.total, Dialogue.total, List.map_map]
    rfl
  rw [htotal]
  exact hreceives.paid_eq hX mId

/-! ### A silent peer

The link is stopped by the first wait that ends after a minute and a half. -/

/-- Seconds are rounded down. -/
def wholeSeconds : Horodates where
  diffHorodateSec a b := (nanoseconds a - nanoseconds b) / 10 ^ 9
  addSecond a k := ⟨a.sec + k, a.nsec⟩

theorem wholeSeconds_lawful : wholeSeconds.Lawful := by
  constructor
  · intro a b
    rw [abs_lt]
    simp only [wholeSeconds]
    omega
  · intro a k
    simp only [wholeSeconds, nanoseconds]
    omega

/-- What `rsmp_message_new` makes the watchdog `2a` of. -/
def watchdogBirth : Birth := ⟨0x2a, ⟨1457012463, 789000000⟩, bareBirth.context⟩

/-- The right side hears nothing, and stops its link after 95 seconds. -/
theorem silent_run : ∃ s,
    (supervisedSystem watchedExt takesAll noCommand wholeSeconds).Reachable s ∧ s.log .right =
      [(⟨0, 0⟩, .started), (⟨1, 0⟩, .watchdog)] ++ (⟨95, 0⟩, .failed true) :: [] := by
  obtain ⟨_, _, _, _, hpayload, -⟩ := watchdog_exchange
  have hstart : (supervisedSystem watchedExt takesAll noCommand wholeSeconds).Reachable
      (Supervised.start wholeSeconds (fun _ => ⟨0, 0⟩) ⟨0, 0⟩ fun _ => ()) :=
    .init ⟨_, _, _, rfl, fun _ => Int.le_refl _⟩
  have hcheck := hstart.next ⟨⟨0, 0⟩, .right, .check⟩ ⟨by decide, .check rfl⟩
  have hsend := hcheck.next ⟨⟨1, 0⟩, .right, .send watchdogBirth false⟩
    ⟨by decide, .unsent rfl hpayload⟩
  have hstamp := hsend.next ⟨⟨1, 0⟩, .right, .stamp⟩ ⟨by decide, .stamp rfl⟩
  have hfail := hstamp.next ⟨⟨95, 0⟩, .right, .fail⟩ ⟨by decide, .fail rfl⟩
  exact ⟨_, hfail, rfl⟩

theorem supervised_log_silent : ∃ s,
    (supervisedSystem watchedExt takesAll noCommand wholeSeconds).Reachable s ∧
      s.log .right = [(⟨0, 0⟩, .started), (⟨1, 0⟩, .watchdog)] ++ [(⟨95, 0⟩, .failed true)] ∧
      Founded [(⟨0, 0⟩, .started), (⟨1, 0⟩, .watchdog)] ⟨95, 0⟩ (.failed true) := by
  obtain ⟨s, hs, hlog⟩ := silent_run
  exact ⟨s, hs, hlog, supervised_log wholeSeconds_lawful hs .right hlog⟩

end RsmpGateway.Gateway
