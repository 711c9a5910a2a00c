import RsmpGateway.Gateway.Supervision

/-!
# Two gateways that keep their link

The loops of both gateways are prompt, the link takes their watchdogs, and no message waits for
long. Then neither of them misses a watchdog (`link_kept`), in whatever order their steps come.

Each direction of the link is a line of heartbeats (`Lib/Heartbeat.lean`): one side beats at
least so often, a beat is on its way for so long at most, and the other side gives up when it has
heard nothing for a time that is longer than both together. The work is in showing that the loop
of `external_receive` beats, whatever it is in the middle of: a wait, an answer, a payload that
comes.

What is asked of the runs is in `Prompt` and `Act.Regular`. Nothing is asked of the payloads,
which may come at any time and be of any kind.
-/

namespace RsmpGateway.Gateway

open RsmpGateway.Lib RsmpGateway.Rsmp
open RsmpGateway.Auth (HoroDate)
open RsmpGateway.Cyber (nanoseconds)

variable {σ : Type} {X : RsmpExt} {engine : Bytes → σ → Int × σ} {R : SxlRegistry σ}
  {H : Horodates}

/-- The payload is read as a watchdog, whoever reads it. -/
def Beat (X : RsmpExt) (payload : Bytes) : Prop :=
  ∀ B, ∃ m, rsmpJsonPayload2msg X B payload = .msg m ∧ m.1 = .watchdog

theorem beat_of_msg {B : Birth} {payload : Bytes} {m : Message}
    (h : rsmpJsonPayload2msg X B payload = .msg m) (hm : m.1 = .watchdog) : Beat X payload := by
  intro B'
  obtain ⟨jobj, hheader⟩ := hasType_of_msg h
  have hdecodes := (hheader.msg_iff B).mp ⟨m, h⟩
  obtain ⟨m', hmsg⟩ := (hheader.msg_iff B').mpr hdecodes
  obtain ⟨jobj', hheader'⟩ := hasType_of_msg hmsg
  exact ⟨m', hmsg, (hheader.unique hheader').2.trans hm⟩

/-- The host reads its date. -/
def Readable (X : RsmpExt) (B : Birth) : Prop := tsFromString X (tsToString X B.now) ≠ none

/-! ### The payload of a watchdog

A watchdog that was made and printed is read as one, by any engine, when the host can read its
date back. -/

/-- A value that is kept is decoded. -/
theorem accepts_toJson (hX : X.Lawful) {c : Codec} (hc : c.WellNamed) {t : MsgType} {x : c.Ty}
    (hx : c.Sound t x) (hkept : c.Kept X x) : c.Accepts X (c.toJson X x) := by
  obtain ⟨x', hx', -⟩ := (jsonExtractField_toJson hX hc hx c.zero_unsized).mpr hkept
  intro herror
  rw [hx'] at herror
  cases herror

theorem Readable.accepts {B : Birth} (h : Readable X B) :
    Codec.ts.Accepts X (.str (tsToString X B.now)) := by
  intro herror
  have hdecode : jsonExtractField X .ts (.str (tsToString X B.now)) Codec.ts.zero =
      tsDecode X (.string (some (tsToString X B.now))) Codec.ts.zero := rfl
  rw [hdecode, tsDecode] at herror
  split at herror
  · cases herror
  · next hnone => exact h hnone

/-- A new watchdog is a beat. -/
theorem beat_of_new (hX : X.Lawful) {B : Birth} (hB : Readable X B) {payload : Bytes}
    (hpayload : rsmpJsonMsg2payload X ⟨.watchdog, MsgType.new B .watchdog⟩ = .ok (some payload)) :
    Beat X payload := by
  have hdescribed : MsgType.watchdog.Described := rfl
  obtain ⟨-, jobj, hparse, hhas⟩ := Message.msg2payload_some hX hdescribed hpayload
  have hmembers : Message.members X ⟨.watchdog, MsgType.new B .watchdog⟩ =
      [(ascii "mType", .str mTypeValue), (ascii "type", .str (MsgType.watchdog).lib),
        (ascii "mId", .str (X.uuidUnparse B.mId)), (ascii "wTs", .str (tsToString X B.now))] := rfl
  rw [hmembers] at hhas
  have hmType := hhas _ (.head _)
  have htype := hhas _ (.tail _ (.head _))
  have hmId := hhas _ (.tail _ (.tail _ (.head _)))
  have hwTs := hhas _ (.tail _ (.tail _ (.tail _ (.head _))))
  obtain ⟨jobj', hheader⟩ := hasType_of_get hparse hmType htype
  obtain rfl : jobj' = jobj := by simpa [hparse] using hheader.parse.symm
  have hget : ∀ {key s : Bytes}, jobj'.get? key = some (.str s) →
      rsmpJsonObjectGet jobj' key = some (.str s) := by
    intro key s hkey
    rw [rsmpJsonObjectGet, hkey]
  have hdecodes : watchdogDesc.Decodes X jobj' := by
    refine ⟨⟨_, hget hmType, ?_⟩, ⟨_, hget htype, ?_⟩, ⟨_, hget hmId, ?_⟩, ⟨_, hget hwTs, ?_⟩,
      trivial⟩
    · exact accepts_toJson (c := .mType) (t := .watchdog) (x := ()) hX trivial trivial trivial
    · exact accepts_toJson (c := .type) (x := .watchdog) hX trivial rfl trivial
    · exact accepts_toJson (c := .uuid) (t := .watchdog) (x := B.mId) hX trivial trivial trivial
    · exact hB.accepts
  have hempty : watchdogDesc.EmptyV jobj' :=
    ⟨fun _ _ => trivial, fun _ _ => trivial, fun _ _ => trivial, fun _ _ => trivial, trivial⟩
  obtain ⟨m, hmsg⟩ := (hheader.msg_iff B).mpr ⟨hdescribed, hdecodes, hempty⟩
  obtain ⟨jobj'', hheader'⟩ := hasType_of_msg hmsg
  exact beat_of_msg hmsg (hheader.unique hheader').2

/-- A message that was read is a watchdog exactly when its payload is a beat. -/
theorem Receives.watchdog_iff {h h' : σ} {payload : Bytes} {m : Message} {payloads : List Bytes}
    (hreceives : Receives X engine R h payload (some m) payloads h') :
    m.1 = .watchdog ↔ Beat X payload := by
  cases hreceives with
  | @treated B _ _ _ _ _ _ _ hmsg _ =>
    constructor
    · exact beat_of_msg hmsg
    · intro hbeat
      obtain ⟨m', hmsg', hm'⟩ := hbeat B
      rw [hmsg] at hmsg'
      cases hmsg'
      exact hm'

theorem Receives.not_beat {h h' : σ} {payload : Bytes} {payloads : List Bytes}
    (hreceives : Receives X engine R h payload none payloads h') : ¬ Beat X payload := by
  cases hreceives with
  | @unread B _ _ hnull =>
    intro hbeat
    obtain ⟨m, hmsg, -⟩ := hbeat B
    rw [hnull] at hmsg
    cases hmsg

/-! ## In time

A step of a loop has a date by which it comes; a wait has its time-out. The link may refuse any
payload but a watchdog. -/

section Prompt

variable (X : RsmpExt) (engine : Bytes → σ → Int × σ) (R : SxlRegistry σ) (H : Horodates)
  (δ delay : Int)

/-- When the loop has moved on: what is not a wait takes no more than `δ`, and a wait no more than
that after its time-out. -/
def Supervision.deadline (v : Supervision) : Int :=
  match v.phase with
  | .waiting toSec => nanoseconds v.since + toSec * 10 ^ 9 + δ
  | _ => nanoseconds v.since + δ

/-- No application stops its link; the link takes the watchdogs, whose dates are read. -/
def Act.Regular : Act → Prop
  | .halt => False
  | .send B taken => taken = true ∧ Readable X B
  | _ => True

/-- The step comes in time: for both loops, and for the messages on their way. -/
structure Prompt (s : Supervised σ) (e : Supervised.Event) : Prop where
  act : e.act.Regular X
  turn : ∀ p, nanoseconds e.date ≤ (s.side p).deadline δ
  line : ∀ p, ∀ m ∈ s.dialogue.inbox p, nanoseconds e.date ≤ nanoseconds m.2 + delay

/-- The runs that are in time, from when both loops have started. -/
def promptSystem : System (Supervised σ) Supervised.Event where
  init s := (supervisedSystem X engine R H).init s ∧
    ∀ p, nanoseconds s.clock ≤ (s.side p).deadline δ
  step s e s' := (supervisedSystem X engine R H).step s e s' ∧ Prompt X δ delay s e

end Prompt

/-- They are runs. -/
theorem supervised_of_prompt {δ delay : Int} {s : Supervised σ}
    (h : (promptSystem X engine R H δ delay).Reachable s) :
    (supervisedSystem X engine R H).Reachable s := by
  induction h with
  | init hs => exact .init hs.1
  | step _ hstep ih => exact .step ih hstep.1

/-! ## The loop that sends

`OnTime` says where a loop can be, by the date of its last beat. A turn may begin just before the
minute is over, wait once more, and answer what has come, before it looks at the date again. -/

variable {δ delay : Int}

/-- The longest silence: a minute, a second that the dates are rounded by, and what the steps of
a turn may take. -/
def longestSilence (δ : Int) : Int := 61 * 10 ^ 9 + 6 * δ

/-- Where a loop is, by the date of the last beat on its line. -/
def OnTime (δ : Int) (v : Supervision) (beat : Int) : Prop :=
  match v.phase with
  | .top => nanoseconds v.lastSent ≤ beat + δ ∧
    nanoseconds v.since ≤ nanoseconds v.lastSent + 61 * 10 ^ 9 + 3 * δ
  | .sending => nanoseconds v.lastSent ≤ beat + δ ∧
    nanoseconds v.since ≤ nanoseconds v.lastSent + 61 * 10 ^ 9 + 4 * δ ∧
    nanoseconds v.now = nanoseconds v.since
  | .sent => nanoseconds v.since ≤ beat ∧ nanoseconds v.since ≤ nanoseconds v.now + δ
  | .waiting toSec => nanoseconds v.lastSent ≤ beat + δ ∧
    nanoseconds v.since + toSec * 10 ^ 9 ≤ nanoseconds v.lastSent + 61 * 10 ^ 9 + 2 * δ

section OnTime

variable {v : Supervision} {t : HoroDate} {b b' : Int}

/-! ### Phase by phase

The bounds grow by a `δ` with each step that the loop takes between two beats. -/

theorem OnTime.mono (h : OnTime δ v b) (hb : b ≤ b') : OnTime δ v b' := by
  cases hphase : v.phase <;> simp only [OnTime, hphase] at h ⊢ <;> omega

/-- A loop in time is not silent for long. -/
theorem OnTime.silence (hδ : 0 ≤ δ) (h : OnTime δ v b) (ht : nanoseconds t ≤ v.deadline δ) :
    nanoseconds t ≤ b + longestSilence δ := by
  cases hphase : v.phase <;>
    simp only [OnTime, Supervision.deadline, longestSilence, hphase] at h ht ⊢ <;> omega

theorem toSec_le (hH : H.Lawful) (now since : HoroDate) :
    toSec H now since * 10 ^ 9 ≤
      max (61 * 10 ^ 9 - (nanoseconds now - nanoseconds since)) (10 ^ 9) := by
  have hdiff := abs_lt.mp (hH.diff now since)
  unfold toSec watchdogPeriodSec
  omega

theorem OnTime.check (hH : H.Lawful) (hδ : 0 ≤ δ) (h : OnTime δ v b) (hphase : v.phase = .top)
    (hrunning : v.isRunning = true) (ht : nanoseconds t ≤ v.deadline δ) :
    OnTime δ (v.check H t) b := by
  simp only [OnTime, Supervision.deadline, hphase] at h ht
  rw [Supervision.check, if_pos hrunning]
  by_cases hdue : watchdogDue H t v.lastSent = true
  · rw [if_pos hdue]
    exact ⟨h.1, by dsimp only; omega, rfl⟩
  · rw [if_neg hdue]
    have hearly : H.diffHorodateSec t v.lastSent < 60 := by
      rw [watchdogDue, watchdogPeriodSec, decide_eq_true_eq] at hdue
      omega
    have hsince := hH.lt_of_lt hearly
    have hsec := toSec_le hH t v.lastSent
    exact ⟨h.1, by dsimp only; omega⟩

theorem OnTime.send (h : OnTime δ v b) (hphase : v.phase = .sending)
    (ht : nanoseconds t ≤ v.deadline δ) (hb : nanoseconds t ≤ b') : OnTime δ (v.send t) b' := by
  simp only [OnTime, Supervision.deadline, hphase] at h ht
  exact ⟨hb, by dsimp only [Supervision.send]; omega⟩

theorem OnTime.stamp (hH : H.Lawful) (hδ : 0 ≤ δ) (h : OnTime δ v b) (hphase : v.phase = .sent)
    (ht : nanoseconds t ≤ v.deadline δ) : OnTime δ (v.stamp H t) b := by
  simp only [OnTime, Supervision.deadline, hphase] at h ht
  have hsec := toSec_le hH v.now t
  constructor <;> dsimp only [Supervision.stamp] <;> omega

theorem OnTime.turn {k : Int} (h : OnTime δ v b) (hphase : v.phase = .waiting k)
    (ht : nanoseconds t ≤ v.deadline δ) {v' : Supervision} (hlast : v'.lastSent = v.lastSent)
    (hphase' : v'.phase = .top) (hsince : v'.since = t) : OnTime δ v' b := by
  simp only [OnTime, Supervision.deadline, hphase] at h ht
  simp only [OnTime, hphase', hlast, hsince]
  omega

end OnTime

/-! ## A direction of the link

The beats that are on their way and the loop that makes them, seen from the side that waits for
them. -/

open Classical in
/-- The dates of the beats among the messages. -/
noncomputable def beatLine (X : RsmpExt) (messages : List (Bytes × HoroDate)) : List Int :=
  (messages.filter fun m => Beat X m.1).map fun m => nanoseconds m.2

theorem beatLine_append (messages messages' : List (Bytes × HoroDate)) :
    beatLine X (messages ++ messages') = beatLine X messages ++ beatLine X messages' := by
  simp only [beatLine, List.filter_append, List.map_append]

theorem beatLine_cons_of_beat {m : Bytes × HoroDate} {rest : List (Bytes × HoroDate)}
    (h : Beat X m.1) : beatLine X (m :: rest) = nanoseconds m.2 :: beatLine X rest := by
  simp only [beatLine, List.filter_cons, h, decide_true, if_true, List.map_cons]

theorem beatLine_cons_of_not {m : Bytes × HoroDate} {rest : List (Bytes × HoroDate)}
    (h : ¬ Beat X m.1) : beatLine X (m :: rest) = beatLine X rest := by
  simp only [beatLine, List.filter_cons, h, decide_false, Bool.false_eq_true, if_false]

/-- What is sent at one date. -/
theorem beatLine_sent (payloads : List Bytes) (t : HoroDate) :
    ∃ beats, beatLine X (payloads.map (·, t)) = List.replicate beats (nanoseconds t) ∧
      ((∃ payload ∈ payloads, Beat X payload) → beats ≠ 0) := by
  induction payloads with
  | nil =>
    refine ⟨0, rfl, ?_⟩
    rintro ⟨payload, hmem, -⟩
    cases hmem
  | cons payload payloads ih =>
    obtain ⟨beats, hline, hbeats⟩ := ih
    by_cases hbeat : Beat X payload
    · refine ⟨beats + 1, ?_, fun _ => Nat.succ_ne_zero beats⟩
      rw [List.map_cons, beatLine_cons_of_beat hbeat, hline, List.replicate_succ]
    · refine ⟨beats, ?_, ?_⟩
      · rw [List.map_cons, beatLine_cons_of_not hbeat, hline]
      · rintro ⟨payload', hmem, hbeat'⟩
        rcases List.mem_cons.mp hmem with rfl | hmem
        · exact absurd hbeat' hbeat
        · exact hbeats ⟨payload', hmem, hbeat'⟩

/-- The messages on their way to a side, and the loop of the other one, as heartbeats. -/
structure Follows (X : RsmpExt) (δ delay : Int) (clock : HoroDate)
    (inbox : List (Bytes × HoroDate)) (lastRxed : HoroDate) (sender : Supervision)
    (beats : Heartbeat.State) : Prop where
  reachable : (Heartbeat.timely (longestSilence δ) delay).Reachable beats
  clock : beats.clock = nanoseconds clock
  line : beats.line = beatLine X inbox
  heard : beats.heard = nanoseconds lastRxed
  sender : OnTime δ sender beats.last

section Follows

variable {clock lastRxed t : HoroDate} {inbox : List (Bytes × HoroDate)} {sender : Supervision}
  {beats : Heartbeat.State}

/-! ### Beats on their way

A beat is heard at most `delay` after it was sent. So the last one that was heard, or the first
one that is on its way, is not long ago. -/

theorem Follows.timely (hδ : 0 ≤ δ) (h : Follows X δ delay clock inbox lastRxed sender beats)
    (hturn : nanoseconds t ≤ sender.deadline δ)
    (hline : ∀ m ∈ inbox, nanoseconds t ≤ nanoseconds m.2 + delay) :
    Heartbeat.Timely (longestSilence δ) delay beats (nanoseconds t) := by
  refine ⟨h.sender.silence hδ hturn, ?_⟩
  intro b hb
  rw [h.line, beatLine] at hb
  obtain ⟨m, hm, rfl⟩ := List.mem_map.mp hb
  exact hline m (List.mem_of_mem_filter hm)

/-- The other side has sent payloads, or none. -/
theorem Follows.append (hδ : 0 ≤ δ) (h : Follows X δ delay clock inbox lastRxed sender beats)
    (hclock : nanoseconds clock ≤ nanoseconds t)
    (htimely : Heartbeat.Timely (longestSilence δ) delay beats (nanoseconds t))
    {payloads : List Bytes} {sender' : Supervision}
    (hsender : ∀ b, beats.last ≤ b → ((∃ payload ∈ payloads, Beat X payload) → nanoseconds t ≤ b) →
      OnTime δ sender' b) :
    ∃ beats', Follows X δ delay t (inbox ++ payloads.map (·, t)) lastRxed sender' beats' := by
  obtain ⟨count, hcount, hbeat⟩ := beatLine_sent (X := X) payloads t
  have hstep : (Heartbeat.timely (longestSilence δ) delay).step beats
      (.send (nanoseconds t) count) _ := ⟨.send count (h.clock ▸ hclock), htimely⟩
  have hlast : beats.last ≤ nanoseconds t := by
    have hgap : 0 ≤ longestSilence δ := by
      unfold longestSilence
      omega
    have := (Heartbeat.steady_reachable hgap h.reachable).last_le
    rw [h.clock] at this
    exact Int.le_trans this hclock
  refine ⟨_, h.reachable.step hstep, rfl, ?_, h.heard, ?_⟩
  · rw [beatLine_append, hcount, h.line]
  · rw [Heartbeat.last_send]
    split
    · next hzero => exact hsender _ (Int.le_refl _) fun hex => absurd hzero (hbeat hex)
    · exact hsender _ hlast fun _ => Int.le_refl _

/-- The side has taken a payload. -/
theorem Follows.take {m : Bytes × HoroDate} {rest : List (Bytes × HoroDate)}
    (h : Follows X δ delay clock (m :: rest) lastRxed sender beats)
    (hclock : nanoseconds clock ≤ nanoseconds t)
    (htimely : Heartbeat.Timely (longestSilence δ) delay beats (nanoseconds t))
    {lastRxed' : HoroDate} (hbeat : Beat X m.1 → lastRxed' = t)
    (hother : ¬ Beat X m.1 → lastRxed' = lastRxed) :
    ∃ beats', Follows X δ delay t rest lastRxed' sender beats' := by
  have hclock' : beats.clock ≤ nanoseconds t := h.clock ▸ hclock
  by_cases hm : Beat X m.1
  · have hline := h.line
    rw [beatLine_cons_of_beat hm] at hline
    have hstep : (Heartbeat.timely (longestSilence δ) delay).step beats
        (.hear (nanoseconds t)) _ := ⟨.hear hclock' hline, htimely⟩
    have hsender := h.sender
    rw [Heartbeat.State.last, hline, List.getLastD_cons] at hsender
    refine ⟨_, h.reachable.step hstep, rfl, rfl, ?_, hsender⟩
    rw [hbeat hm]
  · have hline := h.line
    rw [beatLine_cons_of_not hm] at hline
    have hstep : (Heartbeat.timely (longestSilence δ) delay).step beats
        (.send (nanoseconds t) 0) _ := ⟨.send 0 hclock', htimely⟩
    refine ⟨_, h.reachable.step hstep, rfl, ?_, ?_, ?_⟩
    · rw [List.replicate_zero, List.append_nil, hline]
    · rw [hother hm]
      exact h.heard
    · rw [Heartbeat.last_send, if_pos rfl]
      exact h.sender

end Follows

/-! ## Both directions

A step moves one side. It is a step of one line as the side that beats, and of the other as the
side that listens. -/

/-- Both links run, and each side follows the beats of the other one. -/
structure Alive (X : RsmpExt) (δ delay : Int) (s : Supervised σ) : Prop where
  running : ∀ p, (s.side p).isRunning = true
  follows : ∀ p, ∃ beats, Follows X δ delay s.clock (s.dialogue.inbox p) (s.side p).lastRxed
    (s.side p.other) beats

section Alive

variable {s : Supervised σ} {t : HoroDate} {q : Party}

theorem Alive.start (hH : H.Lawful) (hδ : 0 ≤ δ) {start : Party → HoroDate} {clock : HoroDate}
    {host : Party → σ} (hstart : ∀ p, nanoseconds (start p) ≤ nanoseconds clock)
    (hclock : ∀ p, nanoseconds clock ≤ nanoseconds (start p) + δ) :
    Alive X δ delay (Supervised.start H start clock host) := by
  refine ⟨fun _ => rfl, fun p => ?_⟩
  refine ⟨⟨nanoseconds clock, nanoseconds (start p), [], nanoseconds (start p)⟩,
    .init ⟨rfl, Int.le_refl _, hstart p⟩, rfl, rfl, rfl, ?_⟩
  have hp := hclock p
  have hother := hstart p.other
  have hsent := hH.add (start p.other) (0 - watchdogPeriodSec)
  simp only [OnTime, Supervised.start, Supervision.start, Heartbeat.State.last, List.getLastD_nil,
    watchdogPeriodSec] at hsent ⊢
  omega

/-- One side has moved. -/
theorem Alive.moved (hs : Alive X δ delay s) {v : Supervision} {notes : List Note}
    {clock : HoroDate} {d : Dialogue.State σ (Bytes × HoroDate) (Option Message)}
    (hrunning : v.isRunning = true)
    (hself : ∃ beats, Follows X δ delay t (d.inbox q) v.lastRxed (s.side q.other) beats)
    (hother : ∃ beats, Follows X δ delay t (d.inbox q.other) (s.side q.other).lastRxed v beats) :
    Alive X δ delay
      (({ s with clock := clock, dialogue := d } : Supervised σ).moved t q v notes) := by
  have hne := q.other_ne
  refine ⟨fun p => ?_, fun p => ?_⟩
  · rcases p.eq_or_eq_other q with rfl | rfl
    · simpa only [Supervised.moved, Function.update_self] using hrunning
    · simpa only [Supervised.moved, Function.update_of_ne hne] using hs.running q.other
  · rcases p.eq_or_eq_other q with rfl | rfl
    · simpa only [Supervised.moved, Function.update_self, Function.update_of_ne hne] using hself
    · simpa only [Supervised.moved, Function.update_self, Function.update_of_ne hne,
        Party.other_other] using hother

variable (hδ : 0 ≤ δ) (hs : Alive X δ delay s) (hclock : nanoseconds s.clock ≤ nanoseconds t)
  (hturn : ∀ p, nanoseconds t ≤ (s.side p).deadline δ)
  (hline : ∀ p, ∀ m ∈ s.dialogue.inbox p, nanoseconds t ≤ nanoseconds m.2 + delay)
include hδ hs hclock hturn hline

/-- What the other side sends, or not, and where its loop is then. -/
theorem Alive.sends (p : Party) (payloads : List Bytes) {v : Supervision}
    (hv : ∀ b b', OnTime δ (s.side p.other) b → b ≤ b' →
      ((∃ payload ∈ payloads, Beat X payload) → nanoseconds t ≤ b') → OnTime δ v b') :
    ∃ beats, Follows X δ delay t (s.dialogue.inbox p ++ payloads.map (·, t))
      (s.side p).lastRxed v beats := by
  obtain ⟨beats, hfollows⟩ := hs.follows p
  exact hfollows.append hδ hclock (hfollows.timely hδ (hturn p.other) (hline p))
    fun b hb hbeat => hv _ b hfollows.sender hb hbeat

/-- Nothing is sent. -/
theorem Alive.waits (p : Party) {v : Supervision}
    (hv : ∀ b, OnTime δ (s.side p.other) b → OnTime δ v b) :
    ∃ beats, Follows X δ delay t (s.dialogue.inbox p) (s.side p).lastRxed v beats := by
  have hsends := hs.sends hδ hclock hturn hline p [] (v := v)
    fun b b' hb hle _ => hv b' (hb.mono hle)
  rwa [List.map_nil, List.append_nil] at hsends

/-- A payload is taken. -/
theorem Alive.takes {m : Bytes × HoroDate} {rest : List (Bytes × HoroDate)} (lastRxed : HoroDate)
    (hinbox : s.dialogue.inbox q = m :: rest) (hbeat : Beat X m.1 → lastRxed = t)
    (hother : ¬ Beat X m.1 → lastRxed = (s.side q).lastRxed) :
    ∃ beats, Follows X δ delay t rest lastRxed (s.side q.other) beats := by
  obtain ⟨beats, hfollows⟩ := hs.follows q
  have htimely := hfollows.timely hδ (hturn q.other) (hline q)
  rw [hinbox] at hfollows
  exact hfollows.take hclock htimely hbeat hother

omit hclock in
/-- A side that waits without success has heard a watchdog. -/
theorem Alive.not_missed (hH : H.Lawful) (hdelay : 0 ≤ delay)
    (hbound : delay + 6 * δ ≤ 28 * 10 ^ 9) (p : Party) :
    watchdogMissed H t (s.side p).lastRxed = false := by
  obtain ⟨beats, hfollows⟩ := hs.follows p
  have hgap : 0 ≤ longestSilence δ := by
    unfold longestSilence
    omega
  have hrecent := Heartbeat.recent_reachable hgap hdelay hfollows.reachable
    (hfollows.timely hδ (hturn p.other) (hline p))
  rw [hfollows.heard, longestSilence] at hrecent
  rw [watchdogMissed, Bool.and_eq_false_iff, decide_eq_false_iff_not, decide_eq_false_iff_not]
  refine .inr fun hmissed => ?_
  have hlate := hH.lt_of_le hmissed
  simp only [watchdogPeriodSec, toleranceSec] at hlate
  omega

end Alive

theorem Alive.step (hX : X.Lawful) (hH : H.Lawful) (hδ : 0 ≤ δ) (hdelay : 0 ≤ delay)
    (hbound : delay + 6 * δ ≤ 28 * 10 ^ 9) {s s' : Supervised σ} {e : Supervised.Event}
    (hs : Alive X δ delay s) (h : (promptSystem X engine R H δ delay).step s e s') :
    Alive X δ delay s' := by
  obtain ⟨⟨hclock, hstep⟩, hact, hturn, hline⟩ := h
  -- the loop of the other side has not moved
  have hwaits := fun p => hs.waits hδ hclock hturn hline p (v := s.side p.other) fun _ hb => hb
  -- the loop of the side has moved, and nothing was sent
  have hmoves := fun (p : Party) (v : Supervision)
      (hv : ∀ b, OnTime δ (s.side p) b → OnTime δ v b) =>
    hs.waits hδ hclock hturn hline p.other (v := v) (by rwa [Party.other_other])
  cases hstep with
  | offer q payload =>
    have hoffer := hs.sends hδ hclock hturn hline q.other [payload]
      (v := s.side q) (by rw [Party.other_other]; exact fun b b' hb hle _ => hb.mono hle)
    have hne := q.other_ne
    refine ⟨hs.running, fun p => ?_⟩
    rcases p.eq_or_eq_other q with rfl | rfl
    · simpa only [Supervised.sent, Dialogue.State.send, Function.update_of_ne hne.symm] using
        hwaits p
    · simpa only [Supervised.sent, Dialogue.State.send, Function.update_self,
        Party.other_other, List.map_cons, List.map_nil] using hoffer
  | halt q => cases hact
  | @check t q hphase =>
    have hrxed : ((s.side q).check H t).lastRxed = (s.side q).lastRxed := by
      rw [Supervision.check, if_pos (hs.running q)]
    refine hs.moved ?_ (hrxed ▸ hwaits q) (hmoves q _ fun b hb => ?_)
    · rw [Supervision.check, if_pos (hs.running q)]
      exact hs.running q
    · exact hb.check hH hδ hphase (hs.running q) (hturn q)
  | @send t q B payload hphase hpayload =>
    have hbeat := beat_of_new hX hact.2 hpayload
    have hsend := hs.sends hδ hclock hturn hline q.other [payload]
      (v := (s.side q).send t) (by
        rw [Party.other_other]
        exact fun b b' hb _ ht =>
          hb.send hphase (hturn q) (ht ⟨payload, List.mem_singleton_self _, hbeat⟩))
    have hne := q.other_ne
    refine hs.moved (hs.running q) ?_ ?_
    · change ∃ beats, Follows X δ delay t _ (s.side q).lastRxed _ beats
      simpa only [Dialogue.State.send, Function.update_of_ne hne.symm] using hwaits q
    · simpa only [Dialogue.State.send, Function.update_self, List.map_cons, List.map_nil] using
        hsend
  | @unsent t q B payload hphase hpayload => exact absurd hact.1 Bool.false_ne_true
  | @stamp t q hphase =>
    exact hs.moved (hs.running q) (hwaits q)
      (hmoves q _ fun b hb => hb.stamp hH hδ hphase (hturn q))
  | @read t q k payload m rest replies h taken lost hphase hinbox hreceives hperm =>
    have hne := q.other_ne
    have hturned : ∀ b, OnTime δ (s.side q) b → OnTime δ ((s.side q).receive t m) b :=
      fun b hb => hb.turn hphase (hturn q) rfl rfl rfl
    have hsend := hs.sends hδ hclock hturn hline q.other taken
      (v := (s.side q).receive t m) (by
        rw [Party.other_other]
        exact fun b b' hb hle _ => hturned b' (hb.mono hle))
    have htake := hs.takes hδ hclock hturn hline ((s.side q).receive t m).lastRxed hinbox
      (fun hbeat => if_pos (hreceives.watchdog_iff.mpr hbeat))
      (fun hbeat => if_neg fun hm => hbeat (hreceives.watchdog_iff.mp hm))
    refine hs.moved (hs.running q) ?_ ?_
    · simpa only [Dialogue.State.reply, Function.update_of_ne hne.symm, Function.update_self] using
        htake
    · simpa only [Dialogue.State.reply, Function.update_self] using hsend
  | @unread t q k payload rest h hphase hinbox hreceives =>
    have hne := q.other_ne
    have hmissed := hs.not_missed hδ hturn hline hH hdelay hbound q
    have htake := hs.takes hδ hclock hturn hline (s.side q).lastRxed hinbox
      (fun hbeat => absurd hbeat hreceives.not_beat) (fun _ => rfl)
    refine hs.moved ?_ ?_ ?_
    · change ((s.side q).isRunning && !watchdogMissed H t (s.side q).lastRxed) = true
      rw [hs.running q, hmissed]
      rfl
    · change ∃ beats, Follows X δ delay t _ (s.side q).lastRxed _ beats
      simpa only [Dialogue.State.reply, Function.update_of_ne hne.symm, Function.update_self] using
        htake
    · change ∃ beats, Follows X δ delay t _ _ ((s.side q).fail H t) beats
      simpa only [Dialogue.State.reply, Function.update_self, List.map_nil, List.append_nil] using
        hmoves q ((s.side q).fail H t) fun b hb => hb.turn hphase (hturn q) rfl rfl rfl
  | @fail t q k hphase =>
    have hmissed := hs.not_missed hδ hturn hline hH hdelay hbound q
    refine hs.moved ?_ (hwaits q)
      (hmoves q _ fun b hb => hb.turn hphase (hturn q) rfl rfl rfl)
    change ((s.side q).isRunning && !watchdogMissed H t (s.side q).lastRxed) = true
    rw [hs.running q, hmissed]
    rfl

/-- **The link is kept**, in every run in time, if the delay and what the steps of a turn may take
leave the tolerance: neither side ever stops it. -/
theorem link_kept (hX : X.Lawful) (hH : H.Lawful) (hδ : 0 ≤ δ) (hdelay : 0 ≤ delay)
    (hbound : delay + 6 * δ ≤ 28 * 10 ^ 9) {s : Supervised σ}
    (h : (promptSystem X engine R H δ delay).Reachable s) (p : Party) :
    (s.side p).isRunning = true := by
  have halive : Alive X δ delay s := by
    refine h.invariant ?_ fun s e s' hs hstep => hs.step hX hH hδ hdelay hbound hstep
    rintro s ⟨⟨start, clock, host, rfl, hstart⟩, hclock⟩
    exact .start hH hδ hstart hclock
  exact halive.running p

/-! ### A second of delay

A second for each step and a second on the way are well inside the tolerance. -/

theorem watchdogBirth_readable : Readable watchedExt watchdogBirth := by
  have hkept : TimeKept watchedExt ⟨1457012463, 789000000⟩ :=
    ⟨fun _ => ⟨by decide, by decide, Zone.utc_reads _⟩,
      fun h => absurd (⟨by decide, by decide⟩ : Coder.HoroDate.InRange ⟨1457012463, 789000000⟩) h⟩
  intro hnone
  have hsome := (tsFromString_tsToString watchedExt_lawful ⟨1457012463, 789000000⟩).mpr hkept
  change tsFromString watchedExt (tsToString watchedExt ⟨1457012463, 789000000⟩) = none at hnone
  rw [hnone] at hsome
  cases hsome

/-- The runs with a second for each step and a second of delay. -/
abbrev secondSystem : System (Supervised Unit) Supervised.Event :=
  promptSystem watchedExt takesAll noCommand wholeSeconds (10 ^ 9) (10 ^ 9)

/-- Both sides send their watchdogs, and the right side reads that of the left one. -/
theorem prompt_run : ∃ s m, secondSystem.Reachable s ∧ s.log .right =
    [(⟨0, 0⟩, .started), (⟨0, 0⟩, .watchdog), (⟨1, 0⟩, .read ⟨.watchdog, m⟩)] := by
  obtain ⟨watchdog, ack, m, _, hpayload, hright, -⟩ := watchdog_exchange
  have hzero : nanoseconds ⟨0, 0⟩ ≤ nanoseconds ⟨0, 0⟩ + 10 ^ 9 := by decide
  have hwait : nanoseconds ⟨0, 0⟩ ≤ nanoseconds ⟨0, 0⟩ + 60 * 10 ^ 9 + 10 ^ 9 := by decide
  have hone : nanoseconds ⟨1, 0⟩ ≤ nanoseconds ⟨0, 0⟩ + 10 ^ 9 := by decide
  have hwait' : nanoseconds ⟨1, 0⟩ ≤ nanoseconds ⟨0, 0⟩ + 60 * 10 ^ 9 + 10 ^ 9 := by decide
  have hclock : nanoseconds ⟨0, 0⟩ ≤ nanoseconds ⟨1, 0⟩ := by decide
  have hstart : secondSystem.Reachable
      (Supervised.start wholeSeconds (fun _ => ⟨0, 0⟩) ⟨0, 0⟩ fun _ => ()) :=
    .init ⟨⟨_, _, _, rfl, fun _ => Int.le_refl _⟩, fun _ => hzero⟩
  have hcheck := hstart.next ⟨⟨0, 0⟩, .right, .check⟩ ⟨⟨Int.le_refl _, .check rfl⟩, trivial,
    fun p => by cases p <;> exact hzero, fun p m hm => by cases hm⟩
  have hsend := hcheck.next ⟨⟨0, 0⟩, .right, .send watchdogBirth true⟩
    ⟨⟨Int.le_refl _, .send rfl hpayload⟩, ⟨rfl, watchdogBirth_readable⟩,
      fun p => by cases p <;> exact hzero, fun p m hm => by cases hm⟩
  -- the watchdog of the right side stays on its way
  have hstamp := hsend.next ⟨⟨0, 0⟩, .right, .stamp⟩ ⟨⟨Int.le_refl _, .stamp rfl⟩, trivial,
    fun p => by cases p <;> exact hzero, fun p m hm => by
      cases p with
      | left => cases List.mem_singleton.mp hm; exact hzero
      | right => cases hm⟩
  have hcheck' := hstamp.next ⟨⟨0, 0⟩, .left, .check⟩ ⟨⟨Int.le_refl _, .check rfl⟩, trivial,
    fun p => by cases p <;> first | exact hzero | exact hwait, fun p m hm => by
      cases p with
      | left => cases List.mem_singleton.mp hm; exact hzero
      | right => cases hm⟩
  have hsend' := hcheck'.next ⟨⟨0, 0⟩, .left, .send watchdogBirth true⟩
    ⟨⟨Int.le_refl _, .send rfl hpayload⟩, ⟨rfl, watchdogBirth_readable⟩,
      fun p => by cases p <;> first | exact hzero | exact hwait, fun p m hm => by
      cases p with
      | left => cases List.mem_singleton.mp hm; exact hzero
      | right => cases hm⟩
  have hread := hsend'.next ⟨⟨1, 0⟩, .right, .receive⟩
    ⟨⟨hclock, .read rfl rfl hright (List.Perm.refl ([ack] ++ []))⟩, trivial,
      fun p => by cases p <;> first | exact hone | exact hwait', fun p m hm => by
      cases p with
      | left => cases List.mem_singleton.mp hm; exact hone
      | right => cases List.mem_singleton.mp hm; exact hone⟩
  exact ⟨_, _, hread, rfl⟩

theorem link_kept_second : ∃ s m, secondSystem.Reachable s ∧ s.log .right =
      [(⟨0, 0⟩, .started), (⟨0, 0⟩, .watchdog), (⟨1, 0⟩, .read ⟨.watchdog, m⟩)] ∧
    (s.side .right).isRunning = true := by
  obtain ⟨s, m, hs, hlog⟩ := prompt_run
  exact ⟨s, m, hs, hlog, link_kept watchedExt_lawful wholeSeconds_lawful (by decide) (by decide)
    (by decide) hs .right⟩

/-- The watchdog of the left side is acknowledged. -/
theorem supervised_acknowledged_second : ∃ s m,
    (supervisedSystem watchedExt takesAll noCommand wholeSeconds).Reachable s ∧ s.log .right =
      [(⟨0, 0⟩, .started), (⟨0, 0⟩, .watchdog), (⟨1, 0⟩, .read ⟨.watchdog, m⟩)] ∧
    s.dialogue.Balanced (fun payload => paid watchedExt 0x2a payload.1) (due 0x2a) .left := by
  obtain ⟨s, m, hs, hlog⟩ := prompt_run
  exact ⟨s, m, supervised_of_prompt hs, hlog,
    supervised_acknowledged watchedExt_lawful (supervised_of_prompt hs) .left 0x2a⟩

end RsmpGateway.Gateway
