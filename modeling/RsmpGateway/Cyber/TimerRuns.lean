import RsmpGateway.Cyber.Timer

/-!
# Connections with their timers

One side of a connection, with the timer of its challenge and the date. Whatever is received, and
whatever fails, no timer is armed but that of the challenge that runs, so that a timer that fires
always ends the connection (`timer_sole`); and the challenge that runs has its timer, and is not
older than that, unless the timer cannot be created, the challenge is not queued or a switch fails
(`challenge_timed`).

A stop is not the end of it. `_stop` cancels the timer, and waits for the internal task afterwards,
which looks at the flag only between two of its iterations: one that has begun goes on, and may
queue a challenge and arm a timer that nobody cancels. It has at most two turns left, for a message
and for a challenge. Once it has ended, nothing arms a timer any more, and the one that may be left
fires into a connection that is stopped, and does nothing.
-/

namespace RsmpGateway.Cyber

open RsmpGateway.Lib RsmpGateway.Auth RsmpGateway.Coder

/-- `timeout_challenge_rx_sec` -/
def timeoutChallengeRxSec : Int := 60

/-- The input of a turn that may deal with a challenge. -/
def SessionOp.input? : SessionOp → Option Input
  | .process i => some i
  | .initiate i => some i
  | _ => none

def SessionOp.isTimeout : SessionOp → Bool
  | .timeout => true
  | _ => false

/-- A session with its timers, the date, and the date when the last challenge was queued. After a
stop, the turns that the internal task has left; none where there was no stop, or the process has
died. -/
structure Watched where
  session : Session
  timers : Alarms
  clock : Int
  queued : Int
  left : Option Nat

inductive WatchedOp
  | /-- a step at a date, where a timer may be created -/
    step (op : SessionOp) (date : Int) (created : Bool)
  | /-- a turn of the iteration of the internal task that `_stop` waits for -/
    late (op : SessionOp) (date : Int) (created : Bool)
  | /-- `handler_timeout_challenge`, for a timer that is due -/
    fires (id : Nat) (date : Int)

/-- The session as it was before the flag was set. -/
def Session.resumed (n : Session) : Session := { n with peer := { n.peer with up := true } }

/-- The turns that are left after a turn: a message is taken first, then a challenge is looked
for. -/
def turnsLeft : Option Nat → SessionOp → Option Nat
  | some 2, .process _ => some 1
  | some (_ + 1), .initiate _ => some 0
  | _, _ => none

/-- After a stop, one iteration of the internal task. -/
def leftAfter : SessionOp → Option Nat
  | .stop => some 2
  | _ => none

section

variable (L : Link)

/-! ## The steps

A step of the session, or one of the timers: the date goes on, and a timer that is due fires. The
timers after a step of the session are those of `Cyber/Timer.lean` for the turn that it is. A stop
cancels the timer that is held, and then leaves the internal task the turns of the iteration that
it is in. -/

/-- The turn of a step. -/
def Session.turnOf (n : Session) (i : Input) : SessionOp → Turn
  | .process _ => n.peer.cyberReceiveInternal (n.env L i)
  | _ => n.peer.initiateChallenge (n.env L i)

/-- The step queues a challenge. -/
def Session.queues (n : Session) (op : SessionOp) : Bool :=
  op.input?.any fun i => queuesChallenge n.peer (n.turnOf L i op)

/-- The message that is taken answers the challenge, and its entry cannot be switched. -/
def Session.switchFails (n : Session) : SessionOp → Bool
  | .process i => n.peer.internalQ.head?.any fun e => n.peer.switchFails (n.env L i) e.2
  | _ => false

namespace Watched

/-- The timers after a step. -/
def timersAfter (w : Watched) (due : Option Int) : SessionOp → Alarms
  | .process i => (Timed.cyberReceiveInternal (w.session.env L i) due w.session.peer w.timers).2
  | .initiate i => (Timed.initiateChallenge (w.session.env L i) due w.session.peer w.timers).2
  | .stop => stopTimerResponse w.timers
  | _ => w.timers

/-- After a step of the session. -/
def stepOf (w : Watched) (op : SessionOp) (date : Int) (created : Bool) : Option Watched :=
  let due := if created then some (date + timeoutChallengeRxSec) else none
  (w.session.apply L op).map fun n =>
    ⟨n, w.timersAfter L due op, date, if w.session.queues L op then date else w.queued,
      leftAfter op⟩

/-- A step, `none` where there is none. -/
def apply (w : Watched) : WatchedOp → Option Watched
  | .step op date created =>
    if date < w.clock || op.isTimeout then none else w.stepOf L op date created
  | .late op date created =>
    if date < w.clock then none
    else
      (turnsLeft w.left op).bind fun left =>
        (stepOf L { w with session := w.session.resumed } op date created).map fun w' =>
          { w' with
            session := w'.session.stop
            left := if w'.session.peer.up then some left else none }
  | .fires id date =>
    if date < w.clock || !w.timers.armed.any fun e => e.1 = id && decide (e.2 ≤ date) then none
    else
      let timers := w.timers.ring id
      if w.session.peer.up then
        (w.session.apply L .timeout).map fun n =>
          if n.peer.up then ⟨n, timers, date, w.queued, none⟩
          else ⟨n, stopTimerResponse timers, date, w.queued, leftAfter .stop⟩
      else
        -- `priv->stop` is set: `_stop` returns at once
        w.left.map fun _ => { w with timers := timers, clock := date }

end Watched

/-- The runs of a connection that starts on the peer `p₀` at a date. -/
def watchedSystem (p₀ : Peer) (uuid : Nat) (date : Int) : System Watched WatchedOp where
  init w := w = ⟨⟨p₀.start, uuid, [], []⟩, .unset, date, date, none⟩
  step w op w' := w.apply L op = some w'

end

/-! ## What a step does

The inversion of `Watched.apply`, in two layers: what becomes of the session, and what becomes of
the flag of a stop and of the date. -/

/-- What a step of the session does. -/
inductive SteppedTo (L : Link) (w : Watched) (op : SessionOp) (date : Int) (created : Bool) :
    Watched → Prop
  | /-- the challenge and the timers stay -/
    stays {n} (hstep : w.session.apply L op = some n) (hinput : op.input? = none)
      (hop : op ≠ .stop) (hctxt : n.peer.challengeCtxt = w.session.peer.challengeCtxt)
      (hup : n.peer.up = true) :
      SteppedTo L w op date created ⟨n, w.timers, date, w.queued, none⟩
  | turned {n i timers due} (hstep : w.session.apply L op = some n) (hinput : op.input? = some i)
      (hdue : due = if created then some (date + timeoutChallengeRxSec) else none)
      (hturn : n.peer = (w.session.turn (w.session.turnOf L i op)).peer)
      (ht : Times (w.session.env L i) due (w.session.switchFails L op = true) w.session.peer
        w.timers (w.session.turnOf L i op) timers) :
      SteppedTo L w op date created ⟨n, timers, date,
        if queuesChallenge w.session.peer (w.session.turnOf L i op) then date else w.queued, none⟩
  | stopped {n} (hstep : w.session.apply L .stop = some n) (hop : op = .stop)
      (hdown : n.peer.up = false) :
      SteppedTo L w op date created ⟨n, stopTimerResponse w.timers, date, w.queued, some 2⟩

/-- What a step does. -/
inductive WatchedStep (L : Link) (w : Watched) : WatchedOp → Watched → Prop
  | stepped {op date created w'} (hclock : w.clock ≤ date)
      (hs : SteppedTo L w op date created w') : WatchedStep L w (.step op date created) w'
  | /-- a turn after the timer was cancelled -/
    late {op date created left w'} (hleft : turnsLeft w.left op = some left)
      (hs : SteppedTo L { w with session := w.session.resumed } op date created w') :
      WatchedStep L w (.late op date created) { w' with
        session := w'.session.stop
        left := if w'.session.peer.up then some left else none }
  | fired {id date n due} (hup : w.session.peer.up = true)
      (hstep : w.session.apply L .timeout = some n)
      (hmem : (id, due) ∈ w.timers.armed) (hle : due ≤ date) (hdown : n.peer.up = false) :
      WatchedStep L w (.fires id date)
        ⟨n, stopTimerResponse (w.timers.ring id), date, w.queued, some 2⟩
  | /-- a timer that is left after a stop -/
    rang {id date left} (hup : w.session.peer.up = false) (hleft : w.left = some left) :
      WatchedStep L w (.fires id date) { w with timers := w.timers.ring id, clock := date }

section Runs

variable {L : Link} {p₀ : Peer} {uuid : Nat} {date₀ : Int} {w w' : Watched} {op : WatchedOp}

theorem Session.up_of_apply {n n' : Session} {op : SessionOp} (h : n.apply L op = some n') :
    n.peer.up = true := by
  unfold Session.apply at h
  split at h
  · cases h
  · next hup => simpa using hup

theorem turnsLeft_input {left : Option Nat} {op : SessionOp} {n : Nat}
    (h : turnsLeft left op = some n) : op.input?.isSome = true ∧ ∃ k, left = some k ∧ n < k := by
  unfold turnsLeft at h
  split at h
  · cases h
    exact ⟨rfl, 2, rfl, by decide⟩
  · cases h
    exact ⟨rfl, _, rfl, Nat.succ_pos _⟩
  · cases h

theorem Watched.stepOf_cases {op : SessionOp} {date : Int} {created : Bool}
    (hok : SessionOk L w.session) (hw : Watches w.session.peer w.timers)
    (hop : op.isTimeout = false) (h : w.stepOf L op date created = some w') :
    SteppedTo L w op date created w' := by
  obtain ⟨n, hstep, rfl⟩ := Option.map_eq_some_iff.mp h
  have hup := Session.up_of_apply hstep
  have hsame := hstep
  unfold Session.apply at hsame
  rw [if_neg (not_not_intro hup)] at hsame
  cases op with
  | receive msgs =>
    dsimp only at hsame
    split at hsame
    · cases hsame
      exact .stays hstep rfl (fun h => SessionOp.noConfusion h) rfl hup
    · cases hsame
  | process i =>
    cases hsame
    exact .turned (i := i) hstep rfl rfl rfl (Timed.received hok.ctxt)
  | initiate i =>
    cases hsame
    exact .turned (i := i) hstep rfl rfl rfl (Timed.initiated hok.ctxt hw)
  | send i =>
    cases hsame
    have hs := w.session.peer.cyberSend_cases (w.session.env L i)
    refine .stays hstep rfl (fun h => SessionOp.noConfusion h) ?_ ?_
    · dsimp only
      generalize w.session.peer.cyberSend (w.session.env L i) = r at hs
      cases hs <;> rfl
    · dsimp only
      generalize w.session.peer.cyberSend (w.session.env L i) = r at hs
      cases hs <;> exact hup
  | timeout => cases hop
  | stop =>
    cases hsame
    exact .stopped hstep rfl rfl
  | store db saved =>
    cases hsame
    exact .stays hstep rfl (fun h => SessionOp.noConfusion h) rfl hup

/-! ## What every state keeps

The timer that is held is that of the challenge that runs, and no other is armed. A switch that
fails is the exception: it leaves a timer for a challenge that has ended. -/

/-- The timers of a state that is reached go with its challenge. -/
structure Watched.Kept (w : Watched) : Prop where
  watches : Watches w.session.peer w.timers
  within : w.timers.Within (w.queued + timeoutChallengeRxSec)
  sole : w.session.peer.up = true → w.timers.Sole (w.queued + timeoutChallengeRxSec)
  stopped : w.left.isSome = true → w.session.peer.up = false

theorem Watched.apply_cases (hok : SessionOk L w.session)
    (hresumed : w.left.isSome = true → SessionOk L w.session.resumed) (hw : w.Kept)
    (h : w.apply L op = some w') : WatchedStep L w op w' := by
  cases op with
  | step op date created =>
    rw [apply] at h
    split at h
    · cases h
    · next hguard =>
      rw [Bool.or_eq_true, not_or, decide_eq_true_eq, not_lt] at hguard
      obtain ⟨hclock, htimeout⟩ := hguard
      exact .stepped hclock (stepOf_cases hok hw.watches (by simpa using htimeout) h)
  | late op date created =>
    rw [apply] at h
    split at h
    · cases h
    · obtain ⟨left, hleft, h⟩ := Option.bind_eq_some_iff.mp h
      obtain ⟨w₁, hstep, rfl⟩ := Option.map_eq_some_iff.mp h
      obtain ⟨hinput, k, hk, -⟩ := turnsLeft_input hleft
      have htimeout : op.isTimeout = false := by
        cases op <;> first | rfl | cases hinput
      refine .late hleft (stepOf_cases (hresumed (by rw [hk]; rfl)) ?_ htimeout hstep)
      exact hw.watches
  | fires id date =>
    rw [apply] at h
    split at h
    · cases h
    · next hguard =>
      rw [Bool.or_eq_true, not_or, decide_eq_true_eq, not_lt] at hguard
      obtain ⟨-, harmed⟩ := hguard
      rw [Bool.not_eq_true', Bool.not_eq_false, List.any_eq_true] at harmed
      obtain ⟨⟨id', due⟩, hmem, hdue⟩ := harmed
      rw [Bool.and_eq_true, decide_eq_true_eq, decide_eq_true_eq] at hdue
      obtain ⟨rfl, hle⟩ := hdue
      dsimp only at h
      split at h
      · next hup =>
        obtain ⟨n, hstep, rfl⟩ := Option.map_eq_some_iff.mp h
        -- the timer is that of the challenge that runs
        have hruns : w.session.peer.challengeRuns = true := by
          apply hw.watches
          rw [((hw.sole hup).mem hmem).1]
          rfl
        have hdown : n.peer.up = false := by
          have hsame := hstep
          unfold Session.apply at hsame
          rw [if_neg (not_not_intro hup)] at hsame
          dsimp only at hsame
          rw [← Peer.challengeRuns, if_pos hruns] at hsame
          cases hsame
          rfl
        rw [hdown, if_neg Bool.false_ne_true]
        exact .fired hup hstep hmem hle hdown
      · next hup =>
        obtain ⟨left, hleft, rfl⟩ := Option.map_eq_some_iff.mp h
        exact .rang (by simpa using hup) hleft

theorem Watches.of_eq {p p' : Peer} {timers : Alarms} (h : Watches p timers)
    (hctxt : p'.challengeCtxt = p.challengeCtxt) : Watches p' timers := by
  rw [Watches, Peer.challengeRuns, hctxt]
  exact h

/-- A turn after which the process stops queues nothing, and the challenge stays as it was. -/
theorem Times.watches_turn {E : Env} {due : Option Int} {fails : Prop} {n : Session} {r : Turn}
    {timers timers' : Alarms} (ht : Times E due fails n.peer timers r timers')
    (h : Watches n.peer timers) : Watches (n.turn r).peer timers' := by
  cases r with
  | ok p' => exact ht.watches h
  | error file =>
    refine Watches.of_eq (p := n.peer) ?_ rfl
    cases ht with
    | kept => exact h
    | ended => exact .stopped n.peer timers
    | failed => exact .stopped n.peer timers
    | launched hr => cases hr

/-! ### A step of the session

The lemmas of `Times`, read for the step: who watches, what is armed, and that no other timer is. -/

section Stepped

variable {sop : SessionOp} {date : Int} {created : Bool}

theorem mem_due {due : Option Int}
    (hdue : due = if created then some (date + timeoutChallengeRxSec) else none) :
    ∀ x ∈ due, x = date + timeoutChallengeRxSec := by
  intro x hx
  rw [hdue] at hx
  split at hx
  · exact (Option.some.inj hx).symm
  · cases hx

theorem SteppedTo.watches (hs : SteppedTo L w sop date created w')
    (h : Watches w.session.peer w.timers) : Watches w'.session.peer w'.timers := by
  cases hs with
  | stays _ _ _ hctxt => exact h.of_eq hctxt
  | turned _ _ _ hturn ht =>
    dsimp only
    rw [hturn]
    exact ht.watches_turn h
  | stopped => exact .stopped _ _

theorem SteppedTo.within (hs : SteppedTo L w sop date created w')
    (h : w.timers.Within (w.queued + timeoutChallengeRxSec)) :
    w'.timers.Within (w'.queued + timeoutChallengeRxSec) := by
  cases hs with
  | stays => exact h
  | turned _ _ hdue _ ht =>
    have hwithin := ht.within h (mem_due hdue)
    rw [← apply_ite (· + timeoutChallengeRxSec)] at hwithin
    exact hwithin
  | stopped => exact (h.cancel _).within

theorem SteppedTo.sole (hs : SteppedTo L w sop date created w')
    (h : w.timers.Sole (w.queued + timeoutChallengeRxSec)) :
    w'.timers.Sole (w'.queued + timeoutChallengeRxSec) := by
  cases hs with
  | stays => exact h
  | turned _ _ hdue _ ht =>
    have hsole := ht.sole h (mem_due hdue)
    rw [← apply_ite (· + timeoutChallengeRxSec)] at hsole
    exact hsole
  | stopped => exact h.within.cancel _

theorem SteppedTo.session (hs : SteppedTo L w sop date created w') :
    w.session.apply L sop = some w'.session := by
  cases hs with
  | stays hstep => exact hstep
  | turned hstep => exact hstep
  | stopped hstep hop =>
    rw [hop]
    exact hstep

end Stepped

theorem Watched.Kept.step (hw : w.Kept) (hs : WatchedStep L w op w') : w'.Kept := by
  cases hs with
  | stepped _ hs =>
    refine ⟨hs.watches hw.watches, hs.within hw.within, ?_, ?_⟩
    · exact fun _ => hs.sole (hw.sole (Session.up_of_apply hs.session))
    · intro hleft
      cases hs with
      | stays => cases hleft
      | turned => cases hleft
      | stopped _ _ hdown => exact hdown
  | late _ hs =>
    refine ⟨(hs.watches hw.watches).of_eq rfl, hs.within hw.within, ?_, fun _ => rfl⟩
    intro hup
    cases hup
  | @fired id _ _ _ _ _ _ _ hdown =>
    have hcancelled : (stopTimerResponse (w.timers.ring id)).Sole
        (w.queued + timeoutChallengeRxSec) := (hw.within.ring id).cancel _
    exact ⟨.stopped _ _, hcancelled.within, fun _ => hcancelled, fun _ => hdown⟩
  | rang hup =>
    refine ⟨hw.watches, hw.within.ring _, ?_, fun _ => hup⟩
    intro h
    rw [hup] at h
    cases h

/-! ### The session of a run with timers

Timers decide when a session ends and nothing else of it. So the session of a run with timers is
reached without them, and the invariants of sessions hold of it (`watched_invariant`). After a
stop that leaves the internal task some turns, the session as it was before the flag was set is
reached without timers as well, and the late turns go on from there. -/

/-- The session of a run with timers is that of a run without; after a stop, it is stopped at the
end of one. -/
def Watched.Follows (L : Link) (p₀ : Peer) (uuid : Nat) (w : Watched) : Prop :=
  (sessionSystem L p₀ uuid).Reachable w.session ∧
    (w.left.isSome = true → (sessionSystem L p₀ uuid).Reachable w.session.resumed)

theorem Session.resumed_stop {n : Session} (h : n.peer.up = true) : n.stop.resumed = n := by
  obtain ⟨p, uuid, pushed, taken⟩ := n
  obtain ⟨db, saved, up, challengeCtxt, sent, rxed, sendQ, internalQ, events⟩ := p
  obtain rfl : up = true := h
  rfl

theorem Session.stop_of_down {n : Session} (h : n.peer.up = false) : n.stop = n := by
  obtain ⟨p, uuid, pushed, taken⟩ := n
  obtain ⟨db, saved, up, challengeCtxt, sent, rxed, sendQ, internalQ, events⟩ := p
  obtain rfl : up = false := h
  rfl

theorem Session.apply_stop {n : Session} (h : n.peer.up = true) :
    n.apply L .stop = some n.stop := by
  unfold apply
  rw [if_neg (not_not_intro h)]

/-- What is stopped at the end of a run. -/
theorem Watched.Follows.stop {n : Session} {w : Watched}
    (h : (sessionSystem L p₀ uuid).Reachable n) (hsession : w.session = n.stop)
    (hleft : w.left.isSome = true → n.peer.up = true) : w.Follows L p₀ uuid := by
  constructor
  · rw [hsession]
    cases hup : n.peer.up with
    | true => exact h.next .stop (Session.apply_stop hup)
    | false =>
      rw [Session.stop_of_down hup]
      exact h
  · intro hsome
    rw [hsession, Session.resumed_stop (hleft hsome)]
    exact h

theorem Watched.Follows.step (hf : w.Follows L p₀ uuid) (hs : WatchedStep L w op w') :
    w'.Follows L p₀ uuid := by
  cases hs with
  | @stepped sop date created _ _ hs =>
    have hstep := hs.session
    cases hs with
    | stays => exact ⟨hf.1.next sop hstep, fun h => by cases h⟩
    | turned => exact ⟨hf.1.next sop hstep, fun h => by cases h⟩
    | stopped _ hop =>
      have hup := Session.up_of_apply hstep
      subst hop
      rw [Session.apply_stop hup] at hstep
      exact .stop hf.1 (Option.some.inj hstep).symm fun _ => hup
  | @late sop _ _ _ w₁ hleft hs =>
    obtain ⟨-, k, hk, -⟩ := turnsLeft_input hleft
    have hresumed := hf.2 (by rw [hk]; rfl)
    refine .stop (hresumed.next sop hs.session) rfl ?_
    intro hsome
    dsimp only at hsome
    split at hsome
    · next hup => exact hup
    · cases hsome
  | @fired _ _ n _ hup hstep _ _ hdown =>
    have hsame : n = w.session.stop := by
      unfold Session.apply at hstep
      rw [if_neg (not_not_intro hup)] at hstep
      dsimp only at hstep
      split at hstep
      · exact (Option.some.inj hstep).symm
      · cases hstep
        rw [hup] at hdown
        cases hdown
    exact .stop hf.1 hsame fun _ => hup
  | rang => exact hf

/-- **The runs with timers.** What holds at the start and is kept by every step holds in every
state that is reached. -/
theorem watched_invariant {ok : Watched → WatchedOp → Prop} {P : Watched → Prop}
    (h0 : P ⟨⟨p₀.start, uuid, [], []⟩, .unset, date₀, date₀, none⟩)
    (hstep : ∀ w op w', w.Kept → P w → ok w op → WatchedStep L w op w' → P w')
    (h : ((watchedSystem L p₀ uuid date₀).restrict ok).Reachable w) :
    SessionOk L w.session ∧ (w.left.isSome = true → SessionOk L w.session.resumed) ∧ w.Kept ∧
      P w := by
  have hok : ∀ {n}, (sessionSystem L p₀ uuid).Reachable n → SessionOk L n := by
    intro n hn
    have hsession : ((sessionSystem L p₀ uuid).restrict fun _ _ => True).Reachable n :=
      hn.to_restrict fun _ _ => trivial
    exact (session_invariant (P := fun _ => True) trivial (fun _ _ _ _ _ _ _ _ => trivial)
      hsession).1
  obtain ⟨⟨hsession, hresumed⟩, hkept, hP⟩ : w.Follows L p₀ uuid ∧ w.Kept ∧ P w := by
    apply h.invariant
    · rintro _ rfl
      refine ⟨⟨.init rfl, ?_⟩, ⟨?_, .inl rfl, fun _ => .unset _, ?_⟩, h0⟩
      · intro h
        cases h
      · intro h
        cases h
      · intro h
        cases h
    · rintro w op w' ⟨hf, hkept, hP⟩ ⟨happly, hop⟩
      have hs := Watched.apply_cases (hok hf.1) (fun hleft => hok (hf.2 hleft)) hkept happly
      exact ⟨hf.step hs, hkept.step hs, hstep w op w' hkept hP hop hs⟩
  exact ⟨hok hsession, fun hleft => hok (hresumed hleft), hkept, hP⟩

/-! ## The timer

While the connection is up the invariant is exact. After a stop it is weaker (`Watched.Winding`):
the internal task may still arm one timer, and none once it has ended. -/

/-- What may still happen after a stop: the internal task has at most two turns left, only one that
queues a challenge arms a timer, and once there are none left, all that happens is that a timer
fires, which changes nothing else. -/
structure Watched.Winding (L : Link) (w : Watched) : Prop where
  down : ∀ op w', w.apply L op = some w' → w'.session.peer.up = false
  late : ∀ sop date created w', w.apply L (.late sop date created) = some w' →
    ∃ k, w.left = some k ∧ k ≤ 2 ∧ ∀ left, w'.left = some left → left < k
  arms : ∀ op w', w.apply L op = some w' → w'.timers.armed.Sublist w.timers.armed ∨
    ∃ sop date created, op = .late sop date created ∧ w.session.resumed.queues L sop = true ∧
      w'.queued = date
  joined : w.left = some 0 → ∀ op w', w.apply L op = some w' →
    w'.session = w.session ∧ w'.left = some 0 ∧ ∃ id, w'.timers = w.timers.ring id

theorem Times.armed_sublist {E : Env} {due : Option Int} {fails : Prop} {p : Peer}
    {timers timers' : Alarms} {r : Turn} {d : Int} (ht : Times E due fails p timers r timers')
    (h : timers.Within d) :
    timers'.armed.Sublist timers.armed ∨ queuesChallenge p r = true := by
  rcases ht.armed h with hsame | hnil | hq
  · rw [hsame]
    exact .inl (List.Sublist.refl _)
  · rw [hnil]
    exact .inl (List.nil_sublist _)
  · exact .inr hq

/-- A turn after a stop. -/
theorem SteppedTo.arms_late {sop : SessionOp} {date : Int} {created : Bool} {k n : Nat}
    (hw : w.timers.Within (w.queued + timeoutChallengeRxSec))
    (hleft : turnsLeft (some k) sop = some n)
    (hs : SteppedTo L w sop date created w') :
    w'.timers.armed.Sublist w.timers.armed ∨
      w.session.queues L sop = true ∧ w'.queued = date := by
  obtain ⟨hinput, -⟩ := turnsLeft_input hleft
  cases hs with
  | stays _ hnone =>
    rw [hnone] at hinput
    cases hinput
  | turned _ hinput' _ _ ht =>
    rcases ht.armed_sublist hw with hsub | hq
    · exact .inl hsub
    · right
      rw [Session.queues, hinput', Option.any_some]
      exact ⟨hq, if_pos hq⟩
  | stopped _ hop =>
    subst hop
    cases hinput

theorem Watched.left_le (h : (watchedSystem L p₀ uuid date₀).Reachable w) :
    ∀ k, w.left = some k → k ≤ 2 := by
  have hany : ((watchedSystem L p₀ uuid date₀).restrict fun _ _ => True).Reachable w :=
    h.to_restrict fun _ _ => trivial
  refine (watched_invariant (P := fun w => ∀ k, w.left = some k → k ≤ 2) ?_ ?_ hany).2.2.2
  · intro k hk
    cases hk
  · intro w op w' _ hw _ hs k hk
    cases hs with
    | stepped _ hs =>
      cases hs with
      | stays => cases hk
      | turned => cases hk
      | stopped =>
        cases hk
        exact Nat.le_refl 2
    | late hleft =>
      obtain ⟨-, k', hk', hlt⟩ := turnsLeft_input hleft
      have hle := hw k' hk'
      dsimp only at hk
      split at hk
      · cases hk
        omega
      · cases hk
    | fired =>
      cases hk
      exact Nat.le_refl 2
    | rang => exact hw k hk

theorem Watched.winding (h : (watchedSystem L p₀ uuid date₀).Reachable w)
    (hdown : w.session.peer.up = false) : w.Winding L := by
  have hany : ((watchedSystem L p₀ uuid date₀).restrict fun _ _ => True).Reachable w :=
    h.to_restrict fun _ _ => trivial
  obtain ⟨hok, hresumed, hw, -⟩ := watched_invariant (P := fun _ => True) trivial
    (fun _ _ _ _ _ _ _ => trivial) hany
  have hcases : ∀ {op w'}, w.apply L op = some w' → WatchedStep L w op w' :=
    fun happly => apply_cases hok hresumed hw happly
  -- a session that is down takes no step of its own, only the turns that were left
  have hnostep : ∀ {sop w'}, w.session.apply L sop = some w' → False := by
    intro sop w' hstep
    rw [Session.up_of_apply hstep] at hdown
    cases hdown
  refine ⟨?_, ?_, ?_, ?_⟩
  · intro op w' happly
    cases hcases happly with
    | stepped _ hs => exact (hnostep hs.session).elim
    | late => rfl
    | fired _ _ _ _ hdown' => exact hdown'
    | rang => exact hdown
  · intro sop date created w' happly
    have hs := hcases happly
    clear happly
    cases hs with
    | late hleft =>
      obtain ⟨-, k, hk, hlt⟩ := turnsLeft_input hleft
      refine ⟨k, hk, left_le h k hk, ?_⟩
      intro left hl
      dsimp only at hl
      split at hl
      · cases hl
        exact hlt
      · cases hl
  · intro op w' happly
    cases hcases happly with
    | stepped _ hs => exact (hnostep hs.session).elim
    | @late sop date created _ _ hleft hs =>
      obtain ⟨-, k, hk, -⟩ := turnsLeft_input hleft
      rw [hk] at hleft
      have harms := SteppedTo.arms_late (w := { w with session := w.session.resumed }) hw.within
        hleft hs
      rcases harms with hsub | ⟨hq, hqueued⟩
      · exact .inl hsub
      · exact .inr ⟨sop, date, created, rfl, hq, hqueued⟩
    | fired hup =>
      rw [hup] at hdown
      cases hdown
    | rang => exact .inl List.filter_sublist
  · intro hzero op w' happly
    cases hcases happly with
    | stepped _ hs => exact (hnostep hs.session).elim
    | late hleft =>
      obtain ⟨-, k, hk, hlt⟩ := turnsLeft_input hleft
      rw [hzero] at hk
      cases hk
      cases hlt
    | fired hup =>
      rw [hup] at hdown
      cases hdown
    | rang => exact ⟨rfl, hzero, _, rfl⟩

/-- **No zombie while the connection is up.** The only timer that is armed is the one that the
context holds, set when the last challenge was queued, while a challenge runs. So whenever it fires
the connection ends, and no timer is left, as when the connection is stopped. After a stop, the
internal task may arm one more timer, for a challenge that its last iteration queues. -/
theorem timer_sole (h : (watchedSystem L p₀ uuid date₀).Reachable w) :
    w.timers.Within (w.queued + timeoutChallengeRxSec) ∧
    (w.timers.armed ≠ [] → w.session.peer.challengeRuns = true) ∧
    (w.session.peer.up = true → w.timers.Sole (w.queued + timeoutChallengeRxSec) ∧
      (∀ id date w', w.apply L (.fires id date) = some w' →
        w'.session.peer.up = false ∧ w'.timers.armed = [] ∧
          w.queued + timeoutChallengeRxSec ≤ date) ∧
      ∀ date created w', w.apply L (.step .stop date created) = some w' →
        w'.session.peer.up = false ∧ w'.timers.armed = []) ∧
    (w.session.peer.up = false → w.Winding L) := by
  have hany : ((watchedSystem L p₀ uuid date₀).restrict fun _ _ => True).Reachable w :=
    h.to_restrict fun _ _ => trivial
  obtain ⟨hok, hresumed, hw, -⟩ := watched_invariant (P := fun _ => True) trivial
    (fun _ _ _ _ _ _ _ => trivial) hany
  refine ⟨hw.within, ?_, ?_, Watched.winding h⟩
  · intro harmed
    apply hw.watches
    obtain ⟨e, he⟩ := List.exists_mem_of_ne_nil _ harmed
    rw [((hw.within.resolve_left harmed).mem he).1]
    rfl
  · intro hup
    refine ⟨hw.sole hup, ?_, ?_⟩
    · intro id date w' happly
      cases Watched.apply_cases hok hresumed hw happly with
      | fired _ _ hmem hle hdown =>
        obtain ⟨hheld, rfl⟩ := (hw.sole hup).mem hmem
        exact ⟨hdown, (hw.sole hup).ring hheld, hle⟩
      | rang hdown =>
        rw [hup] at hdown
        cases hdown
    · intro date created w' happly
      have hs := Watched.apply_cases hok hresumed hw happly
      clear happly
      cases hs with
      | stepped _ hs =>
        cases hs with
        | stays _ _ hop => exact absurd rfl hop
        | turned _ hinput => cases hinput
        | stopped _ _ hdown => exact ⟨hdown, hw.within.armed_cancel⟩

/-! ### How old a challenge is

What the bound assumes is said of each step: the timer of a new challenge can be created, its
frame is queued, the switch of an answered challenge does not fail, and a timer that is due fires
before it is late. -/

/-- A timer can be created, the queue takes what it is given, an entry that is answered for can be
switched, and no timer is late by more than `late`. -/
def timedClear (L : Link) (late : Int) (w : Watched) : WatchedOp → Bool
  | .step op date created =>
    created && (op.input?.all fun i => decide (i.failure ≠ some .queue)) &&
      !w.session.switchFails L op && w.timers.armed.all fun e => decide (date ≤ e.2 + late)
  | .late .. => true
  | .fires _ _ => true

/-- The challenge that runs has its timer, and was queued not long ago. -/
def Watched.Timely (late : Int) (w : Watched) : Prop :=
  w.session.peer.up = true → w.session.peer.challengeRuns = true →
    w.timers.held.isSome = true ∧ w.clock ≤ w.queued + timeoutChallengeRxSec + late

theorem timedClear_step {late date : Int} {sop : SessionOp} {created : Bool}
    (h : timedClear L late w (.step sop date created) = true) :
    created = true ∧ (∀ i, sop.input? = some i → i.failure ≠ some .queue) ∧
      w.session.switchFails L sop = false ∧ ∀ e ∈ w.timers.armed, date ≤ e.2 + late := by
  rw [timedClear, Bool.and_eq_true, Bool.and_eq_true, Bool.and_eq_true, Bool.not_eq_true'] at h
  obtain ⟨⟨⟨hcreated, hqueue⟩, hswitch⟩, hlate⟩ := h
  refine ⟨hcreated, ?_, hswitch, ?_⟩
  · intro i hi
    rw [hi] at hqueue
    exact of_decide_eq_true hqueue
  · intro e he
    exact of_decide_eq_true (List.all_eq_true.mp hlate e he)

/-- A date at which the timer that is held is not late. -/
theorem Watched.Kept.in_time {late date : Int} (hw : w.Kept) (hup : w.session.peer.up = true)
    (hheld : w.timers.held.isSome = true) (hlate : ∀ e ∈ w.timers.armed, date ≤ e.2 + late) :
    date ≤ w.queued + timeoutChallengeRxSec + late := by
  obtain ⟨id, hid⟩ := Option.isSome_iff_exists.mp hheld
  apply hlate (id, w.queued + timeoutChallengeRxSec)
  rw [hw.sole hup, hid]
  exact List.mem_singleton_self _

theorem Watched.Timely.step {late : Int} (hlate : 0 ≤ late) (hkept : w.Kept)
    (hw : w.Timely late) (hop : timedClear L late w op = true) (hs : WatchedStep L w op w') :
    w'.Timely late := by
  intro hup hruns
  cases hs with
  | @stepped sop date created _ _ hs =>
    obtain ⟨hcreated, hqueue, hswitch, htime⟩ := timedClear_step hop
    have hup₀ := Session.up_of_apply hs.session
    cases hs with
    | stays _ _ _ hctxt =>
      have hran : w.session.peer.challengeRuns = true := by
        rw [Peer.challengeRuns, hctxt] at hruns
        exact hruns
      obtain ⟨hheld, -⟩ := hw hup₀ hran
      exact ⟨hheld, hkept.in_time hup₀ hheld htime⟩
    | @turned n i timers due hstep hinput hdue hturn ht =>
      rw [if_pos hcreated] at hdue
      dsimp only at hup hruns ⊢
      rw [hturn] at hup hruns
      generalize w.session.turnOf L i sop = r at ht hup hruns
      cases r with
      | error file => cases hup
      | ok p' =>
        have hguards := ht.guards (by rw [hdue]; rfl) (hqueue i hinput) (by
          rw [hswitch]
          exact Bool.false_ne_true) hruns
        rcases hguards with ⟨hq, hran, rfl⟩ | ⟨hq, hheld⟩
        · obtain ⟨hheld, -⟩ := hw hup₀ hran
          rw [hq]
          exact ⟨hheld, hkept.in_time hup₀ hheld htime⟩
        · rw [hq, if_pos rfl, timeoutChallengeRxSec]
          exact ⟨hheld, by omega⟩
    | stopped _ _ hdown =>
      rw [hdown] at hup
      cases hup
  | late => cases hup
  | fired _ _ _ _ hdown =>
    rw [hdown] at hup
    cases hup
  | rang hdown =>
    rw [hdown] at hup
    cases hup

/-- **The time of a challenge.** As long as nothing fails and no timer is late, a challenge that
runs on a connection that is up was queued within the last minute, and its timer is armed: when
it fires, the connection ends. -/
theorem challenge_timed {late : Int} (hlate : 0 ≤ late)
    (h : ((watchedSystem L p₀ uuid date₀).restrict
      fun w op => timedClear L late w op = true).Reachable w)
    (hup : w.session.peer.up = true) (hruns : w.session.peer.challengeRuns = true) :
    w.clock ≤ w.queued + timeoutChallengeRxSec + late ∧
    ∃ id, w.timers.armed = [(id, w.queued + timeoutChallengeRxSec)] ∧
      ∀ date, w.clock ≤ date → w.queued + timeoutChallengeRxSec ≤ date →
        ∃ w', w.apply L (.fires id date) = some w' ∧ w'.session.peer.up = false := by
  have h0 : Watched.Timely late ⟨⟨p₀.start, uuid, [], []⟩, .unset, date₀, date₀, none⟩ :=
    fun _ hrun => absurd hrun Bool.false_ne_true
  obtain ⟨-, -, hkept, hw⟩ := watched_invariant h0
    (fun _ _ _ hkept hw hop hs => hw.step hlate hkept hop hs) h
  obtain ⟨hheld, htime⟩ := hw hup hruns
  obtain ⟨id, hid⟩ := Option.isSome_iff_exists.mp hheld
  have harmed : w.timers.armed = [(id, w.queued + timeoutChallengeRxSec)] := by
    rw [hkept.sole hup, hid]
    rfl
  refine ⟨htime, id, harmed, ?_⟩
  intro date hclock hdue
  have hdate : ¬ date < w.clock := not_lt.mpr hclock
  have hstop : w.session.apply L .timeout = some w.session.stop := by
    unfold Session.apply
    rw [if_neg (not_not_intro hup)]
    dsimp only
    rw [← Peer.challengeRuns, if_pos hruns]
  rw [Watched.apply, harmed, hstop]
  refine ⟨⟨w.session.stop, stopTimerResponse (w.timers.ring id), date, w.queued, some 2⟩, ?_, rfl⟩
  rw [if_neg (by simp [hdate, hdue])]
  dsimp only
  rw [if_pos hup]
  rfl

end Runs

/-! ### Runs of a side

A renewal with the next challenge after it, and a stop that comes while the internal task sleeps. -/

/-- A step, where it is admitted. -/
def Watched.stepIf (L : Link) (ok : Watched → WatchedOp → Bool) (w : Watched) (op : WatchedOp) :
    Option Watched :=
  if ok w op then w.apply L op else none

theorem watched_stepIf {L : Link} {p₀ : Peer} {uuid : Nat} {date₀ : Int}
    {ok : Watched → WatchedOp → Bool} {ops : List WatchedOp} {w : Watched}
    (h : ops.foldlM (Watched.stepIf L ok) ⟨⟨p₀.start, uuid, [], []⟩, .unset, date₀, date₀, none⟩ =
      some w) :
    ((watchedSystem L p₀ uuid date₀).restrict fun w op => ok w op = true).Reachable w := by
  refine System.Reachable.foldlM ?_ (.init rfl) h
  intro s op s' hstep
  rw [Watched.stepIf] at hstep
  split at hstep
  · next hok => exact ⟨hstep, hok⟩
  · cases hstep

/-- The first challenge is answered, and the next one queued. -/
def timedRun (ok : Watched → WatchedOp → Bool) : Option Watched :=
  [.step (.initiate renewInput) 1000 true,
    .step (.receive [(keyFromB, .changePwdResponse 9 0 true)]) 1010 true,
    .step (.process renewInput) 1011 true,
    .step (.initiate { renewInput with now := ⟨2000, 0⟩ }) 1090 true].foldlM
      (Watched.stepIf linkAB ok) ⟨⟨peerA.start, 0, [], []⟩, .unset, 999, 999, none⟩

/-- The connection is stopped while the internal task sleeps: the challenge that it then queues has
a timer, which fires a minute later. -/
def stoppedRun : Option Watched :=
  [.step .stop 1000 true, .late (.initiate renewInput) 1003 true].foldlM
    (Watched.stepIf linkAB fun _ _ => true)
    ⟨⟨peerA.start, 0, [], []⟩, .unset, 999, 999, none⟩

theorem timer_sole_renewed :
    (∃ w, timedRun (fun _ _ => true) = some w ∧ w.timers.armed = [(1, 1150)] ∧
      ∀ id date w', w.apply linkAB (.fires id date) = some w' →
        w'.session.peer.up = false ∧ w'.timers.armed = [] ∧
          w.queued + timeoutChallengeRxSec ≤ date) ∧
    ∃ w, stoppedRun = some w ∧ w.timers.armed = [(0, 1063)] ∧ w.left = some 0 ∧
      w.Winding linkAB := by
  constructor
  · obtain ⟨w, hw, hflags⟩ : ∃ w, timedRun (fun _ _ => true) = some w ∧
        (decide (w.timers.armed = [(1, 1150)]) && w.session.peer.up) := by
      apply (Option.any_eq_true _ _).mp
      decide
    rw [Bool.and_eq_true, decide_eq_true_eq] at hflags
    obtain ⟨harmed, hup⟩ := hflags
    exact ⟨w, hw, harmed, ((timer_sole (watched_stepIf hw).of_restrict).2.2.1 hup).2.1⟩
  · obtain ⟨w, hw, hflags⟩ : ∃ w, stoppedRun = some w ∧
        (decide (w.timers.armed = [(0, 1063)]) && decide (w.left = some 0) &&
          !w.session.peer.up) := by
      apply (Option.any_eq_true _ _).mp
      decide
    simp only [Bool.and_eq_true, decide_eq_true_eq, Bool.not_eq_true'] at hflags
    obtain ⟨⟨harmed, hleft⟩, hdown⟩ := hflags
    exact ⟨w, hw, harmed, hleft, (timer_sole (watched_stepIf hw).of_restrict).2.2.2 hdown⟩

theorem challenge_timed_renewed :
    ∃ w, timedRun (timedClear linkAB 5) = some w ∧
      w.clock ≤ w.queued + timeoutChallengeRxSec + 5 ∧
      ∃ id, w.timers.armed = [(id, w.queued + timeoutChallengeRxSec)] ∧
        ∀ date, w.clock ≤ date → w.queued + timeoutChallengeRxSec ≤ date →
          ∃ w', w.apply linkAB (.fires id date) = some w' ∧ w'.session.peer.up = false := by
  obtain ⟨w, hw, hflags⟩ : ∃ w, timedRun (timedClear linkAB 5) = some w ∧
      (w.session.peer.up && w.session.peer.challengeRuns) = true := by
    apply (Option.any_eq_true _ _).mp
    decide
  rw [Bool.and_eq_true] at hflags
  exact ⟨w, hw, challenge_timed (by decide) (watched_stepIf hw) hflags.1 hflags.2⟩

end RsmpGateway.Cyber
