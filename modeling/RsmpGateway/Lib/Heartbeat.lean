import Mathlib.Data.List.Chain
import RsmpGateway.Lib.System

/-!
# Heartbeats

A sender puts beats on a line, and a receiver takes them from it in order. Where the sender is
never silent for more than a gap, and no beat stays on the line for more than a delay, the
receiver has always heard one within the gap and the delay (`recent_reachable`).

The conditions are on the runs: a step that comes too late is not one of theirs (`Timely`). The
invariant looks at the oldest beat on the line, or at the last one sent where the line is empty.
-/

namespace RsmpGateway.Lib.Heartbeat

/-- The date, the beats on the line and the last one that was taken, by the dates when they were
sent, and the date when the receiver took it. -/
structure State where
  clock : Int
  taken : Int
  line : List Int
  heard : Int

inductive Event
  | send (t : Int) (beats : Nat)
  | hear (t : Int)

def Event.date : Event → Int
  | send t _ => t
  | hear t => t

/-- The last beat that was sent. -/
def State.last (s : State) : Int := s.line.getLastD s.taken

inductive Step : State → Event → State → Prop
  | send {s t} (beats) : s.clock ≤ t →
    Step s (.send t beats) { s with clock := t, line := s.line ++ List.replicate beats t }
  | hear {s t b rest} : s.clock ≤ t → s.line = b :: rest →
    Step s (.hear t) ⟨t, b, rest, t⟩

def system : System State Event where
  init s := s.line = [] ∧ s.taken ≤ s.heard ∧ s.heard ≤ s.clock
  step := Step

/-- The sender was not silent for more than the gap, and nothing stays on the line for more than
the delay. -/
structure Timely (gap delay : Int) (s : State) (t : Int) : Prop where
  sender : t ≤ s.last + gap
  line : ∀ b ∈ s.line, t ≤ b + delay

/-- The runs that are in time. -/
def timely (gap delay : Int) : System State Event :=
  system.restrict fun s e => Timely gap delay s e.date

variable {gap delay : Int}

/-- The beats follow each other within the gap, and none was taken before it was sent. -/
structure Steady (gap : Int) (s : State) : Prop where
  chain : (s.taken :: s.line).IsChain fun a b => b ≤ a + gap
  sent : ∀ b ∈ s.line, b ≤ s.clock
  taken : s.taken ≤ s.heard
  heard : s.heard ≤ s.clock

theorem Steady.step (hgap : 0 ≤ gap) {s s' : State} {e : Event} (hs : Steady gap s)
    (htimely : Timely gap delay s e.date) (h : Step s e s') : Steady gap s' := by
  cases h with
  | @send t beats hclock =>
    have hlast : ∀ a ∈ (s.taken :: s.line).getLast?, a = s.last := by
      intro a ha
      rw [List.getLast?_cons, Option.mem_some_iff] at ha
      rw [State.last, ← ha, List.getLastD_eq_getLast?]
    have happend : ((s.taken :: s.line) ++ List.replicate beats t).IsChain
        fun a b => b ≤ a + gap := by
      refine List.isChain_append.mpr ⟨hs.chain, ?_, ?_⟩
      · exact List.isChain_replicate_of_rel beats (by omega)
      · intro a ha b hb
        rw [hlast a ha, List.eq_of_mem_replicate (List.mem_of_mem_head? hb)]
        exact htimely.sender
    refine ⟨happend, ?_, hs.taken, Int.le_trans hs.heard hclock⟩
    intro b hb
    rcases List.mem_append.mp hb with hb | hb
    · exact Int.le_trans (hs.sent b hb) hclock
    · exact Int.le_of_eq (List.eq_of_mem_replicate hb)
  | @hear t b rest hclock hline =>
    have hchain := hs.chain
    have hsent := hs.sent
    rw [hline] at hchain hsent
    obtain ⟨hb, hrest⟩ := List.forall_mem_cons.mp hsent
    refine ⟨hchain.tail, ?_, Int.le_trans hb hclock, Int.le_refl t⟩
    intro b' hb'
    exact Int.le_trans (hrest b' hb') hclock

/-- **Something was heard within the gap and the delay.** -/
theorem Steady.recent (hdelay : 0 ≤ delay) {s : State} {t : Int} (hs : Steady gap s)
    (htimely : Timely gap delay s t) : t ≤ s.heard + gap + delay := by
  have htaken := hs.taken
  have hsender := htimely.sender
  have hchain := hs.chain
  have hline := htimely.line
  unfold State.last at hsender
  cases hcases : s.line with
  | nil =>
    rw [hcases, List.getLastD_nil] at hsender
    omega
  | cons b rest =>
    rw [hcases, List.isChain_cons_cons] at hchain
    have hb := hline b (hcases ▸ List.mem_cons_self)
    omega

theorem steady_reachable (hgap : 0 ≤ gap) {s : State} (h : (timely gap delay).Reachable s) :
    Steady gap s := by
  refine h.invariant ?_ fun s e s' hs hstep => hs.step hgap hstep.2 hstep.1
  rintro s ⟨hline, htaken, hheard⟩
  refine ⟨hline ▸ .singleton _, ?_, htaken, hheard⟩
  intro b hb
  rw [hline] at hb
  cases hb

/-- **In every run in time**, at any date that is in time. -/
theorem recent_reachable (hgap : 0 ≤ gap) (hdelay : 0 ≤ delay) {s : State} {t : Int}
    (h : (timely gap delay).Reachable s) (htimely : Timely gap delay s t) :
    t ≤ s.heard + gap + delay :=
  (steady_reachable hgap h).recent hdelay htimely

/-! ## The last beat

What the sender knows of its own beats. -/

theorem Steady.last_le {s : State} (hs : Steady gap s) : s.last ≤ s.clock := by
  rw [State.last, List.getLastD_eq_getLast?]
  cases hlast : s.line.getLast? with
  | none => exact Int.le_trans hs.taken hs.heard
  | some b => exact hs.sent b (List.mem_of_getLast? hlast)

/-- It is the one that was just sent, if one was. -/
theorem last_send (s : State) (t : Int) (beats : Nat) :
    State.last { s with clock := t, line := s.line ++ List.replicate beats t } =
      if beats = 0 then s.last else t := by
  simp only [State.last, List.getLastD_eq_getLast?, List.getLast?_append]
  cases beats with
  | zero => rfl
  | succ beats => simp [List.getLast?_replicate]

end RsmpGateway.Lib.Heartbeat
