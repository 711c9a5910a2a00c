import Mathlib.Algebra.BigOperators.Group.List.Basic
import Mathlib.Algebra.GroupWithZero.Nat
import Mathlib.Logic.Function.Basic
import RsmpGateway.Lib.System

/-!
# Dialogues

Two parties exchange messages. Each of them may send a message of its own at any time; it treats
those of the other one in order, and replies to each of them. The link may refuse a reply.

What a reply pays for is due to the message that it replies to: in every run, what was paid is
what was due (`balanced_run`). Where the replies to a message weigh less than it does, the
parties treat no more messages than the weight of what they sent by themselves (`bounded_run`).

Messages, dues and weights are of the one who uses this. A due is a number for each thing that
may be paid, so that a message may be due several things and a reply may pay for them in part.
-/

namespace RsmpGateway.Lib

inductive Party
  | left
  | right
  deriving DecidableEq

def Party.other : Party → Party
  | left => right
  | right => left

@[simp] theorem Party.other_other (p : Party) : p.other.other = p := by
  cases p <;> rfl

theorem Party.eq_or_eq_other (p q : Party) : p = q ∨ p = q.other := by
  cases p <;> cases q <;> decide

theorem Party.other_ne (p : Party) : p.other ≠ p := by
  cases p <;> decide

namespace Dialogue

variable {σ π τ : Type _}

/-- The state of the parties, the messages on their way to each, what each has treated and with
what outcome, what each sent by itself, and the replies of each that were refused. -/
structure State (σ π τ : Type _) where
  host : Party → σ
  inbox : Party → List π
  treated : Party → List (π × τ)
  sent : Party → List π
  refused : Party → List π

inductive Event (π : Type _)
  | send (p : Party) (m : π)
  | treat (p : Party)

/-- A party sends a message by itself. -/
def State.send (s : State σ π τ) (p : Party) (m : π) : State σ π τ :=
  { s with
    inbox := Function.update s.inbox p.other (s.inbox p.other ++ [m])
    sent := Function.update s.sent p (s.sent p ++ [m]) }

/-- A party has treated a message: the replies that the link takes, and those that it refuses. -/
def State.reply (s : State σ π τ) (p : Party) (h : σ) (m : π) (rest : List π) (outcome : τ)
    (taken lost : List π) : State σ π τ :=
  { s with
    host := Function.update s.host p h
    inbox := Function.update (Function.update s.inbox p rest) p.other (s.inbox p.other ++ taken)
    treated := Function.update s.treated p (s.treated p ++ [(m, outcome)])
    refused := Function.update s.refused p (s.refused p ++ lost) }

variable (Replies : σ → π → τ → List π → σ → Prop)

inductive Step : State σ π τ → Event π → State σ π τ → Prop
  | send {s} (p m) : Step s (.send p m) (s.send p m)
  | treat {s p m rest outcome replies h taken lost} : s.inbox p = m :: rest →
    Replies (s.host p) m outcome replies h → replies.Perm (taken ++ lost) →
    Step s (.treat p) (s.reply p h m rest outcome taken lost)

/-- Nothing was sent yet. -/
def start (host : Party → σ) : State σ π τ :=
  ⟨host, fun _ => [], fun _ => [], fun _ => [], fun _ => []⟩

/-- The runs of two parties. -/
def system : System (State σ π τ) (Event π) where
  init s := ∃ host, s = start host
  step := Step Replies

variable {Replies}

/-! ## Sums

Of a weight over a list. -/

/-- The sum of what the messages are worth. -/
def total (f : π → Nat) (ms : List π) : Nat := (ms.map f).sum

section Total

variable (f : π → Nat)

@[simp] theorem total_nil : total f [] = 0 := rfl

@[simp] theorem total_cons (m : π) (ms : List π) : total f (m :: ms) = f m + total f ms := by
  simp [total]

@[simp] theorem total_append (ms ms' : List π) :
    total f (ms ++ ms') = total f ms + total f ms' := by
  simp [total]

theorem total_perm {f : π → Nat} {ms ms' : List π} (h : ms.Perm ms') : total f ms = total f ms' :=
  (h.map f).sum_eq

end Total

/-! ## What is due

The two sides of a balance change together when a message is treated: by what is due to it, and
by what its replies pay, given or refused. -/

section Balance

variable (paid : π → Nat) (due : τ → Nat)

/-- What the replies of the other party have paid: to messages that were treated, on their way,
or refused; it is due to what that party has treated, next to what it sent by itself. -/
def State.Balanced (s : State σ π τ) (p : Party) : Prop :=
  total (paid ∘ Prod.fst) (s.treated p) + total paid (s.inbox p) + total paid (s.refused p.other) =
    total (due ∘ Prod.snd) (s.treated p.other) + total paid (s.sent p.other)

variable {paid due}

theorem Balanced.start (host : Party → σ) (p : Party) :
    (start host : State σ π τ).Balanced paid due p := rfl

theorem Balanced.step (hreplies : ∀ h m outcome replies h', Replies h m outcome replies h' →
      total paid replies = due outcome) {s s' : State σ π τ} {e : Event π}
    (hs : ∀ p, s.Balanced paid due p) (h : Step Replies s e s') (p : Party) :
    s'.Balanced paid due p := by
  have hp := hs p
  have hother := p.other_ne
  unfold State.Balanced at hp ⊢
  cases h with
  | send q m =>
    rcases q.eq_or_eq_other p with rfl | rfl
    · simpa [State.send, hother, hother.symm] using hp
    · simp only [State.send, Party.other_other, Function.update_self, total_append, total_cons,
        total_nil]
      omega
  | @treat q m rest outcome replies h taken lost hinbox hreply hperm =>
    have hdue := hreplies _ _ _ _ _ hreply
    rw [total_perm hperm, total_append] at hdue
    rcases q.eq_or_eq_other p with rfl | rfl
    · -- the message leaves the inbox of the party
      rw [hinbox] at hp
      simp only [State.reply, Function.update_self, Function.update_of_ne hother,
        Function.update_of_ne hother.symm, total_append, total_cons, total_nil,
        Function.comp_apply] at hp ⊢
      omega
    · simp only [State.reply, Party.other_other, Function.update_self,
        Function.update_of_ne hother.symm, total_append, total_cons, total_nil,
        Function.comp_apply] at hp ⊢
      omega

/-- **What was paid is what was due.** -/
theorem balanced_run (hreplies : ∀ h m outcome replies h', Replies h m outcome replies h' →
      total paid replies = due outcome) {es : List (Event π)} {s : State σ π τ}
    (h : (system Replies).Run es s) (p : Party) : s.Balanced paid due p := by
  induction h generalizing p with
  | nil hs =>
    obtain ⟨host, rfl⟩ := hs
    exact Balanced.start host p
  | snoc _ hstep ih => exact Balanced.step hreplies ih hstep p

end Balance

/-! ## How long it lasts

What is left to treat loses the weight of a message, and gains that of its replies. -/

section Bounded

variable (weight : π → Nat)

/-- The weight of what is on its way. -/
def State.pending (s : State σ π τ) : Nat :=
  total weight (s.inbox .left) + total weight (s.inbox .right)

/-- What was treated. -/
def State.turns (s : State σ π τ) : Nat := (s.treated .left).length + (s.treated .right).length

/-- The weight of what the parties sent by themselves. -/
def State.offered (s : State σ π τ) : Nat :=
  total weight (s.sent .left) + total weight (s.sent .right)

variable {weight}

theorem bounded_step (hreplies : ∀ h m outcome replies h', Replies h m outcome replies h' →
      total weight replies < weight m) {s s' : State σ π τ} {e : Event π}
    (hs : s.turns + s.pending weight ≤ s.offered weight) (h : Step Replies s e s') :
    s'.turns + s'.pending weight ≤ s'.offered weight := by
  cases h with
  | send q m =>
    cases q <;>
      simp only [State.turns, State.pending, State.offered, State.send, Party.other,
        Function.update_apply, reduceCtorEq, if_true, if_false, total_append, total_cons,
        total_nil] at hs ⊢ <;>
      omega
  | @treat q m rest outcome replies h taken lost hinbox hreply hperm =>
    have hless := hreplies _ _ _ _ _ hreply
    rw [total_perm hperm, total_append] at hless
    cases q <;>
      simp only [State.turns, State.pending, State.offered, State.reply, Party.other, hinbox,
        Function.update_apply, reduceCtorEq, if_true, if_false, total_append, total_cons,
        List.length_append, List.length_singleton] at hs ⊢ <;>
      omega

/-- **The parties come to rest.** -/
theorem bounded_run (hreplies : ∀ h m outcome replies h', Replies h m outcome replies h' →
      total weight replies < weight m) {es : List (Event π)} {s : State σ π τ}
    (h : (system Replies).Run es s) : s.turns + s.pending weight ≤ s.offered weight := by
  induction h with
  | nil hs =>
    obtain ⟨host, rfl⟩ := hs
    exact Nat.le_of_eq rfl
  | snoc _ hstep ih => exact bounded_step hreplies ih hstep

end Bounded

end Dialogue

end RsmpGateway.Lib
