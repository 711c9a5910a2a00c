import Mathlib.Algebra.GroupWithZero.Nat
import Mathlib.Data.List.Flatten

/-!
# Terminated frames

A stream of symbols cut into frames by terminator symbols: a frame is a run of symbols that are
not terminators, followed by one terminator. `unframe` is the forward map (stream to frames, the
unfinished tail dropped) and `frame` the reverse one; `unframe_frames` says that the first
inverts the second.

Symbols and terminators are of any type. An empty run between two terminators is a frame as well.
-/

namespace RsmpGateway.Lib

variable {α : Type _}

/-- The frames of a stream, when `acc` was already read of the first one. -/
def unframeFrom (isTerm : α → Bool) (acc : List α) : List α → List (List α)
  | [] => []
  | c :: cs =>
    if isTerm c then acc :: unframeFrom isTerm [] cs else unframeFrom isTerm (acc ++ [c]) cs

/-- The complete frames of a stream, their terminators removed. -/
def unframe (isTerm : α → Bool) (cs : List α) : List (List α) := unframeFrom isTerm [] cs

/-- A payload and its terminator. -/
def frame (term : α) (p : List α) : List α := p ++ [term]

@[simp] theorem length_frame (term : α) (p : List α) : (frame term p).length = p.length + 1 := by
  simp [frame]

/-- A run without terminator only fills the accumulator. -/
theorem unframeFrom_append (isTerm : α → Bool) {p : List α} (hp : ∀ c ∈ p, isTerm c = false)
    (acc cs : List α) :
    unframeFrom isTerm acc (p ++ cs) = unframeFrom isTerm (acc ++ p) cs := by
  induction p generalizing acc with
  | nil => simp
  | cons a as ih =>
    have ha : isTerm a = false := hp a (by simp)
    have has : ∀ c ∈ as, isTerm c = false := fun c hc => hp c (by simp [hc])
    rw [List.cons_append, unframeFrom, ha, if_neg (by simp), ih has, List.append_assoc]
    rfl

/-- The first frame of a stream that starts with a framed payload. -/
theorem unframe_frame_append (isTerm : α → Bool) {term : α} (ht : isTerm term = true)
    {p : List α} (hp : ∀ c ∈ p, isTerm c = false) (cs : List α) :
    unframe isTerm (frame term p ++ cs) = p :: unframe isTerm cs := by
  rw [unframe, frame, List.append_assoc, unframeFrom_append isTerm hp]
  simp [unframeFrom, ht, unframe]

/-- **Framing round trip.** Payloads without terminator are found again, in order. -/
theorem unframe_frames (isTerm : α → Bool) {term : α} (ht : isTerm term = true) :
    ∀ {ps : List (List α)}, (∀ p ∈ ps, ∀ c ∈ p, isTerm c = false) →
      unframe isTerm (ps.flatMap (frame term)) = ps
  | [], _ => rfl
  | p :: ps, h => by
    have hp : ∀ c ∈ p, isTerm c = false := h p (by simp)
    have hps : ∀ q ∈ ps, ∀ c ∈ q, isTerm c = false := fun q hq => h q (by simp [hq])
    rw [List.flatMap_cons, unframe_frame_append isTerm ht hp, unframe_frames isTerm ht hps]

/-- Number of symbols that a list of frames takes on a stream. -/
def framesLength (ps : List (List α)) : Nat := (ps.map (·.length + 1)).sum

@[simp] theorem framesLength_nil : framesLength ([] : List (List α)) = 0 := rfl

@[simp] theorem framesLength_cons (p : List α) (ps : List (List α)) :
    framesLength (p :: ps) = p.length + 1 + framesLength ps := by
  simp [framesLength]

end RsmpGateway.Lib
