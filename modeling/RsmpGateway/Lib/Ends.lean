import Mathlib.Logic.Basic

/-!
# Postconditions

A computation ends well, with a result that has a property, or it stops. `Ends` says that the
result has the property, or that it is a stop of an allowed kind.

The rules follow the way a computation is built: a value, a stop, one computation after the
other, a choice, a list of them. With no stop allowed, `Ends` is total correctness.
-/

namespace RsmpGateway.Lib

universe u v

variable {ε : Type u} {α β : Type v} {stops : ε → Prop} {P : α → Prop} {Q : β → Prop}

/-- The result has the property `P`, or the stop is one of `stops`. -/
def Ends (stops : ε → Prop) (P : α → Prop) : Except ε α → Prop
  | .ok a => P a
  | .error e => stops e

namespace Ends

@[simp] theorem ok_iff {a : α} : Ends stops P (.ok a) ↔ P a := Iff.rfl

@[simp] theorem pure_iff {a : α} : Ends stops P (pure a) ↔ P a := Iff.rfl

@[simp] theorem error_iff {e : ε} : Ends stops P (.error e) ↔ stops e := Iff.rfl

/-- The rule of sequence. -/
theorem bind {x : Except ε α} {f : α → Except ε β} (hx : Ends stops P x)
    (hf : ∀ a, P a → Ends stops Q (f a)) : Ends stops Q (x >>= f) := by
  cases x with
  | ok a => exact hf a hx
  | error e => exact hx

/-- The rule of consequence. -/
theorem mono {P' : α → Prop} {x : Except ε α} (hx : Ends stops P x) (h : ∀ a, P a → P' a) :
    Ends stops P' x := by
  cases x with
  | ok a => exact h a hx
  | error e => exact hx

/-- The rule of conditionals. -/
theorem ite {c : Prop} [Decidable c] {x y : Except ε α} (hx : c → Ends stops P x)
    (hy : ¬ c → Ends stops P y) : Ends stops P (if c then x else y) := by
  split
  · next h => exact hx h
  · next h => exact hy h

/-- The rule of loops. -/
theorem mapM {γ : Type v} {f : γ → Except ε α} {xs : List γ}
    (h : ∀ x ∈ xs, Ends stops P (f x)) : Ends stops (fun as => ∀ a ∈ as, P a) (xs.mapM f) := by
  induction xs with
  | nil =>
    rw [List.mapM_nil, pure_iff]
    exact nofun
  | cons x xs ih =>
    obtain ⟨hx, hxs⟩ := List.forall_mem_cons.mp h
    rw [List.mapM_cons]
    refine hx.bind fun a ha => (ih hxs).bind fun as has => ?_
    exact List.forall_mem_cons.mpr ⟨ha, has⟩

theorem of_ok {x : Except ε α} {a : α} (h : Ends stops P x) (hx : x = .ok a) : P a := by
  rw [hx] at h
  exact h

theorem of_error {x : Except ε α} {e : ε} (h : Ends stops P x) (hx : x = .error e) : stops e := by
  rw [hx] at h
  exact h

end Ends

end RsmpGateway.Lib
