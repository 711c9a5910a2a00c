/-!
# Outcomes

What a call of the program comes to: a value, an error that it reports, or a fault (a failed
assertion, a null or wild pointer), after which the process does nothing more.

The three are a monad, in which the rest of a function is not reached after an error or a fault.
For the functions that go wrong on some of their inputs, `Decides` says on which ones, and what
they give on the others.
-/

namespace RsmpGateway.Lib

inductive Outcome (α : Type _)
  | ok (a : α)
  | err
  | fault
  deriving Repr, DecidableEq

namespace Outcome

variable {α β : Type _}

def bind (x : Outcome α) (f : α → Outcome β) : Outcome β :=
  match x with
  | ok a => f a
  | err => err
  | fault => fault

instance : Monad Outcome where
  pure := ok
  bind := bind

instance : LawfulMonad Outcome := by
  refine LawfulMonad.mk' _ ?_ ?_ ?_
  · intro _ x
    cases x <;> rfl
  · intro _ _ _ _
    rfl
  · intro _ _ _ x _ _
    cases x <;> rfl

/-- An option whose absence is an error. -/
def ofOption : Option α → Outcome α
  | some a => ok a
  | none => err

@[simp] theorem ok_bind (a : α) (f : α → Outcome β) : (ok a >>= f) = f a := rfl

@[simp] theorem err_bind (f : α → Outcome β) : ((err : Outcome α) >>= f) = err := rfl

@[simp] theorem fault_bind (f : α → Outcome β) : ((fault : Outcome α) >>= f) = fault := rfl

@[simp] theorem pure_eq (a : α) : (pure a : Outcome α) = ok a := rfl

theorem bind_eq_ok {x : Outcome α} {f : α → Outcome β} {b : β} :
    (x >>= f) = ok b ↔ ∃ a, x = ok a ∧ f a = ok b := by
  cases x with
  | ok a => simp
  | err => simp
  | fault => simp

theorem bind_eq_fault {x : Outcome α} {f : α → Outcome β} :
    (x >>= f) = fault ↔ x = fault ∨ ∃ a, x = ok a ∧ f a = fault := by
  cases x with
  | ok a => simp
  | err => simp
  | fault => simp

/-- What goes wrong is not what comes first, when this has no fault. -/
theorem bind_fault {x : Outcome α} {f : α → Outcome β} (hx : x ≠ fault)
    (h : (x >>= f) = fault) : ∃ a, x = ok a ∧ f a = fault :=
  (bind_eq_fault.mp h).resolve_left hx

theorem ofOption_ne_fault (x : Option α) : ofOption x ≠ fault := by
  cases x <;> exact nofun

theorem ofOption_eq_ok {x : Option α} {a : α} : ofOption x = ok a ↔ x = some a := by
  cases x <;> simp [ofOption]

/-! ## Computations that go wrong under a condition

Conditions are put together as the computations are. -/

/-- The computation gives `a` where `P` holds, and goes wrong elsewhere. -/
def Decides (x : Outcome α) (P : Prop) (a : α) : Prop :=
  (P ∧ x = ok a) ∨ (¬ P ∧ x = fault)

variable {x : Outcome α} {P Q : Prop} {a : α} {b : β}

theorem Decides.congr (h : x.Decides P a) (hPQ : P ↔ Q) : x.Decides Q a := by
  rw [Decides, ← hPQ]
  exact h

theorem Decides.eq_ok (h : x.Decides P a) (hP : P) : x = .ok a := by
  rcases h with ⟨-, h⟩ | ⟨hnot, -⟩
  · exact h
  · exact absurd hP hnot

theorem Decides.eq_fault (h : x.Decides P a) (hP : ¬ P) : x = fault := by
  rcases h with ⟨hP', -⟩ | ⟨-, h⟩
  · exact absurd hP' hP
  · exact h

/-- The rule of sequence. -/
theorem Decides.bind {f : α → Outcome β} (hx : x.Decides P a) (hf : (f a).Decides Q b) :
    (x >>= f).Decides (P ∧ Q) b := by
  rcases hx with ⟨hP, rfl⟩ | ⟨hP, rfl⟩
  · rcases hf with ⟨hQ, h⟩ | ⟨hQ, h⟩
    · exact .inl ⟨⟨hP, hQ⟩, h⟩
    · exact .inr ⟨fun hPQ => hQ hPQ.2, h⟩
  · exact .inr ⟨fun hPQ => hP hPQ.1, rfl⟩

theorem Decides.map (hx : x.Decides P a) (g : α → β) :
    (x >>= fun a => pure (g a)).Decides P (g a) := by
  rcases hx with ⟨hP, rfl⟩ | ⟨hP, rfl⟩
  · exact .inl ⟨hP, rfl⟩
  · exact .inr ⟨hP, rfl⟩

/-- A list is gone through as far as its elements let it. -/
theorem Decides.mapM {f : α → Outcome β} {R : α → Prop} {g : α → β} (l : List α)
    (h : ∀ a, (f a).Decides (R a) (g a)) : (l.mapM f).Decides (∀ a ∈ l, R a) (l.map g) := by
  induction l with
  | nil => exact .inl ⟨nofun, rfl⟩
  | cons a l ih =>
    rw [List.mapM_cons]
    exact ((h a).bind (ih.map _)).congr (by simp)

end Outcome

end RsmpGateway.Lib
