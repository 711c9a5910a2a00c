/-!
# State machines

A state machine has initial states and labelled steps. What holds at the start and is kept by
every step holds in every reachable state (`Reachable.invariant`); a machine can be restricted to
the steps that meet a condition, and what is reached that way is reached by the runs whose steps
all meet it.

States and labels are of any type. A machine may be nondeterministic: a step is a relation.
-/

namespace RsmpGateway.Lib

/-- Initial states and labelled steps. -/
structure System (σ : Type _) (ε : Type _) where
  init : σ → Prop
  step : σ → ε → σ → Prop

namespace System

variable {σ : Type _} {ε : Type _}

/-- The states reached from an initial one. -/
inductive Reachable (T : System σ ε) : σ → Prop
  | init {s} : T.init s → Reachable T s
  | step {s e s'} : Reachable T s → T.step s e s' → Reachable T s'

theorem Reachable.next {T : System σ ε} {s s' : σ} (h : T.Reachable s) (e : ε)
    (hs : T.step s e s') : T.Reachable s' :=
  .step h hs

/-- **Induction over runs.** -/
theorem Reachable.invariant {T : System σ ε} {P : σ → Prop} (h0 : ∀ s, T.init s → P s)
    (hstep : ∀ s e s', P s → T.step s e s' → P s') {s : σ} (h : T.Reachable s) : P s := by
  induction h with
  | init hs => exact h0 _ hs
  | step _ hs ih => exact hstep _ _ _ ih hs

/-- What a partial step function reaches, one label after the other. -/
theorem Reachable.foldlM {T : System σ ε} {f : σ → ε → Option σ}
    (hf : ∀ s e s', f s e = some s' → T.step s e s') {es : List ε} {s s' : σ}
    (hs : T.Reachable s) (h : es.foldlM f s = some s') : T.Reachable s' := by
  induction es generalizing s with
  | nil =>
    cases h
    exact hs
  | cons e es ih =>
    obtain ⟨s₁, he, hrest⟩ := Option.bind_eq_some_iff.mp h
    exact ih (.step hs (hf s e s₁ he)) hrest

/-- The runs that go on from a state. -/
def startingAt (T : System σ ε) (s : σ) : System σ ε := { T with init := (· = s) }

/-- The steps that meet a condition on the state before and on the label. -/
def restrict (T : System σ ε) (ok : σ → ε → Prop) : System σ ε where
  init := T.init
  step s e s' := T.step s e s' ∧ ok s e

/-- The runs of the restriction are runs. -/
theorem Reachable.of_restrict {T : System σ ε} {ok : σ → ε → Prop} {s : σ}
    (h : (T.restrict ok).Reachable s) : T.Reachable s := by
  induction h with
  | init hs => exact .init hs
  | step _ hs ih => exact .step ih hs.1

/-- A condition that every step meets restricts nothing. -/
theorem Reachable.to_restrict {T : System σ ε} {ok : σ → ε → Prop} (hok : ∀ s e, ok s e) {s : σ}
    (h : T.Reachable s) : (T.restrict ok).Reachable s := by
  induction h with
  | init hs => exact .init hs
  | step _ hs ih => exact .step ih ⟨hs, hok _ _⟩

/-! ## Simulation

Each step of one machine is a number of steps of the other, from related states to related
states. -/

/-- The states reached by a list of labels. -/
inductive Run (T : System σ ε) : List ε → σ → Prop
  | nil {s} : T.init s → Run T [] s
  | snoc {es s e s'} : Run T es s → T.step s e s' → Run T (es ++ [e]) s'

/-- **Simulation.** What is related at the start, and by every step, is related by every run. -/
theorem Run.simulate {τ : Type _} {T : System σ ε} {U : System τ ε} {R : σ → τ → Prop}
    (h0 : ∀ s, T.init s → ∃ t, U.init t ∧ R s t)
    (hstep : ∀ {s e s' t}, R s t → T.step s e s' → ∃ t', U.step t e t' ∧ R s' t') {es : List ε}
    {s : σ} (h : T.Run es s) : ∃ t, U.Run es t ∧ R s t := by
  induction h with
  | nil hs =>
    obtain ⟨t, ht, hR⟩ := h0 _ hs
    exact ⟨t, .nil ht, hR⟩
  | snoc _ hs ih =>
    obtain ⟨t, ht, hR⟩ := ih
    obtain ⟨t', ht', hR'⟩ := hstep hR hs
    exact ⟨t', .snoc ht ht', hR'⟩

end System

end RsmpGateway.Lib
