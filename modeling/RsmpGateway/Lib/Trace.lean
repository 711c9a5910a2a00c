import Mathlib.Data.List.Basic

/-!
# Computations that leave a trace

A computation works on a state and performs events, one after the other, unless it stops.
`Leaves` says that it comes to its end from every state, with a result and with events that have
a property: the events before it play no part. `Yields` says what they are wherever it comes to
its end.

`Leaves` is total, and `Yields` partial correctness; both have a rule for each way in which a
computation is built, and their properties are on the events of the parts put one after the
other.
-/

namespace RsmpGateway.Lib

universe u

/-- A state, and the events so far. -/
structure Traced (σ ev : Type u) where
  state : σ
  trace : List ev

abbrev TraceM (ε σ ev : Type u) : Type u → Type u := StateT (Traced σ ev) (Except ε)

namespace TraceM

variable {ε σ ev α β : Type u}

/-- Work on the state, and perform an event. -/
def perform (e : ev) (f : σ → α × σ) : TraceM ε σ ev α := fun t =>
  .ok ((f t.state).1, ⟨(f t.state).2, t.trace ++ [e]⟩)

/-- The computation ends, with a result and events that have the property. -/
def Leaves (P : α → List ev → Prop) (c : TraceM ε σ ev α) : Prop :=
  ∀ t : Traced σ ev, ∃ a es s, c t = .ok (a, ⟨s, t.trace ++ es⟩) ∧ P a es

variable {P : α → List ev → Prop} {Q : β → List ev → Prop}

theorem Leaves.pure {a : α} (h : P a []) : Leaves P (pure a : TraceM ε σ ev α) := by
  intro t
  refine ⟨a, [], t.state, ?_, h⟩
  rw [List.append_nil]
  rfl

/-- The rule of sequence: the events of the second part come after those of the first. -/
theorem Leaves.bind {c : TraceM ε σ ev α} {f : α → TraceM ε σ ev β} (hc : Leaves P c)
    (hf : ∀ a es, P a es → Leaves (fun b es' => Q b (es ++ es')) (f a)) : Leaves Q (c >>= f) := by
  intro t
  obtain ⟨a, es, s, hrun, ha⟩ := hc t
  obtain ⟨b, es', s', hrun', hb⟩ := hf a es ha ⟨s, t.trace ++ es⟩
  refine ⟨b, es ++ es', s', ?_, hb⟩
  calc (c >>= f) t
      = f a ⟨s, t.trace ++ es⟩ := by
        show (c t >>= fun r => f r.1 r.2) = _
        rw [hrun]
        rfl
    _ = .ok (b, ⟨s', t.trace ++ (es ++ es')⟩) := by rw [hrun', List.append_assoc]

/-- The rule of consequence. -/
theorem Leaves.mono {P' : α → List ev → Prop} {c : TraceM ε σ ev α} (hc : Leaves P c)
    (h : ∀ a es, P a es → P' a es) : Leaves P' c := by
  intro t
  obtain ⟨a, es, s, hrun, ha⟩ := hc t
  exact ⟨a, es, s, hrun, h a es ha⟩

theorem Leaves.perform {e : ev} {f : σ → α × σ} (h : ∀ s, P (f s).1 [e]) :
    Leaves P (perform e f : TraceM ε σ ev α) := by
  intro t
  exact ⟨_, [e], _, rfl, h t.state⟩

/-- What does not stop, and does not look at the state. -/
theorem Leaves.bind_ok {x : Except ε α} {a : α} {f : α → TraceM ε σ ev β} (hx : x = .ok a)
    (hf : Leaves Q (f a)) : Leaves Q ((liftM x : TraceM ε σ ev α) >>= f) := by
  subst hx
  exact hf

/-! ## Where it ends

The rules once more, for computations that may stop. -/

/-- Wherever the computation comes to its end, its result and its events have the property. -/
def Yields (P : α → List ev → Prop) (c : TraceM ε σ ev α) : Prop :=
  ∀ t a t', c t = .ok (a, t') → ∃ es, t'.trace = t.trace ++ es ∧ P a es

theorem Yields.pure {a : α} (h : P a []) : Yields P (pure a : TraceM ε σ ev α) := by
  intro t a' t' hrun
  cases hrun
  exact ⟨[], (List.append_nil _).symm, h⟩

theorem Yields.throw (e : ε) : Yields P (throw e : TraceM ε σ ev α) := by
  intro t a t' hrun
  cases hrun

/-- The rule of sequence. -/
theorem Yields.bind {c : TraceM ε σ ev α} {f : α → TraceM ε σ ev β} (hc : Yields P c)
    (hf : ∀ a es, P a es → Yields (fun b es' => Q b (es ++ es')) (f a)) : Yields Q (c >>= f) := by
  intro t b t' hrun
  change (c t >>= fun r => f r.1 r.2) = .ok (b, t') at hrun
  cases hfirst : c t with
  | error e =>
    rw [hfirst] at hrun
    cases hrun
  | ok r =>
    obtain ⟨a, t₁⟩ := r
    rw [hfirst] at hrun
    obtain ⟨es, hes, ha⟩ := hc t a t₁ hfirst
    obtain ⟨es', hes', hb⟩ := hf a es ha t₁ b t' hrun
    refine ⟨es ++ es', ?_, hb⟩
    rw [hes', hes, List.append_assoc]

/-- The rule of consequence. -/
theorem Yields.mono {P' : α → List ev → Prop} {c : TraceM ε σ ev α} (hc : Yields P c)
    (h : ∀ a es, P a es → P' a es) : Yields P' c := by
  intro t a t' hrun
  obtain ⟨es, hes, ha⟩ := hc t a t' hrun
  exact ⟨es, hes, h a es ha⟩

theorem Yields.perform {e : ev} {f : σ → α × σ} (h : ∀ s, P (f s).1 [e]) :
    Yields P (perform e f : TraceM ε σ ev α) := by
  intro t a t' hrun
  cases hrun
  exact ⟨[e], rfl, h t.state⟩

/-- What looks at no state goes on where it does not stop. -/
theorem Yields.bind_except {x : Except ε α} {f : α → TraceM ε σ ev β}
    (hf : ∀ a, x = .ok a → Yields Q (f a)) : Yields Q ((liftM x : TraceM ε σ ev α) >>= f) := by
  cases hx : x with
  | error e =>
    intro t b t' hrun
    cases hrun
  | ok a => exact hf a hx

/-- The same computation, with events of another kind in the place of each event. -/
def relabel {ev' : Type u} (f : ev → List ev') (c : TraceM ε σ ev α) : TraceM ε σ ev' α := fun t =>
  match c ⟨t.state, []⟩ with
  | .ok (a, t') => .ok (a, ⟨t'.state, t.trace ++ t'.trace.flatMap f⟩)
  | .error e => .error e

theorem Yields.relabel {ev' : Type u} {f : ev → List ev'} {P' : α → List ev' → Prop}
    {c : TraceM ε σ ev α} (hc : Yields P c) (h : ∀ a es, P a es → P' a (es.flatMap f)) :
    Yields P' (c.relabel f) := by
  intro t a t' hrun
  unfold TraceM.relabel at hrun
  split at hrun
  · next a' t₁ hinner =>
    cases hrun
    obtain ⟨es, hes, ha⟩ := hc _ _ _ hinner
    refine ⟨es.flatMap f, ?_, h _ _ ha⟩
    rw [hes, List.nil_append]
  · cases hrun

end TraceM

/-! ## Histories

A property of each event of a history that depends on those before it. -/

section Each

variable {α : Type u} {P : List α → α → Prop} {es : List α}

/-- Every event of the history has the property, after those before it. -/
def Each (P : List α → α → Prop) (es : List α) : Prop :=
  ∀ before e after, es = before ++ e :: after → P before e

theorem Each.nil : Each P [] := by
  intro before e after h
  exact absurd h.symm (List.append_ne_nil_of_right_ne_nil _ (List.cons_ne_nil _ _))

theorem Each.snoc {e : α} (h : Each P es) (he : P es e) : Each P (es ++ [e]) := by
  intro before e' after heq
  rcases List.eq_nil_or_concat after with rfl | ⟨after, last, rfl⟩
  · obtain ⟨rfl, hlast⟩ := List.append_inj' heq rfl
    cases hlast
    exact he
  · rw [List.concat_eq_append, ← List.cons_append, ← List.append_assoc] at heq
    obtain ⟨hes, -⟩ := List.append_inj' heq rfl
    exact h before e' after hes

end Each

end RsmpGateway.Lib
