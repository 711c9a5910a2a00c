import Mathlib.Data.List.Forall2

/-!
# Lists of computations

A computation for each item of a list, one after the other: all of them end well, or the first
one that does not ends the whole. The computations are in `Except`, or in `Option`.

Decoders are of this kind: an array of a payload is decoded item by item, an object member by
member. The lemmas come in two forms. `..._eq_ok` and `..._eq_error` say what is known when a
list of computations has ended in a certain way; `..._iff` say when it ends in a way that is
asked for, and are used to carry an equivalence from the items to the list.
-/

namespace RsmpGateway.Lib

universe u

variable {ε : Type _} {α β : Type u}

theorem Except.bind_eq_ok {x : Except ε α} {f : α → Except ε β} {b : β} :
    (x >>= f) = .ok b ↔ ∃ a, x = .ok a ∧ f a = .ok b := by
  constructor
  · intro h
    cases x with
    | ok a => exact ⟨a, rfl, h⟩
    | error e => exact absurd h nofun
  · rintro ⟨a, rfl, h⟩
    exact h

theorem Except.bind_eq_error {x : Except ε α} {f : α → Except ε β} {e : ε} :
    (x >>= f) = .error e ↔ x = .error e ∨ ∃ a, x = .ok a ∧ f a = .error e := by
  constructor
  · intro h
    cases x with
    | ok a => exact .inr ⟨a, rfl, h⟩
    | error e' =>
      cases h
      exact .inl rfl
  · rintro (rfl | ⟨a, rfl, h⟩)
    · rfl
    · exact h

/-! ## Two computations

The second one is run where the first has ended well. What is asked of their results can be asked
one by one. -/

/-- Two computations, one after the other. -/
theorem pair_eq_ok {x : Except ε α} {y : Except ε β} {a : α} {b : β} :
    (do let a ← x; let b ← y; return (a, b)) = .ok (a, b) ↔ x = .ok a ∧ y = .ok b := by
  rw [Except.bind_eq_ok]
  constructor
  · rintro ⟨a', hx, h⟩
    obtain ⟨b', hy, h⟩ := Except.bind_eq_ok.mp h
    cases h
    exact ⟨hx, hy⟩
  · rintro ⟨hx, hy⟩
    exact ⟨a, hx, Except.bind_eq_ok.mpr ⟨b, hy, rfl⟩⟩

theorem pair_ok_iff {x : Except ε α} {y : Except ε β} :
    (∃ r, (do let a ← x; let b ← y; return (a, b)) = .ok r) ↔
      (∃ a, x = .ok a) ∧ ∃ b, y = .ok b := by
  constructor
  · rintro ⟨⟨a, b⟩, h⟩
    obtain ⟨hx, hy⟩ := pair_eq_ok.mp h
    exact ⟨⟨a, hx⟩, b, hy⟩
  · rintro ⟨⟨a, hx⟩, b, hy⟩
    exact ⟨(a, b), pair_eq_ok.mpr ⟨hx, hy⟩⟩

/-- Two computations whose results are asked something each. -/
theorem pair_ok_and_iff {x : Except ε α} {y : Except ε β} {P : α → Prop} {Q : β → Prop} :
    (∃ r : α × β, (do let a ← x; let b ← y; return (a, b)) = .ok r ∧ P r.1 ∧ Q r.2) ↔
      (∃ a, x = .ok a ∧ P a) ∧ ∃ b, y = .ok b ∧ Q b := by
  constructor
  · rintro ⟨⟨a, b⟩, h, hP, hQ⟩
    obtain ⟨hx, hy⟩ := pair_eq_ok.mp h
    exact ⟨⟨a, hx, hP⟩, b, hy, hQ⟩
  · rintro ⟨⟨a, hx, hP⟩, b, hy, hQ⟩
    exact ⟨(a, b), pair_eq_ok.mpr ⟨hx, hy⟩, hP, hQ⟩

theorem pair_eq_error {x : Except ε α} {y : Except ε β} {e : ε} :
    (do let a ← x; let b ← y; return (a, b)) = .error e ↔
      x = .error e ∨ (∃ a, x = .ok a) ∧ y = .error e := by
  rw [Except.bind_eq_error]
  apply or_congr Iff.rfl
  constructor
  · rintro ⟨a, hx, h⟩
    rcases Except.bind_eq_error.mp h with hy | ⟨b, -, h⟩
    · exact ⟨⟨a, hx⟩, hy⟩
    · cases h
  · rintro ⟨⟨a, hx⟩, hy⟩
    exact ⟨a, hx, Except.bind_eq_error.mpr (.inl hy)⟩

/-! ## A computation for each item

By induction on the list. All results are there, in the order of the items, or the computation
ends at the first item that has none, and those before it had one. -/

/-- All end well. -/
theorem mapM_eq_ok {f : α → Except ε β} {xs : List α} {ys : List β} :
    xs.mapM f = .ok ys ↔ List.Forall₂ (fun x y => f x = .ok y) xs ys := by
  induction xs generalizing ys with
  | nil =>
    rw [List.mapM_nil, List.forall₂_nil_left_iff]
    exact ⟨fun h => (Except.ok.inj h).symm, fun h => congrArg _ h.symm⟩
  | cons x xs ih =>
    rw [List.mapM_cons, Except.bind_eq_ok]
    constructor
    · rintro ⟨y, hy, h⟩
      obtain ⟨ys', hys, h⟩ := Except.bind_eq_ok.mp h
      cases h
      exact .cons hy (ih.mp hys)
    · intro h
      cases h with
      | cons hy hys => exact ⟨_, hy, Except.bind_eq_ok.mpr ⟨_, ih.mpr hys, rfl⟩⟩

theorem mapM_ok_iff {f : α → Except ε β} {xs : List α} :
    (∃ ys, xs.mapM f = .ok ys) ↔ ∀ x ∈ xs, ∃ y, f x = .ok y := by
  induction xs with
  | nil => exact ⟨fun _ => nofun, fun _ => ⟨[], rfl⟩⟩
  | cons x xs ih =>
    rw [List.forall_mem_cons, ← ih, List.mapM_cons]
    constructor
    · rintro ⟨ys, h⟩
      obtain ⟨y, hy, h⟩ := Except.bind_eq_ok.mp h
      obtain ⟨ys', hys, -⟩ := Except.bind_eq_ok.mp h
      exact ⟨⟨y, hy⟩, ys', hys⟩
    · rintro ⟨⟨y, hy⟩, ys, hys⟩
      exact ⟨y :: ys, Except.bind_eq_ok.mpr ⟨y, hy, Except.bind_eq_ok.mpr ⟨ys, hys, rfl⟩⟩⟩

/-- All end well, with results that are related to where the items come from. -/
theorem mapM_map_ok_iff {γ : Type u} {f : α → Except ε β} {g : γ → α} {R : γ → β → Prop}
    {xs : List γ} :
    (∃ ys, (xs.map g).mapM f = .ok ys ∧ List.Forall₂ R xs ys) ↔
      ∀ x ∈ xs, ∃ y, f (g x) = .ok y ∧ R x y := by
  induction xs with
  | nil => exact ⟨fun _ => nofun, fun _ => ⟨[], rfl, .nil⟩⟩
  | cons x xs ih =>
    rw [List.forall_mem_cons, ← ih]
    constructor
    · rintro ⟨ys, h, hR⟩
      cases mapM_eq_ok.mp h with
      | cons hy hys =>
        cases hR with
        | cons hRy hRys => exact ⟨⟨_, hy, hRy⟩, _, mapM_eq_ok.mpr hys, hRys⟩
    · rintro ⟨⟨y, hy, hRy⟩, ys, hys, hRys⟩
      exact ⟨y :: ys, mapM_eq_ok.mpr (.cons hy (mapM_eq_ok.mp hys)), .cons hRy hRys⟩

/-- The first one that does not end well. -/
theorem mapM_eq_error {f : α → Except ε β} {xs : List α} {e : ε} :
    xs.mapM f = .error e ↔
      ∃ before x after, xs = before ++ x :: after ∧ (∀ x ∈ before, ∃ y, f x = .ok y) ∧
        f x = .error e := by
  induction xs with
  | nil =>
    constructor
    · exact nofun
    · rintro ⟨before, x, after, h, -⟩
      exact absurd h (by simp)
  | cons x xs ih =>
    rw [List.mapM_cons, Except.bind_eq_error]
    constructor
    · rintro (hx | ⟨y, hy, h⟩)
      · exact ⟨[], x, xs, rfl, nofun, hx⟩
      · rcases Except.bind_eq_error.mp h with h | ⟨ys, -, h⟩
        · obtain ⟨before, x', after, rfl, hbefore, hx'⟩ := ih.mp h
          refine ⟨x :: before, x', after, rfl, ?_, hx'⟩
          rw [List.forall_mem_cons]
          exact ⟨⟨y, hy⟩, hbefore⟩
        · cases h
    · rintro ⟨before, x', after, h, hbefore, hx'⟩
      cases before with
      | nil =>
        obtain ⟨rfl, -⟩ := List.cons_eq_cons.mp h
        exact .inl hx'
      | cons b before =>
        obtain ⟨rfl, hxs⟩ := List.cons_eq_cons.mp h
        obtain ⟨⟨y, hy⟩, hrest⟩ := List.forall_mem_cons.mp hbefore
        exact .inr ⟨y, hy, Except.bind_eq_error.mpr
          (.inl (ih.mpr ⟨before, x', after, hxs, hrest, hx'⟩))⟩

/-- All have a value. -/
theorem mapM_eq_some {f : α → Option β} {xs : List α} {ys : List β} :
    xs.mapM f = some ys ↔ List.Forall₂ (fun x y => f x = some y) xs ys := by
  induction xs generalizing ys with
  | nil =>
    rw [List.mapM_nil, List.forall₂_nil_left_iff]
    exact ⟨fun h => (Option.some.inj h).symm, fun h => congrArg _ h.symm⟩
  | cons x xs ih =>
    rw [List.mapM_cons]
    constructor
    · intro h
      obtain ⟨y, hy, h⟩ := Option.bind_eq_some_iff.mp h
      obtain ⟨ys', hys, h⟩ := Option.bind_eq_some_iff.mp h
      cases h
      exact .cons hy (ih.mp hys)
    · intro h
      cases h with
      | cons hy hys =>
        exact Option.bind_eq_some_iff.mpr
          ⟨_, hy, Option.bind_eq_some_iff.mpr ⟨_, ih.mpr hys, rfl⟩⟩

/-- Two ways to answer the items of a list, whose answers tell the item: they agree on the whole
when they agree on each item. -/
theorem filterMap_eq_iff {f g : α → Option β} {xs : List α}
    (hinj : ∀ x y b, f x = some b → g y = some b → x = y) :
    xs.filterMap f = xs.filterMap g ↔ ∀ x ∈ xs, f x = g x := by
  constructor
  · intro h x hx
    ext b
    constructor
    · intro hb
      have hmem : b ∈ xs.filterMap g := h ▸ List.mem_filterMap.mpr ⟨x, hx, hb⟩
      obtain ⟨y, -, hy⟩ := List.mem_filterMap.mp hmem
      rw [hinj x y b hb hy]
      exact hy
    · intro hb
      have hmem : b ∈ xs.filterMap f := h ▸ List.mem_filterMap.mpr ⟨x, hx, hb⟩
      obtain ⟨y, -, hy⟩ := List.mem_filterMap.mp hmem
      rw [← hinj y x b hy hb]
      exact hy
  · exact List.filterMap_congr

/-- A relation that depends on the item alone, where the results are those of the items. -/
theorem forall₂_iff_forall {R P : α → β → Prop} {Q : α → Prop} {xs : List α} {ys : List β}
    (h : List.Forall₂ R xs ys) (hP : ∀ x y, R x y → (P x y ↔ Q x)) :
    List.Forall₂ P xs ys ↔ ∀ x ∈ xs, Q x := by
  induction h with
  | nil => exact ⟨fun _ => nofun, fun _ => .nil⟩
  | cons hxy _ ih => rw [List.forall₂_cons, List.forall_mem_cons, hP _ _ hxy, ih]

end RsmpGateway.Lib
