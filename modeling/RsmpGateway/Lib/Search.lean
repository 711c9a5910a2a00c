import Mathlib.Data.Ordering.Basic
import Mathlib.Order.Compare

/-!
# Search trees of the C library

`tfind` and `tsearch` over trees whose nodes hold records. A tree is known by what the two
functions answer: a node is found or not, and its first field is its record. Nothing is said of
what comes after this field.

`Conforms` is what the documentation promises, for a comparison that is an order of the records:
a record that is added is found by each key that compares equal to it, and all other keys find
what they found before. A program that goes by the promise alone works with every library that
keeps it.
-/

namespace RsmpGateway.Lib

/-- `<search.h>`, for records of type `α`. What follows the first field of a node can be read, as
a value of type `β`. -/
structure SearchLib (α β : Type) where
  Tree : Type
  Node : Type
  empty : Tree
  tfind : (α → α → Ordering) → α → Tree → Option Node
  tsearch : (α → α → Ordering) → α → Tree → Option (Node × Tree)
  key : Tree → Node → α
  rest : Tree → Node → β

namespace SearchLib

variable {α β : Type}

/-- What is specified of them, for a comparison that is an order. -/
structure Conforms (L : SearchLib α β) (cmp : α → α → Ordering) : Prop where
  tfind_empty : ∀ a, L.tfind cmp a L.empty = none
  tfind_congr : ∀ {a b}, cmp a b = .eq → ∀ t, L.tfind cmp a t = L.tfind cmp b t
  tfind_eq : ∀ {a t n}, L.tfind cmp a t = some n → cmp a (L.key t n) = .eq
  tsearch_found : ∀ {a t n}, L.tfind cmp a t = some n → L.tsearch cmp a t = some (n, t)
  tsearch_new : ∀ {a t}, L.tfind cmp a t = none → ∃ n t', L.tsearch cmp a t = some (n, t') ∧
    (∀ b, cmp b a = .eq → (L.tfind cmp b t').map (L.key t') = some a) ∧
    ∀ b, cmp b a ≠ .eq → (L.tfind cmp b t').map (L.key t') = (L.tfind cmp b t).map (L.key t)

/-! ## A chain

A list of nodes conforms as a tree does, so that the promise can be kept. -/

section Chain

variable {cmp : α → α → Ordering}

def chainFind (cmp : α → α → Ordering) (a : α) (t : List α) : Option α :=
  t.find? fun b => cmp a b = .eq

def chainSearch (cmp : α → α → Ordering) (a : α) (t : List α) : Option (α × List α) :=
  match chainFind cmp a t with
  | some b => some (b, t)
  | none => some (a, t ++ [a])

/-- A library that keeps its records in a chain, each with what `rest` says of it. -/
def chain (rest : α → β) : SearchLib α β where
  Tree := List α
  Node := α
  empty := []
  tfind := chainFind
  tsearch := chainSearch
  key _ b := b
  rest _ b := rest b

theorem chainFind_congr [Std.TransCmp cmp] {a b : α} (hab : cmp a b = .eq) (t : List α) :
    chainFind cmp a t = chainFind cmp b t := by
  have hcongr : ∀ x, cmp a x = cmp b x := fun _ => Std.TransCmp.congr_left hab
  simp only [chainFind, hcongr]

theorem cmp_of_chainFind {a b : α} {t : List α} (h : chainFind cmp a t = some b) :
    cmp a b = .eq := by
  simpa using List.find?_some h

/-- A record that is added at the end is found there, and the others where they were. -/
theorem chainFind_append [Std.TransCmp cmp] {a : α} {t : List α} (ha : chainFind cmp a t = none)
    (b : α) :
    chainFind cmp b (t ++ [a]) = if cmp b a = .eq then some a else chainFind cmp b t := by
  rw [chainFind, List.find?_append]
  by_cases hba : cmp b a = .eq
  · have hnone : chainFind cmp b t = none := by
      rw [chainFind, List.find?_eq_none] at ha ⊢
      intro x hx hbx
      have hab : cmp a b = .eq := Std.OrientedCmp.eq_symm hba
      exact ha x hx (by simpa using Std.TransCmp.eq_trans hab (of_decide_eq_true hbx))
    rw [chainFind] at hnone
    simp [hba, hnone]
  · simp [hba, chainFind]

theorem chainSearch_found {a b : α} {t : List α} (h : chainFind cmp a t = some b) :
    chainSearch cmp a t = some (b, t) := by
  simp [chainSearch, h]

theorem chainSearch_new [Std.TransCmp cmp] {a : α} {t : List α} (h : chainFind cmp a t = none) :
    ∃ n t', chainSearch cmp a t = some (n, t') ∧
      (∀ b, cmp b a = .eq → (chainFind cmp b t').map id = some a) ∧
      ∀ b, cmp b a ≠ .eq → (chainFind cmp b t').map id = (chainFind cmp b t).map id := by
  refine ⟨a, t ++ [a], by simp [chainSearch, h], fun b hb => ?_, fun b hb => ?_⟩
  · simp [chainFind_append h, hb]
  · simp [chainFind_append h, hb]

theorem chain_conforms [Std.TransCmp cmp] (rest : α → β) : (chain rest).Conforms cmp :=
  ⟨fun _ => rfl, chainFind_congr, cmp_of_chainFind, chainSearch_found, chainSearch_new⟩

end Chain

end SearchLib

end RsmpGateway.Lib
