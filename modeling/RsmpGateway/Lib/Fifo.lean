import Mathlib.Algebra.GroupWithZero.Nat
import Mathlib.Data.List.Basic
import Mathlib.Logic.Function.Basic
import RsmpGateway.Lib.System

/-!
# Queues

What a family of queues is for, by the calls on them: a pull gives the oldest of the values that
are held, and each value that was pushed is either delivered, in its turn, or discarded by a
flush, or still held (`fifo_delivers`).

The calls are recorded with what they gave. Of such a record one reads off what was accepted,
delivered and discarded for each queue; an implementation is a queue when its records are those
of this state machine.
-/

namespace RsmpGateway.Lib

/-- The calls on the queues, with what they return. -/
inductive FifoEvent (ι β α : Type)
  | push (q : ι) (b : β) (ok : Bool)
  | pull (q : ι) (r : Option α)
  | flush (q : ι) (n : Nat)
  | count (q : ι) (n : Nat)

section Fifo

variable {ι β α : Type} [DecidableEq ι] (store : β → α)

/-- The queues by the values that they hold, the oldest first. What is pushed is stored. -/
def fifo : System (ι → List α) (FifoEvent ι β α) where
  init t := ∀ q, t q = []
  step t e t' :=
    match e with
    | .push q b ok => t' = if ok then Function.update t q (t q ++ [store b]) else t
    | .pull q (some a) => ∃ rest, t q = a :: rest ∧ t' = Function.update t q rest
    | .pull _ none => t' = t
    | .flush q n => n = (t q).length ∧ t' = Function.update t q []
    | .count q n => n = (t q).length ∧ t' = t

/-- The values that a queue took. -/
def accepted (q : ι) (es : List (FifoEvent ι β α)) : List α :=
  es.filterMap fun
    | .push p b true => if p = q then some (store b) else none
    | _ => none

/-- The values that it gave. -/
def delivered (q : ι) (es : List (FifoEvent ι β α)) : List α :=
  es.filterMap fun
    | .pull p (some a) => if p = q then some a else none
    | _ => none

/-- The number of values that it lost, as its flushes tell it. -/
def discarded (q : ι) (es : List (FifoEvent ι β α)) : Nat :=
  (es.map fun
    | .flush p n => if p = q then n else 0
    | _ => 0).sum

/-- Each value that the queue took is delivered, in order, unless it is discarded or still held. -/
def Delivers (q : ι) (es : List (FifoEvent ι β α)) (held : List α) : Prop :=
  ∃ fates : List (α × Bool), accepted store q es = fates.map Prod.fst ++ held ∧
    delivered q es = (fates.filter Prod.snd).map Prod.fst ∧
      discarded q es = (fates.filter (!Prod.snd ·)).length

variable {store} {q : ι} {es es' : List (FifoEvent ι β α)} {held : List α}

theorem accepted_append :
    accepted store q (es ++ es') = accepted store q es ++ accepted store q es' :=
  List.filterMap_append

theorem delivered_append : delivered q (es ++ es') = delivered q es ++ delivered q es' :=
  List.filterMap_append

theorem discarded_append : discarded q (es ++ es') = discarded q es + discarded q es' := by
  rw [discarded, List.map_append, List.sum_append, ← discarded, ← discarded]

theorem Delivers.nil : Delivers store q ([] : List (FifoEvent ι β α)) [] :=
  ⟨[], rfl, rfl, rfl⟩

/-- A call that gives, takes and discards nothing of this queue. -/
theorem Delivers.other {e : FifoEvent ι β α} (h : Delivers store q es held)
    (hacc : accepted store q [e] = []) (hdel : delivered q [e] = []) (hdis : discarded q [e] = 0) :
    Delivers store q (es ++ [e]) held := by
  obtain ⟨fates, haccepted, hdelivered, hdiscarded⟩ := h
  refine ⟨fates, ?_, ?_, ?_⟩
  · rw [accepted_append, hacc, List.append_nil, haccepted]
  · rw [delivered_append, hdel, List.append_nil, hdelivered]
  · rw [discarded_append, hdis, Nat.add_zero, hdiscarded]

theorem Delivers.push (h : Delivers store q es held) (b : β) :
    Delivers store q (es ++ [.push q b true]) (held ++ [store b]) := by
  obtain ⟨fates, haccepted, hdelivered, hdiscarded⟩ := h
  refine ⟨fates, ?_, ?_, ?_⟩
  · rw [accepted_append, haccepted]
    simp [accepted]
  · rw [delivered_append, hdelivered]
    simp [delivered]
  · rw [discarded_append, hdiscarded]
    simp [discarded]

theorem Delivers.pull {a : α} (h : Delivers store q es (a :: held)) :
    Delivers store q (es ++ [.pull q (some a)]) held := by
  obtain ⟨fates, haccepted, hdelivered, hdiscarded⟩ := h
  refine ⟨fates ++ [(a, true)], ?_, ?_, ?_⟩
  · rw [accepted_append, haccepted]
    simp [accepted]
  · rw [delivered_append, hdelivered]
    simp [delivered]
  · rw [discarded_append, hdiscarded]
    simp [discarded]

theorem Delivers.flush (h : Delivers store q es held) :
    Delivers store q (es ++ [.flush q held.length]) [] := by
  obtain ⟨fates, haccepted, hdelivered, hdiscarded⟩ := h
  let lost : List (α × Bool) := held.map fun a => (a, false)
  have hfst : lost.map Prod.fst = held := by simp [lost, Function.comp_def]
  have hdelivers : lost.filter Prod.snd = [] := by simp [lost, List.filter_eq_nil_iff]
  have hloses : lost.filter (!Prod.snd ·) = lost := by simp [lost, List.filter_eq_self]
  refine ⟨fates ++ lost, ?_, ?_, ?_⟩
  · rw [accepted_append, haccepted, List.map_append, hfst]
    simp [accepted]
  · rw [delivered_append, hdelivered, List.filter_append, hdelivers]
    simp [delivered]
  · rw [discarded_append, hdiscarded, List.filter_append, hloses]
    simp [discarded, lost]

/-- **First in, first out.** In every run, for every queue. -/
theorem fifo_delivers {t : ι → List α} (h : (fifo store).Run es t) (q : ι) :
    Delivers store q es (t q) := by
  induction h with
  | nil hinit =>
    rw [hinit q]
    exact .nil
  | @snoc es t e t' hrun hstep ih =>
    cases e with
    | push p b ok =>
      cases ok with
      | false =>
        cases hstep
        exact ih.other rfl rfl rfl
      | true =>
        cases hstep
        -- a call on another queue plays no part
        by_cases hp : p = q
        · subst hp
          rw [if_pos rfl, Function.update_self]
          exact ih.push b
        · rw [if_pos rfl, Function.update_of_ne (Ne.symm hp)]
          exact ih.other (by simp [accepted, hp]) rfl rfl
    | pull p r =>
      cases r with
      | none =>
        cases hstep
        exact ih.other rfl rfl rfl
      | some a =>
        obtain ⟨rest, hheld, rfl⟩ := hstep
        by_cases hp : p = q
        · subst hp
          rw [Function.update_self]
          rw [hheld] at ih
          exact ih.pull
        · rw [Function.update_of_ne (Ne.symm hp)]
          exact ih.other rfl (by simp [delivered, hp]) rfl
    | flush p n =>
      obtain ⟨rfl, rfl⟩ := hstep
      by_cases hp : p = q
      · subst hp
        rw [Function.update_self]
        exact ih.flush
      · rw [Function.update_of_ne (Ne.symm hp)]
        exact ih.other rfl rfl (by simp [discarded, hp])
    | count p n =>
      obtain ⟨rfl, rfl⟩ := hstep
      exact ih.other rfl rfl rfl

end Fifo

end RsmpGateway.Lib
