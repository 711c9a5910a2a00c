import Mathlib.Data.List.Basic

/-!
# Alarms

A library of alarms that ring once, and one of its users, who holds the handle of one alarm at
most. Where the user cancels the alarm that it holds before it lets go of the handle, no other one
is ever set (`Sole`).

An alarm that rings leaves the handle with its user, who may never use it again: then no alarm is
set, whatever handle is held. `Within` allows for that, and is kept by the same operations.
-/

namespace RsmpGateway.Lib

/-- The alarms that are set, each with the date when it rings, the next handle, and the one that
the user holds. -/
structure Alarms where
  next : Nat
  armed : List (Nat × Int)
  held : Option Nat

namespace Alarms

def unset : Alarms := ⟨0, [], none⟩

/-- The alarm that is held is deleted. -/
def cancel (a : Alarms) : Alarms :=
  match a.held with
  | none => a
  | some id => { a with armed := a.armed.filter fun e => e.1 ≠ id, held := none }

/-- A new alarm is set in place of the one that is held, if there is one to be had. -/
def set (a : Alarms) : Option Int → Alarms
  | none => a.cancel
  | some due =>
    let a := a.cancel
    ⟨a.next + 1, a.armed ++ [(a.next, due)], some a.next⟩

/-- The user lets go of the handle. -/
def forget (a : Alarms) : Alarms := { a with held := none }

/-- An alarm rings. -/
def ring (a : Alarms) (id : Nat) : Alarms := { a with armed := a.armed.filter fun e => e.1 ≠ id }

/-- The only alarm is the one that is held, and rings at the date. -/
def Sole (a : Alarms) (due : Int) : Prop := a.armed = a.held.toList.map fun id => (id, due)

/-- No alarm is set, or the only one is the one that is held. -/
def Within (a : Alarms) (due : Int) : Prop := a.armed = [] ∨ a.Sole due

variable {a : Alarms} {due : Int}

theorem Sole.unset (due : Int) : unset.Sole due := rfl

theorem Sole.of_held_none (h : a.Sole due) (hheld : a.held = none) : a.armed = [] := by
  rw [h, hheld]
  rfl

@[simp] theorem held_cancel (a : Alarms) : a.cancel.held = none := by
  rw [cancel]
  split
  · next h => exact h
  · rfl

/-- No alarm is left once it is cancelled. -/
theorem Sole.armed_cancel (h : a.Sole due) : a.cancel.armed = [] := by
  cases hheld : a.held with
  | none =>
    rw [Alarms.cancel, hheld]
    exact h.of_held_none hheld
  | some id =>
    rw [Alarms.cancel, hheld]
    dsimp only
    rw [h, hheld]
    simp

theorem cancel_of_held_none (h : a.held = none) : a.cancel = a := by
  rw [Alarms.cancel, h]

@[simp] theorem cancel_cancel (a : Alarms) : a.cancel.cancel = a.cancel :=
  cancel_of_held_none a.held_cancel

@[simp] theorem set_cancel (a : Alarms) (due : Option Int) : a.cancel.set due = a.set due := by
  cases due with
  | none => exact a.cancel_cancel
  | some due => rw [Alarms.set, Alarms.set, cancel_cancel]

theorem Sole.within (h : a.Sole due) : a.Within due := .inr h

theorem Within.armed_cancel (h : a.Within due) : a.cancel.armed = [] := by
  rcases h with hnil | hsole
  · rw [Alarms.cancel]
    split
    · exact hnil
    · dsimp only
      rw [hnil]
      rfl
  · exact hsole.armed_cancel

/-- A new alarm is the only one. -/
theorem Within.set (h : a.Within due) (due' : Int) : (a.set (some due')).Sole due' := by
  show a.cancel.armed ++ [(a.cancel.next, due')] = _
  rw [h.armed_cancel]
  rfl

theorem Within.cancel (h : a.Within due) (due' : Int) : a.cancel.Sole due' := by
  rw [Sole, h.armed_cancel, held_cancel]
  rfl

theorem Within.ring (h : a.Within due) (id : Nat) : (a.ring id).Within due := by
  rcases h with hnil | hsole
  · left
    rw [Alarms.ring, hnil]
    rfl
  · rw [Alarms.Within, Alarms.ring, Alarms.Sole]
    dsimp only
    rw [hsole]
    cases a.held with
    | none => exact .inl rfl
    | some held =>
      by_cases hid : held = id
      · left
        simp [hid]
      · right
        simp [hid]

/-- The alarm that rings is the one that is held. -/
theorem Sole.mem (h : a.Sole due) {e : Nat × Int} (he : e ∈ a.armed) :
    a.held = some e.1 ∧ e.2 = due := by
  rw [h] at he
  obtain ⟨id, hid, rfl⟩ := List.mem_map.mp he
  exact ⟨Option.mem_toList.mp hid, rfl⟩

theorem Sole.ring (h : a.Sole due) {id : Nat} (hheld : a.held = some id) :
    (a.ring id).cancel.armed = [] := by
  rw [Alarms.ring, Alarms.cancel, hheld]
  dsimp only
  rw [h, hheld]
  simp

end Alarms

end RsmpGateway.Lib
