import Mathlib.Data.List.Basic

/-!
# Chunks

Values of a fixed number of bytes, laid out one after the other. A part of the values is a part
of the bytes (`layout_take`, `layout_drop`), and so is a part that is written over
(`layout_overlay`).

An array whose operations move bytes is known by its values through these equations, without an
index being computed twice.
-/

namespace RsmpGateway.Lib

/-! ## Overlays

A list written over another one, from a position on. -/

section Overlay

variable {α : Type*} {l : List α} {i : Nat} {new : List α}

/-- What a list is when `new` is written over it from `i` on. -/
def overlay (l : List α) (i : Nat) (new : List α) : List α :=
  l.take i ++ new ++ l.drop (i + new.length)

@[simp] theorem overlay_nil (l : List α) (i : Nat) : overlay l i [] = l := by
  simp [overlay]

theorem length_overlay (h : i ≤ l.length) :
    (overlay l i new).length = max l.length (i + new.length) := by
  rw [overlay, List.length_append, List.length_append, List.length_take, List.length_drop]
  omega

/-- What is written at the end. -/
theorem overlay_length (l new : List α) : overlay l l.length new = l ++ new := by
  rw [overlay, List.take_length, List.drop_of_length_le (by omega), List.append_nil]

/-- What is written in the middle, in the place of as much. -/
theorem overlay_middle {as bs cs : List α} (h : bs.length = new.length) :
    overlay (as ++ (bs ++ cs)) as.length new = as ++ (new ++ cs) := by
  rw [overlay, List.take_left, ← h, ← List.drop_drop, List.drop_left, List.drop_left,
    List.append_assoc]

/-- Room for what is written past the end may be made first. -/
theorem overlay_append {extra : List α} (hi : i ≤ l.length)
    (h : l.length + extra.length = i + new.length) :
    overlay (l ++ extra) i new = overlay l i new := by
  rw [overlay, overlay, List.take_append_of_le_length hi,
    List.drop_of_length_le (by rw [List.length_append]; omega),
    List.drop_of_length_le (by omega)]

end Overlay

/-! ## Layout

The bytes of the values, with the multiples of the size that the positions become. -/

/-- A value of `size` bytes. -/
abbrev Chunk (β : Type*) (size : Nat) := { bytes : List β // bytes.length = size }

variable {β : Type*} {size : Nat}

namespace Chunk

/-- The chunk of a byte. -/
def fill (size : Nat) (b : β) : Chunk β size := ⟨List.replicate size b, List.length_replicate⟩

end Chunk

/-- The bytes of some values. -/
def layout (l : List (Chunk β size)) : List β := l.flatMap Subtype.val

@[simp] theorem layout_nil : layout ([] : List (Chunk β size)) = [] := rfl

@[simp] theorem layout_cons (x : Chunk β size) (l : List (Chunk β size)) :
    layout (x :: l) = x.val ++ layout l := rfl

theorem layout_append (l k : List (Chunk β size)) : layout (l ++ k) = layout l ++ layout k :=
  List.flatMap_append

theorem layout_singleton (x : Chunk β size) : layout [x] = x.val := List.append_nil _

@[simp] theorem length_layout (l : List (Chunk β size)) : (layout l).length = l.length * size := by
  induction l with
  | nil => simp
  | cons x l ih =>
    rw [layout_cons, List.length_append, ih, x.property, List.length_cons, Nat.succ_mul,
      Nat.add_comm]

theorem layout_replicate (n : Nat) (b : β) :
    layout (List.replicate n (Chunk.fill size b)) = List.replicate (n * size) b := by
  induction n with
  | zero => simp
  | succ n ih =>
    rw [List.replicate_succ, layout_cons, ih, Chunk.fill, List.replicate_append_replicate,
      Nat.succ_mul, Nat.add_comm]

theorem layout_take (l : List (Chunk β size)) (n : Nat) :
    layout (l.take n) = (layout l).take (n * size) := by
  induction l generalizing n with
  | nil => simp
  | cons x l ih =>
    cases n with
    | zero => simp
    | succ n =>
      have hsize : (n + 1) * size = x.val.length + n * size := by
        rw [x.property, Nat.succ_mul, Nat.add_comm]
      rw [List.take_succ_cons, layout_cons, layout_cons, ih, hsize,
        List.take_length_add_append]

theorem layout_drop (l : List (Chunk β size)) (n : Nat) :
    layout (l.drop n) = (layout l).drop (n * size) := by
  induction l generalizing n with
  | nil => simp
  | cons x l ih =>
    cases n with
    | zero => simp
    | succ n =>
      have hsize : (n + 1) * size = x.val.length + n * size := by
        rw [x.property, Nat.succ_mul, Nat.add_comm]
      rw [List.drop_succ_cons, layout_cons, ih, hsize, List.drop_length_add_append]

/-- Values that are written over others are their bytes that are written over bytes. -/
theorem layout_overlay (l : List (Chunk β size)) (i : Nat) (new : List (Chunk β size)) :
    layout (overlay l i new) = overlay (layout l) (i * size) (layout new) := by
  rw [overlay, overlay, layout_append, layout_append, layout_take, layout_drop, length_layout,
    Nat.add_mul]

end RsmpGateway.Lib
