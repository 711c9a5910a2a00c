import Mathlib.Data.List.TakeDrop

/-!
# Writing over a file

What a file holds after a text was written from its start, in a file opened without truncation:
the text, and what the file held beyond it (`overwrite`). So a run of saves leaves its texts, one
after the other, exactly when none is shorter than what it finds (`overwrites_eq_iff`).

A text is rarely written at once. `writeAll` writes its parts one after the other from the offset
of the descriptor, and lets another program change the file after each of them. Left alone, the
parts make the whole text (`writeAll_eq_overwrite`). A file that is emptied on the way is filled up
to the offset, and cannot be the text any more (`head?_writeAll_of_emptied`).
-/

namespace RsmpGateway.Lib

variable {α : Type _}

/-- `text` written over the start of `old`. -/
def overwrite (old text : List α) : List α := text ++ old.drop text.length

/-- Nothing of the old content is left exactly when it was not longer. -/
theorem overwrite_eq_iff {old text : List α} :
    overwrite old text = text ↔ old.length ≤ text.length := by
  rw [overwrite, List.append_right_eq_self, List.drop_eq_nil_iff]

/-- The contents of a file, save after save. -/
def overwrites (old : List α) : List (List α) → List (List α)
  | [] => []
  | t :: ts => overwrite old t :: overwrites (overwrite old t) ts

/-- No save of a run is shorter than what the file holds. -/
def NeverShorter (old : List α) : List (List α) → Prop
  | [] => True
  | t :: ts => old.length ≤ t.length ∧ NeverShorter t ts

/-- **Runs of saves.** Each save leaves its own text in the file exactly when no save
is shorter than the one before it. -/
theorem overwrites_eq_iff {old : List α} {ts : List (List α)} :
    overwrites old ts = ts ↔ NeverShorter old ts := by
  induction ts generalizing old with
  | nil => simp [overwrites, NeverShorter]
  | cons t ts ih =>
    rw [overwrites, NeverShorter, List.cons.injEq, overwrite_eq_iff]
    constructor
    · intro ⟨hlen, hrest⟩
      rw [overwrite_eq_iff.mpr hlen] at hrest
      exact ⟨hlen, ih.mp hrest⟩
    · intro ⟨hlen, hrest⟩
      refine ⟨hlen, ?_⟩
      rw [overwrite_eq_iff.mpr hlen]
      exact ih.mpr hrest

/-! ## Texts one after the other

The file is looked at by its first character, where it makes a difference that it was emptied. -/

/-- `text` written at an offset. A gap after the end of the file is filled. -/
def writeAt (fill : α) (old : List α) (offset : Nat) (text : List α) : List α :=
  old.takeD offset fill ++ text ++ old.drop (offset + text.length)

/-- Texts written each where the one before it ends. After each, something else may change the
file; the offset stays. -/
def writeAll (fill : α) (old : List α) (offset : Nat) :
    List (List α × (List α → List α)) → List α
  | [] => old
  | (text, touch) :: texts =>
    writeAll fill (touch (writeAt fill old offset text)) (offset + text.length) texts

variable {fill : α}

theorem writeAt_of_le {old text : List α} {offset : Nat} (h : offset ≤ old.length) :
    writeAt fill old offset text =
      old.take offset ++ text ++ old.drop (offset + text.length) := by
  rw [writeAt, List.takeD_eq_take fill h]

/-- Without interference the texts replace what they cover. -/
theorem writeAll_of_untouched {texts : List (List α × (List α → List α))}
    (htouch : ∀ t ∈ texts, ∀ file, t.2 file = file) :
    ∀ {old : List α} {offset : Nat}, offset ≤ old.length →
      writeAll fill old offset texts =
        old.take offset ++ (texts.map Prod.fst).flatten ++
          old.drop (offset + (texts.map Prod.fst).flatten.length) := by
  induction texts with
  | nil => simp [writeAll]
  | cons t texts ih =>
    obtain ⟨text, touch⟩ := t
    intro old offset h
    have hstart : (old.take offset ++ text).length = offset + text.length := by
      rw [List.length_append, List.length_take, Nat.min_eq_left h]
    have hfile : (writeAt fill old offset text).length ≥ offset + text.length := by
      rw [writeAt_of_le h, List.length_append, hstart]
      exact Nat.le_add_right _ _
    have hkept : touch (writeAt fill old offset text) = writeAt fill old offset text :=
      htouch (text, touch) (by simp) _
    rw [writeAll, hkept, ih (fun t ht => htouch t (by simp [ht])) hfile,
      writeAt_of_le h, ← hstart, List.take_left, List.drop_append, hstart]
    simp only [List.map_cons, List.flatten_cons, List.append_assoc, List.length_append,
      List.drop_drop]
    congr 4
    rw [List.drop_eq_nil_of_le (by simp; omega), List.nil_append]
    congr 1
    omega

/-- From the start of the file this is one text over the other. -/
theorem writeAll_eq_overwrite {texts : List (List α × (List α → List α))}
    (htouch : ∀ t ∈ texts, ∀ file, t.2 file = file) (old : List α) :
    writeAll fill old 0 texts = overwrite old (texts.map Prod.fst).flatten := by
  rw [writeAll_of_untouched htouch (Nat.zero_le _), overwrite]
  simp

/-- The first byte of a file is not written again. -/
theorem head?_writeAt {old text : List α} {offset : Nat} (h : 0 < offset) :
    (writeAt fill old offset text).head? = some (old.head?.getD fill) := by
  obtain ⟨n, rfl⟩ : ∃ n, offset = n + 1 := ⟨offset - 1, by omega⟩
  cases old <;> rfl

/-- A file that was emptied on the way has the filling, or nothing, as its first byte. -/
theorem head?_writeAll_of_touched {texts : List (List α × (List α → List α))}
    (htouch : ∀ t ∈ texts, ∀ file, t.2 file = file ∨ t.2 file = []) :
    ∀ {old : List α} {offset : Nat}, 0 < offset → (∀ c ∈ old.head?, c = fill) →
      ∀ c ∈ (writeAll fill old offset texts).head?, c = fill := by
  induction texts with
  | nil =>
    intro old offset _ hold
    exact hold
  | cons t texts ih =>
    obtain ⟨text, touch⟩ := t
    intro old offset hoffset hold
    apply ih (fun t ht => htouch t (by simp [ht])) (by omega)
    have hfile : touch (writeAt fill old offset text) = writeAt fill old offset text ∨
        touch (writeAt fill old offset text) = [] := htouch (text, touch) (by simp) _
    rcases hfile with h | h
    · rw [h, head?_writeAt hoffset]
      intro c hc
      obtain rfl : old.head?.getD fill = c := Option.some.inj hc
      cases old with
      | nil => rfl
      | cons c old => exact hold c rfl
    · rw [h]
      intro c hc
      cases hc

/-- So it does when one of those that may empty it does. -/
theorem head?_writeAll_of_emptied {texts : List (List α × (List α → List α))}
    (htouch : ∀ t ∈ texts, ∀ file, t.2 file = file ∨ t.2 file = [])
    (hne : ∀ t ∈ texts, t.1 ≠ []) (hempty : ∃ t ∈ texts, ∀ file, t.2 file = []) :
    ∀ {old : List α} {offset : Nat}, ∀ c ∈ (writeAll fill old offset texts).head?, c = fill := by
  induction texts with
  | nil =>
    obtain ⟨t, ht, -⟩ := hempty
    cases ht
  | cons t texts ih =>
    intro old offset
    have htouch' : ∀ t ∈ texts, ∀ file, t.2 file = file ∨ t.2 file = [] :=
      fun t ht => htouch t (by simp [ht])
    obtain ⟨t', ht', hempties⟩ := hempty
    rcases List.mem_cons.mp ht' with rfl | hrest
    · -- this one empties the file, and the others start beyond its end
      obtain ⟨text, touch⟩ := t'
      have hlen : 0 < text.length := List.length_pos_iff.mpr (hne (text, touch) (by simp))
      have hfile : touch (writeAt fill old offset text) = [] := hempties _
      rw [writeAll, hfile]
      apply head?_writeAll_of_touched htouch' (by omega)
      intro c hc
      cases hc
    · obtain ⟨text, touch⟩ := t
      exact ih htouch' (fun t ht => hne t (by simp [ht])) ⟨t', hrest, hempties⟩

end RsmpGateway.Lib
