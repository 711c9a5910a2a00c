import Mathlib.Data.List.Nodup

/-!
# Keyed lists

A list whose elements carry a key, at most one element for each key, in the order of insertion.
The invariant is a field, so that every operation below gives a keyed list back, and every
operation is described by what `find` answers after it.

The order is kept since iterations go by it. Keys are of any type with a decidable equality.
-/

namespace RsmpGateway.Lib

/-- A list of elements with distinct keys. -/
structure KeyedList (κ : Type _) (α : Type _) (key : α → κ) where
  items : List α
  nodup : (items.map key).Nodup

namespace KeyedList

variable {κ α : Type _} {key : α → κ}

@[ext] theorem ext {xs ys : KeyedList κ α key} (h : xs.items = ys.items) : xs = ys := by
  cases xs; cases ys; cases h; rfl

/-- No element. -/
def empty : KeyedList κ α key := ⟨[], List.nodup_nil⟩

@[simp] theorem items_empty : (empty : KeyedList κ α key).items = [] := rfl

/-- The last element inserted. -/
def last (xs : KeyedList κ α key) : Option α := xs.items.getLast?

variable [DecidableEq κ]

/-- The element with key `k`. -/
def find (xs : KeyedList κ α key) (k : κ) : Option α := xs.items.find? fun a => key a = k

@[simp] theorem find_empty (k : κ) : (empty : KeyedList κ α key).find k = none := rfl

theorem key_of_find {xs : KeyedList κ α key} {k : κ} {a : α} (h : xs.find k = some a) :
    key a = k := by
  simpa using List.find?_some h

theorem mem_of_find {xs : KeyedList κ α key} {k : κ} {a : α} (h : xs.find k = some a) :
    a ∈ xs.items :=
  List.mem_of_find?_eq_some h

theorem find_eq_none {xs : KeyedList κ α key} {k : κ} :
    xs.find k = none ↔ ∀ a ∈ xs.items, key a ≠ k := by
  simp [find]

/-- An element is the one found under its key. -/
theorem find_key_of_mem {xs : KeyedList κ α key} {a : α} (ha : a ∈ xs.items) :
    xs.find (key a) = some a := by
  obtain ⟨items, nodup⟩ := xs
  simp only [find] at ha ⊢
  induction items with
  | nil => simp at ha
  | cons b bs ih =>
    rw [List.map_cons, List.nodup_cons] at nodup
    rcases List.mem_cons.mp ha with rfl | hbs
    · simp
    · have hne : key b ≠ key a := fun h => nodup.1 (h ▸ List.mem_map_of_mem hbs)
      rw [List.find?_cons_of_neg (by simpa using hne)]
      exact ih nodup.2 hbs

theorem find_eq_some {xs : KeyedList κ α key} {k : κ} {a : α} :
    xs.find k = some a ↔ a ∈ xs.items ∧ key a = k := by
  constructor
  · intro h
    exact ⟨mem_of_find h, key_of_find h⟩
  · rintro ⟨ha, rfl⟩
    exact find_key_of_mem ha

/-! ## Changing one element

The key of the element stays, which the change has to show. -/

theorem map_key_map {f : α → α} (hf : ∀ a, key (f a) = key a) (k : κ) (items : List α) :
    (items.map fun a => if key a = k then f a else a).map key = items.map key := by
  rw [List.map_map]
  apply List.map_congr_left
  intro a _
  simp only [Function.comp_apply]
  split
  · exact hf a
  · rfl

/-- Apply `f` to the element with key `k`. -/
def modify (xs : KeyedList κ α key) (k : κ) (f : α → α) (hf : ∀ a, key (f a) = key a) :
    KeyedList κ α key where
  items := xs.items.map fun a => if key a = k then f a else a
  nodup := by rw [map_key_map hf]; exact xs.nodup

theorem find_modify (xs : KeyedList κ α key) (k : κ) (f : α → α) (hf : ∀ a, key (f a) = key a)
    (k' : κ) :
    (xs.modify k f hf).find k' = if k' = k then (xs.find k).map f else xs.find k' := by
  have hpred : (fun a => decide (key (if key a = k then f a else a) = k'))
      = fun a => decide (key a = k') := by
    funext a
    split
    · rw [hf]
    · rfl
  simp only [find, modify, List.find?_map, Function.comp_def, hpred]
  split
  · next hk =>
    subst hk
    apply Option.map_congr
    intro a ha
    have : key a = k' := by simpa using List.find?_some ha
    rw [if_pos this]
  · next hk =>
    cases h : xs.items.find? fun a => decide (key a = k') with
    | none => rfl
    | some a =>
      have hka : key a = k' := by simpa using List.find?_some h
      simp [hka, hk]

theorem items_modify (xs : KeyedList κ α key) (k : κ) (f : α → α)
    (hf : ∀ a, key (f a) = key a) :
    (xs.modify k f hf).items = xs.items.map fun a => if key a = k then f a else a := rfl

theorem modify_self {xs : KeyedList κ α key} {k : κ} {f : α → α} (hf : ∀ a, key (f a) = key a)
    (h : ∀ a, xs.find k = some a → f a = a) : xs.modify k f hf = xs := by
  apply KeyedList.ext
  refine (List.map_congr_left fun a ha => ?_).trans (List.map_id' xs.items)
  split
  · next hk => exact h a (find_eq_some.mpr ⟨ha, hk⟩)
  · rfl

theorem modify_modify (xs : KeyedList κ α key) (k : κ) {f g : α → α}
    (hf : ∀ a, key (f a) = key a) (hg : ∀ a, key (g a) = key a) :
    (xs.modify k f hf).modify k g hg =
      xs.modify k (fun a => g (f a)) fun a => (hg _).trans (hf a) := by
  apply KeyedList.ext
  rw [items_modify, items_modify, items_modify, List.map_map]
  refine List.map_congr_left fun a _ => ?_
  rw [Function.comp_apply]
  by_cases hk : key a = k
  · rw [if_pos hk, if_pos hk, if_pos (by rw [hf, hk])]
  · rw [if_neg hk, if_neg hk, if_neg hk]

/-! ## Inserting at the end

An element whose key is there is changed in its place. -/

/-- Apply `f` to the element with key `k`, first inserted as `mk` when there is none. -/
def upsert (xs : KeyedList κ α key) (k : κ) (mk : α) (f : α → α) (hmk : key mk = k)
    (hf : ∀ a, key (f a) = key a) : KeyedList κ α key :=
  if h : xs.find k = none then
    { items := xs.items ++ [f mk]
      nodup := by
        rw [List.map_append, List.nodup_append]
        refine ⟨xs.nodup, by simp, ?_⟩
        rintro _ ha _ hb rfl
        obtain ⟨a, ha, hka⟩ := List.mem_map.mp ha
        simp only [List.map_cons, List.map_nil, List.mem_singleton] at hb
        exact find_eq_none.mp h a ha (by rw [hka, hb, hf, hmk]) }
  else xs.modify k f hf

theorem find_upsert (xs : KeyedList κ α key) (k : κ) (mk : α) (f : α → α) (hmk : key mk = k)
    (hf : ∀ a, key (f a) = key a) (k' : κ) :
    (xs.upsert k mk f hmk hf).find k' =
      if k' = k then some (f ((xs.find k).getD mk)) else xs.find k' := by
  unfold upsert
  split
  · next h =>
    have hlast : key (f mk) = k := by rw [hf, hmk]
    simp only [find, List.find?_append] at h ⊢
    by_cases hk : k' = k
    · subst hk
      simp [h, hlast]
    · simp [hk, hlast, Ne.symm hk]
  · next h =>
    rw [find_modify]
    split
    · obtain ⟨a, ha⟩ := Option.ne_none_iff_exists'.mp h
      simp [ha]
    · rfl

theorem upsert_self {xs : KeyedList κ α key} {k : κ} {mk : α} (hmk : key mk = k) {a : α}
    (ha : xs.find k = some a) : xs.upsert k mk id hmk (fun _ => rfl) = xs := by
  rw [upsert, dif_neg (by rw [ha]; exact nofun)]
  exact modify_self _ fun _ _ => rfl

/-- What is done afterwards with the element is done with it where it is inserted. -/
theorem modify_upsert (xs : KeyedList κ α key) (k : κ) (mk : α) {f g : α → α} (hmk : key mk = k)
    (hf : ∀ a, key (f a) = key a) (hg : ∀ a, key (g a) = key a) :
    (xs.upsert k mk f hmk hf).modify k g hg =
      xs.upsert k mk (fun a => g (f a)) hmk fun a => (hg _).trans (hf a) := by
  rw [upsert, upsert]
  split
  · next h =>
    apply KeyedList.ext
    have hxs : xs.items.map (fun a => if key a = k then g a else a) = xs.items := by
      refine (List.map_congr_left fun a ha => ?_).trans (List.map_id' xs.items)
      rw [if_neg (find_eq_none.mp h a ha)]
    rw [items_modify, List.map_append, hxs, List.map_singleton, if_pos (by rw [hf, hmk])]
  · exact modify_modify ..

/-! ## Removing

The order of the others stays. -/

/-- Remove the element with key `k`. -/
def remove (xs : KeyedList κ α key) (k : κ) : KeyedList κ α key where
  items := xs.items.filter fun a => key a ≠ k
  nodup := xs.nodup.sublist (List.filter_sublist.map _)

theorem find_remove (xs : KeyedList κ α key) (k k' : κ) :
    (xs.remove k).find k' = if k' = k then none else xs.find k' := by
  simp only [find, remove, List.find?_filter]
  split
  · next hk => subst hk; simp
  · next hk =>
    congr 1
    funext a
    by_cases h : key a = k' <;> simp [h, hk]

theorem remove_self {xs : KeyedList κ α key} {k : κ} (h : xs.find k = none) :
    xs.remove k = xs := by
  apply KeyedList.ext
  refine List.filter_eq_self.mpr fun a ha => ?_
  exact decide_eq_true (find_eq_none.mp h a ha)

end KeyedList

end RsmpGateway.Lib
