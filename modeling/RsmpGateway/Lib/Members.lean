import RsmpGateway.Lib.Json
import RsmpGateway.Lib.Outcome

/-!
# The members of an object

Which members an object has, and which ones a function reads: a name is read if the function tells
two values apart that differ in the member of that name only.
-/

namespace RsmpGateway.Lib

namespace Json

/-- The names of the members. -/
def keys : Json → List Bytes
  | obj members => members.map Prod.fst
  | _ => []

theorem get?_of_mem {members : List (Bytes × Json)} {key : Bytes} {v : Json}
    (hkeys : (obj members).keys.Nodup) (hmem : (key, v) ∈ members) :
    (obj members).get? key = some v := by
  induction members with
  | nil => cases hmem
  | cons m members ih =>
    obtain ⟨hm, hkeys⟩ := List.nodup_cons.mp (hkeys : (m.1 :: members.map Prod.fst).Nodup)
    rw [get?_obj_cons]
    rcases List.mem_cons.mp hmem with rfl | hmem
    · exact if_pos rfl
    · have hne : m.1 ≠ key := by
        rintro rfl
        exact hm (List.mem_map.mpr ⟨_, hmem, rfl⟩)
      rw [if_neg hne]
      exact ih hkeys hmem

theorem get?_eq_none {j : Json} {key : Bytes} (h : key ∉ j.keys) : j.get? key = none := by
  cases j with
  | obj members =>
    have hfind : (members.find? fun m => m.1 = key) = none := by
      rw [List.find?_eq_none]
      intro m hm heq
      exact h (List.mem_map.mpr ⟨m, hm, by simpa using heq⟩)
    rw [get?, hfind]
    rfl
  | _ => rfl

/-! ## What is read

A function that reads some names only gives the same for two objects that agree on them. -/

/-- The two have the same members, but for one name. -/
def SameBut (key : Bytes) (j k : Json) : Prop := ∀ other ≠ key, j.get? other = k.get? other

/-- The function tells values apart by the member of that name. -/
def Reads {α : Type*} (f : Json → α) (key : Bytes) : Prop :=
  ∃ j k, SameBut key j k ∧ f j ≠ f k

/-- The function sees nothing but the members of these names. -/
def ReadsOnly {α : Type*} (f : Json → α) (names : List Bytes) : Prop :=
  ∀ j k : Json, (∀ key ∈ names, j.get? key = k.get? key) → f j = f k

variable {α β : Type*}

theorem ReadsOnly.mem {f : Json → α} {names : List Bytes} {key : Bytes}
    (h : ReadsOnly f names) (hkey : Reads f key) : key ∈ names := by
  obtain ⟨j, k, hsame, hne⟩ := hkey
  by_contra hnot
  refine hne (h j k fun other hother => hsame other ?_)
  rintro rfl
  exact hnot hother

/-- A value with one member is not like one with none. -/
theorem sameBut_empty (key : Bytes) (v : Json) : SameBut key (obj [(key, v)]) (obj []) := by
  intro other hother
  rw [get?_obj_cons, if_neg hother.symm]

end Json

namespace Outcome

/-- What is done to each item is undone to each item. -/
theorem mapM_map_eq_ok {α β γ : Type} {f : β → Outcome γ} {g : α → β} {h : α → γ} {l : List α}
    (hl : ∀ a ∈ l, f (g a) = .ok (h a)) : (l.map g).mapM f = .ok (l.map h) := by
  induction l with
  | nil => rfl
  | cons a l ih =>
    obtain ⟨ha, hl⟩ := List.forall_mem_cons.mp hl
    rw [List.map_cons, List.mapM_cons, ha, ok_bind, ih hl, ok_bind]
    rfl

end Outcome

end RsmpGateway.Lib
