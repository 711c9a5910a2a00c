import RsmpGateway.Lib.CString

/-!
# Negotiation of a version

`rsmp_array_RSMPs_check` compares versions as strings: it looks for the greatest remote version
and returns it where a local version is greater still. That is the highest common version under a
narrow condition only (`negotiates_iff`), and never where the two lists are the same.

The order that is meant is that of the numbers between the dots; the order that is used is that
of the characters. The greatest item of a list is treated for any order, since both are needed.
-/

namespace RsmpGateway.Rsmp

open RsmpGateway.Lib

/-! ## The greatest of a list

A loop that keeps the greater of two items ends with the greatest one. -/

section Greatest

variable {α : Type*} (cmp : α → α → Ordering)

/-- An item that no other one is above. -/
def Greatest (l : List α) (m : α) : Prop := m ∈ l ∧ ∀ x ∈ l, (cmp x m).isLE

/-- The running maximum of a loop that starts with `m`. -/
def runningMax (m : α) : List α → α
  | [] => m
  | x :: xs => runningMax (if cmp m x = .lt then x else m) xs

variable {cmp} [Std.TransCmp cmp] {l : List α} {m n : α}

variable (cmp) in
theorem greatest_runningMax (m : α) (l : List α) :
    Greatest cmp (m :: l) (runningMax cmp m l) := by
  induction l generalizing m with
  | nil =>
    refine ⟨List.mem_cons_self, fun x hx => ?_⟩
    obtain rfl := List.mem_singleton.mp hx
    exact Std.ReflCmp.isLE_rfl
  | cons x l ih =>
    rw [runningMax]
    split
    · next hlt =>
      obtain ⟨hmem, hmax⟩ := ih x
      refine ⟨List.mem_cons_of_mem _ hmem, List.forall_mem_cons.mpr ⟨?_, hmax⟩⟩
      -- the old maximum is below the new one, which is below the last
      have hle : (cmp m x).isLE := by
        rw [hlt]
        rfl
      exact Std.TransCmp.isLE_trans hle (hmax x List.mem_cons_self)
    · next hge =>
      obtain ⟨hmem, hmax⟩ := ih m
      obtain ⟨hm, hl⟩ := List.forall_mem_cons.mp hmax
      have hle : (cmp x m).isLE := by
        rw [(Std.OrientedCmp.eq_swap : cmp x m = (cmp m x).swap)]
        cases h : cmp m x with
        | lt => exact absurd h hge
        | eq => rfl
        | gt => rfl
      refine ⟨?_, List.forall_mem_cons.mpr ⟨hm, List.forall_mem_cons.mpr ⟨?_, hl⟩⟩⟩
      · rcases List.mem_cons.mp hmem with h | h
        · rw [h]
          exact List.mem_cons_self
        · exact List.mem_cons_of_mem _ (List.mem_cons_of_mem _ h)
      · exact Std.TransCmp.isLE_trans hle hm

/-- What is above the greatest item is above them all. -/
theorem Greatest.lt_iff (hm : Greatest cmp l m) {x : α} :
    cmp m x = .lt ↔ ∀ y ∈ l, cmp y x = .lt := by
  constructor
  · intro hlt y hy
    exact Std.TransCmp.lt_of_isLE_of_lt (hm.2 y hy) hlt
  · intro hall
    exact hall m hm.1

end Greatest

/-! ## Versions

The two loops of the source, with `strcmp`. -/

/-- `strcmp` -/
def strcmp (s t : CString) : Ordering := List.compareLex compare s.val t.val

theorem compareLex_trans :
    Std.TransCmp (List.compareLex (compare : UInt8 → UInt8 → Ordering)) := inferInstance

instance : Std.TransCmp strcmp where
  eq_swap := compareLex_trans.eq_swap
  isLE_trans := compareLex_trans.isLE_trans

theorem eq_of_strcmp {s t : CString} (h : strcmp s t = .eq) : s = t :=
  Subtype.ext (Std.LawfulEqCmp.eq_of_compare h)

/-- The loop on the local versions. -/
def findGreater (versRemoteMax : CString) : List CString → Option CString
  | [] => none
  | v :: vs =>
    if strcmp versRemoteMax v = .lt then some versRemoteMax else findGreater versRemoteMax vs

/-- `rsmp_array_RSMPs_check`, of the lists of the versions, which may be NULL. -/
def rsmpArrayRSMPsCheck (locals remotes : Option (List CString)) : Option CString :=
  match locals, remotes with
  | some (v :: vs), some (r :: rs) => findGreater (runningMax strcmp r rs) (v :: vs)
  | _, _ => none

/-! ## The highest common version

A version as a list of numbers, and the version that both sides should take. -/

/-- The number that some digits write. -/
def number (digits : Bytes) : Nat :=
  digits.foldl (fun n c => 10 * n + (c.toNat - 0x30)) 0

/-- The components of a version, between its dots. -/
def components (v : CString) : List Nat := (v.val.splitOn 0x2E).map number

/-- The numeric order of the components. -/
def numeric (v w : CString) : Ordering := List.compareLex compare (components v) (components w)

/-- A version of both lists, such that none of both lists is higher. -/
def HighestCommon (locals remotes : List CString) (v : CString) : Prop :=
  v ∈ locals ∧ v ∈ remotes ∧ ∀ w ∈ locals, w ∈ remotes → (numeric w v).isLE

/-- **The result is the highest common version**, and there is none where no version is common. -/
def Negotiates (locals remotes : List CString) : Prop :=
  match rsmpArrayRSMPsCheck (some locals) (some remotes) with
  | some v => HighestCommon locals remotes v
  | none => ∀ v ∈ locals, v ∉ remotes

/-! ## When it is found

The greatest remote version has to be local as well, and not the greatest local one. -/

theorem findGreater_eq_some {m w : CString} {vs : List CString} :
    findGreater m vs = some w ↔ m = w ∧ ∃ v ∈ vs, strcmp m v = .lt := by
  induction vs with
  | nil => simp [findGreater]
  | cons v vs ih =>
    rw [findGreater]
    split
    · next hlt =>
      rw [Option.some.injEq]
      exact ⟨fun h => ⟨h, v, List.mem_cons_self, hlt⟩, fun h => h.1⟩
    · next hge =>
      rw [ih]
      constructor
      · rintro ⟨h, x, hx, hlt⟩
        exact ⟨h, x, List.mem_cons_of_mem _ hx, hlt⟩
      · rintro ⟨h, x, hx, hlt⟩
        rcases List.mem_cons.mp hx with rfl | hx
        · exact absurd hlt hge
        · exact ⟨h, x, hx, hlt⟩

theorem findGreater_eq_none {m : CString} {vs : List CString} :
    findGreater m vs = none ↔ ∀ v ∈ vs, strcmp m v ≠ .lt := by
  constructor
  · intro h v hv hlt
    rw [findGreater_eq_some.mpr ⟨rfl, v, hv, hlt⟩] at h
    cases h
  · intro h
    cases hfind : findGreater m vs with
    | none => rfl
    | some w =>
      obtain ⟨-, v, hv, hlt⟩ := findGreater_eq_some.mp hfind
      exact absurd hlt (h v hv)

/-- There is one greatest remote version. -/
theorem Greatest.unique {vs : List CString} {m n : CString} (hm : Greatest strcmp vs m)
    (hn : Greatest strcmp vs n) : m = n :=
  eq_of_strcmp (Std.OrientedCmp.isLE_antisymm (hn.2 m hm.1) (hm.2 n hn.1))

/-- The result, from the greatest remote version. -/
theorem check_eq {locals remotes : List CString} {m : CString}
    (hm : Greatest strcmp remotes m) :
    rsmpArrayRSMPsCheck (some locals) (some remotes) = findGreater m locals := by
  cases remotes with
  | nil => exact absurd hm.1 List.not_mem_nil
  | cons r rs =>
    cases locals with
    | nil => rfl
    | cons v vs => rw [rsmpArrayRSMPsCheck, (greatest_runningMax strcmp r rs).unique hm]

/-- No version is common, and no local one is above all the remote ones as a string; or the greatest
string of the remote versions is the highest common version, and a local one is above it. -/
def NegotiationFits (locals remotes : List CString) : Prop :=
  ((∀ v ∈ locals, v ∉ remotes) ∧
      (remotes = [] ∨ ∀ v ∈ locals, ¬ ∀ r ∈ remotes, strcmp r v = .lt)) ∨
    ∃ m, Greatest strcmp remotes m ∧ HighestCommon locals remotes m ∧
      ∃ v ∈ locals, strcmp m v = .lt

/-- **The highest common version is found exactly** in these cases. -/
theorem negotiates_iff (locals remotes : List CString) :
    Negotiates locals remotes ↔ NegotiationFits locals remotes := by
  cases remotes with
  | nil =>
    have hcheck : rsmpArrayRSMPsCheck (some locals) (some []) = none := by
      cases locals <;> rfl
    rw [Negotiates, hcheck]
    exact ⟨fun h => .inl ⟨h, .inl rfl⟩, fun _ v _ => List.not_mem_nil⟩
  | cons r rs =>
    have hm := greatest_runningMax strcmp r rs
    generalize runningMax strcmp r rs = m at hm
    have hne : r :: rs ≠ [] := List.cons_ne_nil r rs
    generalize r :: rs = remotes at hm hne
    rw [Negotiates, check_eq hm]
    constructor
    · intro h
      cases hfind : findGreater m locals with
      | some w =>
        rw [hfind] at h
        obtain ⟨rfl, hgreater⟩ := findGreater_eq_some.mp hfind
        exact .inr ⟨m, hm, h, hgreater⟩
      | none =>
        rw [hfind] at h
        refine .inl ⟨h, .inr fun v hv hall => ?_⟩
        exact findGreater_eq_none.mp hfind v hv (hm.lt_iff.mpr hall)
    · rintro (⟨hnone, hle⟩ | ⟨n, hn, hhighest, hgreater⟩)
      · have hfind : findGreater m locals = none := by
          rw [findGreater_eq_none]
          intro v hv hlt
          exact hle.resolve_left hne v hv (hm.lt_iff.mp hlt)
        rw [hfind]
        exact hnone
      · obtain rfl := hn.unique hm
        rw [findGreater_eq_some.mpr ⟨rfl, hgreater⟩]
        exact hhighest

/-- Two ends with the same versions find none. -/
theorem check_self (vs : List CString) : rsmpArrayRSMPsCheck (some vs) (some vs) = none := by
  cases vs with
  | nil => rfl
  | cons v vs =>
    rw [check_eq (greatest_runningMax strcmp v vs), findGreater_eq_none]
    intro w hw hlt
    have hle := (greatest_runningMax strcmp v vs).2 w hw
    rw [Std.OrientedCmp.gt_iff_lt.mpr hlt] at hle
    cases hle

/-- Versions `3.1.5` of one list and of the other: `NULL` is returned. -/
theorem not_negotiates_same :
    ¬ Negotiates [.ofBytes (ascii "3.1.5")] [.ofBytes (ascii "3.1.5")] := by
  intro h
  rw [Negotiates, check_self] at h
  exact h _ List.mem_cons_self List.mem_cons_self

end RsmpGateway.Rsmp
