import RsmpGateway.Rsmp.ArrayRefine

/-!
# Comparison of arrays

`rsmp_array_*_cmp` compares the first items again and again: its loop does not advance. It ends
with the lexicographic order exactly where the first items differ, or where one array is empty
and the length of the other is positive as an `int` (`compares_iff`).

Two arrays that start with the same item are compared without end. The loop is therefore
translated with a number of iterations, and not ending means that no number of them is enough.
-/

namespace RsmpGateway.Rsmp

open RsmpGateway.Lib

/-- A difference of `int`s. -/
def intSub (x y : Int) : Except MemStop Int :=
  if -2 ^ 31 ≤ x - y ∧ x - y < 2 ^ 31 then .ok (x - y) else .error .overflow

namespace MemArray

variable {T : ItemType} (array1 array2 : MemArray T) (cmpFct : Bytes → Bytes → Int)

/-- The loop of `_cmp`, for as many turns as there is fuel. `i` stays as it is. -/
def cmpLoop (min : Nat) : Nat → Nat → Int → Except MemStop (Option Int)
  | 0, _, _ => .ok none
  | fuel + 1, i, ret =>
    if i < min then do
      let item1 ← array1.load (i * T.size) T.size
      let item2 ← array2.load (i * T.size) T.size
      if cmpFct item1 item2 ≠ 0 then .ok (some (cmpFct item1 item2))
      else cmpLoop min fuel i (cmpFct item1 item2)
    else .ok (some ret)

/-- `_cmp`. There is no result when the fuel is used up. -/
def cmp (fuel : Nat) : Except MemStop (Option Int) :=
  if array1.len = 0 ∨ array2.len = 0 then do
    return some (← intSub (toInt32 array1.len) (toInt32 array2.len))
  else
    cmpLoop array1 array2 cmpFct (if array1.len < array2.len then array1.len else array2.len)
      fuel 0 (-1)

end MemArray

/-! ## The order of the lists

The order that is meant is the lexicographic one, with the lengths at the end. -/

section

variable {H : Heap} {T : ItemType} {l k : List (Item T)} {cmpFct : Bytes → Bytes → Int}

/-- What a result says: negative, zero or positive. -/
def sign (ret : Int) : Ordering := compare ret 0

/-- The lexicographic order of the items. -/
def lexicographic (cmpFct : Bytes → Bytes → Int) (l k : List (Item T)) : Ordering :=
  List.compareLex (fun x y => sign (cmpFct x.val y.val)) l k

/-- **The comparison ends, with the sign of the lexicographic order.** -/
def Compares (a b : ListArray H T) (cmpFct : Bytes → Bytes → Int) : Prop :=
  ∃ fuel ret, a.array.cmp b.array cmpFct fuel = .ok (some ret) ∧
    sign ret = lexicographic cmpFct a.list b.list

/-- The length is zero, or it is positive when it is converted to an `int`. -/
def LengthFits (n : Nat) : Prop := n = 0 ∨ 0 < n % 2 ^ 32 ∧ n % 2 ^ 32 < 2 ^ 31

/-- One list is empty, and the length of the other one fits; or the first items differ. -/
def CmpFits (cmpFct : Bytes → Bytes → Int) : List (Item T) → List (Item T) → Prop
  | [], k => LengthFits k.length
  | l, [] => LengthFits l.length
  | x :: _, y :: _ => cmpFct x.val y.val ≠ 0

/-- The first items that are read. -/
theorem load_first {a : MemArray T} {x : Item T} (ha : a.Represents H (x :: l)) :
    a.load (0 * T.size) T.size = .ok x.val := by
  have hload := ha.load_eq (show 0 + 1 ≤ (x :: l).length by simp)
  rw [Nat.one_mul] at hload
  rw [hload]
  exact congrArg Except.ok (layout_singleton x)

/-- As long as the first items compare equal the loop goes on. -/
theorem cmpLoop_runs {a b : MemArray T} {x y : Item T} (ha : a.Represents H (x :: l))
    (hb : b.Represents H (y :: k)) (heq : cmpFct x.val y.val = 0) {min : Nat} (hmin : 0 < min)
    (fuel : Nat) (ret : Int) : a.cmpLoop b cmpFct min fuel 0 ret = .ok none := by
  induction fuel generalizing ret with
  | zero => rfl
  | succ fuel ih =>
    rw [MemArray.cmpLoop, if_pos hmin, load_first ha, load_first hb]
    show (if _ then _ else _) = _
    rw [if_neg (by simpa using heq)]
    exact ih _

/-- First items that differ end it. -/
theorem cmpLoop_ends {a b : MemArray T} {x y : Item T} (ha : a.Represents H (x :: l))
    (hb : b.Represents H (y :: k)) (hne : cmpFct x.val y.val ≠ 0) {min : Nat} (hmin : 0 < min)
    (fuel : Nat) (ret : Int) :
    a.cmpLoop b cmpFct min (fuel + 1) 0 ret = .ok (some (cmpFct x.val y.val)) := by
  rw [MemArray.cmpLoop, if_pos hmin, load_first ha, load_first hb]
  exact if_pos hne

theorem toInt32_range (n : Nat) :
    (n % 2 ^ 32 < 2 ^ 31 → toInt32 n = (n % 2 ^ 32 : Nat)) ∧
      (2 ^ 31 ≤ n % 2 ^ 32 → -2 ^ 31 ≤ toInt32 n ∧ toInt32 n < 0) := by
  rw [toInt32, BitVec.toInt_ofNat', Int.bmod]
  omega

theorem toInt32_zero : toInt32 0 = 0 := by decide

theorem intSub_ok {x y : Int} (h : -2 ^ 31 ≤ x - y ∧ x - y < 2 ^ 31) :
    intSub x y = .ok (x - y) :=
  if_pos h

theorem of_intSub {x y ret : Int} (h : intSub x y = .ok ret) : ret = x - y := by
  unfold intSub at h
  split at h
  · cases h
    rfl
  · cases h

/-- The difference of the lengths, where the second array is empty. -/
theorem intSub_zero_iff {n : Nat} :
    (∃ ret, intSub (toInt32 n) (toInt32 0) = .ok ret ∧ sign ret = if n = 0 then .eq else .gt) ↔
      LengthFits n := by
  obtain ⟨hpos, hneg⟩ := toInt32_range n
  rw [toInt32_zero]
  constructor
  · rintro ⟨ret, hret, hsign⟩
    obtain rfl := of_intSub hret
    by_cases hn : n = 0
    · exact .inl hn
    · rw [if_neg hn, sign, compare_gt_iff_gt] at hsign
      refine .inr ?_
      omega
  · rintro (rfl | ⟨hlow, hhigh⟩)
    · refine ⟨_, intSub_ok ?_, ?_⟩
      · decide
      · decide
    · have hn : n ≠ 0 := by
        rintro rfl
        omega
      have hint := hpos hhigh
      refine ⟨_, intSub_ok (by omega), ?_⟩
      rw [if_neg hn, sign, compare_gt_iff_gt]
      omega

/-- The difference of the lengths, where the first array is empty. -/
theorem zero_intSub_iff {n : Nat} :
    (∃ ret, intSub (toInt32 0) (toInt32 n) = .ok ret ∧ sign ret = if n = 0 then .eq else .lt) ↔
      LengthFits n := by
  obtain ⟨hpos, hneg⟩ := toInt32_range n
  rw [toInt32_zero]
  constructor
  · rintro ⟨ret, hret, hsign⟩
    obtain rfl := of_intSub hret
    by_cases hn : n = 0
    · exact .inl hn
    · rw [if_neg hn, sign, compare_lt_iff_lt] at hsign
      refine .inr ?_
      omega
  · rintro (rfl | ⟨hlow, hhigh⟩)
    · refine ⟨_, intSub_ok ?_, ?_⟩
      · decide
      · decide
    · have hn : n ≠ 0 := by
        rintro rfl
        omega
      have hint := hpos hhigh
      refine ⟨_, intSub_ok (by omega), ?_⟩
      rw [if_neg hn, sign, compare_lt_iff_lt]
      omega

/-- A comparison with an empty array is the difference of the lengths. -/
theorem cmp_empty {a b : MemArray T} (h : a.len = 0 ∨ b.len = 0) (fuel : Nat) (ret : Int) :
    a.cmp b cmpFct fuel = .ok (some ret) ↔ intSub (toInt32 a.len) (toInt32 b.len) = .ok ret := by
  rw [MemArray.cmp, if_pos h, Except.bind_eq_ok]
  constructor
  · rintro ⟨r, hr, hret⟩
    cases hret
    exact hr
  · intro hret
    exact ⟨ret, hret, rfl⟩

/-- **The comparison ends with the lexicographic order exactly** where the first items differ, or
where one array is empty and the length of the other one is positive as an `int`. -/
theorem compares_iff (a b : ListArray H T) (cmpFct : Bytes → Bytes → Int) :
    Compares a b cmpFct ↔ CmpFits cmpFct a.list b.list := by
  obtain ⟨a, l, ha⟩ := a
  obtain ⟨b, k, hb⟩ := b
  have halen := ha.len_eq
  have hblen := hb.len_eq
  cases l with
  | nil =>
    have hlex : lexicographic cmpFct ([] : List (Item T)) k =
        if k.length = 0 then .eq else .lt := by
      cases k <;> rfl
    rw [List.length_nil] at halen
    simp only [Compares, CmpFits, cmp_empty (.inl halen), exists_const, hlex, halen, hblen]
    exact zero_intSub_iff
  | cons x l =>
    cases k with
    | nil =>
      rw [List.length_nil] at hblen
      simp only [Compares, CmpFits, cmp_empty (.inr hblen), exists_const, halen, hblen]
      exact intSub_zero_iff
    | cons y k =>
      have hne : ¬ (a.len = 0 ∨ b.len = 0) := by
        rw [halen, hblen]
        simp
      have hmin : 0 < if a.len < b.len then a.len else b.len := by
        split <;> omega
      simp only [Compares, CmpFits, MemArray.cmp, if_neg hne]
      constructor
      · rintro ⟨fuel, ret, hrun, -⟩ heq
        rw [cmpLoop_runs ha hb heq hmin] at hrun
        cases hrun
      · intro hdiffer
        refine ⟨1, _, cmpLoop_ends ha hb hdiffer hmin 0 (-1), ?_⟩
        have hsign : sign (cmpFct x.val y.val) ≠ .eq := by
          rw [sign, Ne, compare_eq_iff_eq]
          exact hdiffer
        rw [lexicographic, List.compareLex_cons_cons]
        cases hs : sign (cmpFct x.val y.val) with
        | lt => rfl
        | eq => exact absurd hs hsign
        | gt => rfl

end

/-- The first character of each item. -/
def firstChar (item1 item2 : Bytes) : Int :=
  (item1.headD 0).toNat - (item2.headD 0).toNat

/-- An array of one character is compared with itself without end. -/
theorem oneChar_not_compares :
    (∀ fuel, MemArrayOp.oneChar.array.cmp MemArrayOp.oneChar.array firstChar fuel = .ok none) ∧
      ¬ Compares MemArrayOp.oneChar MemArrayOp.oneChar firstChar := by
  have hruns : ∀ fuel,
      MemArrayOp.oneChar.array.cmp MemArrayOp.oneChar.array firstChar fuel = .ok none := by
    intro fuel
    have ha := MemArrayOp.oneChar.represents
    exact cmpLoop_runs ha ha (by decide) (by decide) fuel (-1)
  refine ⟨hruns, ?_⟩
  rintro ⟨fuel, ret, hrun, -⟩
  rw [hruns] at hrun
  cases hrun

end RsmpGateway.Rsmp
