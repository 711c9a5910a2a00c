import RsmpGateway.Rsmp.Contents

/-!
# Arrays as lists

`Represents` ties an array to the list of its items, and the equations here say what each
operation of `rsmp_array_*` makes of an array that represents a list: the array that it returns
represents the list after the operation.

The operations are those of `Rsmp/Array.lean`, with their blocks, lengths and copies; what is
read outside a block is a fault there. The equations therefore have conditions (a position that
is there, a source that is long enough, memory that is granted), and `Rsmp/ArrayRefine.lean`
shows that nothing less would do (`refines_iff`).
-/

namespace RsmpGateway.Rsmp

open RsmpGateway.Lib

/-- An item of zeros. -/
def Item.zero (T : ItemType) : Item T := Chunk.fill T.size 0

/-- The array holds the items of the list and nothing more. Its item size is set, unless it is
a cleared structure that nothing was added to. -/
structure MemArray.Represents (H : Heap) {T : ItemType} (a : MemArray T) (l : List (Item T)) :
    Prop where
  len_eq : a.len = l.length
  items_eq : a.items = .block (layout l) ∨ a.items = .null ∧ l = []
  sized : a.itemLen = T.size ∨ a.itemLen = 0 ∧ l = []
  granted : a.items = .null ∨ H.grants (l.length * T.size) = true

namespace MemArray

variable {H : Heap} {T : ItemType} {a b : MemArray T} {l k : List (Item T)}

namespace Represents

/-! ## Memory

The bytes of the items stand one after the other in a block of their exact length, or there is no
block and no item. -/

theorem bytes_eq (ha : a.Represents H l) : a.items.bytes = layout l := by
  rcases ha.items_eq with h | ⟨h, rfl⟩
  · rw [h, Cells.bytes]
  · rw [h]
    rfl

theorem length_bytes (ha : a.Represents H l) : a.items.bytes.length = l.length * T.size := by
  rw [ha.bytes_eq, length_layout]

theorem live (ha : a.Represents H l) : a.items ≠ .freed := by
  rcases ha.items_eq with h | ⟨h, -⟩
  · rw [h]
    exact nofun
  · rw [h]
    exact nofun

/-- A block for the items is granted, where there is one. -/
theorem grants (ha : a.Represents H l) (hl : l ≠ []) : H.grants (l.length * T.size) = true := by
  rcases ha.items_eq with h | ⟨-, h⟩
  · exact ha.granted.resolve_left (by rw [h]; exact nofun)
  · exact absurd h hl

theorem bounded (ha : a.Represents H l) : l.length * T.size < 2 ^ 63 := by
  by_cases hl : l = []
  · rw [hl]
    simp
  · exact H.bounded (ha.grants hl)

theorem length_lt (ha : a.Represents H l) : l.length < 2 ^ 63 := by
  have hmul : l.length * 1 ≤ l.length * T.size := Nat.mul_le_mul_left _ T.pos
  have := ha.bounded
  omega

theorem free_eq (ha : a.Represents H l) : a.items.free = .ok () := by
  rcases ha.items_eq with h | ⟨h, -⟩
  · rw [h]
    rfl
  · rw [h]
    rfl

/-- Without the bytes it is an array with room for its length. -/
theorem good (ha : a.Represents H l) : a.forget.Good := by
  constructor
  · rw [forget_bytes, ha.length_bytes]
    exact Nat.le_of_eq (congrArg (· * T.size) ha.len_eq)
  · exact ha.sized.symm.imp And.left id
  · rw [forget_bytes, ha.length_bytes]
    exact ha.bounded
  · rcases ha.items_eq with h | ⟨h, -⟩
    · rw [forget, h]
      intro h
      cases h
    · rw [forget, h]
      intro h
      cases h

/-- What is read from the items. -/
theorem load_eq (ha : a.Represents H l) {i n : Nat} (h : i + n ≤ l.length) :
    a.load (i * T.size) (n * T.size) = .ok (layout ((l.drop i).take n)) := by
  have hfits := Nat.mul_le_mul_right T.size h
  rw [Nat.add_mul] at hfits
  rw [load_ok_iff, ha.length_bytes, ha.bytes_eq, layout_take, layout_drop]
  exact ⟨.inr hfits, rfl⟩

/-- What is written over the items. -/
theorem store_eq (ha : a.Represents H l) (i : Nat) (new : List (Item T))
    (h : i + new.length ≤ l.length) :
    ∃ b, a.store (i * T.size) (layout new) = .ok b ∧ b.Represents H (overlay l i new) := by
  have hfits := Nat.mul_le_mul_right T.size h
  rw [Nat.add_mul] at hfits
  have hlength : (overlay l i new).length = l.length := by
    rw [length_overlay (by omega)]
    omega
  refine ⟨_, store_ok_iff.mpr ⟨.inr ?_, rfl⟩, ?_⟩
  · rw [length_layout, ha.length_bytes]
    exact hfits
  · rcases ha.items_eq with hitems | ⟨hitems, rfl⟩
    · have hwrite : a.items.write (i * T.size) (layout new) =
          .block (layout (overlay l i new)) := by
        rw [hitems, layout_overlay]
        rfl
      constructor
      · rw [hlength]
        exact ha.len_eq
      · exact .inl hwrite
      · rcases ha.sized with hset | ⟨hset, rfl⟩
        · exact .inl hset
        · exact .inr ⟨hset, List.eq_nil_of_length_eq_zero hlength⟩
      · rw [hlength]
        exact .inr (ha.granted.resolve_left (by rw [hitems]; exact nofun))
    · -- nothing is written where there is nothing
      obtain rfl : new = [] := List.eq_nil_of_length_eq_zero (by
        rw [List.length_nil] at h
        omega)
      rw [overlay_nil]
      constructor
      · exact ha.len_eq
      · rw [hitems]
        exact .inr ⟨rfl, rfl⟩
      · exact ha.sized
      · rw [hitems]
        exact .inl rfl

end Represents

/-! ### Where items are copied from

Most copies are from a second array. A copy of an array onto itself is one of its own items, whose
block the extension may move before they are read. -/

/-- The items that are copied from: those of the second array, or those of the first one again. -/
def Source (H : Heap) (src : Option (MemArray T)) (l k : List (Item T)) : Prop :=
  match src with
  | none => k = l
  | some b => b.Represents H k

namespace Represents

/-- The same items with some more after them are a source too. -/
theorem source_getD (ha : a.Represents H l) {src : Option (MemArray T)} (hsrc : Source H src l k) :
    (src.getD a).Represents H k := by
  cases src with
  | none =>
    obtain rfl : k = l := hsrc
    exact ha
  | some b => exact hsrc

theorem memcpy_eq (ha : a.Represents H l) (src : Option (MemArray T)) (hsrc : Source H src l k)
    {i1 i2 n : Nat} (hread : i2 + n ≤ k.length) (hwrite : i1 + n ≤ l.length)
    (hapart : src = none → i1 + n ≤ i2 ∨ i2 + n ≤ i1) :
    ∃ b, a.memcpy i1 src i2 (n * T.size) = .ok b ∧
      b.Represents H (overlay l i1 ((k.drop i2).take n)) := by
  have hlength : ((k.drop i2).take n).length = n := by
    rw [List.length_take, List.length_drop]
    omega
  obtain ⟨b, hstore, hb⟩ := ha.store_eq i1 ((k.drop i2).take n) (by omega)
  refine ⟨b, Except.bind_eq_ok.mpr ⟨_, (ha.source_getD hsrc).load_eq hread, ?_⟩, hb⟩
  rw [if_neg]
  · exact hstore
  · rintro ⟨hnone, hlt1, hlt2⟩
    have hmul : (i1 + n) * T.size ≤ i2 * T.size ∨ (i2 + n) * T.size ≤ i1 * T.size :=
      (hapart hnone).imp (Nat.mul_le_mul_right _) (Nat.mul_le_mul_right _)
    rw [Nat.add_mul, Nat.add_mul] at hmul
    omega

/-! ## Operations

One equation for each operation, from the extension of the block upwards: the later ones are made
of the earlier ones, as in the source. -/

theorem extend_eq (ha : a.Represents H l) {add : Nat} (hpos : 0 < l.length + add)
    (hgrants : H.grants ((l.length + add) * T.size) = true) :
    ∃ b, a.extend H add = .ok b ∧
      b.Represents H (l ++ List.replicate add (Item.zero T)) := by
  have hbounded := H.bounded hgrants
  have hsize : 0 < (l.length + add) * T.size := Nat.mul_pos hpos T.pos
  have hone : (l.length + add) * 1 ≤ (l.length + add) * T.size := Nat.mul_le_mul_left _ T.pos
  have hsplit : (l.length + add) * T.size = l.length * T.size + add * T.size := Nat.add_mul _ _ _
  have hnewlen : sizeT (a.len + add) = l.length + add := by
    rw [ha.len_eq, sizeT_of_lt (by omega)]
  have hbytes : sizeT (T.size * (l.length + add)) = (l.length + add) * T.size := by
    rw [Nat.mul_comm, sizeT_of_lt (by omega)]
  have hzeros : sizeT (T.size * add) = add * T.size := by
    rw [Nat.mul_comm, sizeT_of_lt (by omega)]
  -- the items, then the bytes that are fresh
  have hresize : H.resize a.items.bytes ((l.length + add) * T.size) =
      layout l ++ (List.range' (l.length * T.size) (add * T.size)).map H.fresh := by
    rw [Heap.resize, ha.bytes_eq, length_layout, List.take_of_length_le (by
      rw [length_layout]; omega), hsplit, Nat.add_sub_cancel_left]
  have hoverlay : overlay (H.resize a.items.bytes ((l.length + add) * T.size))
      (l.length * T.size) (List.replicate (add * T.size) 0) =
      layout (l ++ List.replicate add (Item.zero T)) := by
    rw [hresize, overlay_append (by rw [length_layout]) (by simp), ← length_layout,
      overlay_length, layout_append, Item.zero, layout_replicate]
  have hlength : (l ++ List.replicate add (Item.zero T)).length = l.length + add := by simp
  refine ⟨⟨l.length + add, T.size, a.hasFree,
    .block (layout (l ++ List.replicate add (Item.zero T)))⟩, ?_, ?_⟩
  · rw [extend]
    dsimp only
    rw [hnewlen, hbytes, hzeros, if_neg ha.live, if_neg (by omega), if_pos hgrants]
    refine Except.bind_eq_ok.mpr ⟨_, store_ok_iff.mpr ⟨.inr ?_, rfl⟩, ?_⟩
    · show _ ≤ (H.resize a.items.bytes ((l.length + add) * T.size)).length
      rw [length_resize, List.length_replicate, ha.len_eq]
      omega
    · rw [ha.len_eq, Cells.write, hoverlay]
      rfl
  · exact ⟨hlength.symm, .inl rfl, .inl rfl, .inr (hlength.symm ▸ hgrants)⟩

/-- The array has room for a length, and what was not there is zero. -/
theorem extendTo_eq (ha : a.Represents H l) {n : Nat} (hpos : 0 < n)
    (hgrants : H.grants (max l.length n * T.size) = true) :
    ∃ b, a.extendTo H n = .ok b ∧
      b.Represents H (l ++ List.replicate (n - l.length) (Item.zero T)) := by
  rw [extendTo, ha.len_eq]
  split
  · next hle =>
    apply ha.extend_eq (by omega)
    rwa [show l.length + (n - l.length) = max l.length n by omega]
  · next hle =>
    refine ⟨a, rfl, ?_⟩
    rw [show n - l.length = 0 by omega, List.replicate_zero, List.append_nil]
    exact ha

theorem set_eq (ha : a.Represents H l) {i : Nat} (hi : i < l.length) (item : Item T) :
    ∃ b, a.set H i item = .ok b ∧ b.Represents H (overlay l i [item]) := by
  have hlt : ¬ a.len ≤ i := by
    rw [ha.len_eq]
    omega
  obtain ⟨b, hstore, hb⟩ := ha.store_eq i [item] (by simpa using hi)
  refine ⟨b, Except.bind_eq_ok.mpr ⟨a, if_neg hlt, ?_⟩, hb⟩
  rw [if_pos (by omega), ← layout_singleton]
  exact hstore

/-! ### Copies

The position is cut to the length of the array, and the array extended up to the last item that is
written. What stands before the position and what stands behind the copy stay. -/

theorem cpyPos_eq (ha : a.Represents H l) (src : Option (MemArray T)) (hsrc : Source H src l k)
    (i1 : Nat) {i2 n2 : Nat} (hpos : 0 < n2) (hread : i2 + n2 ≤ k.length)
    (hgrants : H.grants (max l.length (min i1 l.length + n2) * T.size) = true)
    (hapart : src = none → min i1 l.length + n2 ≤ i2 ∨ i2 + n2 ≤ min i1 l.length) :
    ∃ b, a.cpyPos H i1 src i2 n2 = .ok b ∧
      b.Represents H (overlay l (min i1 l.length) ((k.drop i2).take n2)) := by
  have hk := (ha.source_getD hsrc).len_eq
  have hkbounded := (ha.source_getD hsrc).bounded
  have hl := ha.length_lt
  have hklt := (ha.source_getD hsrc).length_lt
  have hfits : sizeT (n2 * T.size) = n2 * T.size := by
    have := Nat.mul_le_mul_right T.size (show n2 ≤ k.length by omega)
    exact sizeT_of_lt (by omega)
  have hnew : ((k.drop i2).take n2).length = n2 := by
    rw [List.length_take, List.length_drop]
    omega
  obtain ⟨b, hextend, hb⟩ := ha.extendTo_eq (n := min i1 l.length + n2) (by omega) hgrants
  -- the source is not changed by what is added after the items
  obtain ⟨k', hsrc', hk', hpart⟩ : ∃ k', Source H src (l ++ List.replicate
      (min i1 l.length + n2 - l.length) (Item.zero T)) k' ∧ i2 + n2 ≤ k'.length ∧
      (k'.drop i2).take n2 = (k.drop i2).take n2 := by
    cases src with
    | none =>
      obtain rfl : k = l := hsrc
      refine ⟨_, rfl, ?_, ?_⟩
      · rw [List.length_append]
        omega
      · rw [List.drop_append_of_le_length (by omega), List.take_append_of_le_length (by
          rw [List.length_drop]; omega)]
    | some c => exact ⟨k, hsrc, hread, rfl⟩
  have hroom : min i1 l.length + n2 ≤ (l ++ List.replicate
      (min i1 l.length + n2 - l.length) (Item.zero T)).length := by
    rw [List.length_append, List.length_replicate]
    omega
  obtain ⟨c, hcopy, hc⟩ := hb.memcpy_eq src hsrc' hk' hroom hapart
  refine ⟨c, ?_, ?_⟩
  · rw [cpyPos, if_neg (by omega), ha.len_eq]
    dsimp only
    rw [sizeT_of_lt (by omega), hfits]
    exact Except.bind_eq_ok.mpr ⟨b, hextend, hcopy⟩
  · rw [hpart] at hc
    by_cases hend : l.length ≤ min i1 l.length + n2
    · rwa [overlay_append (by omega) (by rw [List.length_replicate, hnew]; omega)] at hc
    · rwa [show min i1 l.length + n2 - l.length = 0 by omega, List.replicate_zero,
        List.append_nil] at hc

/-- The loop of `_insert` moves `qs` behind the items that make room for others. -/
theorem moveItems_eq {ps qs xs zs : List (Item T)} (hxs : xs ≠ [])
    (ha : a.Represents H (ps ++ (qs ++ (xs ++ zs)))) {j i : Nat}
    (hj : qs ≠ [] → j + 1 = ps.length + qs.length + xs.length)
    (hi : qs ≠ [] → i + 1 = ps.length + qs.length) :
    ∃ b ys, a.moveItems qs.length j i = .ok b ∧ ys.length = xs.length ∧
      b.Represents H (ps ++ (ys ++ (qs ++ zs))) := by
  induction qs using List.reverseRecOn generalizing a xs zs j i with
  | nil => exact ⟨a, xs, rfl, rfl, ha⟩
  | append_singleton qs q ih =>
    -- the last item of `qs` is copied over the last one of `xs`
    obtain ⟨xs, x, rfl⟩ : ∃ xs' x, xs = xs' ++ [x] :=
      ⟨_, _, (List.dropLast_concat_getLast hxs).symm⟩
    have hne : qs ++ [q] ≠ [] := by simp
    have hjlen : j = (ps ++ (qs ++ (q :: xs))).length := by
      have := hj hne
      simp only [List.length_append, List.length_cons, List.length_nil] at this ⊢
      omega
    have hilen : i = (ps ++ qs).length := by
      have := hi hne
      simp only [List.length_append, List.length_cons, List.length_nil] at this ⊢
      omega
    have hlist : ps ++ (qs ++ [q] ++ (xs ++ [x] ++ zs)) =
        (ps ++ qs) ++ ([q] ++ (xs ++ x :: zs)) := by
      simp
    have hread : ((ps ++ (qs ++ [q] ++ (xs ++ [x] ++ zs))).drop i).take 1 = [q] := by
      rw [hlist, hilen, List.drop_left]
      rfl
    have hwrite : overlay (ps ++ (qs ++ [q] ++ (xs ++ [x] ++ zs))) j [q] =
        ps ++ (qs ++ (q :: xs ++ q :: zs)) := by
      have hlist' : ps ++ (qs ++ [q] ++ (xs ++ [x] ++ zs)) =
          (ps ++ (qs ++ (q :: xs))) ++ ([x] ++ zs) := by
        simp
      rw [hlist', hjlen, overlay_middle (show [x].length = [q].length from rfl)]
      simp
    have hlength : (ps ++ (qs ++ [q] ++ (xs ++ [x] ++ zs))).length =
        ps.length + qs.length + xs.length + zs.length + 2 := by
      simp only [List.length_append, List.length_cons, List.length_nil]
      omega
    have hlt := ha.length_lt
    simp only [List.length_append, List.length_cons] at hjlen hilen
    obtain ⟨b, hcopy, hb⟩ := ha.memcpy_eq none rfl (show i + 1 ≤ _ by omega)
      (show j + 1 ≤ _ by omega) fun _ => .inr (by omega)
    rw [hread, hwrite] at hb
    rw [Nat.one_mul] at hcopy
    have hnext : qs ≠ [] → 0 < qs.length := List.length_pos_of_ne_nil
    obtain ⟨c, ys, hmove, hys, hc⟩ := ih (List.cons_ne_nil q xs) hb (j := sizeSub j 1)
      (i := sizeSub i 1)
      (fun hqs => by
        have := hnext hqs
        rw [sizeSub_of_le (by omega) (by omega), List.length_cons]
        omega)
      (fun hqs => by
        have := hnext hqs
        rw [sizeSub_of_le (by omega) (by omega)]
        omega)
    refine ⟨c, ys, ?_, ?_, ?_⟩
    · rw [List.length_append]
      exact Except.bind_eq_ok.mpr ⟨b, hcopy, hmove⟩
    · rw [hys, List.length_append]
      rfl
    · rwa [List.append_assoc]

/-! ### Insertions and the shrink

The equation of `_insert` is put together from the extension, the loop and the copy. `_shrink`
keeps a prefix. -/

/-- What is inserted is a part of the source. -/
theorem insert_eq (ha : a.Represents H l) (hb : b.Represents H k) {i1 i2 n2 : Nat}
    (hn2 : 0 < n2) (hi1 : i1 ≤ l.length) (hi2 : i2 < k.length) (hfits : i2 + n2 < 2 ^ 64)
    (hgrants : H.grants ((l.length + min n2 (k.length - i2)) * T.size) = true) :
    ∃ c, a.insert H i1 (some b) i2 n2 = .ok c ∧
      c.Represents H (l.take i1 ++ ((k.drop i2).take n2 ++ l.drop i1)) := by
  have hllt := ha.length_lt
  have hklt := hb.length_lt
  have hn : (if k.length < sizeT (i2 + n2) then sizeSub k.length i2 else n2) =
      min n2 (k.length - i2) := by
    rw [sizeT_of_lt hfits, sizeSub_of_le (by omega) (by omega)]
    split <;> omega
  have hpart : (k.drop i2).take n2 = (k.drop i2).take (min n2 (k.length - i2)) := by
    rw [← List.length_drop, ← List.take_eq_take_min]
  rw [hpart]
  generalize hm : min n2 (k.length - i2) = n at hn hgrants
  have hpos : 0 < n := by omega
  obtain ⟨c, hextend, hc⟩ := ha.extend_eq (by omega) hgrants
  have hclt := hc.length_lt
  have hlen : c.len = l.length + n := by
    rw [hc.len_eq, List.length_append, List.length_replicate]
  rw [List.length_append, List.length_replicate] at hclt
  -- room is made at the position
  have hlist : l ++ List.replicate n (Item.zero T) =
      l.take i1 ++ (l.drop i1 ++ (List.replicate n (Item.zero T) ++ [])) := by
    rw [List.append_nil, ← List.append_assoc, List.take_append_drop]
  rw [hlist] at hc
  have htake : (l.take i1).length = i1 := by
    rw [List.length_take]
    omega
  have hdrop : (l.drop i1).length = l.length - i1 := List.length_drop
  obtain ⟨d, ys, hmove, hys, hd⟩ := moveItems_eq (by simp; omega) hc (j := sizeSub c.len 1)
    (i := sizeSub (i1 + (l.length - i1)) 1)
    (fun _ => by
      rw [sizeSub_of_le (by omega) (by omega), htake, hdrop, List.length_replicate]
      omega)
    (fun hne => by
      have := List.length_pos_of_ne_nil hne
      rw [sizeSub_of_le (by omega) (by omega), htake, hdrop]
      omega)
  rw [List.length_replicate] at hys
  rw [List.append_nil] at hd
  have hdlen : (l.take i1 ++ (ys ++ l.drop i1)).length = l.length + n := by
    rw [List.length_append, List.length_append, htake, hys, hdrop]
    omega
  -- the items of the source take it
  obtain ⟨e, hcopy, he⟩ := hd.cpyPos_eq (some b) hb i1 hpos
    (show i2 + n ≤ k.length by omega) (by
      rw [hdlen, show max (l.length + n) (min i1 (l.length + n) + n) = l.length + n by omega]
      exact hgrants) nofun
  refine ⟨e, ?_, ?_⟩
  · rw [insert]
    dsimp only
    rw [hb.len_eq, ha.len_eq, if_neg (by omega), hn, sizeSub_of_le (by omega) hi1]
    rw [hdrop] at hmove
    exact Except.bind_eq_ok.mpr ⟨c, hextend, Except.bind_eq_ok.mpr ⟨d, hmove, hcopy⟩⟩
  · have hnew : ((k.drop i2).take n).length = n := by
      rw [List.length_take, List.length_drop]
      omega
    rw [hdlen, show min i1 (l.length + n) = (l.take i1).length by omega,
      overlay_middle (hys.trans hnew.symm)] at he
    exact he

theorem shrink_eq (ha : a.Represents H l) {delta : Nat} (hdelta : delta < l.length)
    (hfree : a.hasFree = false) :
    ∃ b, a.shrink H delta = .ok b ∧ b.Represents H (l.take (l.length - delta)) := by
  have hlt := ha.length_lt
  have hne : l ≠ [] := List.ne_nil_of_length_pos (by omega)
  have hitemLen : a.itemLen = T.size := ha.sized.resolve_right fun h => hne h.2
  have hsub : sizeSub a.len delta = l.length - delta := by
    rw [ha.len_eq, sizeSub_of_le (by omega) (by omega)]
  have hmul := Nat.mul_le_mul_right T.size (show l.length - delta ≤ l.length by omega)
  have hbounded := ha.bounded
  have hgrants : H.grants ((l.length - delta) * T.size) = true := H.smaller hmul (ha.grants hne)
  -- the items are put aside, so that nothing is freed
  have hinit : a.aside.initializeTyped H (l.length - delta) =
      .ok ⟨l.length - delta, T.size, false,
        .block (List.replicate ((l.length - delta) * T.size) 0)⟩ := by
    have hflush : a.aside.flush = .ok ⟨0, T.size, false, .null⟩ := by
      have hlen : a.aside.len ≠ 0 := by
        rw [aside, ha.len_eq]
        omega
      rw [MemArray.flush, if_neg hlen, aside, hfree, hitemLen]
      rfl
    refine Except.bind_eq_ok.mpr ⟨_, hflush, ?_⟩
    rw [MemArray.allocate, if_neg (by omega), Heap.calloc]
    dsimp only
    rw [if_pos ⟨by omega, hgrants⟩]
  have hzeros : Represents H (T := T) ⟨l.length - delta, T.size, false,
      .block (List.replicate ((l.length - delta) * T.size) 0)⟩
      (List.replicate (l.length - delta) (Item.zero T)) := by
    constructor
    · rw [List.length_replicate]
    · rw [Item.zero, layout_replicate]
      exact .inl rfl
    · exact .inl rfl
    · rw [List.length_replicate]
      exact .inr hgrants
  have htake : (l.take (l.length - delta)).length = l.length - delta := by
    rw [List.length_take]
    omega
  have hload := ha.load_eq (i := 0) (n := l.length - delta) (by omega)
  obtain ⟨b, hstore, hb⟩ := hzeros.store_eq 0 (l.take (l.length - delta)) (by
    rw [htake, List.length_replicate]
    omega)
  rw [Nat.zero_mul] at hload hstore
  refine ⟨b, Except.bind_eq_ok.mpr ⟨a, if_neg (by rw [ha.len_eq]; omega), ?_⟩, ?_⟩
  · rw [hsub]
    refine Except.bind_eq_ok.mpr ⟨_, hinit, ?_⟩
    dsimp only
    rw [sizeT_of_lt (by omega)]
    exact Except.bind_eq_ok.mpr ⟨_, hload, Except.bind_eq_ok.mpr ⟨b, hstore,
      Except.bind_eq_ok.mpr ⟨_, ha.free_eq, rfl⟩⟩⟩
  · have hcover : overlay (List.replicate (l.length - delta) (Item.zero T)) 0
        (l.take (l.length - delta)) = l.take (l.length - delta) := by
      rw [overlay, htake, List.drop_of_length_le (by simp)]
      simp
    rwa [hcover] at hb

end Represents

end MemArray

end RsmpGateway.Rsmp
