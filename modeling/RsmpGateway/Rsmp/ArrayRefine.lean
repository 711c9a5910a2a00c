import RsmpGateway.Rsmp.ArrayList

/-!
# Array operations against lists

Each operation of `rsmp_array_*` refines one on lists exactly under a condition (`refines_iff`):
`_set` only replaces an item that is there, the copies read inside their source, `_insert` takes
positions that are there, and `_shrink` leaves an item.

That the condition is enough is read off the equations of `Rsmp/ArrayList.lean`. That it is
needed takes the other way round: an operation that ends without a fault must have read inside
the blocks, and must have been granted its memory (the lemmas `of_...`); from the array that it
leaves one then reads what the arguments were.
-/

namespace RsmpGateway.Rsmp

open RsmpGateway.Lib

namespace MemArray

variable {H : Heap} {T : ItemType} {a b c : MemArray T} {l k : List (Item T)}

/-! ## What an operation that ends has done

The blocks say it. A copy that reads outside a block is a fault and does not end; a length that
differs from that of the list is not that of the array. -/

/-- Arrays that differ in their bytes only. -/
theorem of_forget_eq (h : b.forget = a.forget) :
    b.len = a.len ∧ b.items.bytes.length = a.items.bytes.length ∧
      (a.items = .freed → b.items = .freed) := by
  refine ⟨congrArg RsmpArray.len h, ?_, fun hfreed => ?_⟩
  · rw [← forget_bytes, ← forget_bytes, h]
  · have hitems := congrArg RsmpArray.items h
    cases hb : b.items with
    | freed => rfl
    | null => simp [forget, hb, hfreed] at hitems
    | block bytes => simp [forget, hb, hfreed] at hitems

theorem of_memcpy {src : Option (MemArray T)} {i1 i2 n : Nat} (h : a.memcpy i1 src i2 n = .ok b) :
    (n = 0 ∨ i2 * T.size + n ≤ (src.getD a).items.bytes.length) ∧
      (n = 0 ∨ i1 * T.size + n ≤ a.items.bytes.length) ∧
      (src = none → ¬ Overlap (i1 * T.size) (i2 * T.size) n) ∧ b.forget = a.forget := by
  obtain ⟨bytes, hload, hstore⟩ := Except.bind_eq_ok.mp h
  obtain ⟨hread, hlength⟩ := load_forget hload
  have hfits := (load_ok_iff.mp hload).1
  split at hstore
  · cases hstore
  · next hapart =>
    have hwrite := (store_ok_iff.mp hstore).1
    rw [hlength] at hwrite
    exact ⟨hfits, hwrite, fun hnone hover => hapart ⟨hnone, hover⟩, (store_forget hstore).2⟩

/-- The block is freed, or it is not reallocated, or it is, to the bytes of the new length. -/
theorem of_extend {add : Nat} (h : a.extend H add = .ok b) :
    b.items = .freed ∨
      (¬ (sizeT (T.size * sizeT (a.len + add)) = 0 ∧ a.items ≠ .null) ∧
        ((H.grants (sizeT (T.size * sizeT (a.len + add))) = false ∧
            b = { a with itemLen := T.size }) ∨
          (H.grants (sizeT (T.size * sizeT (a.len + add))) = true ∧
            b.len = sizeT (a.len + add) ∧
            b.items.bytes.length = sizeT (T.size * sizeT (a.len + add)) ∧
            (sizeT (T.size * add) = 0 ∨
              a.len * T.size + sizeT (T.size * add) ≤ b.items.bytes.length)))) := by
  unfold extend at h
  dsimp only at h
  split at h
  · cases h
  · split at h
    · cases h
      exact .inl rfl
    · next hzero =>
      refine .inr ⟨hzero, ?_⟩
      split at h
      · next hgrants =>
        obtain ⟨c, hstore, h⟩ := Except.bind_eq_ok.mp h
        cases h
        have hfits := (store_ok_iff.mp hstore).1
        have hbytes := (of_forget_eq (store_forget hstore).2).2.1
        rw [List.length_replicate] at hfits
        refine .inr ⟨hgrants, rfl, ?_, ?_⟩
        · rw [hbytes]
          exact length_resize _ _
        · rw [hbytes]
          exact hfits
      · next hgrants =>
        cases h
        exact .inl ⟨by simpa using hgrants, rfl⟩

theorem of_extendTo {n : Nat} (h : a.extendTo H n = .ok b) :
    b = a ∧ n < a.len ∨ a.len ≤ n ∧ a.extend H (n - a.len) = .ok b := by
  unfold extendTo at h
  split at h
  · next hle => exact .inr ⟨hle, h⟩
  · next hle =>
    cases h
    exact .inl ⟨rfl, by omega⟩

/-- An array is at least as long after it was extended up to an index. -/
theorem len_le_of_extendTo {n : Nat} (hn : n < 2 ^ 64) (h : a.extendTo H n = .ok b)
    (hlive : b.items ≠ .freed) : a.len ≤ b.len := by
  rcases of_extendTo h with ⟨rfl, -⟩ | ⟨hle, h⟩
  · exact Nat.le_refl _
  · rcases of_extend h with hfreed | ⟨-, ⟨-, rfl⟩ | ⟨-, hlen, -⟩⟩
    · exact absurd hfreed hlive
    · exact Nat.le_refl _
    · rw [hlen, sizeT_of_lt (by omega)]
      omega

/-- A block that is freed stays so. -/
theorem freed_of_cpyPos {src : Option (MemArray T)} {i1 i2 n2 : Nat}
    (h : a.cpyPos H i1 src i2 n2 = .ok b) (hfreed : a.items = .freed) : b.items = .freed := by
  unfold cpyPos at h
  split at h
  · cases h
    exact hfreed
  · obtain ⟨c, hextend, hcopy⟩ := Except.bind_eq_ok.mp h
    have hcfreed : c.items = .freed := by
      rcases of_extendTo hextend with ⟨rfl, -⟩ | ⟨-, hextend⟩
      · exact hfreed
      · unfold extend at hextend
        dsimp only at hextend
        rw [if_pos hfreed] at hextend
        cases hextend
    exact (of_forget_eq (of_memcpy hcopy).2.2.2).2.2 hcfreed

theorem len_le_of_cpyPos {src : Option (MemArray T)} {i1 i2 n2 : Nat}
    (h : a.cpyPos H i1 src i2 n2 = .ok b) (hlive : b.items ≠ .freed) : a.len ≤ b.len := by
  unfold cpyPos at h
  split at h
  · cases h
    exact Nat.le_refl _
  · obtain ⟨c, hextend, hcopy⟩ := Except.bind_eq_ok.mp h
    obtain ⟨hlen, -, hfreed⟩ := of_forget_eq (of_memcpy hcopy).2.2.2
    rw [hlen]
    exact len_le_of_extendTo (Nat.mod_lt _ (by decide)) hextend fun hf => hlive (hfreed hf)

/-- A count near `2 ^ 64` is as many bytes as no block has. -/
theorem lt_sizeT_mul {t size : Nat} (ht : 0 < t) (hsize : 0 < size) (h : t * size < 2 ^ 63) :
    2 ^ 63 < sizeT ((2 ^ 64 - t) * size) := by
  have hpos := Nat.mul_pos ht hsize
  have hsub : (2 ^ 64 - t) * size = 2 ^ 64 * (size - 1) + (2 ^ 64 - t * size) := by
    rw [Nat.sub_mul, Nat.mul_sub, Nat.mul_one]
    have : 2 ^ 64 * 1 ≤ 2 ^ 64 * size := Nat.mul_le_mul_left _ hsize
    omega
  rw [hsub, sizeT, Nat.mul_add_mod, Nat.mod_eq_of_lt (by omega)]
  omega

/-- A block no larger than the items of the two arrays is granted. -/
theorem Represents.grants_of_le (ha : a.Represents H l) (hb : b.Represents H k) (hk : k ≠ [])
    {n : Nat} (hn : n ≤ l.length * T.size) : H.grants n = true := by
  by_cases hl : l = []
  · rw [hl, List.length_nil, Nat.zero_mul] at hn
    exact H.smaller (by omega) (hb.grants hk)
  · exact H.smaller hn (ha.grants hl)

/-! ### After the extension

The copies and the insertion extend the array first, up to where they write. `Extended` is what
they may then rely on: the array is as it was, because it is longer than that or because the
memory was refused, or it has the new length with memory for it. That the extension was granted is
not known yet: it shows only in a write that ends without a fault. -/

/-- An array after the extension up to an index: as it was, since it is longer or has no memory, or
with as many items. -/
def Extended (H : Heap) (l : List (Item T)) (m : Nat) (c : MemArray T) : Prop :=
  (c.items.bytes.length = l.length * T.size ∧ c.len = l.length ∧
      (m < l.length ∨ H.grants (sizeT (T.size * m)) = false)) ∨
    (l.length ≤ m ∧ H.grants (sizeT (T.size * m)) = true ∧ c.len = m ∧
      c.items.bytes.length = sizeT (T.size * m))

theorem Represents.extended (ha : a.Represents H l) {m : Nat} (hm : m < 2 ^ 64)
    (h : a.extendTo H m = .ok c) (hlive : c.items ≠ .freed) : Extended H l m c := by
  rcases of_extendTo h with ⟨rfl, hlt⟩ | ⟨hle, hextend⟩
  · rw [ha.len_eq] at hlt
    exact .inl ⟨ha.length_bytes, ha.len_eq, .inl hlt⟩
  · rw [ha.len_eq] at hle hextend
    have hadd : sizeT (a.len + (m - l.length)) = m := by
      rw [ha.len_eq, sizeT_of_lt (by omega)]
      omega
    rcases of_extend hextend with hf | ⟨-, ⟨hgrants, rfl⟩ | ⟨hgrants, hclen, hcbytes, -⟩⟩
    · exact absurd hf hlive
    · rw [hadd] at hgrants
      exact .inl ⟨ha.length_bytes, ha.len_eq, .inr hgrants⟩
    · rw [hadd] at hgrants hclen hcbytes
      exact .inr ⟨hle, hgrants, hclen, hcbytes⟩

theorem Extended.bounded {m : Nat} (h : Extended H l m c) (hl : l.length * T.size < 2 ^ 63) :
    c.items.bytes.length < 2 ^ 63 := by
  rcases h with ⟨hbytes, -⟩ | ⟨-, hgrants, -, hbytes⟩
  · omega
  · have := H.bounded hgrants
    omega

/-- The sum of an index and a count that are read does not wrap: as many bytes are read from no
block. -/
theorem add_lt_of_read {i i2 n2 size bytes : Nat} (hsize : 0 < size) (hi : i * size < 2 ^ 63)
    (hn2 : n2 < 2 ^ 64)
    (hread : sizeT (n2 * size) = 0 ∨ i2 * size + sizeT (n2 * size) ≤ bytes)
    (hbytes : bytes < 2 ^ 63) : i + n2 < 2 ^ 64 := by
  by_contra hsum
  have ht : (2 ^ 64 - n2) * size ≤ i * size := Nat.mul_le_mul_right _ (by omega)
  have hmany := lt_sizeT_mul (show 0 < 2 ^ 64 - n2 by omega) hsize (by omega)
  rw [show 2 ^ 64 - (2 ^ 64 - n2) = n2 by omega] at hmany
  omega

/-- Items that are written in an array after its extension have their memory, and their place. -/
theorem Extended.room {i n : Nat} (h : Extended H l (i + n) c) (ha : a.Represents H l) (hn : 0 < n)
    (hwrite : i * T.size + n * T.size ≤ c.items.bytes.length) :
    H.grants (max l.length (i + n) * T.size) = true ∧ c.len = max l.length (i + n) := by
  rw [← Nat.add_mul] at hwrite
  have hlbounded := ha.bounded
  rcases h with ⟨hcbytes, hclen, -⟩ | ⟨hle, hgrants, hclen, hcbytes⟩
  · rw [hcbytes] at hwrite
    have hroom : i + n ≤ l.length := Nat.le_of_mul_le_mul_right hwrite T.pos
    have hl : l ≠ [] := List.ne_nil_of_length_pos (by omega)
    rw [Nat.max_eq_left hroom]
    exact ⟨ha.grants hl, hclen⟩
  · rw [Nat.max_eq_right hle]
    refine ⟨?_, hclen⟩
    have hbound := H.bounded hgrants
    have hmod : sizeT (T.size * (i + n)) ≤ T.size * (i + n) := Nat.mod_le _ _
    rw [Nat.mul_comm, sizeT] at hcbytes hgrants hbound hmod
    rw [Nat.mod_eq_of_lt (by omega)] at hgrants
    exact hgrants

/-- An array that is copied onto itself is read apart from where it is written, and inside. -/
theorem Extended.apart {i i2 n : Nat} (h : Extended H l (i + n) c) (hile : i ≤ l.length)
    (hn : 0 < n) (hread : i2 * T.size + n * T.size ≤ c.items.bytes.length)
    (hapart : ¬ Overlap (i * T.size) (i2 * T.size) (n * T.size)) :
    (i + n ≤ i2 ∨ i2 + n ≤ i) ∧ i2 + n ≤ l.length := by
  have hpos := Nat.mul_pos hn T.pos
  have hlength : ∀ {m n : Nat}, m * T.size ≤ n * T.size → m ≤ n :=
    fun h => Nat.le_of_mul_le_mul_right h T.pos
  rw [Overlap, not_and_or, Nat.not_lt, Nat.not_lt, ← Nat.add_mul, ← Nat.add_mul] at hapart
  rw [← Nat.add_mul] at hread
  rcases hapart with hbefore | hafter
  · have hle : i2 + n ≤ i := hlength (by omega)
    exact ⟨.inr hle, by omega⟩
  · have hle : i + n ≤ i2 := hlength (by omega)
    refine ⟨.inl hle, hlength ?_⟩
    rcases h with ⟨hcbytes, -⟩ | ⟨-, -, -, hcbytes⟩
    · omega
    · have hmod : sizeT (T.size * (i + n)) ≤ (i + n) * T.size :=
        (Nat.mod_le _ _).trans_eq (Nat.mul_comm _ _)
      have hsplit : (i2 + n) * T.size = i2 * T.size + n * T.size := Nat.add_mul _ _ _
      have hi2 := Nat.mul_le_mul_right T.size hle
      omega

/-- Where the count is one of more bytes than there are numbers, the array would be longer than
any. -/
theorem Extended.absurd_of_wrap {i n : Nat} (h : Extended H l (i + n) c) (ha : a.Represents H l)
    (hb : b.Represents H k) (hk : k ≠ []) (hwrap : ¬ n * T.size < 2 ^ 64)
    (hwrite : sizeT (n * T.size) = 0 ∨
      i * T.size + sizeT (n * T.size) ≤ c.items.bytes.length)
    (hile : i ≤ l.length) (hlen : c.len * T.size < 2 ^ 63) : False := by
  have hlbounded := ha.bounded
  have hisize := Nat.mul_le_mul_right T.size hile
  have hsplit : (i + n) * T.size = i * T.size + n * T.size := Nat.add_mul _ _ _
  have hle : l.length < n := by
    by_contra hle
    have := Nat.mul_le_mul_right T.size (show n ≤ l.length by omega)
    omega
  rcases h with ⟨hcbytes, -, hlt | hgrants⟩ | ⟨-, -, hclen, -⟩
  · omega
  · have hmod : sizeT (T.size * (i + n)) ≤ l.length * T.size := by
      have hadd : sizeT (T.size * (i + n)) = (i * T.size + sizeT (n * T.size)) % 2 ^ 64 := by
        rw [Nat.mul_comm, hsplit, sizeT, sizeT, Nat.add_mod_mod]
      have hcut : sizeT (T.size * (i + n)) ≤ i * T.size + sizeT (n * T.size) := by
        rw [hadd]
        exact Nat.mod_le _ _
      omega
    rw [ha.grants_of_le hb hk hmod] at hgrants
    cases hgrants
  · rw [hclen] at hlen
    omega

/-! ### Copies

A copy that ends has read inside its source and written inside its array. So the positions are
there, or there was nothing to copy, and the list is the one that `List.take` and `List.drop`
give. -/

/-- What there is of the source of a copy. -/
theorem Represents.length_source {src : Option (MemArray T)} (hsrc : Source H src l k)
    (hc : c.items.bytes.length < 2 ^ 63) :
    (src.getD c).items.bytes.length < 2 ^ 63 ∧
      (src ≠ none → (src.getD c).items.bytes.length = k.length * T.size) ∧
      (src = none → k = l ∧ (src.getD c).items.bytes.length = c.items.bytes.length) := by
  cases src with
  | none => exact ⟨hc, fun hne => absurd rfl hne, fun _ => ⟨hsrc, rfl⟩⟩
  | some d =>
    have hd : d.Represents H k := hsrc
    refine ⟨?_, fun _ => hd.length_bytes, nofun⟩
    show d.items.bytes.length < _
    rw [hd.length_bytes]
    exact hd.bounded

/-- **What a copy that ends has done**, where there is something to copy. It read inside the
source, and the array is as long as it has to be. -/
theorem Represents.of_cpyPos (ha : a.Represents H l) (src : Option (MemArray T))
    (hsrc : Source H src l k) {i1 i2 n2 : Nat} (hk : k ≠ []) (hn2 : 0 < n2) (hn2lt : n2 < 2 ^ 64)
    (h : a.cpyPos H i1 src i2 n2 = .ok b) (hlive : b.items ≠ .freed)
    (hlen : b.len * T.size < 2 ^ 63) :
    i2 + n2 ≤ k.length ∧
      H.grants (max l.length (min i1 l.length + n2) * T.size) = true ∧
      (src = none → min i1 l.length + n2 ≤ i2 ∨ i2 + n2 ≤ min i1 l.length) ∧
      b.len = max l.length (min i1 l.length + n2) := by
  have hkrep := ha.source_getD hsrc
  have hklen : k.length ≠ 0 := fun h0 => hk (List.eq_nil_of_length_eq_zero h0)
  unfold cpyPos at h
  rw [if_neg (by rw [hkrep.len_eq]; omega), ha.len_eq] at h
  obtain ⟨c, hextend, hcopy⟩ := Except.bind_eq_ok.mp h
  obtain ⟨hread, hwrite, hapart, hforget⟩ := of_memcpy hcopy
  obtain ⟨hblen, -, hfreed⟩ := of_forget_eq hforget
  have hile : min i1 l.length ≤ l.length := Nat.min_le_right _ _
  generalize min i1 l.length = i at *
  have hwrapped : sizeT (i + n2) < 2 ^ 64 := Nat.mod_lt _ (by decide)
  have hc := ha.extended hwrapped hextend fun hf => hlive (hfreed hf)
  obtain ⟨hsbounded, hother, hself⟩ := length_source hsrc (hc.bounded ha.bounded)
  have hibounded : i * T.size < 2 ^ 63 :=
    (Nat.mul_le_mul_right T.size hile).trans_lt ha.bounded
  rw [sizeT_of_lt (add_lt_of_read T.pos hibounded hn2lt hread hsbounded)] at hc
  by_cases hfits : n2 * T.size < 2 ^ 64
  · have hn2size := Nat.mul_pos hn2 T.pos
    rw [sizeT_of_lt hfits] at hread hwrite hapart
    replace hread := hread.resolve_left (by omega)
    have hroom := hc.room ha hn2 (hwrite.resolve_left (by omega))
    refine ⟨?_, hroom.1, fun hnone => ?_, hblen.trans hroom.2⟩
    · by_cases hnone : src = none
      · obtain ⟨rfl, hsbytes⟩ := hself hnone
        exact (hc.apart hile hn2 (hsbytes ▸ hread) (hapart hnone)).2
      · rw [hother hnone, ← Nat.add_mul] at hread
        exact Nat.le_of_mul_le_mul_right hread T.pos
    · exact (hc.apart hile hn2 ((hself hnone).2 ▸ hread) (hapart hnone)).1
  · rw [hblen] at hlen
    exact (hc.absurd_of_wrap ha hkrep hk hfits hwrite hile hlen).elim

/-! ### Insertions

`_insert` extends the array, moves the items behind the position to the end, one by one from the
last, and copies the second array into the gap. How many there are to move is an unsigned
difference, which goes below zero for a position past the end: what the loop then reads is no
item. -/

/-- Moving items keeps how many there are. -/
theorem Represents.of_moveItems (ha : a.Represents H l) {n j i : Nat}
    (h : a.moveItems n j i = .ok b) : ∃ l', b.Represents H l' ∧ l'.length = l.length := by
  induction n generalizing a l j i with
  | zero =>
    cases h
    exact ⟨l, ha, rfl⟩
  | succ n ih =>
    obtain ⟨c, hcopy, hmove⟩ := Except.bind_eq_ok.mp h
    obtain ⟨hread, hwrite, hapart, -⟩ := of_memcpy hcopy
    have hpos := T.pos
    have hbytes := ha.length_bytes
    have hinside : ∀ {p}, T.size = 0 ∨ p * T.size + T.size ≤ a.items.bytes.length →
        p + 1 ≤ l.length := by
      intro p hp
      apply Nat.le_of_mul_le_mul_right _ hpos
      rw [Nat.succ_mul]
      omega
    have hdisjoint : j + 1 ≤ i ∨ i + 1 ≤ j := by
      have hover := hapart rfl
      rw [Overlap, not_and_or, Nat.not_lt, Nat.not_lt, ← Nat.succ_mul, ← Nat.succ_mul] at hover
      exact (hover.imp (fun h => Nat.le_of_mul_le_mul_right h hpos)
        fun h => Nat.le_of_mul_le_mul_right h hpos).symm
    have hi := hinside hread
    have hj := hinside hwrite
    obtain ⟨c', hcopy', hc⟩ := ha.memcpy_eq none rfl hi hj fun _ => hdisjoint
    rw [Nat.one_mul, hcopy] at hcopy'
    cases hcopy'
    obtain ⟨l', hl', hlength⟩ := ih hc hmove
    refine ⟨l', hl', hlength.trans ?_⟩
    have hone : ((l.drop i).take 1).length = 1 := by
      rw [List.length_take, List.length_drop]
      omega
    rw [length_overlay (by omega), hone]
    omega

/-- **What an insertion that ends has done**, at a position that is there and from one that no
difference of lengths goes below. -/
theorem Represents.of_insert (ha : a.Represents H l) (hb : b.Represents H k) {i1 i2 n2 : Nat}
    (hk : k ≠ []) (hn2 : 0 < n2) (hn2lt : n2 < 2 ^ 64) (hi2lt : i2 < 2 ^ 64)
    (hi1 : i1 ≤ l.length) (hi2 : k.length < sizeT (i2 + n2) → i2 ≤ k.length)
    (h : a.insert H i1 (some b) i2 n2 = .ok c)
    (hc : c.Represents H (l.take i1 ++ ((k.drop i2).take n2 ++ l.drop i1))) :
    i2 ≤ k.length ∧ i2 + n2 < 2 ^ 64 ∧
      H.grants ((l.length + min n2 (k.length - i2)) * T.size) = true ∧
      (i2 = k.length → i1 = l.length ∧ (l = [] → a.items = .null)) := by
  have hllt := ha.length_lt
  have hklt := hb.length_lt
  have hlbounded := ha.bounded
  have hkbounded := hb.bounded
  have hklen : k.length ≠ 0 := fun h0 => hk (List.eq_nil_of_length_eq_zero h0)
  have hclive := hc.live
  have hclen : c.len = l.length + min n2 (k.length - i2) := by
    rw [hc.len_eq, List.length_append, List.length_append, List.length_take, List.length_take,
      List.length_drop, List.length_drop]
    omega
  have hcbounded : c.len * T.size < 2 ^ 63 := hc.len_eq ▸ hc.bounded
  rw [insert] at h
  dsimp only at h
  rw [if_neg (by rw [hb.len_eq]; omega), hb.len_eq, ha.len_eq] at h
  obtain ⟨n, hn⟩ : ∃ n, n = if k.length < sizeT (i2 + n2) then sizeSub k.length i2 else n2 :=
    ⟨_, rfl⟩
  rw [← hn, sizeSub_of_le (by omega) hi1] at h
  obtain ⟨d, hextend, h⟩ := Except.bind_eq_ok.mp h
  obtain ⟨e, hmove, hcopy⟩ := Except.bind_eq_ok.mp h
  -- the count is cut to what is left of the source, or it is the one that is asked for
  have hcount : i2 ≤ k.length ∧ n = k.length - i2 ∧ i2 + n2 < 2 ^ 64 ∧ k.length < i2 + n2 ∨
      n = n2 := by
    split at hn
    · next hlt =>
      have hle := hi2 hlt
      have hsum : i2 + n2 < 2 ^ 64 := by
        by_contra hsum
        rw [sizeT] at hlt
        omega
      rw [sizeT_of_lt hsum] at hlt
      rw [sizeSub_of_le (by omega) hle] at hn
      exact .inl ⟨hle, hn, hsum, hlt⟩
    · exact .inr hn
  suffices hgoal : i2 + n ≤ k.length ∧ H.grants ((l.length + n) * T.size) = true ∧
      (n = 0 → i1 = l.length ∧ (l = [] → a.items = .null)) by
    obtain ⟨hin, hgrants, hnone⟩ := hgoal
    have hmin : min n2 (k.length - i2) = n := by omega
    rw [hmin]
    exact ⟨by omega, by omega, hgrants, fun hend => hnone (by omega)⟩
  obtain ⟨helen, -, hefreed⟩ := of_forget_eq (moveItems_forget hmove).2
  rcases of_extend hextend with hfreed | ⟨hblock, ⟨hgrants, rfl⟩ | ⟨hgrants, hdlen, hdbytes, hfits⟩⟩
  · exact absurd (freed_of_cpyPos hcopy (hefreed hfreed)) hclive
  · -- nothing is added: only what is at the end could be right
    rw [ha.len_eq] at hgrants
    have hrefused : ∀ m, m ≤ l.length * T.size → sizeT (T.size * sizeT (l.length + n)) ≠ m := by
      rintro m hm rfl
      rw [ha.grants_of_le hb hk hm] at hgrants
      exact absurd hgrants (by decide)
    have hpos : 0 < n := by
      by_contra hpos
      apply hrefused (l.length * T.size) (Nat.le_refl _)
      rw [show n = 0 by omega, Nat.add_zero, sizeT_of_lt (show l.length < 2 ^ 64 by omega),
        Nat.mul_comm, sizeT_of_lt (by omega)]
    have hd : Represents H { a with itemLen := T.size } l :=
      ⟨ha.len_eq, ha.items_eq, .inl rfl, ha.granted⟩
    obtain ⟨l', he, hl'⟩ := hd.of_moveItems hmove
    obtain ⟨hin, hgranted, -, hlen⟩ := he.of_cpyPos (some b) hb hk hpos (by omega) hcopy hclive
      hcbounded
    have hend : i1 = l.length := by omega
    rw [hl', show max l.length (min i1 l.length + n) = l.length + n by omega] at hgranted
    have hbounded := H.bounded hgranted
    rw [sizeT_of_lt (show l.length + n < 2 ^ 64 by omega), Nat.mul_comm,
      sizeT_of_lt (by omega), hgranted] at hgrants
    exact absurd hgrants (by decide)
  · rw [ha.len_eq] at hgrants hdlen hdbytes hfits
    have hbounded := H.bounded hgrants
    -- a length that wraps would be cleared further than there are bytes
    have hsum : l.length + n < 2 ^ 64 := by
      by_contra hsum
      have ht : (2 ^ 64 - n) * T.size ≤ l.length * T.size := Nat.mul_le_mul_right _ (by omega)
      have hmany := lt_sizeT_mul (show 0 < 2 ^ 64 - n by omega) T.pos (by omega)
      rw [show 2 ^ 64 - (2 ^ 64 - n) = n by omega, Nat.mul_comm] at hmany
      omega
    rw [sizeT_of_lt hsum] at hdlen hgrants
    have hle := len_le_of_cpyPos hcopy hclive
    have hin : i2 + n ≤ k.length := by omega
    have hmul := Nat.mul_le_mul_right T.size (show n ≤ k.length by omega)
    rw [Nat.mul_comm, Nat.add_mul, sizeT_of_lt (by omega), ← Nat.add_mul] at hgrants
    refine ⟨hin, hgrants, ?_⟩
    rintro rfl
    rw [Nat.add_zero] at hdlen
    constructor
    · -- an item would be copied onto itself
      by_contra hne
      obtain ⟨m, hm⟩ : ∃ m, l.length - i1 = m + 1 := ⟨l.length - i1 - 1, by omega⟩
      rw [hm, hdlen, show i1 + (m + 1) = l.length by omega] at hmove
      obtain ⟨f, hself, -⟩ := Except.bind_eq_ok.mp hmove
      have hpos := T.pos
      exact (of_memcpy hself).2.2.1 rfl ⟨by omega, by omega⟩
    · rintro rfl
      by_contra hnull
      exact hblock ⟨by rw [ha.len_eq]; simp [sizeT], hnull⟩

/-- Nothing is inserted from the end of the source, and nothing behind the position moves. -/
theorem Represents.insert_end_eq (ha : a.Represents H l) (hb : b.Represents H k) (hk : k ≠ [])
    {n2 : Nat} (hn2 : 0 < n2) (hsum : k.length + n2 < 2 ^ 64) (hnull : l = [] → a.items = .null) :
    ∃ c, a.insert H l.length (some b) k.length n2 = .ok c ∧ c.Represents H l := by
  have hllt := ha.length_lt
  have hklt := hb.length_lt
  have hklen : k.length ≠ 0 := fun h0 => hk (List.eq_nil_of_length_eq_zero h0)
  -- the array is extended by nothing
  obtain ⟨c, hextend, hc⟩ : ∃ c, a.extend H 0 = .ok c ∧ c.Represents H l := by
    by_cases hl : l = []
    · have hgrants : H.grants 0 = true := ha.grants_of_le hb hk (Nat.zero_le _)
      refine ⟨⟨0, T.size, a.hasFree, .block []⟩, ?_, ?_⟩
      · rw [extend]
        dsimp only
        rw [ha.len_eq, hl, hnull hl]
        simp [sizeT, hgrants, store, Heap.resize, Cells.bytes, Cells.write]
      · rw [hl]
        refine ⟨rfl, .inl rfl, .inl rfl, .inr ?_⟩
        rw [List.length_nil, Nat.zero_mul]
        exact hgrants
    · have hpos := List.length_pos_of_ne_nil hl
      obtain ⟨c, hextend, hc⟩ := ha.extend_eq (show 0 < l.length + 0 from hpos) (ha.grants hl)
      rw [List.replicate_zero, List.append_nil] at hc
      exact ⟨c, hextend, hc⟩
  refine ⟨c, ?_, hc⟩
  rw [insert]
  dsimp only
  rw [hb.len_eq, ha.len_eq, if_neg (by omega), sizeT_of_lt hsum, if_pos (by omega),
    sizeSub_of_le (by omega) (Nat.le_refl _), sizeSub_of_le (by omega) (Nat.le_refl _),
    Nat.sub_self, Nat.sub_self]
  refine Except.bind_eq_ok.mpr ⟨c, hextend, Except.bind_eq_ok.mpr ⟨c, rfl, ?_⟩⟩
  rw [cpyPos, if_pos (.inr rfl)]

/-! ### Single items

`_set` writes where the item is there, and extends the array by the index otherwise. `_shrink`
sets the length to zero first when nothing is to be left, and then subtracts from it. -/

theorem Represents.shrink_nil (ha : a.Represents H []) :
    ∃ b, a.shrink H 0 = .ok b ∧ b.Represents H [] := by
  have hlen : a.len = 0 := ha.len_eq
  have hclear : a.clear 0 = .ok { a with len := 0, items := .null } := by
    rw [clear, if_pos (by omega), ha.free_eq]
    rfl
  have hsub : sizeSub 0 0 = 0 := by decide
  have hinit : (⟨0, a.itemLen, a.hasFree, .null⟩ : MemArray T).aside.initializeTyped H
      (sizeSub 0 0) = .ok ⟨0, a.itemLen, a.hasFree, .null⟩ := by
    rw [hsub]
    rfl
  have hnothing : sizeT (0 * T.size) = 0 := by
    rw [Nat.zero_mul]
    rfl
  refine ⟨⟨0, a.itemLen, a.hasFree, .null⟩, Except.bind_eq_ok.mpr ⟨_, hclear, ?_⟩, ?_⟩
  · refine Except.bind_eq_ok.mpr ⟨_, hinit, ?_⟩
    dsimp only
    rw [hnothing]
    rfl
  · exact ⟨rfl, .inr ⟨rfl, rfl⟩, ha.sized, .inl rfl⟩

/-- An item is set where it is there. -/
theorem Represents.of_set (ha : a.Represents H l) {i : Nat} (hi : i < 2 ^ 64) {item : Item T}
    (h : a.set H i item = .ok b) : i < l.length := by
  obtain ⟨c, hextend, h⟩ := Except.bind_eq_ok.mp h
  split at h
  · next hlt =>
    rcases of_extendTo hextend with ⟨rfl, hlt⟩ | ⟨hle, hextend⟩
    · rwa [ha.len_eq] at hlt
    · -- the array ends before the item that it was extended for
      rcases of_extend hextend with hfreed | ⟨-, ⟨-, rfl⟩ | ⟨-, hlen, -⟩⟩
      · rw [store, hfreed, if_neg (by rw [item.property]; simp [Cells.bytes, T.pos.ne'])] at h
        cases h
      · exact absurd hlt (by rw [Nat.not_lt]; exact hle)
      · rw [hlen, sizeT_of_lt (by omega)] at hlt
        omega
  · cases h

/-- An array that is shrunk keeps an item, or it had none. -/
theorem Represents.of_shrink (ha : a.Represents H l) {delta : Nat} (hdelta : delta < 2 ^ 64)
    (h : a.shrink H delta = .ok b) (hb : b.len = l.length - delta) :
    delta < l.length ∧ a.hasFree = false ∨ l = [] ∧ delta = 0 := by
  obtain ⟨c, hclear, h⟩ := Except.bind_eq_ok.mp h
  obtain ⟨d, hinit, h⟩ := Except.bind_eq_ok.mp h
  obtain ⟨bytes, hload, h⟩ := Except.bind_eq_ok.mp h
  obtain ⟨e, hstore, h⟩ := Except.bind_eq_ok.mp h
  obtain ⟨u, hfree, h⟩ := Except.bind_eq_ok.mp h
  cases h
  have helen := (of_forget_eq (store_forget hstore).2).1
  obtain ⟨f, hflush, halloc⟩ := Except.bind_eq_ok.mp hinit
  unfold clear at hclear
  rw [ha.len_eq] at hclear
  split at hclear
  · next hle =>
    obtain ⟨v, -, hclear⟩ := Except.bind_eq_ok.mp hclear
    cases hclear
    -- a new array is as long as the difference that wraps
    by_cases hzero : delta = 0
    · exact .inr ⟨List.eq_nil_of_length_eq_zero (by omega), hzero⟩
    · exfalso
      have hsub : sizeSub 0 delta = 2 ^ 64 - delta := by
        rw [sizeSub, Nat.mod_eq_of_lt hdelta]
        omega
      have hdlen : d.len = 2 ^ 64 - delta := by
        unfold allocate at halloc
        rw [hsub, if_neg (by omega)] at halloc
        split at halloc
        · cases halloc
          rfl
        · cases halloc
      omega
  · next hlt =>
    cases hclear
    refine .inl ⟨by omega, ?_⟩
    by_contra hhas
    -- the items are freed one by one, and they were put aside
    have hlen : a.len ≠ 0 := by
      rw [ha.len_eq]
      omega
    have hpos := Nat.mul_pos (Nat.pos_of_ne_zero hlen) T.pos
    have hnone : ¬ (a.len * T.size = 0 ∨ 0 + a.len * T.size ≤ 0) := by omega
    unfold flush at hflush
    rw [if_neg (show ¬ a.aside.len = 0 from hlen)] at hflush
    obtain ⟨g, hload, -⟩ := Except.bind_eq_ok.mp hflush
    have hhas' : a.aside.hasFree = true := Bool.eq_true_of_not_eq_false hhas
    rw [if_pos hhas', load] at hload
    exact absurd hload ((if_neg hnone).trans_ne (by intro h; cases h))

end MemArray

/-! ## Operations on lists

What a caller means by each operation: on a list, without memory and without bounds. -/

/-- An array with the list that it represents. -/
structure ListArray (H : Heap) (T : ItemType) where
  array : MemArray T
  list : List (Item T)
  represents : array.Represents H list

/-- The calls. No second array stands for the first one again. -/
inductive MemArrayOp (H : Heap) (T : ItemType)
  | set (i : UInt64) (item : Item T)
  | cpyPos (i1 : UInt64) (array2 : Option (ListArray H T)) (i2 n2 : UInt64)
  | cpy (array2 : Option (ListArray H T))
  | catN (array2 : Option (ListArray H T)) (n2 : UInt64)
  | cat (array2 : Option (ListArray H T))
  | insert (i1 : UInt64) (array2 : Option (ListArray H T)) (i2 n2 : UInt64)
  | shrink (delta : UInt64)

namespace MemArrayOp

variable {H : Heap} {T : ItemType}

/-- What is called. -/
def run (a : MemArray T) : MemArrayOp H T → Except MemStop (MemArray T)
  | set i item => a.set H i.toNat item
  | cpyPos i1 array2 i2 n2 => a.cpyPos H i1.toNat (array2.map (·.array)) i2.toNat n2.toNat
  | cpy array2 => a.cpy H (array2.map (·.array))
  | catN array2 n2 => a.catN H (array2.map (·.array)) n2.toNat
  | cat array2 => a.cat H (array2.map (·.array))
  | insert i1 array2 i2 n2 => a.insert H i1.toNat (array2.map (·.array)) i2.toNat n2.toNat
  | shrink delta => a.shrink H delta.toNat

/-- The items of the second array. -/
def source (array2 : Option (ListArray H T)) (l : List (Item T)) : List (Item T) :=
  (array2.map (·.list)).getD l

/-- The list that the operation is for. The gap before an item that is set past the end is filled
with zeros; a copy past the end is one at the end. -/
def onList (l : List (Item T)) : MemArrayOp H T → List (Item T)
  | set i item => overlay (l ++ List.replicate (i.toNat - l.length) (Item.zero T)) i.toNat [item]
  | cpyPos i1 array2 i2 n2 =>
    overlay l (min i1.toNat l.length) (((source array2 l).drop i2.toNat).take n2.toNat)
  | cpy array2 => overlay l 0 (source array2 l)
  | catN array2 n2 => l ++ (source array2 l).take n2.toNat
  | cat array2 => l ++ source array2 l
  | insert i1 array2 i2 n2 =>
    l.take i1.toNat ++ (((source array2 l).drop i2.toNat).take n2.toNat ++ l.drop i1.toNat)
  | shrink delta => l.take (l.length - delta.toNat)

/-- A difference of unsigned lengths goes below zero. The operations that are not named here
subtract a length from what is at least as large. -/
def Underflows (l : List (Item T)) : MemArrayOp H T → Prop
  | insert i1 (some b) i2 n2 => b.list ≠ [] ∧ 0 < n2.toNat ∧
    (b.list.length < sizeT (i2.toNat + n2.toNat) ∧ b.list.length < i2.toNat ∨
      l.length < i1.toNat)
  | shrink delta => (if l.length ≤ delta.toNat then 0 else l.length) < delta.toNat
  | _ => False

/-- **The operation leaves the list that it is for**, and no length goes below zero. What it reads
is inside the items, or it would not end. -/
def Refines (a : ListArray H T) (op : MemArrayOp H T) : Prop :=
  (∃ b, op.run a.array = .ok b ∧ b.Represents H (op.onList a.list)) ∧ ¬ op.Underflows a.list

/-! ## Conditions

The conditions speak of positions, counts and the memory that is there, and of nothing that the
operation computes. -/

/-- There is nothing to copy; or it is there, there is memory for it, and an array is not copied
onto itself. -/
def CopyFits (l : List (Item T)) (i1 : Nat) (array2 : Option (ListArray H T)) (i2 n2 : Nat) :
    Prop :=
  source array2 l = [] ∨ n2 = 0 ∨
    i2 + n2 ≤ (source array2 l).length ∧
      H.grants (max l.length (min i1 l.length + n2) * T.size) = true ∧
      (array2 = none → min i1 l.length + n2 ≤ i2 ∨ i2 + n2 ≤ min i1 l.length)

/-- There is nothing to insert; or both positions are there, their sum with the count is no more
than a `size_t`, and there is memory. At the end of the second array there is nothing to insert
either, and the items behind would be copied onto themselves. -/
def InsertFits (a : ListArray H T) (i1 : Nat) (b : ListArray H T) (i2 n2 : Nat) : Prop :=
  b.list = [] ∨ n2 = 0 ∨
    i1 ≤ a.list.length ∧ i2 ≤ b.list.length ∧ i2 + n2 < 2 ^ 64 ∧
      H.grants ((a.list.length + min n2 (b.list.length - i2)) * T.size) = true ∧
      (i2 = b.list.length → i1 = a.list.length ∧ (a.list = [] → a.array.items = .null))

/-- When an operation refines the one on lists. -/
def Fits (a : ListArray H T) : MemArrayOp H T → Prop
  | set i _ => i.toNat < a.list.length
  | cpyPos i1 array2 i2 n2 => CopyFits a.list i1.toNat array2 i2.toNat n2.toNat
  | cpy array2 => CopyFits a.list 0 array2 0 (source array2 a.list).length
  | catN array2 n2 => CopyFits a.list a.list.length array2 0 n2.toNat
  | cat array2 => CopyFits a.list a.list.length array2 0 (source array2 a.list).length
  | insert i1 (some b) i2 n2 => InsertFits a i1.toNat b i2.toNat n2.toNat
  | insert _ none _ _ => False
  | shrink delta =>
    delta.toNat < a.list.length ∧ a.array.hasFree = false ∨ a.list = [] ∧ delta = 0

variable {a : ListArray H T}

/-! ## The equivalence

Call by call. The condition is enough by the equations of `Rsmp/ArrayList.lean`, and it is needed
by what was shown of an operation that ends. -/

theorem source_represents (array2 : Option (ListArray H T)) (l : List (Item T)) :
    MemArray.Source H (array2.map (·.array)) l (source array2 l) := by
  cases array2 with
  | none => rfl
  | some b => exact b.represents

theorem map_eq_none {array2 : Option (ListArray H T)} :
    array2.map (·.array) = none ↔ array2 = none :=
  Option.map_eq_none_iff

/-- The copies, of which `_cpy`, `_cat_n` and `_cat` are cases. -/
theorem copy_iff (a : ListArray H T) (i1 i2 : Nat) {n2 : Nat} (hn2 : n2 < 2 ^ 64)
    (array2 : Option (ListArray H T)) :
    (∃ b, a.array.cpyPos H i1 (array2.map (·.array)) i2 n2 = .ok b ∧
      b.Represents H (overlay a.list (min i1 a.list.length)
        (((source array2 a.list).drop i2).take n2))) ↔ CopyFits a.list i1 array2 i2 n2 := by
  have hsrc := source_represents array2 a.list
  have hlen := (a.represents.source_getD hsrc).len_eq
  by_cases hk : source array2 a.list = []
  · refine ⟨fun _ => .inl hk, fun _ => ⟨a.array, ?_, ?_⟩⟩
    · rw [MemArray.cpyPos, if_pos (.inl (by rw [hlen, hk]; rfl))]
    · rw [hk, List.drop_nil, List.take_nil, overlay_nil]
      exact a.represents
  by_cases hzero : n2 = 0
  · refine ⟨fun _ => .inr (.inl hzero), fun _ => ⟨a.array, ?_, ?_⟩⟩
    · rw [MemArray.cpyPos, if_pos (.inr hzero)]
    · rw [hzero, List.take_zero, overlay_nil]
      exact a.represents
  constructor
  · rintro ⟨b, hcopy, hb⟩
    obtain ⟨hin, hgrants, hapart, -⟩ := a.represents.of_cpyPos _ hsrc hk (by omega) hn2 hcopy
      hb.live (by rw [hb.len_eq]; exact hb.bounded)
    exact .inr (.inr ⟨hin, hgrants, fun hnone => hapart (map_eq_none.mpr hnone)⟩)
  · intro hfits
    obtain ⟨hin, hgrants, hapart⟩ := (hfits.resolve_left hk).resolve_left hzero
    exact a.represents.cpyPos_eq _ hsrc i1 (by omega) hin hgrants fun hnone =>
      hapart (map_eq_none.mp hnone)

theorem insert_iff (a b : ListArray H T) {i1 i2 n2 : UInt64} :
    Refines a (.insert i1 (some b) i2 n2) ↔ InsertFits a i1.toNat b i2.toNat n2.toNat := by
  have hi2lt := i2.toNat_lt
  have hn2lt := n2.toNat_lt
  have hb := b.represents
  have hlen : b.array.len = b.list.length := hb.len_eq
  -- nothing to insert: the array is returned as it is, whatever the positions
  by_cases hnone : b.list = [] ∨ n2.toNat = 0
  · have hskip : b.array.len = 0 ∨ n2.toNat = 0 := by
      rw [hlen]
      exact hnone.imp (fun h => by rw [h]; rfl) id
    refine ⟨fun _ => hnone.elim .inl fun h => .inr (.inl h), fun _ => ⟨⟨a.array, ?_, ?_⟩, ?_⟩⟩
    · exact if_pos hskip
    · have hnew : ((b.list.drop i2.toNat).take n2.toNat) = [] := by
        rcases hnone with h | h
        · rw [h, List.drop_nil, List.take_nil]
        · rw [h, List.take_zero]
      show MemArray.Represents H _ (_ ++ ((b.list.drop i2.toNat).take n2.toNat ++ _))
      rw [hnew, List.nil_append, List.take_append_drop]
      exact a.represents
    · rintro ⟨hne, hpos, -⟩
      rcases hnone with h | h
      · exact hne h
      · omega
  · rw [not_or] at hnone
    obtain ⟨hk, hzero⟩ := hnone
    constructor
    · rintro ⟨⟨c, hrun, hc⟩, hover⟩
      have hover' : ¬ (b.list.length < sizeT (i2.toNat + n2.toNat) ∧ b.list.length < i2.toNat ∨
          a.list.length < i1.toNat) := fun h => hover ⟨hk, by omega, h⟩
      rw [not_or, not_and, Nat.not_lt, Nat.not_lt] at hover'
      have hi1 := hover'.2
      exact .inr (.inr ⟨hi1, a.represents.of_insert hb hk (by omega) hn2lt hi2lt hi1 hover'.1
        hrun hc⟩)
    · intro hfits
      obtain ⟨hi1, hi2, hsum, hgrants, hend⟩ := (hfits.resolve_left hk).resolve_left hzero
      constructor
      · -- from the end of the source on there is nothing to insert
        by_cases hlt : i2.toNat < b.list.length
        · exact a.represents.insert_eq hb (by omega) hi1 hlt hsum hgrants
        · have hi2 : i2.toNat = b.list.length := by omega
          obtain ⟨hi1, hnull⟩ := hend hi2
          obtain ⟨c, hrun, hc⟩ := a.represents.insert_end_eq hb hk (by omega) (hi2 ▸ hsum) hnull
          refine ⟨c, ?_, ?_⟩
          · show a.array.insert H i1.toNat (some b.array) i2.toNat n2.toNat = _
            rw [hi1, hi2]
            exact hrun
          · show c.Represents H (_ ++ ((b.list.drop i2.toNat).take n2.toNat ++ _))
            rwa [hi2, List.drop_length, List.take_nil, List.nil_append, List.take_append_drop]
      · rintro ⟨-, -, h⟩
        omega

/-- **The generic array operations refine list operations exactly** where an item is set that is
there, what is copied is in the source and has its memory, what is inserted is so at a position
that is there, and less is taken away than there is. -/
theorem refines_iff (a : ListArray H T) (op : MemArrayOp H T) : op.Refines a ↔ op.Fits a := by
  have ha := a.represents
  cases op with
  | set i item =>
    constructor
    · rintro ⟨⟨b, hrun, -⟩, -⟩
      exact ha.of_set i.toNat_lt hrun
    · intro hi
      have hi' : i.toNat < a.list.length := hi
      refine ⟨?_, id⟩
      obtain ⟨b, hrun, hb⟩ := ha.set_eq hi' item
      refine ⟨b, hrun, ?_⟩
      show b.Represents H (overlay (_ ++ List.replicate (i.toNat - a.list.length) _) _ _)
      -- nothing is filled in before the item
      rwa [show i.toNat - a.list.length = 0 by omega, List.replicate_zero, List.append_nil]
  | cpyPos i1 array2 i2 n2 =>
    exact (and_iff_left id).trans (copy_iff a _ _ n2.toNat_lt array2)
  | cpy array2 =>
    have hlen := (ha.source_getD (source_represents array2 a.list)).len_eq
    have hlt := (ha.source_getD (source_represents array2 a.list)).length_lt
    -- a copy of all that the source has, over the start
    have hcopy := copy_iff a 0 0 (show (source array2 a.list).length < 2 ^ 64 by omega) array2
    rw [List.drop_zero, List.take_length, Nat.zero_min] at hcopy
    refine (and_iff_left id).trans (Iff.trans ?_ hcopy)
    show (∃ b, a.array.cpyPos H 0 _ 0 _ = _ ∧ _) ↔ _
    rw [hlen]
    rfl
  | catN array2 n2 =>
    -- and after the end
    have hcopy := copy_iff a a.list.length 0 n2.toNat_lt array2
    rw [List.drop_zero, Nat.min_self, overlay_length] at hcopy
    refine (and_iff_left id).trans (Iff.trans ?_ hcopy)
    show (∃ b, a.array.cpyPos H a.array.len _ 0 _ = _ ∧ _) ↔ _
    rw [ha.len_eq]
    rfl
  | cat array2 =>
    have hlen := (ha.source_getD (source_represents array2 a.list)).len_eq
    have hlt := (ha.source_getD (source_represents array2 a.list)).length_lt
    have hcopy := copy_iff a a.list.length 0
      (show (source array2 a.list).length < 2 ^ 64 by omega) array2
    rw [List.drop_zero, List.take_length, Nat.min_self, overlay_length] at hcopy
    refine (and_iff_left id).trans (Iff.trans ?_ hcopy)
    show (∃ b, a.array.cpyPos H a.array.len _ 0 _ = _ ∧ _) ↔ _
    rw [ha.len_eq, hlen]
    rfl
  | insert i1 array2 i2 n2 =>
    cases array2 with
    | none =>
      constructor
      · rintro ⟨⟨b, hrun, -⟩, -⟩
        cases hrun
      · exact False.elim
    | some b => exact insert_iff a b
  | shrink delta =>
    constructor
    · rintro ⟨⟨b, hrun, hb⟩, -⟩
      -- the length that is left tells what was taken away
      have hblen : b.len = a.list.length - delta.toNat := by
        rw [hb.len_eq]
        show (a.list.take _).length = _
        rw [List.length_take]
        omega
      refine (ha.of_shrink delta.toNat_lt hrun hblen).imp id fun h => ⟨h.1, ?_⟩
      exact UInt64.toNat_inj.mp h.2
    · rintro (⟨hlt, hfree⟩ | ⟨hnil, rfl⟩)
      · refine ⟨ha.shrink_eq hlt hfree, ?_⟩
        show ¬ (if _ then _ else _) < _
        rw [if_neg (by omega)]
        omega
      · obtain ⟨b, hrun, hb⟩ := MemArray.Represents.shrink_nil (hnil ▸ ha)
        refine ⟨⟨b, hrun, ?_⟩, Nat.not_lt_zero _⟩
        show b.Represents H (a.list.take _)
        rwa [hnil]

/-! ## An item set at the end

The condition on `_set` is about the smallest case already: one item is set behind the only one. -/

/-- A heap that grants what there can be, with cleared blocks. -/
def heapOfZeros : Heap where
  toAllocator := Allocator.all
  smaller := fun hle hn => by
    have hlt := of_decide_eq_true hn
    exact decide_eq_true (by omega)
  fresh := fun _ => 0

/-- The array of one character. -/
def oneChar : ListArray heapOfZeros .char where
  array := ⟨1, 1, false, .block [0x41]⟩
  list := [⟨[0x41], rfl⟩]
  represents := ⟨rfl, .inl rfl, .inl rfl, .inr (by decide)⟩

/-- An item is set at the length, and the assertion after the extension fails. -/
theorem set_length_aborts :
    run oneChar.array (.set (H := heapOfZeros) 1 ⟨[0x42], rfl⟩) = .error .abort ∧
      ¬ ∀ op : MemArrayOp heapOfZeros .char, op.Refines oneChar := by
  have hrun : run oneChar.array (.set (H := heapOfZeros) 1 ⟨[0x42], rfl⟩) = .error .abort := by
    decide
  refine ⟨hrun, fun hall => ?_⟩
  obtain ⟨⟨b, hb, -⟩, -⟩ := hall (.set 1 ⟨[0x42], rfl⟩)
  rw [hrun] at hb
  cases hb

end MemArrayOp

end RsmpGateway.Rsmp
