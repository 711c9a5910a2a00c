import RsmpGateway.Lib.Chunks
import RsmpGateway.Rsmp.Array

/-!
# Array contents

The operations of `rsmp_array_*` on the bytes of the items. An array represents a list of items
(`Represents`), and one lemma for each operation says which list it represents afterwards.
Without the bytes the operations are those of `RsmpArray` (`forget`).

An item is a number of bytes, which is its `sizeof`. The operations move bytes by `memcpy`, at
positions that are multiples of this number; the lists of chunks of `Lib/Chunks.lean` are what
makes these moves readable.
-/

namespace RsmpGateway.Rsmp

open RsmpGateway.Lib

/-! ## Memory

A block is a list of bytes, of which a read and a write name a range. -/

/-- An item, as many bytes as its `sizeof`. -/
abbrev Item (T : ItemType) := Chunk UInt8 T.size

/-- The pointer of an array, with the bytes that it points to. -/
inductive Cells
  | null
  | block (bytes : Bytes)
  | freed
  deriving DecidableEq

namespace Cells

/-- The bytes that are allocated. -/
def bytes : Cells → Bytes
  | block bytes => bytes
  | _ => []

def write (offset : Nat) (new : Bytes) : Cells → Cells
  | block bytes => block (overlay bytes offset new)
  | c => c

end Cells

/-- `rsmp_array_*_t` -/
structure MemArray (T : ItemType) where
  len : Nat
  itemLen : Nat
  hasFree : Bool
  items : Cells
  deriving DecidableEq

/-- How an operation stops: a failed assertion, an access out of the items, the use of a freed
block, a copy between bytes that overlap, or a difference that is no `int`. -/
inductive MemStop
  | abort
  | outOfBounds
  | dangling
  | overlap
  | overflow
  deriving Repr, DecidableEq

/-- The heap: what it grants, and what is found at an offset of a block that nothing was written
to. A block is granted where a larger one is. -/
structure Heap extends Allocator where
  smaller : ∀ {m n}, m ≤ n → grants n = true → grants m = true
  fresh : Nat → UInt8

namespace Heap

variable (H : Heap)

/-- `calloc` -/
def calloc (n size : Nat) : Option Cells :=
  if n * size < 2 ^ 64 ∧ H.grants (n * size) then some (.block (List.replicate (n * size) 0))
  else none

/-- The bytes of a block that `realloc` gives another size. -/
def resize (bytes : Bytes) (n : Nat) : Bytes :=
  bytes.take n ++ (List.range' bytes.length (n - bytes.length)).map H.fresh

end Heap

/-- `free` -/
def Cells.free : Cells → Except MemStop Unit
  | freed => .error .dangling
  | _ => .ok ()

namespace MemArray

variable (H : Heap) {T : ItemType}

/-- Some bytes of the items are read. -/
def load (a : MemArray T) (offset n : Nat) : Except MemStop Bytes :=
  if n = 0 ∨ offset + n ≤ a.items.bytes.length then .ok ((a.items.bytes.drop offset).take n)
  else .error .outOfBounds

/-- Some bytes are written over the items. -/
def store (a : MemArray T) (offset : Nat) (new : Bytes) : Except MemStop (MemArray T) :=
  if new.length = 0 ∨ offset + new.length ≤ a.items.bytes.length then
    .ok { a with items := a.items.write offset new }
  else .error .outOfBounds

/-- Some bytes from one offset on, and as many from another. -/
def Overlap (offset1 offset2 n : Nat) : Prop := offset1 < offset2 + n ∧ offset2 < offset1 + n

instance (offset1 offset2 n : Nat) : Decidable (Overlap offset1 offset2 n) :=
  inferInstanceAs (Decidable (_ ∧ _))

/-- `memcpy` of `n` bytes, from an item of `src` to one of `dest`. No array stands for `dest`
itself. -/
def memcpy (dest : MemArray T) (i1 : Nat) (src : Option (MemArray T)) (i2 n : Nat) :
    Except MemStop (MemArray T) := do
  let bytes ← (src.getD dest).load (i2 * T.size) n
  if src = none ∧ Overlap (i1 * T.size) (i2 * T.size) n then .error .overlap
  else dest.store (i1 * T.size) bytes

/-! ## Operations

The operations of the source on blocks, with the same names. -/

/-- `_flush`: each item is freed, then the items are. -/
def flush (a : MemArray T) : Except MemStop (MemArray T) :=
  if a.len = 0 then .ok a
  else do
    let _ ← a.load 0 (if a.hasFree then a.len * T.size else 0)
    a.items.free
    return { a with len := 0, items := .null }

/-- The items of a flushed array. -/
def allocate (a : MemArray T) (max : Nat) : Except MemStop (MemArray T) :=
  if max = 0 then .ok { a with items := .null }
  else
    match H.calloc max a.itemLen with
    | some items => .ok { a with len := max, items := items }
    | none => .error .abort

/-- `_initialize` -/
def initializeTyped (a : MemArray T) (max : Nat) : Except MemStop (MemArray T) := do
  let a ← a.flush
  a.allocate H max

/-- `_extend`. A `realloc` that fails leaves the array as it was, and `-1` is returned; one to no
bytes frees the block. -/
def extend (a : MemArray T) (add : Nat) : Except MemStop (MemArray T) :=
  let newlen := sizeT (a.len + add)
  let bytes := sizeT (T.size * newlen)
  let a : MemArray T := { a with itemLen := T.size }
  if a.items = .freed then .error .dangling
  else if bytes = 0 ∧ a.items ≠ .null then .ok { a with items := .freed }
  else if H.grants bytes then do
    let a' : MemArray T := { a with items := .block (H.resize a.items.bytes bytes) }
    let a' ← a'.store (a.len * T.size) (List.replicate (sizeT (T.size * add)) 0)
    return { a' with len := newlen }
  else .ok a

/-- The array, extended up to an index where it is not as long. -/
def extendTo (a : MemArray T) (i : Nat) : Except MemStop (MemArray T) :=
  if a.len ≤ i then a.extend H (i - a.len) else .ok a

/-- `_set` -/
def set (a : MemArray T) (i : Nat) (item : Item T) : Except MemStop (MemArray T) := do
  let a ← a.extendTo H i
  if i < a.len then a.store (i * T.size) item.val else .error .abort

/-- `_cpy_pos`. No second array stands for the first one again. -/
def cpyPos (array1 : MemArray T) (i1 : Nat) (array2 : Option (MemArray T)) (i2 n2 : Nat) :
    Except MemStop (MemArray T) :=
  if (array2.getD array1).len = 0 ∨ n2 = 0 then .ok array1
  else do
    let i1 := min i1 array1.len
    let array1 ← array1.extendTo H (sizeT (i1 + n2))
    array1.memcpy i1 array2 i2 (sizeT (n2 * T.size))

/-- `_cpy` -/
def cpy (array1 : MemArray T) (array2 : Option (MemArray T)) : Except MemStop (MemArray T) :=
  array1.cpyPos H 0 array2 0 (array2.getD array1).len

/-- `_cat_n` -/
def catN (array1 : MemArray T) (array2 : Option (MemArray T)) (n2 : Nat) :
    Except MemStop (MemArray T) :=
  array1.cpyPos H array1.len array2 0 n2

/-- `_cat` -/
def cat (array1 : MemArray T) (array2 : Option (MemArray T)) : Except MemStop (MemArray T) :=
  array1.catN H array2 (array2.getD array1).len

/-- The loop of `_insert`: `k` items are copied, from `i` to `j` and downwards. -/
def moveItems (a : MemArray T) : Nat → Nat → Nat → Except MemStop (MemArray T)
  | 0, _, _ => .ok a
  | k + 1, j, i => do
    let a ← a.memcpy j none i T.size
    a.moveItems k (sizeSub j 1) (sizeSub i 1)

/-- `_insert`. An assertion fails where the second array is the first one. -/
def insert (array1 : MemArray T) (i1 : Nat) (array2 : Option (MemArray T)) (i2 n2 : Nat) :
    Except MemStop (MemArray T) :=
  match array2 with
  | none => .error .abort
  | some array2 =>
    if array2.len = 0 ∨ n2 = 0 then .ok array1
    else do
      let n2 := if array2.len < sizeT (i2 + n2) then sizeSub array2.len i2 else n2
      let max := sizeSub array1.len i1
      let array1 ← array1.extend H n2
      let array1 ← array1.moveItems max (sizeSub array1.len 1) (sizeSub (i1 + max) 1)
      array1.cpyPos H i1 (some array2) i2 n2

/-- The first branch of `_shrink`, after which the function goes on. -/
def clear (a : MemArray T) (delta : Nat) : Except MemStop (MemArray T) :=
  if a.len ≤ delta then do
    a.items.free
    return { a with len := 0, items := .null }
  else .ok a

/-- The array without its items, which `_shrink` puts aside. -/
def aside (a : MemArray T) : MemArray T := { a with items := .null }

/-- `_shrink` -/
def shrink (a : MemArray T) (delta : Nat) : Except MemStop (MemArray T) := do
  let a ← a.clear delta
  let a' ← a.aside.initializeTyped H (sizeSub a.len delta)
  let bytes ← a.load 0 (sizeT (a'.len * T.size))
  let a' ← a'.store 0 bytes
  a.items.free
  return a'

/-! ## Without the bytes

`forget` keeps the size of each block. An operation that ends here ends there, in the array that
is left when the bytes are forgotten. -/

/-- An array of which only the size of the block is known. -/
def forget (a : MemArray T) : RsmpArray :=
  ⟨T, a.len, a.itemLen, a.hasFree,
    match a.items with
    | .null => .null
    | .block bytes => .block bytes.length
    | .freed => .freed⟩

variable {H} {a b c : MemArray T}

@[simp] theorem forget_type (a : MemArray T) : a.forget.type = T := rfl

@[simp] theorem forget_len (a : MemArray T) : a.forget.len = a.len := rfl

@[simp] theorem forget_itemLen (a : MemArray T) : a.forget.itemLen = a.itemLen := rfl

@[simp] theorem forget_hasFree (a : MemArray T) : a.forget.hasFree = a.hasFree := rfl

/-! ### Accesses

A read and a write are granted in the same cases with and without the bytes, since the bounds of a
block are all that they ask for. What is written changes no bound. -/

theorem forget_bytes (a : MemArray T) : a.forget.items.bytes = a.items.bytes.length := by
  cases h : a.items <;> simp [forget, h, Items.bytes, Cells.bytes]

theorem load_ok_iff {offset n : Nat} {bytes : Bytes} :
    a.load offset n = .ok bytes ↔
      (n = 0 ∨ offset + n ≤ a.items.bytes.length) ∧
        (a.items.bytes.drop offset).take n = bytes := by
  unfold load
  split
  · next h => exact ⟨fun hok => ⟨h, Except.ok.inj hok⟩, fun hok => congrArg _ hok.2⟩
  · next h => exact ⟨nofun, fun hok => absurd hok.1 h⟩

theorem store_ok_iff {offset : Nat} {new : Bytes} :
    a.store offset new = .ok b ↔
      (new.length = 0 ∨ offset + new.length ≤ a.items.bytes.length) ∧
        { a with items := a.items.write offset new } = b := by
  unfold store
  split
  · next h => exact ⟨fun hok => ⟨h, Except.ok.inj hok⟩, fun hok => congrArg _ hok.2⟩
  · next h => exact ⟨nofun, fun hok => absurd hok.1 h⟩

theorem load_forget {offset n : Nat} {bytes : Bytes} (h : a.load offset n = .ok bytes) :
    a.forget.touch offset n = .ok () ∧ bytes.length = n := by
  obtain ⟨hn, rfl⟩ := load_ok_iff.mp h
  constructor
  · rw [RsmpArray.touch, forget_bytes, if_pos hn]
  · rw [List.length_take, List.length_drop]
    omega

theorem length_write {cells : Cells} {offset : Nat} {new : Bytes}
    (h : new.length = 0 ∨ offset + new.length ≤ cells.bytes.length) :
    (cells.write offset new).bytes.length = cells.bytes.length := by
  cases cells with
  | null => rfl
  | freed => rfl
  | block bytes =>
    show (overlay bytes offset new).length = bytes.length
    rcases h with h | h
    · rw [List.eq_nil_of_length_eq_zero h, overlay_nil]
    · have hle : offset + new.length ≤ bytes.length := h
      rw [length_overlay (by omega)]
      omega

theorem store_forget {offset : Nat} {new : Bytes} (h : a.store offset new = .ok b) :
    a.forget.touch offset new.length = .ok () ∧ b.forget = a.forget := by
  obtain ⟨hn, rfl⟩ := store_ok_iff.mp h
  constructor
  · rw [RsmpArray.touch, forget_bytes, if_pos hn]
  · have hlength := length_write hn
    cases hitems : a.items with
    | null => simp [forget, hitems, Cells.write]
    | freed => simp [forget, hitems, Cells.write]
    | block bytes =>
      rw [hitems] at hlength
      simpa [forget, hitems, Cells.write, Cells.bytes] using hlength

theorem memcpy_forget {i1 i2 n : Nat} {src : Option (MemArray T)}
    (h : a.memcpy i1 src i2 n = .ok b) :
    (src.getD a).forget.touch (i2 * T.size) n = .ok () ∧
      a.forget.touch (i1 * T.size) n = .ok () ∧ b.forget = a.forget := by
  obtain ⟨bytes, hload, h⟩ := Except.bind_eq_ok.mp h
  obtain ⟨hread, hlength⟩ := load_forget hload
  split at h
  · cases h
  · obtain ⟨hwrite, hforget⟩ := store_forget h
    rw [hlength] at hwrite
    exact ⟨hread, hwrite, hforget⟩

theorem free_forget (h : a.items.free = .ok ()) : a.forget.items.free = .ok () := by
  cases hitems : a.items with
  | null => simp [forget, hitems, Items.free]
  | block bytes => simp [forget, hitems, Items.free]
  | freed =>
    rw [hitems] at h
    cases h

theorem length_resize (bytes : Bytes) (n : Nat) : (H.resize bytes n).length = n := by
  rw [Heap.resize, List.length_append, List.length_map, List.length_range', List.length_take]
  omega

/-! ### Operations

One lemma for each operation, in their order. Each follows the steps of its two definitions side
by side. It is shown for an operation that ends, since a copy between places that overlap stops
here and not there. -/

theorem flush_forget (h : a.flush = .ok b) : a.forget.flush = .ok b.forget := by
  rw [RsmpArray.flush, forget_len]
  unfold flush at h
  split at h
  · next hlen =>
    cases h
    exact if_pos hlen
  · next hlen =>
    obtain ⟨bytes, hload, h⟩ := Except.bind_eq_ok.mp h
    obtain ⟨u, hfree, h⟩ := Except.bind_eq_ok.mp h
    cases h
    rw [if_neg hlen, free_forget hfree, forget_hasFree, forget_type]
    dsimp only
    by_cases hhas : a.hasFree = true
    · rw [if_pos hhas] at hload
      rw [if_pos hhas, (load_forget hload).1]
      rfl
    · rw [if_neg hhas]
      rfl

theorem allocate_forget {max : Nat} (h : a.allocate H max = .ok b) :
    a.forget.allocate H.toAllocator max = .ok b.forget := by
  unfold allocate at h
  rw [RsmpArray.allocate, calloc, forget_itemLen]
  split at h
  · next hmax =>
    cases h
    exact if_pos hmax
  · next hmax =>
    rw [if_neg hmax]
    unfold Heap.calloc at h
    by_cases hgrants : max * a.itemLen < 2 ^ 64 ∧ H.grants (max * a.itemLen)
    · rw [if_pos hgrants] at h
      cases h
      rw [if_pos hgrants]
      simp [forget]
    · rw [if_neg hgrants] at h
      cases h

theorem initializeTyped_forget {max : Nat} (h : a.initializeTyped H max = .ok b) :
    a.forget.initializeTyped H.toAllocator max = .ok b.forget := by
  obtain ⟨c, hflush, h⟩ := Except.bind_eq_ok.mp h
  rw [RsmpArray.initializeTyped, flush_forget hflush]
  exact allocate_forget h

theorem extend_forget {add : Nat} (h : a.extend H add = .ok b) :
    a.forget.extend H.toAllocator add = .ok b.forget := by
  unfold extend at h
  dsimp only at h
  have hfreed : a.forget.items = .freed ↔ a.items = .freed := by
    cases hitems : a.items <;> simp [forget, hitems]
  have hnull : a.forget.items ≠ .null ↔ a.items ≠ .null := by
    cases hitems : a.items <;> simp [forget, hitems]
  split at h
  · cases h
  · next hlive =>
    refine (if_neg (fun hf => hlive (hfreed.mp hf))).trans ?_
    split at h
    · next hzero =>
      cases h
      exact if_pos ⟨hzero.1, hnull.mpr hzero.2⟩
    · next hzero =>
      refine (if_neg (fun hz => hzero ⟨hz.1, hnull.mp hz.2⟩)).trans ?_
      split at h
      · next hgrants =>
        refine (if_pos hgrants).trans ?_
        obtain ⟨a', hstore, h⟩ := Except.bind_eq_ok.mp h
        cases h
        obtain ⟨htouch, hforget⟩ := store_forget hstore
        simp only [forget, length_resize, List.length_replicate] at htouch hforget
        refine Except.bind_eq_ok.mpr ⟨_, htouch, ?_⟩
        exact congrArg (fun f : RsmpArray => Except.ok { f with len := sizeT (a.len + add) })
          hforget.symm
      · next hgrants =>
        cases h
        exact if_neg hgrants

theorem extendTo_forget {i : Nat} (h : a.extendTo H i = .ok b) :
    a.forget.extendTo H.toAllocator i = .ok b.forget := by
  unfold extendTo at h
  rw [RsmpArray.extendTo, forget_len]
  split at h
  · next hle =>
    rw [if_pos hle]
    exact extend_forget h
  · next hle =>
    cases h
    exact if_neg hle

theorem set_forget {i : Nat} {item : Item T} (h : a.set H i item = .ok b) :
    a.forget.set H.toAllocator i = .ok b.forget := by
  obtain ⟨c, hextend, h⟩ := Except.bind_eq_ok.mp h
  rw [RsmpArray.set, extendTo_forget hextend]
  split at h
  · next hi =>
    obtain ⟨htouch, hforget⟩ := store_forget h
    rw [item.property] at htouch
    show (if i < c.len then c.forget.touch (i * T.size) T.size >>= _ else _) = _
    rw [if_pos hi, htouch, hforget]
    rfl
  · cases h

theorem cpyPos_forget {i1 i2 n2 : Nat} {array2 : Option (MemArray T)}
    (h : a.cpyPos H i1 array2 i2 n2 = .ok b) :
    a.forget.cpyPos H.toAllocator i1 (array2.map forget) i2 n2 = .ok b.forget := by
  unfold cpyPos at h
  have hsource : ∀ c : MemArray T, (array2.map forget).getD c.forget = (array2.getD c).forget := by
    intro c
    cases array2 <;> rfl
  rw [RsmpArray.cpyPos, hsource, forget_len, forget_len]
  split at h
  · next hnone =>
    cases h
    exact if_pos hnone
  · next hnone =>
    obtain ⟨c, hextend, h⟩ := Except.bind_eq_ok.mp h
    obtain ⟨hread, hwrite, hforget⟩ := memcpy_forget h
    refine (if_neg hnone).trans (Except.bind_eq_ok.mpr ⟨_, extendTo_forget hextend, ?_⟩)
    cases array2 <;>
      exact Except.bind_eq_ok.mpr ⟨_, hread, Except.bind_eq_ok.mpr ⟨_, hwrite,
        congrArg Except.ok hforget.symm⟩⟩

theorem moveItems_forget {k j i : Nat} (h : a.moveItems k j i = .ok b) :
    a.forget.moveItems k j i = .ok () ∧ b.forget = a.forget := by
  induction k generalizing a j i with
  | zero =>
    cases h
    exact ⟨rfl, rfl⟩
  | succ k ih =>
    obtain ⟨c, hcopy, h⟩ := Except.bind_eq_ok.mp h
    obtain ⟨hread, hwrite, hforget⟩ := memcpy_forget hcopy
    obtain ⟨hmove, hforget'⟩ := ih h
    rw [hforget] at hmove
    constructor
    · exact Except.bind_eq_ok.mpr ⟨_, hread, Except.bind_eq_ok.mpr ⟨_, hwrite, hmove⟩⟩
    · exact hforget'.trans hforget

theorem insert_forget {i1 i2 n2 : Nat} {array2 : MemArray T}
    (h : a.insert H i1 (some array2) i2 n2 = .ok b) :
    a.forget.insert H.toAllocator i1 array2.forget i2 n2 = .ok b.forget := by
  unfold insert at h
  dsimp only at h
  rw [RsmpArray.insert, forget_len]
  split at h
  · next hnone =>
    cases h
    exact if_pos hnone
  · next hnone =>
    obtain ⟨c, hextend, h⟩ := Except.bind_eq_ok.mp h
    obtain ⟨d, hmove, h⟩ := Except.bind_eq_ok.mp h
    rw [if_neg hnone]
    dsimp only
    rw [extend_forget hextend]
    show c.forget.moveItems _ _ _ >>= _ = _
    obtain ⟨hmove, hforget⟩ := moveItems_forget hmove
    rw [forget_len, forget_len, hmove, ← hforget]
    exact cpyPos_forget h

theorem shrink_forget {delta : Nat} (h : a.shrink H delta = .ok b) :
    a.forget.shrink H.toAllocator delta = .ok b.forget := by
  obtain ⟨c, hclear, h⟩ := Except.bind_eq_ok.mp h
  obtain ⟨d, hinit, h⟩ := Except.bind_eq_ok.mp h
  obtain ⟨bytes, hload, h⟩ := Except.bind_eq_ok.mp h
  obtain ⟨e, hstore, h⟩ := Except.bind_eq_ok.mp h
  obtain ⟨u, hfree, h⟩ := Except.bind_eq_ok.mp h
  cases h
  obtain ⟨hread, hlength⟩ := load_forget hload
  obtain ⟨hwrite, hforget⟩ := store_forget hstore
  rw [hlength] at hwrite
  -- what follows the first branch
  have hrest : (do
      let a' ← { c.forget with items := .null }.initializeTyped H.toAllocator
        (sizeSub c.len delta)
      c.forget.touch 0 (sizeT (a'.len * T.size))
      a'.touch 0 (sizeT (a'.len * T.size))
      c.forget.items.free
      return a') = Except.ok b.forget := by
    refine Except.bind_eq_ok.mpr ⟨_, initializeTyped_forget hinit, ?_⟩
    refine Except.bind_eq_ok.mpr ⟨_, hread, Except.bind_eq_ok.mpr ⟨_, hwrite, ?_⟩⟩
    exact Except.bind_eq_ok.mpr ⟨_, free_forget hfree, congrArg Except.ok hforget.symm⟩
  unfold clear at hclear
  rw [RsmpArray.shrink]
  split at hclear
  · next hle =>
    obtain ⟨v, hfreed, hclear⟩ := Except.bind_eq_ok.mp hclear
    cases hclear
    exact (if_pos hle).trans (Except.bind_eq_ok.mpr ⟨_, free_forget hfreed, hrest⟩)
  · next hle =>
    cases hclear
    exact (if_neg hle).trans hrest

end MemArray

end RsmpGateway.Rsmp
