import RsmpGateway.Lib.Ends
import RsmpGateway.Lib.Memory

/-!
# Arrays

`rsmp_array_*`: a length, the size given to an item, and the items. What an operation reads or
writes is checked against the bytes that were allocated; a failed assertion stops the process
without any access. The bytes themselves are in `Rsmp/Contents.lean`.

* `Good` is the invariant of an array: it has room for its length.
* Each operation has a condition (`Sized`, `Extendable`, `Settable`, `Copyable`, ...) under which
  it makes no access out of its items and leaves a good array. The conditions are on the array
  before, the positions and the counts, and on what the allocator grants.

The lemmas are used for the runs of `Rsmp/Capacity.lean`.
-/

namespace RsmpGateway.Rsmp

open RsmpGateway.Lib

/-! ## Memory

The types of items are those of the messages that have arrays, with their sizes on a 64-bit host.
An allocation of no byte may or may not give a block. -/

/-- A type of items: its `sizeof`, and whether its arrays are declared with a function that
frees an item. -/
structure ItemType where
  size : Nat
  frees : Bool
  pos : 0 < size
  deriving DecidableEq

namespace ItemType

def char : ItemType := ⟨1, false, by decide⟩

def RSMPs : ItemType := ⟨8, true, by decide⟩

def siteIds : ItemType := ⟨8, true, by decide⟩

def eSXLGs : ItemType := ⟨16, true, by decide⟩

def args : ItemType := ⟨56, true, by decide⟩

def rvs : ItemType := ⟨56, true, by decide⟩

end ItemType

/-- The pointer of an array: null, a block that was allocated, or one that was freed. -/
inductive Items
  | null
  | block (bytes : Nat)
  | freed
  deriving Repr, DecidableEq

/-- The bytes that are allocated. -/
def Items.bytes : Items → Nat
  | block bytes => bytes
  | _ => 0

/-- `rsmp_array_*_t` -/
structure RsmpArray where
  type : ItemType
  len : Nat
  itemLen : Nat
  hasFree : Bool
  items : Items
  deriving DecidableEq

/-- How an operation stops: a failed assertion, an access out of the items, or a freed block
that is freed or reallocated. -/
inductive ArrayStop
  | abort
  | outOfBounds
  | dangling
  deriving Repr, DecidableEq

/-- `calloc` -/
def calloc (A : Allocator) (n size : Nat) : Option Items :=
  if n * size < 2 ^ 64 ∧ A.grants (n * size) then some (.block (n * size)) else none

/-- `free` -/
def Items.free : Items → Except ArrayStop Unit
  | freed => .error .dangling
  | _ => .ok ()

namespace RsmpArray

/-- An access to some bytes of the items. -/
def touch (a : RsmpArray) (offset bytes : Nat) : Except ArrayStop Unit :=
  if bytes = 0 ∨ offset + bytes ≤ a.items.bytes then .ok () else .error .outOfBounds

/-- An access to the item of an index. -/
def touchItem (a : RsmpArray) (i : Nat) : Except ArrayStop Unit :=
  a.touch (i * a.type.size) a.type.size

/-! ## Operations

In the order of `array.c`. Lengths are `size_t`, and their sums and products wrap around. -/

variable (A : Allocator)

/-- What `calloc` leaves in a structure. -/
def zeroed (T : ItemType) : RsmpArray := ⟨T, 0, 0, false, .null⟩

/-- `_declare`. The items are left as they are. -/
def declare (a : RsmpArray) : RsmpArray :=
  { a with len := 0, itemLen := a.type.size, hasFree := a.type.frees }

/-- `_flush`: each item is freed, then the items are. -/
def flush (a : RsmpArray) : Except ArrayStop RsmpArray :=
  if a.len = 0 then .ok a
  else do
    if a.hasFree then a.touch 0 (a.len * a.type.size)
    a.items.free
    return { a with len := 0, items := .null }

/-- `rsmp_array_flush`, whose items are `item_len` bytes apart. The last one is the furthest. -/
def flushVoid (a : RsmpArray) : Except ArrayStop RsmpArray :=
  if a.len = 0 then .ok a
  else do
    if a.hasFree then a.touch ((a.len - 1) * a.itemLen) a.type.size
    a.items.free
    return { a with len := 0, items := .null }

/-- The items of a flushed array. -/
def allocate (a : RsmpArray) (max : Nat) : Except ArrayStop RsmpArray :=
  if max = 0 then .ok { a with items := .null }
  else
    match calloc A max a.itemLen with
    | some items => .ok { a with len := max, items := items }
    | none => .error .abort

/-- `_initialize` -/
def initializeTyped (a : RsmpArray) (max : Nat) : Except ArrayStop RsmpArray := do
  let a ← a.flush
  a.allocate A max

/-- `rsmp_array_initialize` -/
def initializeVoid (a : RsmpArray) (max : Nat) : Except ArrayStop RsmpArray := do
  let a ← a.flushVoid
  a.allocate A max

/-- `_extend`. A `realloc` that fails leaves the array as it was, and `-1` is returned; one to no
bytes frees the block. -/
def extend (a : RsmpArray) (add : Nat) : Except ArrayStop RsmpArray :=
  let newlen := sizeT (a.len + add)
  let bytes := sizeT (a.type.size * newlen)
  let a := { a with itemLen := a.type.size }
  if a.items = .freed then .error .dangling
  else if bytes = 0 ∧ a.items ≠ .null then .ok { a with items := .freed }
  else if A.grants bytes then do
    let a' := { a with items := .block bytes }
    a'.touch (a.len * a.type.size) (sizeT (a.type.size * add))
    return { a' with len := newlen }
  else .ok a

/-- `_new_item` -/
def newItem (a : RsmpArray) : Except ArrayStop RsmpArray := a.extend A 1

/-- `rec[k]` is written, where `rec` is the pointer that `_new_item` returned. -/
def writeRec (a : RsmpArray) (k : Nat) : Except ArrayStop Unit :=
  a.touchItem (sizeSub a.len 1 + k)

/-- `_new_item`, and its caller writes the item. -/
def addItem (a : RsmpArray) : Except ArrayStop RsmpArray := do
  let a ← a.newItem A
  a.writeRec 0
  return a

/-- The array, extended up to an index where it is not as long. -/
def extendTo (a : RsmpArray) (i : Nat) : Except ArrayStop RsmpArray :=
  if a.len ≤ i then a.extend A (i - a.len) else .ok a

/-- `_set` -/
def set (a : RsmpArray) (i : Nat) : Except ArrayStop RsmpArray := do
  let a ← a.extendTo A i
  if i < a.len then
    a.touchItem i
    return a
  else .error .abort

/-- `_cpy_pos`. No second array stands for the first one again. -/
def cpyPos (array1 : RsmpArray) (i1 : Nat) (array2 : Option RsmpArray) (i2 n2 : Nat) :
    Except ArrayStop RsmpArray :=
  if (array2.getD array1).len = 0 ∨ n2 = 0 then .ok array1
  else do
    let i1 := min i1 array1.len
    let l := sizeT (i1 + n2)
    let array1 ← array1.extendTo A l
    let array2 := array2.getD array1
    array2.touch (i2 * array2.type.size) (sizeT (n2 * array2.type.size))
    array1.touch (i1 * array1.type.size) (sizeT (n2 * array2.type.size))
    return array1

/-- `_cpy` -/
def cpy (array1 : RsmpArray) (array2 : Option RsmpArray) : Except ArrayStop RsmpArray :=
  array1.cpyPos A 0 array2 0 (array2.getD array1).len

/-- `_cat_n` -/
def catN (array1 : RsmpArray) (array2 : Option RsmpArray) (n2 : Nat) :
    Except ArrayStop RsmpArray :=
  array1.cpyPos A array1.len array2 0 n2

/-- `_cat` -/
def cat (array1 : RsmpArray) (array2 : Option RsmpArray) : Except ArrayStop RsmpArray :=
  array1.catN A array2 (array2.getD array1).len

/-- The loop of `_insert`: `k` items are copied, from `i` to `j` and downwards. -/
def moveItems (a : RsmpArray) : Nat → Nat → Nat → Except ArrayStop Unit
  | 0, _, _ => .ok ()
  | k + 1, j, i => do
    a.touchItem i
    a.touchItem j
    a.moveItems k (sizeSub j 1) (sizeSub i 1)

/-- `_insert`, of another array. -/
def insert (array1 : RsmpArray) (i1 : Nat) (array2 : RsmpArray) (i2 n2 : Nat) :
    Except ArrayStop RsmpArray :=
  if array2.len = 0 ∨ n2 = 0 then .ok array1
  else do
    let n2 := if array2.len < sizeT (i2 + n2) then sizeSub array2.len i2 else n2
    let max := sizeSub array1.len i1
    let array1 ← array1.extend A n2
    array1.moveItems max (sizeSub array1.len 1) (sizeSub (i1 + max) 1)
    array1.cpyPos A i1 (some array2) i2 n2

/-- `_shrink` -/
def shrink (a : RsmpArray) (delta : Nat) : Except ArrayStop RsmpArray := do
  let a ← if a.len ≤ delta then do
      a.items.free
      .ok { a with len := 0, items := .null }
    else .ok a
  let a' ← { a with items := .null }.initializeTyped A (sizeSub a.len delta)
  a.touch 0 (sizeT (a'.len * a.type.size))
  a'.touch 0 (sizeT (a'.len * a.type.size))
  a.items.free
  return a'

/-- `sizeof` of the structure of an array. -/
def headerSize : Nat := 32

/-- `_new`. The item size comes from `array`, which points anywhere yet: `itemLen` is what is
found there. -/
def new (T : ItemType) (len itemLen : Nat) : Except ArrayStop (Option RsmpArray) :=
  match calloc A len itemLen with
  | none => .ok none
  | some items =>
    if items.bytes < headerSize then .error .outOfBounds else .ok (some (zeroed T).declare)

/-- `_dup` -/
def dup (a : RsmpArray) (itemLen : Nat) : Except ArrayStop (Option RsmpArray) := do
  match ← new A a.type a.len itemLen with
  | none => return none
  | some copy => return some (← copy.cpy A (some a))

/-- `_dup2`: the items are written one after the other. -/
def dup2 (dest src : RsmpArray) : Except ArrayStop RsmpArray := do
  let dest ← dest.initializeTyped A src.len
  dest.touch 0 (src.len * dest.type.size)
  src.touch 0 (src.len * src.type.size)
  return dest

/-! ## Decoding

The two places of the decoder that make arrays: a `v`, and the items of an array. -/

/-- `__rsmp_field_v_decode` of a string of `l` bytes. -/
def vDecode (v : RsmpArray) (l : Nat) : Except ArrayStop RsmpArray := do
  let v ← v.initializeTyped A l
  v.touch 0 l
  return v

/-- The loop of `json_extract_array` and `json_extract_table`, from the index `i` on. `values`
are the values that are decoded before an error: of each, the lengths of the strings that the
`v` of the item are decoded from. The `v` is a part of an item that `calloc` has cleared. -/
def extractItems (a : RsmpArray) : Nat → List (List Nat) → Except ArrayStop (List RsmpArray)
  | _, [] => .ok []
  | i, value :: values =>
    if i < a.len then do
      a.touch (i * a.itemLen) a.type.size
      let vs ← value.mapM fun l => (zeroed .char).vDecode A l
      let rest ← a.extractItems (i + 1) values
      return vs ++ rest
    else .ok []

/-- `json_extract_array` and `json_extract_table`, for an array of `n` values: the array, and
those that its items hold. -/
def extract (a : RsmpArray) (n : Nat) (values : List (List Nat)) :
    Except ArrayStop (RsmpArray × List RsmpArray) := do
  let a ← a.initializeVoid A n
  let vs ← a.extractItems A 0 values
  return (a, vs)

/-! ## Capacity

One lemma for each operation, from the condition to the room that is kept. -/

/-- The items have room for the length of the array. Its item size was set to that of the type,
or not at all. -/
structure Good (a : RsmpArray) : Prop where
  room : a.len * a.type.size ≤ a.items.bytes
  sized : a.itemLen = 0 ∨ a.itemLen = a.type.size
  bounded : a.items.bytes < 2 ^ 63
  live : a.items ≠ .freed

/-- The computation makes no access out of the items. -/
abbrev Safe {α : Type} (P : α → Prop) (x : Except ArrayStop α) : Prop :=
  Ends (fun stop => stop = .abort) P x

variable {A} {a b : RsmpArray}

/-! ### Accesses that are granted

In a good array an index below the length is an item that is there, so the access to it stops
nothing. The block of a good array is null or allocated, never freed. -/

theorem touch_eq {offset bytes : Nat} (h : offset + bytes ≤ a.items.bytes) :
    a.touch offset bytes = .ok () :=
  if_pos (.inr h)

/-- An index below the length is one of the items. -/
theorem Good.touchItem_eq (ha : a.Good) {i : Nat} (hi : i < a.len) : a.touchItem i = .ok () := by
  apply touch_eq
  have hroom := ha.room
  have hmul : (i + 1) * a.type.size ≤ a.len * a.type.size := Nat.mul_le_mul_right _ hi
  rw [Nat.succ_mul] at hmul
  omega

theorem Good.touch_zero_eq (ha : a.Good) {n : Nat} (hn : n ≤ a.len) :
    a.touch 0 (n * a.type.size) = .ok () := by
  apply touch_eq
  have hmul := Nat.mul_le_mul_right a.type.size hn
  have hroom := ha.room
  omega

theorem Good.len_lt (ha : a.Good) : a.len < 2 ^ 63 := by
  have hroom := ha.room
  have hbounded := ha.bounded
  have hmul : a.len * 1 ≤ a.len * a.type.size := Nat.mul_le_mul_left _ a.type.pos
  omega

theorem Good.free_eq (ha : a.Good) : a.items.free = .ok () := by
  have hlive := ha.live
  unfold Items.free
  split
  · next h => exact absurd h hlive
  · rfl

theorem zeroed_good (T : ItemType) : (zeroed T).Good :=
  ⟨by simp [zeroed], .inl rfl, by simp [zeroed, Items.bytes], nofun⟩

theorem Good.declare (ha : a.Good) : a.declare.Good :=
  ⟨by simp [RsmpArray.declare], .inr rfl, ha.bounded, ha.live⟩

/-- An array without items. -/
theorem Good.emptied (ha : a.Good) : { a with len := 0, items := .null : RsmpArray }.Good :=
  ⟨by simp, ha.sized, by simp [Items.bytes], nofun⟩

/-! ### Flushed and initialized

Both kinds of initialisation flush the array and allocate its items. They differ in the size of an
item: the typed one takes that of the type, the other the one that is found in the array. -/

/-- What is left of an array that was flushed. -/
def Flushed (a b : RsmpArray) : Prop :=
  b.Good ∧ b.len = 0 ∧ b.type = a.type ∧ b.itemLen = a.itemLen

theorem Good.flush (ha : a.Good) : ∃ b, a.flush = .ok b ∧ Flushed a b := by
  rw [RsmpArray.flush]
  split
  · next hlen => exact ⟨a, rfl, ha, hlen, rfl, rfl⟩
  · rw [ha.touch_zero_eq (Nat.le_refl _), ha.free_eq]
    refine ⟨_, ?_, ha.emptied, rfl, rfl, rfl⟩
    dsimp only
    split <;> rfl

theorem Good.flushVoid (ha : a.Good) : ∃ b, a.flushVoid = .ok b ∧ Flushed a b := by
  rw [RsmpArray.flushVoid]
  split
  · next hlen => exact ⟨a, rfl, ha, hlen, rfl, rfl⟩
  · next hlen =>
    -- the last item is there, whether the item size is zero or that of the type
    have htouch : a.touch ((a.len - 1) * a.itemLen) a.type.size = .ok () := by
      apply touch_eq
      have hroom := ha.room
      obtain ⟨n, hn⟩ : ∃ n, a.len = n + 1 := ⟨a.len - 1, by omega⟩
      have hmul : n * a.itemLen ≤ n * a.type.size := by
        apply Nat.mul_le_mul_left
        rcases ha.sized with h | h
        · omega
        · omega
      rw [hn, Nat.succ_mul] at hroom
      rw [hn, Nat.add_sub_cancel]
      omega
    rw [htouch, ha.free_eq]
    refine ⟨_, ?_, ha.emptied, rfl, rfl, rfl⟩
    dsimp only
    split <;> rfl

/-- The item size is set where there are items to allocate. -/
def Sized (a : RsmpArray) (max : Nat) : Prop := max = 0 ∨ a.itemLen ≠ 0

instance (a : RsmpArray) (max : Nat) : Decidable (a.Sized max) :=
  inferInstanceAs (Decidable (_ ∨ _))

/-- An array of a given length. -/
def OfLen (a : RsmpArray) (n : Nat) (b : RsmpArray) : Prop :=
  b.Good ∧ b.len = n ∧ b.type = a.type ∧ b.itemLen = a.itemLen

theorem Flushed.allocate (hb : Flushed a b) {max : Nat} (hsized : a.Sized max) :
    Safe (OfLen a max) (b.allocate A max) := by
  obtain ⟨hgood, hlen, htype, hitemLen⟩ := hb
  rw [RsmpArray.allocate]
  refine .ite (fun hmax => ?_) fun hmax => ?_
  · refine ⟨⟨?_, hgood.sized, by simp [Items.bytes], nofun⟩, ?_, htype, hitemLen⟩
    · simp [hlen]
    · rw [hlen, hmax]
  · have hset : b.itemLen = b.type.size := by
      rcases hsized with h | h
      · exact absurd h hmax
      · exact hgood.sized.resolve_left (hitemLen ▸ h)
    unfold calloc
    split
    · next items hitems =>
      split at hitems
      · next hgrants =>
        cases hitems
        refine ⟨⟨?_, hgood.sized, A.bounded hgrants.2, nofun⟩, rfl, htype, hitemLen⟩
        simp [Items.bytes, hset]
      · cases hitems
    · rfl

theorem Good.initializeTyped (ha : a.Good) {max : Nat} (hsized : a.Sized max) :
    Safe (OfLen a max) (a.initializeTyped A max) := by
  obtain ⟨b, hflush, hb⟩ := ha.flush
  rw [RsmpArray.initializeTyped, hflush]
  exact hb.allocate hsized

theorem Good.initializeVoid (ha : a.Good) {max : Nat} (hsized : a.Sized max) :
    Safe (OfLen a max) (a.initializeVoid A max) := by
  obtain ⟨b, hflush, hb⟩ := ha.flushVoid
  rw [RsmpArray.initializeVoid, hflush]
  exact hb.allocate hsized

/-! ### Extended

The extension computes the new size in a `size_t` and reallocates. A size that wraps around makes
the block smaller than the length says, and a new size of no byte frees the block and leaves the
pointer. The condition excludes both. -/

/-- The size of the items fits in a `size_t`, and no block is reallocated to nothing. -/
def Extendable (a : RsmpArray) (add : Nat) : Prop :=
  a.type.size * (a.len + add) < 2 ^ 64 ∧ (0 < a.len + add ∨ a.items = .null)

instance (a : RsmpArray) (add : Nat) : Decidable (a.Extendable add) :=
  inferInstanceAs (Decidable (_ ∧ _))

/-- The allocator grants the items of a length. -/
def Granted (A : Allocator) (a : RsmpArray) (n : Nat) : Prop := A.grants (a.type.size * n) = true

instance (a : RsmpArray) (n : Nat) : Decidable (a.Granted A n) :=
  inferInstanceAs (Decidable (_ = true))

theorem Granted.extendable {add : Nat} (h : a.Granted A (a.len + add)) (hpos : 0 < a.len + add) :
    a.Extendable add := by
  have := A.bounded h
  exact ⟨by omega, .inl hpos⟩

theorem Good.extend (ha : a.Good) {add : Nat} (h : a.Extendable add) :
    Safe (fun b => b.Good ∧ b.type = a.type ∧ (a.Granted A (a.len + add) → b.len = a.len + add))
      (a.extend A add) := by
  obtain ⟨hfits, hzero⟩ := h
  have hpos := a.type.pos
  have hlen : a.len + add < 2 ^ 64 := by
    have : 1 * (a.len + add) ≤ a.type.size * (a.len + add) := Nat.mul_le_mul_right _ hpos
    omega
  have hsplit : a.type.size * (a.len + add) = a.len * a.type.size + a.type.size * add := by
    rw [Nat.mul_add, Nat.mul_comm a.type.size a.len]
  rw [RsmpArray.extend]
  dsimp only
  rw [sizeT_of_lt hlen, sizeT_of_lt hfits]
  refine .ite (fun h => absurd h ha.live) fun _ => .ite (fun h => ?_) fun _ => .ite (fun h => ?_)
    fun h => ?_
  · obtain ⟨hbytes, hnull⟩ := h
    rcases hzero with hzero | hzero
    · have := Nat.mul_pos hpos hzero
      omega
    · exact absurd hzero hnull
  · have htouch : ({ a with itemLen := a.type.size, items := .block (a.type.size * (a.len + add)) }
        : RsmpArray).touch (a.len * a.type.size) (sizeT (a.type.size * add)) = .ok () := by
      apply touch_eq
      have hle : sizeT (a.type.size * add) ≤ a.type.size * add := Nat.mod_le _ _
      show _ ≤ a.type.size * (a.len + add)
      omega
    rw [htouch]
    refine ⟨⟨?_, .inr rfl, A.bounded h, nofun⟩, rfl, fun _ => rfl⟩
    show (a.len + add) * a.type.size ≤ a.type.size * (a.len + add)
    exact Nat.le_of_eq (Nat.mul_comm _ _)
  · exact ⟨⟨ha.room, .inr rfl, ha.bounded, ha.live⟩, rfl, fun hgranted => absurd hgranted h⟩

theorem Good.addItem (ha : a.Good) (h : a.Granted A (a.len + 1)) :
    Safe (fun b => b.Good ∧ b.type = a.type) (a.addItem A) := by
  refine (ha.extend (h.extendable (by omega))).bind fun b hb => ?_
  obtain ⟨hgood, htype, hlen⟩ := hb
  have hb := hlen h
  have hlt := hgood.len_lt
  have hwrite : b.writeRec 0 = .ok () := by
    rw [writeRec, sizeSub_of_le (by omega) (by omega)]
    exact hgood.touchItem_eq (by omega)
  rw [hwrite]
  exact ⟨hgood, htype⟩

/-- The item is there, or there is room for those before it. -/
def Settable (a : RsmpArray) (i : Nat) : Prop := i < a.len ∨ a.Extendable (i - a.len)

instance (a : RsmpArray) (i : Nat) : Decidable (a.Settable i) :=
  inferInstanceAs (Decidable (_ ∨ _))

theorem Good.set (ha : a.Good) {i : Nat} (h : a.Settable i) :
    Safe (fun b => b.Good ∧ b.type = a.type) (a.set A i) := by
  have hfirst : Safe (fun b => b.Good ∧ b.type = a.type) (a.extendTo A i) := by
    refine .ite (fun hle => ?_) fun _ => ⟨ha, rfl⟩
    rcases h with h | h
    · omega
    · exact (ha.extend h).mono fun b hb => ⟨hb.1, hb.2.1⟩
  refine hfirst.bind fun b hb => .ite (fun hi => ?_) fun _ => ?_
  · rw [hb.1.touchItem_eq hi]
    exact hb
  · exact Ends.error_iff.mpr rfl

/-! ### Copied and inserted

A copy extends the array up to the end of what it writes, and goes on when the extension has
failed: what it writes is there, or must be granted. The insertion extends the array too, and
moves the items behind the position before it copies. -/

/-- What is read is there, and what is written is there or is granted. -/
def Copyable (A : Allocator) (array1 : RsmpArray) (i1 : Nat) (array2 : Option RsmpArray)
    (i2 n2 : Nat) : Prop :=
  (array2.getD array1).len = 0 ∨ n2 = 0 ∨
    i2 + n2 ≤ (array2.getD array1).len ∧
      (min i1 array1.len + n2 < array1.len ∨ array1.Granted A (min i1 array1.len + n2))

instance (array1 : RsmpArray) (i1 : Nat) (array2 : Option RsmpArray) (i2 n2 : Nat) :
    Decidable (Copyable A array1 i1 array2 i2 n2) :=
  inferInstanceAs (Decidable (_ ∨ _ ∨ _ ∧ (_ ∨ _)))

theorem Good.cpyPos (ha : a.Good) {i1 : Nat} {array2 : Option RsmpArray} {i2 n2 : Nat}
    (hgood2 : ∀ b ∈ array2, b.Good ∧ b.type = a.type) (h : Copyable A a i1 array2 i2 n2) :
    Safe (fun b => b.Good ∧ b.type = a.type) (a.cpyPos A i1 array2 i2 n2) := by
  rw [RsmpArray.cpyPos]
  refine .ite (fun _ => ⟨ha, rfl⟩) fun hne => ?_
  rw [not_or] at hne
  obtain ⟨hread, hwrite⟩ := (h.resolve_left hne.1).resolve_left hne.2
  have hlt := ha.len_lt
  have hpos := a.type.pos
  -- the place that is written, past the end or not
  have hl : min i1 a.len + n2 < 2 ^ 63 := by
    rcases hwrite with hwrite | hwrite
    · omega
    · have := A.bounded hwrite
      have : 1 * (min i1 a.len + n2) ≤ a.type.size * (min i1 a.len + n2) :=
        Nat.mul_le_mul_right _ hpos
      omega
  dsimp only
  rw [sizeT_of_lt (by omega)]
  have hfirst : Safe (fun b => b.Good ∧ b.type = a.type ∧ a.len ≤ b.len ∧
      min i1 a.len + n2 ≤ b.len) (a.extendTo A (min i1 a.len + n2)) := by
    refine .ite (fun hle => ?_) fun hlt => ⟨ha, rfl, Nat.le_refl _, by omega⟩
    have hadd : a.len + (min i1 a.len + n2 - a.len) = min i1 a.len + n2 := by omega
    have hgranted : a.Granted A (a.len + (min i1 a.len + n2 - a.len)) := by
      rw [hadd]
      exact hwrite.resolve_left (by omega)
    refine (ha.extend (hgranted.extendable (by omega))).mono fun b hb => ?_
    have hlen := hb.2.2 hgranted
    exact ⟨hb.1, hb.2.1, by omega, by omega⟩
  refine hfirst.bind fun b hb => ?_
  obtain ⟨hgood, htype, hlen, hroom⟩ := hb
  -- the second array, which may be the first one
  have hsrc : (array2.getD b).Good ∧ (array2.getD b).type = a.type ∧
      i2 + n2 ≤ (array2.getD b).len := by
    cases array2 with
    | none =>
      rw [Option.getD_none] at hread
      exact ⟨hgood, htype, by rw [Option.getD_none]; omega⟩
    | some c =>
      obtain ⟨hc, hctype⟩ := hgood2 c rfl
      exact ⟨hc, hctype, hread⟩
  have htouch : ∀ {c : RsmpArray} {i : Nat}, c.Good → c.type = a.type → i + n2 ≤ c.len →
      c.touch (i * c.type.size) (sizeT (n2 * (array2.getD b).type.size)) = .ok () := by
    intro c i hc hctype hi
    apply touch_eq
    have hle : sizeT (n2 * (array2.getD b).type.size) ≤ n2 * (array2.getD b).type.size :=
      Nat.mod_le _ _
    have hmul := Nat.mul_le_mul_right c.type.size hi
    have hroom := hc.room
    rw [Nat.add_mul] at hmul
    rw [hsrc.2.1, ← hctype] at hle
    rw [hsrc.2.1, ← hctype]
    omega
  rw [htouch hsrc.1 hsrc.2.1 hsrc.2.2, htouch hgood htype hroom]
  exact ⟨hgood, htype⟩

theorem Good.cpy (ha : a.Good) {array2 : Option RsmpArray}
    (hgood2 : ∀ b ∈ array2, b.Good ∧ b.type = a.type)
    (h : Copyable A a 0 array2 0 (array2.getD a).len) :
    Safe (fun b => b.Good ∧ b.type = a.type) (a.cpy A array2) :=
  ha.cpyPos hgood2 h

/-- The loop runs down from an item that is there. -/
theorem Good.moveItems_eq (ha : a.Good) {k j i : Nat}
    (h : k ≠ 0 → k ≤ i + 1 ∧ i ≤ j ∧ j < a.len) : a.moveItems k j i = .ok () := by
  induction k generalizing j i with
  | zero => rfl
  | succ k ih =>
    obtain ⟨hk, hij, hj⟩ := h (by omega)
    have hlt := ha.len_lt
    have hnext : k ≠ 0 → k ≤ sizeSub i 1 + 1 ∧ sizeSub i 1 ≤ sizeSub j 1 ∧ sizeSub j 1 < a.len := by
      intro hne
      rw [sizeSub_of_le (by omega) (by omega), sizeSub_of_le (by omega) (by omega)]
      omega
    rw [RsmpArray.moveItems, ha.touchItem_eq (by omega), ha.touchItem_eq hj]
    exact ih hnext

/-- The positions are in the arrays, and the items that are added are granted. -/
def Insertable (A : Allocator) (array1 : RsmpArray) (i1 : Nat) (array2 : RsmpArray)
    (i2 n2 : Nat) : Prop :=
  array2.len = 0 ∨ n2 = 0 ∨ i1 ≤ array1.len ∧ i2 ≤ array2.len ∧ i2 + n2 < 2 ^ 64 ∧
    array1.Extendable (min n2 (array2.len - i2)) ∧
      array1.Granted A (array1.len + min n2 (array2.len - i2))

instance (array1 : RsmpArray) (i1 : Nat) (array2 : RsmpArray) (i2 n2 : Nat) :
    Decidable (Insertable A array1 i1 array2 i2 n2) :=
  inferInstanceAs (Decidable (_ ∨ _ ∨ _ ∧ _ ∧ _ ∧ _ ∧ _))

theorem Good.insert (ha : a.Good) {i1 : Nat} (hb : b.Good) (htype : b.type = a.type)
    {i2 n2 : Nat} (h : Insertable A a i1 b i2 n2) :
    Safe (fun c => c.Good ∧ c.type = a.type) (a.insert A i1 b i2 n2) := by
  rw [RsmpArray.insert]
  refine .ite (fun _ => ⟨ha, rfl⟩) fun hne => ?_
  rw [not_or] at hne
  obtain ⟨hi1, hi2, hfits, hextend, hgranted⟩ := (h.resolve_left hne.1).resolve_left hne.2
  have halt := ha.len_lt
  have hblt := hb.len_lt
  have hn : (if b.len < sizeT (i2 + n2) then sizeSub b.len i2 else n2) = min n2 (b.len - i2) := by
    rw [sizeT_of_lt hfits, sizeSub_of_le (by omega) hi2]
    split <;> omega
  dsimp only
  rw [hn, sizeSub_of_le (by omega) hi1]
  refine (ha.extend hextend).bind fun c hc => ?_
  obtain ⟨hc, hctype, hclen⟩ := hc
  have hlen := hclen hgranted
  have hclt := hc.len_lt
  have hmove : c.moveItems (a.len - i1) (sizeSub c.len 1) (sizeSub (i1 + (a.len - i1)) 1) =
      .ok () := by
    apply hc.moveItems_eq
    intro hne
    rw [sizeSub_of_le (by omega) (by omega), sizeSub_of_le (by omega) (by omega)]
    omega
  rw [hmove]
  have hcopy : Copyable A c i1 (some b) i2 (min n2 (b.len - i2)) := by
    refine .inr (.inr ⟨by rw [Option.getD_some]; omega, ?_⟩)
    by_cases hend : min i1 c.len + min n2 (b.len - i2) < c.len
    · exact .inl hend
    · have heq : min i1 c.len + min n2 (b.len - i2) = a.len + min n2 (b.len - i2) := by omega
      rw [heq]
      refine .inr ?_
      rw [Granted, hctype]
      exact hgranted
  have hsrc : ∀ b' ∈ some b, b'.Good ∧ b'.type = c.type := by
    intro b' hb'
    cases hb'
    exact ⟨hb, htype.trans hctype.symm⟩
  refine (hc.cpyPos hsrc hcopy).mono fun d hd => ?_
  exact ⟨hd.1, hd.2.trans hctype⟩

/-! ### Shrunk

`_shrink` initializes the array anew at the shorter length and copies what is left. It still has
its old length and no items when it is flushed for that, so that items that are freed one by one
are looked for where there are none. Where nothing is to be left, the length is zero before the
difference is taken, which then goes below zero. -/

/-- A part of the items is left, of an array whose items are not freed one by one; or there is
nothing to do. -/
def Shrinkable (a : RsmpArray) (delta : Nat) : Prop :=
  delta < a.len ∧ a.hasFree = false ∧ a.itemLen ≠ 0 ∨ delta = 0 ∧ a.len = 0

instance (a : RsmpArray) (delta : Nat) : Decidable (a.Shrinkable delta) :=
  inferInstanceAs (Decidable (_ ∨ _))

theorem Good.shrink (ha : a.Good) {delta : Nat} (h : a.Shrinkable delta) :
    Safe (fun b => b.Good ∧ b.type = a.type) (a.shrink A delta) := by
  have hlt := ha.len_lt
  rcases h with ⟨hdelta, hfree, hsized⟩ | ⟨rfl, hlen⟩
  · have hkeep : ¬ a.len ≤ delta := by omega
    -- the items are put aside, so that none of them is flushed
    have hflush : ({ a with items := .null } : RsmpArray).flush =
        .ok { a with len := 0, items := .null } := by
      rw [RsmpArray.flush, if_neg (by show ¬ a.len = 0; omega)]
      simp only [hfree]
      rfl
    have hflushed : Flushed a { a with len := 0, items := .null } := ⟨ha.emptied, rfl, rfl, rfl⟩
    rw [RsmpArray.shrink, if_neg hkeep]
    show Safe _ (RsmpArray.initializeTyped A _ _ >>= _)
    rw [RsmpArray.initializeTyped, hflush, sizeSub_of_le (by omega) (by omega)]
    have hroom : a.Sized (a.len - delta) := .inr hsized
    refine (hflushed.allocate hroom).bind fun b hb => ?_
    obtain ⟨hb, hblen, hbtype, -⟩ := hb
    have hcopied : a.touch 0 (sizeT (b.len * a.type.size)) = .ok () := by
      apply touch_eq
      have hle : sizeT (b.len * a.type.size) ≤ b.len * a.type.size := Nat.mod_le _ _
      have hmul := Nat.mul_le_mul_right a.type.size (show b.len ≤ a.len by omega)
      have hroom := ha.room
      omega
    have hcopy : b.touch 0 (sizeT (b.len * a.type.size)) = .ok () := by
      apply touch_eq
      have hle : sizeT (b.len * a.type.size) ≤ b.len * a.type.size := Nat.mod_le _ _
      have hroom := hb.room
      rw [hbtype] at hroom
      omega
    rw [hcopied, hcopy, ha.free_eq]
    exact ⟨hb, hbtype⟩
  · have hsub : sizeSub 0 0 = 0 := by decide
    have hinit : ({ a with len := 0, items := .null } : RsmpArray).initializeTyped A 0 =
        .ok { a with len := 0, items := .null } := rfl
    rw [RsmpArray.shrink, if_pos (by omega), ha.free_eq]
    simp only [bind, Except.bind, hsub, hinit, Nat.zero_mul]
    exact ⟨ha.emptied, rfl⟩

/-! ### Made and duplicated

`_new` allocates the structure as if it were the items, with an item size that it reads through a
pointer without a value yet: what is found there must make at least the size of the structure. -/

/-- The structure fits in what is allocated for it, or nothing is. -/
def Newable (A : Allocator) (len itemLen : Nat) : Prop :=
  headerSize ≤ len * itemLen ∨ A.grants (len * itemLen) = false

instance (len itemLen : Nat) : Decidable (Newable A len itemLen) :=
  inferInstanceAs (Decidable (_ ∨ _))

theorem new_safe {T : ItemType} {len itemLen : Nat} (h : Newable A len itemLen) :
    Safe (fun a => ∀ b ∈ a, b = (zeroed T).declare) (new A T len itemLen) := by
  unfold new
  split
  · exact nofun
  · next items hitems =>
    unfold calloc at hitems
    split at hitems
    · next hgrants =>
      cases hitems
      rcases h with h | h
      · rw [if_neg (by simp only [Items.bytes]; omega)]
        intro b hb
        exact (Option.some.inj hb).symm
      · rw [h] at hgrants
        exact absurd hgrants.2 (by decide)
    · cases hitems

theorem Good.dup (ha : a.Good) {itemLen : Nat} (h : Newable A a.len itemLen)
    (hgranted : a.len = 0 ∨ a.Granted A a.len) :
    Safe (fun r => ∀ b ∈ r, b.Good) (a.dup A itemLen) := by
  refine (new_safe h).bind fun r hr => ?_
  cases r with
  | none => exact nofun
  | some copy =>
    obtain rfl := hr copy rfl
    have hcopy : Copyable A (zeroed a.type).declare 0 (some a) 0 a.len := by
      rcases hgranted with hlen | hgranted
      · exact .inl hlen
      · refine .inr (.inr ⟨by simp, .inr ?_⟩)
        show A.grants (a.type.size * (min 0 0 + a.len)) = true
        rw [Nat.min_self, Nat.zero_add]
        exact hgranted
    have hsrc : ∀ b ∈ some a, b.Good ∧ b.type = (zeroed a.type).declare.type := by
      intro b hb
      cases hb
      exact ⟨ha, rfl⟩
    refine (((zeroed_good a.type).declare).cpy hsrc hcopy).bind fun b hb => ?_
    intro b' hb'
    cases hb'
    exact hb.1

theorem Good.dup2 (ha : a.Good) (hb : b.Good) (hsized : a.Sized b.len) :
    Safe (fun c => c.Good ∧ c.type = a.type) (a.dup2 A b) := by
  refine (ha.initializeTyped hsized).bind fun c hc => ?_
  obtain ⟨hc, hlen, htype, -⟩ := hc
  rw [hc.touch_zero_eq (by omega), hb.touch_zero_eq (Nat.le_refl _)]
  exact ⟨hc, htype⟩

/-! ### Decoded

The decoder initializes an array for the number of values and fills it item by item. A `v` inside
a decoded item was never declared, and its item size is zero: the first character is copied to a
block of no byte. -/

theorem Good.vDecode (ha : a.Good) {l : Nat} (hsized : a.Sized l) :
    Safe (fun b => b.Good ∧ b.type = a.type) (a.vDecode A l) := by
  refine (ha.initializeTyped hsized).bind fun b hb => ?_
  obtain ⟨hb, hlen, htype, -⟩ := hb
  have htouch : b.touch 0 l = .ok () := by
    apply touch_eq
    have hmul : l * 1 ≤ l * b.type.size := Nat.mul_le_mul_left _ b.type.pos
    have hroom := hb.room
    rw [hlen] at hroom
    omega
  rw [htouch]
  exact ⟨hb, htype⟩

/-- The item size of the array is set, and no `v` has a character. -/
def Extractable (a : RsmpArray) (n : Nat) (values : List (List Nat)) : Prop :=
  a.Sized n ∧ ∀ value ∈ values, ∀ l ∈ value, l = 0

instance (a : RsmpArray) (n : Nat) (values : List (List Nat)) :
    Decidable (a.Extractable n values) :=
  inferInstanceAs (Decidable (_ ∧ _))

theorem Good.extractItems (ha : a.Good) (hsized : a.itemLen = a.type.size ∨ a.len = 0) (i : Nat)
    {values : List (List Nat)} (hvalues : ∀ value ∈ values, ∀ l ∈ value, l = 0) :
    Safe (fun vs => ∀ v ∈ vs, v.Good) (a.extractItems A i values) := by
  induction values generalizing i with
  | nil => exact nofun
  | cons value values ih =>
    obtain ⟨hvalue, hrest⟩ := List.forall_mem_cons.mp hvalues
    rw [RsmpArray.extractItems]
    refine .ite (fun hi => ?_) fun _ => nofun
    have hset : a.itemLen = a.type.size := hsized.resolve_right (by omega)
    have htouch : a.touch (i * a.itemLen) a.type.size = .ok () := by
      rw [hset]
      exact ha.touchItem_eq hi
    rw [htouch]
    have hvs : Safe (fun vs => ∀ v ∈ vs, v.Good)
        (value.mapM fun l => (zeroed .char).vDecode A l) := by
      refine Ends.mapM fun l hl => ?_
      exact ((zeroed_good .char).vDecode (.inl (hvalue l hl))).mono fun v hv => hv.1
    refine hvs.bind fun vs hvs => (ih (i + 1) hrest).bind fun rest hrest => ?_
    intro v hv
    rcases List.mem_append.mp hv with hv | hv
    · exact hvs v hv
    · exact hrest v hv

theorem Good.extract (ha : a.Good) {n : Nat} {values : List (List Nat)}
    (h : a.Extractable n values) :
    Safe (fun r => r.1.Good ∧ r.1.type = a.type ∧ ∀ v ∈ r.2, v.Good) (a.extract A n values) := by
  refine (ha.initializeVoid h.1).bind fun b hb => ?_
  obtain ⟨hb, hlen, htype, hitemLen⟩ := hb
  have hset : b.itemLen = b.type.size ∨ b.len = 0 := by
    rcases h.1 with hn | hne
    · exact .inr (hlen.trans hn)
    · exact .inl (hb.sized.resolve_left (hitemLen ▸ hne))
  refine (hb.extractItems hset 0 h.2).bind fun vs hvs => ?_
  exact ⟨hb, htype, hvs⟩

end RsmpArray

end RsmpGateway.Rsmp
