import RsmpGateway.Lib.CString
import RsmpGateway.Lib.Traverse

/-!
# Memory

Blocks that an allocator grants, read and written one byte or several at a time. An access out of
its block stops the run, and so does the use of a byte that nothing was written to.

* Sizes are computed as C does, in `size_t`, and may have wrapped around when they come to the
  allocator (`sizeT`, `sizeSub`).
* An allocator grants a request or not, by its size alone. Whether the source looks at the answer
  is seen in its translation: `orError` for a test that ends in an error, `orAbort` for an
  assertion.
* A run ends with a value, with an error that the function returns, or stops.

The lemmas are made for loops: what is done at the position that a loop has come to, in a block
that is written as what it has written so far and the rest.
-/

namespace RsmpGateway.Lib

/-! ## Sizes

On a host of 64 bits. -/

/-- The sizes that the allocator grants. None of them exceeds `PTRDIFF_MAX`. -/
structure Allocator where
  grants : Nat → Bool
  bounded : ∀ {n}, grants n = true → n < 2 ^ 63

/-- An allocator that grants what there can be. -/
def Allocator.all : Allocator := ⟨fun n => n < 2 ^ 63, of_decide_eq_true⟩

/-- `size_t` -/
def sizeT (n : Nat) : Nat := n % 2 ^ 64

/-- A difference of `size_t`. -/
def sizeSub (a b : Nat) : Nat := (a + (2 ^ 64 - b % 2 ^ 64)) % 2 ^ 64

theorem sizeT_of_lt {n : Nat} (h : n < 2 ^ 64) : sizeT n = n := Nat.mod_eq_of_lt h

theorem sizeSub_of_le {n k : Nat} (hn : n < 2 ^ 64) (hk : k ≤ n) : sizeSub n k = n - k := by
  have hk' : k % 2 ^ 64 = k := Nat.mod_eq_of_lt (by omega)
  rw [sizeSub, hk']
  omega

/-- Conversion of a `size_t` to the 32 bits of an `int`. -/
def toInt32 (n : Nat) : Int := (BitVec.ofNat 32 n).toInt

theorem toInt32_of_lt {n : Nat} (h : n < 2 ^ 31) : toInt32 n = n := by
  rw [toInt32, BitVec.toInt_ofNat', Int.bmod]
  omega

/-- A length that is not negative as an `int` is cut to what is left of it. -/
theorem toInt32_toNat_le (n : Nat) : (toInt32 n).toNat ≤ n ∧ (toInt32 n).toNat < 2 ^ 31 := by
  rw [toInt32, BitVec.toInt_ofNat', Int.bmod]
  omega

/-- The bytes of an object. It is no larger than what can be allocated. -/
abbrev Object := { x : Bytes // x.length < 2 ^ 63 }

/-! ## Runs

Errors are those that the function reports; a stop is the end of the process. -/

/-- How a function stops before its end: it reports an error, an assertion of it fails, it reads
or writes where there is no block, or it uses what has no value. -/
inductive Stop
  | error
  | abort
  | read
  | write
  | undefined
  deriving Repr, DecidableEq

abbrev Run := Except Stop

namespace Run

variable {α β : Type}

/-- What cannot be done is reported. -/
def orError : Option α → Run α
  | some a => .ok a
  | none => .error .error

/-- What cannot be done fails an assertion. -/
def orAbort : Option α → Run α
  | some a => .ok a
  | none => .error .abort

/-- What is left of a run when its stops are told apart no more. -/
def outcome : Run α → Outcome α
  | .ok a => .ok a
  | .error .error => .err
  | .error _ => .fault

@[simp] theorem ok_bind (a : α) (f : α → Run β) : ((.ok a : Run α) >>= f) = f a := rfl

@[simp] theorem error_bind (e : Stop) (f : α → Run β) : ((.error e : Run α) >>= f) = .error e :=
  rfl

@[simp] theorem map_ok (f : α → β) (a : α) : (f <$> (.ok a : Run α)) = .ok (f a) := rfl

@[simp] theorem map_error (f : α → β) (e : Stop) : (f <$> (.error e : Run α)) = .error e := rfl

@[simp] theorem orError_some (a : α) : orError (some a) = .ok a := rfl

@[simp] theorem orAbort_some (a : α) : orAbort (some a) = .ok a := rfl

@[simp] theorem orError_none : orError (none : Option α) = .error .error := rfl

end Run

/-! ## Blocks

A byte that was not written has no value. -/

/-- The bytes of a block. Those that nothing was written to have no value. -/
abbrev Block := List (Option UInt8)

/-- A block with all its bytes. -/
def Block.ofBytes (x : Bytes) : Block := x.map some

namespace Allocator

variable (A : Allocator)

/-- `malloc` -/
def malloc (n : Nat) : Option Block := if A.grants n then some (List.replicate n none) else none

/-- `calloc` -/
def calloc (n size : Nat) : Option Block :=
  if A.grants (n * size) then some (List.replicate (n * size) (some 0)) else none

/-- `realloc` -/
def realloc (b : Block) (n : Nat) : Option Block :=
  if A.grants n then some (b.take n ++ List.replicate (n - b.length) none) else none

variable {A}

theorem all_grants {n : Nat} (h : n < 2 ^ 63) : all.grants n = true := decide_eq_true h

theorem malloc_eq {n : Nat} (h : A.grants n = true) :
    A.malloc n = some (List.replicate n none) :=
  if_pos h

/-- A block that grows keeps its bytes. -/
theorem realloc_eq {b : Block} {n : Nat} (h : A.grants n = true) (hn : b.length ≤ n) :
    A.realloc b n = some (b ++ List.replicate (n - b.length) none) := by
  rw [realloc, if_pos h, List.take_of_length_le hn]

end Allocator

namespace Block

/-- `b[i]` -/
def load (b : Block) (i : Nat) : Run UInt8 :=
  match b[i]? with
  | some (some v) => .ok v
  | some none => .error .undefined
  | none => .error .read

/-- `b[i] = v` -/
def store (b : Block) (i : Nat) (v : UInt8) : Run Block :=
  if i < b.length then .ok (b.set i (some v)) else .error .write

/-- `c ? b[i] : 0` -/
def loadIf (c : Prop) [Decidable c] (b : Block) (i : Nat) : Run UInt8 :=
  if c then b.load i else .ok 0

/-- `if (c) b[i] = v` -/
def storeIf (c : Prop) [Decidable c] (b : Block) (i : Nat) (v : UInt8) : Run Block :=
  if c then b.store i v else .ok b

/-- What `memcpy` takes from the block. -/
def slice (b : Block) (i n : Nat) : Run Bytes :=
  if i + n ≤ b.length then
    match ((b.drop i).take n).mapM id with
    | some x => .ok x
    | none => .error .undefined
  else .error .read

/-- What `memcpy` puts in the block. -/
def paste (b : Block) (i : Nat) (x : Bytes) : Run Block :=
  if i + x.length ≤ b.length then .ok (b.take i ++ ofBytes x ++ b.drop (i + x.length))
  else .error .write

/-- The string at the start of the block. -/
def string : Block → Run CString
  | [] => .error .read
  | none :: _ => .error .undefined
  | some c :: b =>
    if hc : c = 0 then .ok ⟨[], List.not_mem_nil⟩
    else
      match string b with
      | .ok s => .ok ⟨c :: s.val, List.not_mem_cons_of_ne_of_not_mem (Ne.symm hc) s.2⟩
      | .error e => .error e

/-! ### Accesses in bounds

Reading and writing at the end of what is there already, and in what follows it. -/

variable {b p t : Block} {x y : Bytes} {i n : Nat} {v : UInt8}

@[simp] theorem length_ofBytes (x : Bytes) : (ofBytes x).length = x.length := List.length_map _

@[simp] theorem ofBytes_append (x y : Bytes) : ofBytes (x ++ y) = ofBytes x ++ ofBytes y :=
  List.map_append

theorem ofBytes_injective : Function.Injective ofBytes :=
  List.map_injective_iff.mpr (Option.some_injective _)

@[simp] theorem load_cons_zero : load (some v :: t) 0 = .ok v := rfl

@[simp] theorem load_cons_succ {c : Option UInt8} : load (c :: t) (i + 1) = load t i := rfl

/-- What is read after some bytes does not depend on them. -/
theorem load_append (p t : Block) (i : Nat) : (p ++ t).load (p.length + i) = t.load i := by
  rw [load, List.getElem?_append_right (Nat.le_add_right _ _), Nat.add_sub_cancel_left]
  rfl

theorem load_append_zero (p t : Block) : (p ++ t).load p.length = t.load 0 := load_append p t 0

@[simp] theorem store_cons_zero {c : Option UInt8} : store (c :: t) 0 v = .ok (some v :: t) := rfl

@[simp] theorem store_cons_succ {c : Option UInt8} :
    store (c :: t) (i + 1) v = (c :: ·) <$> store t i v := by
  by_cases hi : i < t.length
  · have hi' : i + 1 < (c :: t).length := Nat.succ_lt_succ hi
    rw [store, store, if_pos hi, if_pos hi']
    rfl
  · have hi' : ¬ i + 1 < (c :: t).length := fun h => hi (Nat.lt_of_succ_lt_succ h)
    rw [store, store, if_neg hi, if_neg hi']
    rfl

/-- What is written after some bytes leaves them. -/
theorem store_append (p t : Block) (i : Nat) (v : UInt8) :
    (p ++ t).store (p.length + i) v = (p ++ ·) <$> t.store i v := by
  induction p with
  | nil =>
    show t.store (0 + i) v = id <$> t.store i v
    rw [Nat.zero_add, id_map]
  | cons c p ih =>
    rw [List.length_cons, Nat.succ_add, List.cons_append, store_cons_succ, ih, ← comp_map]
    rfl

theorem store_append_zero (p t : Block) (v : UInt8) :
    (p ++ t).store p.length v = (p ++ ·) <$> t.store 0 v :=
  store_append p t 0 v

/-- A zero that may be written over. -/
theorem storeIf_cons_zero {c : Prop} [Decidable c] :
    storeIf c (some 0 :: t) 0 v = .ok (some (if c then v else 0) :: t) := by
  by_cases hc : c
  · rw [storeIf, if_pos hc, if_pos hc, store_cons_zero]
  · rw [storeIf, if_neg hc, if_neg hc]

@[simp] theorem storeIf_cons_succ {c : Prop} [Decidable c] {a : Option UInt8} :
    storeIf c (a :: t) (i + 1) v = (a :: ·) <$> storeIf c t i v := by
  by_cases hc : c
  · rw [storeIf, storeIf, if_pos hc, if_pos hc, store_cons_succ]
  · rw [storeIf, storeIf, if_neg hc, if_neg hc]
    rfl

theorem storeIf_append {c : Prop} [Decidable c] (p t : Block) (i : Nat) (v : UInt8) :
    storeIf c (p ++ t) (p.length + i) v = (p ++ ·) <$> storeIf c t i v := by
  by_cases hc : c
  · rw [storeIf, storeIf, if_pos hc, if_pos hc, store_append]
  · rw [storeIf, storeIf, if_neg hc, if_neg hc]
    rfl

theorem store_eq_write (h : b.length ≤ i) : b.store i v = .error .write :=
  if_neg (Nat.not_lt.mpr h)

theorem mapM_ofBytes (x : Bytes) : (ofBytes x).mapM id = some x := by
  induction x with
  | nil => rfl
  | cons a x ih =>
    rw [ofBytes, List.map_cons, List.mapM_cons]
    show ((ofBytes x).mapM id).bind (fun ys => some (a :: ys)) = _
    rw [ih]
    rfl

theorem store_cases (b : Block) (i : Nat) (v : UInt8) :
    (∃ b', b.store i v = .ok b') ∨ b.store i v = .error .write := by
  rw [store]
  split
  · exact .inl ⟨_, rfl⟩
  · exact .inr rfl

theorem paste_cases (b : Block) (i : Nat) (x : Bytes) :
    (∃ b', b.paste i x = .ok b') ∨ b.paste i x = .error .write := by
  rw [paste]
  split
  · exact .inl ⟨_, rfl⟩
  · exact .inr rfl

theorem slice_ofBytes (h : i + n ≤ x.length) :
    (ofBytes x).slice i n = .ok ((x.drop i).take n) := by
  have hslice : ((ofBytes x).drop i).take n = ofBytes ((x.drop i).take n) := by
    simp only [ofBytes, List.map_take, List.map_drop]
  rw [slice, if_pos (by simpa using h), hslice, mapM_ofBytes]

theorem slice_eq_read (h : b.length < i + n) : b.slice i n = .error .read :=
  if_neg (Nat.not_le.mpr h)

/-- A hole is filled by as many bytes. -/
theorem paste_append {h : Block} (hi : i = p.length) (hh : h.length = x.length) :
    (p ++ h ++ t).paste i x = .ok (p ++ ofBytes x ++ t) := by
  subst hi
  -- what is before the hole and what is after it
  have htake : (p ++ h ++ t).take p.length = p := by rw [List.append_assoc, List.take_left]
  have hdrop : (p ++ h ++ t).drop (p.length + x.length) = t := by
    rw [← hh, ← List.length_append, List.drop_left]
  rw [paste, if_pos (by simp [hh]), htake, hdrop]

theorem paste_whole {h : Block} (hh : h.length = x.length) : h.paste 0 x = .ok (ofBytes x) := by
  simpa using paste_append (p := []) (t := []) rfl hh

theorem paste_start {h : Block} (hh : h.length = x.length) :
    (h ++ t).paste 0 x = .ok (ofBytes x ++ t) := by
  simpa using paste_append (p := []) (t := t) rfl hh

theorem paste_end {h : Block} (hi : i = p.length) (hh : h.length = x.length) :
    (p ++ h).paste i x = .ok (p ++ ofBytes x) := by
  simpa using paste_append (t := []) hi hh

/-- A string is read as far as its NUL. -/
theorem string_ofBytes (s : CString) (rest : Block) :
    string (ofBytes s.val ++ some 0 :: rest) = .ok s := by
  obtain ⟨s, hs⟩ := s
  induction s with
  | nil => rfl
  | cons c s ih =>
    have hc : c ≠ 0 := fun h => hs (h ▸ List.mem_cons_self)
    have hrest := ih fun h => hs (List.mem_cons_of_mem _ h)
    show string (some c :: (ofBytes s ++ some 0 :: rest)) = _
    rw [string, dif_neg hc, hrest]

end Block

/-! ## Characters of a string

A string is read up to its NUL and no further. -/

/-- `s[i]`: the NUL is read too, nothing before the string and nothing after. -/
def CString.char (s : CString) (i : Int) : Run UInt8 :=
  match s.charAt i with
  | .ok c => .ok c
  | _ => .error .read

/-- What follows the first characters of a string, and its NUL. -/
theorem CString.char_append {s : CString} {p t : Bytes} (hs : s.val = p ++ t) {i : Nat}
    (hi : i ≤ t.length) : s.char (p.length + i) = .ok (t.getD i 0) := by
  have hlen : s.strlen = p.length + t.length := by rw [strlen, hs, List.length_append]
  have hin : (0 : Int) ≤ p.length + i ∧ (p.length + i : Int) ≤ s.strlen := by omega
  have hnat : ((p.length + i : Int)).toNat = p.length + i := by omega
  have hget : (p ++ t).getD (p.length + i) 0 = t.getD i 0 := by
    rw [List.getD_eq_getElem?_getD, List.getElem?_append_right (Nat.le_add_right _ _),
      Nat.add_sub_cancel_left, ← List.getD_eq_getElem?_getD]
  rw [char, charAt, if_pos hin, hnat, hs, hget]

theorem CString.char_eq_read {s : CString} {i : Int} (h : i < 0 ∨ s.strlen < i) :
    s.char i = .error .read := by
  rw [char, charAt, if_neg (by omega)]

end RsmpGateway.Lib
