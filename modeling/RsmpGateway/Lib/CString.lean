import RsmpGateway.Lib.Outcome
import RsmpGateway.Lib.Text

/-!
# C strings and the arrays that hold them

A C string carries that it has no NUL, an array of characters that it has its size. Reading
outside a string and copying more than an array holds are faults.

An array need not hold a string: after a `strncpy` that fills it there is no NUL in it, and
reading it as a string is a fault then (`CharArray.Terminated`). The lemmas say what is read of
an array after a copy, for each of the two ways to copy.
-/

namespace RsmpGateway.Lib

/-- What a pointer to a string points to, its NUL aside. -/
abbrev CString := { s : Bytes // (0 : UInt8) ∉ s }

namespace CString

/-- The string at the start of the bytes. -/
def ofBytes (b : Bytes) : CString :=
  ⟨cstr b, by
    intro h
    simpa using List.mem_takeWhile_imp h⟩

@[simp] theorem ofBytes_val (s : CString) : ofBytes s.val = s := Subtype.ext (cstr_eq_self s.2)

/-- `strlen` -/
def strlen (s : CString) : Nat := s.val.length

/-- `s + n`, with at least that many characters. -/
def drop (s : CString) (n : Nat) : CString :=
  ⟨s.val.drop n, fun h => s.2 (List.mem_of_mem_drop h)⟩

/-- `s[i]`: the NUL is read too, nothing before the string and nothing after. -/
def charAt (s : CString) (i : Int) : Outcome UInt8 :=
  if 0 ≤ i ∧ i ≤ s.strlen then .ok (s.val.getD i.toNat 0) else .fault

theorem charAt_eq_fault {s : CString} {i : Int} :
    s.charAt i = .fault ↔ ¬ (0 ≤ i ∧ i ≤ s.strlen) := by
  rw [charAt]
  split <;> simp_all

end CString

/-- The empty string. -/
theorem nul_not_mem_nil : (0 : UInt8) ∉ ([] : Bytes) := List.not_mem_nil

/-- The bytes after the NUL are not read. -/
theorem cstr_append_nul {s : Bytes} (h : (0 : UInt8) ∉ s) (rest : Bytes) :
    cstr (s ++ 0 :: rest) = s := by
  rw [cstr, List.takeWhile_append_of_pos]
  · simp
  · intro c hc
    have : c ≠ 0 := fun h0 => h (h0 ▸ hc)
    simpa using this

/-- `char a[n]` -/
abbrev CharArray (n : Nat) := { b : Bytes // b.length = n }

namespace CharArray

variable {n : Nat}

/-- As `calloc` leaves it. -/
def zero : CharArray n := ⟨List.replicate n 0, List.length_replicate⟩

/-- It holds a string and its NUL. -/
def Terminated (a : CharArray n) : Prop := (0 : UInt8) ∈ a.val

instance (a : CharArray n) : Decidable a.Terminated := inferInstanceAs (Decidable (0 ∈ a.val))

/-- The string that the array holds: without NUL, reading it leaves the array. -/
def read (a : CharArray n) : Outcome CString :=
  if a.Terminated then .ok (.ofBytes a.val) else .fault

/-- `strcpy` to the array: the string and its NUL have to fit. -/
def strcpy (a : CharArray n) (s : CString) : Outcome (CharArray n) :=
  if h : s.strlen < n then
    .ok ⟨s.val ++ 0 :: a.val.drop (s.strlen + 1), by
      have ha := a.2
      have hs : s.val.length < n := h
      simp only [List.length_append, List.length_cons, List.length_drop, CString.strlen]
      omega⟩
  else .fault

/-- `strncpy` of `k` characters to the array: the string is cut there, or padded with NULs. -/
def strncpy (a : CharArray n) (s : CString) {k : Nat} (h : k ≤ n) : CharArray n :=
  ⟨(s.val ++ List.replicate k 0).take k ++ a.val.drop k, by
    simp only [List.length_append, List.length_take, List.length_replicate, List.length_drop, a.2]
    omega⟩

/-- The array begins with its NUL. -/
def Blank (a : CharArray n) : Prop := a.val.head? = some 0

instance (a : CharArray n) : Decidable a.Blank := inferInstanceAs (Decidable (_ = _))

theorem read_eq_ok {a : CharArray n} {s : CString} (h : a.read = .ok s) :
    a.Terminated ∧ s.val = cstr a.val := by
  rw [read] at h
  split at h
  · next ha =>
    cases h
    exact ⟨ha, rfl⟩
  · cases h

/-- What is copied is read again. -/
theorem read_strcpy {a b : CharArray n} {s : CString} (h : a.strcpy s = .ok b) :
    b.read = .ok s := by
  rw [strcpy] at h
  split at h
  · cases h
    rw [read, if_pos (by simp [Terminated])]
    exact congrArg Outcome.ok (Subtype.ext (cstr_append_nul s.2 _))
  · cases h

theorem strcpy_eq_fault {a : CharArray n} {s : CString} :
    a.strcpy s = .fault ↔ n ≤ s.strlen := by
  rw [strcpy]
  split
  · next h => simpa using h
  · next h => simpa using h

/-- What fits is copied. -/
theorem strcpy_ne_fault {a : CharArray n} {s : CString} (h : s.strlen < n) :
    a.strcpy s ≠ .fault :=
  fun hfault => Nat.not_le.mpr h (strcpy_eq_fault.mp hfault)

/-- An array of which only the NUL is left is that of a copy of its string to any array. -/
theorem strcpy_of_full {a : CharArray n} {s : CString} (h : a.read = .ok s)
    (hfull : s.strlen + 1 = n) (b : CharArray n) : b.strcpy s = .ok a := by
  obtain ⟨hterm, hs⟩ := read_eq_ok h
  rw [strcpy, dif_pos (by omega)]
  congr 1
  apply Subtype.ext
  have hdrop : b.val.drop (s.strlen + 1) = [] := by
    rw [List.drop_eq_nil_iff, b.2]
    omega
  -- what follows the string in the array is one character, the NUL it was read to
  obtain ⟨rest, hrest⟩ : s.val <+: a.val := by
    rw [hs]
    exact List.takeWhile_prefix _
  have hlen : rest.length = 1 := by
    have hlen := congrArg List.length hrest
    rw [List.length_append, a.2] at hlen
    have : s.strlen = s.val.length := rfl
    omega
  obtain ⟨c, rfl⟩ := List.length_eq_one_iff.mp hlen
  have hc : c = 0 := by
    have hmem : (0 : UInt8) ∈ s.val ++ [c] := by
      rw [hrest]
      exact hterm
    rcases List.mem_append.mp hmem with h0 | h0
    · exact absurd h0 s.2
    · exact (List.mem_singleton.mp h0).symm
  show s.val ++ 0 :: b.val.drop (s.strlen + 1) = a.val
  rw [hdrop, ← hrest, hc]

/-! ### Copies that may be cut

`strncpy` pads with zeros what is shorter than its bound, and leaves what is longer without NUL. -/

variable {s : CString} {k : Nat}

/-- An array that is filled is that of the string where this one fits. -/
theorem strncpy_val_of_lt (a : CharArray n) (h : s.strlen < n) :
    (a.strncpy s le_rfl).val = s.val ++ 0 :: List.replicate (n - s.strlen - 1) 0 := by
  have hlen : s.val.length = s.strlen := rfl
  have hdrop : a.val.drop n = [] := List.drop_eq_nil_of_le (by rw [a.2])
  have hroom : min (n - s.strlen) n = n - s.strlen - 1 + 1 := by omega
  show (s.val ++ List.replicate n 0).take n ++ a.val.drop n = _
  rw [hdrop, List.append_nil, List.take_append, hlen, List.take_of_length_le (by omega),
    List.take_replicate, hroom, List.replicate_succ]

/-- It has no NUL where the string is as long as the array. -/
theorem terminated_strncpy (a : CharArray n) :
    (a.strncpy s le_rfl).Terminated ↔ s.strlen < n := by
  constructor
  · intro h
    by_contra hlong
    have hlen : n ≤ s.val.length := not_lt.mp hlong
    have hdrop : a.val.drop n = [] := List.drop_eq_nil_of_le (by rw [a.2])
    have hmem : (0 : UInt8) ∈ (s.val ++ List.replicate n 0).take n ++ a.val.drop n := h
    rw [hdrop, List.append_nil, List.take_append_of_le_length hlen] at hmem
    exact s.2 (List.mem_of_mem_take hmem)
  · intro h
    rw [Terminated, strncpy_val_of_lt a h]
    simp

theorem read_strncpy (a : CharArray n) (h : s.strlen < n) : (a.strncpy s le_rfl).read = .ok s := by
  rw [read, if_pos ((terminated_strncpy a).mpr h)]
  refine congrArg Outcome.ok (Subtype.ext ?_)
  show cstr (a.strncpy s le_rfl).val = s.val
  rw [strncpy_val_of_lt a h, cstr_append_nul s.2]

/-- What is after the characters that are copied stays: a NUL that ends the array too. -/
theorem terminated_strncpy_of_lt (a : CharArray n) (h : k ≤ n) (ha : (0 : UInt8) ∈ a.val.drop k) :
    (a.strncpy s h).Terminated :=
  List.mem_append_right _ ha

/-- An array is blank exactly when its string is empty. -/
theorem Blank.read {a : CharArray n} (h : a.Blank) : a.read = .ok ⟨[], List.not_mem_nil⟩ := by
  obtain ⟨b, hb⟩ := a
  cases b with
  | nil => cases h
  | cons c b =>
    obtain rfl : c = 0 := Option.some.inj h
    have hterm : Terminated (⟨0 :: b, hb⟩ : CharArray n) := List.mem_cons_self
    rw [CharArray.read, if_pos hterm]
    rfl

theorem blank_of_read {a : CharArray n} (h : a.read = .ok s) (hs : s.strlen = 0) : a.Blank := by
  obtain ⟨hterm, hval⟩ := read_eq_ok h
  obtain ⟨b, hb⟩ := a
  have hnil : cstr b = [] := by
    rw [← hval]
    exact List.length_eq_zero_iff.mp hs
  cases b with
  | nil => cases hterm
  | cons c b =>
    have hc : c = 0 := by
      by_contra hne
      rw [cstr, List.takeWhile_cons_of_pos (by simpa using hne)] at hnil
      cases hnil
    exact congrArg some hc

/-- An array that is filled is blank only where the string is empty, and then to its end. -/
theorem strncpy_of_blank {a : CharArray n} (h : (a.strncpy s le_rfl).Blank) :
    a.strncpy s le_rfl = zero := by
  obtain ⟨s, hs⟩ := s
  apply Subtype.ext
  have hval : (a.strncpy ⟨s, hs⟩ le_rfl).val = (s ++ List.replicate n 0).take n := by
    show (s ++ List.replicate n 0).take n ++ a.val.drop n = _
    rw [List.drop_eq_nil_of_le (by rw [a.2]), List.append_nil]
  rw [Blank, hval] at h
  rw [hval]
  cases s with
  | nil =>
    rw [List.nil_append, List.take_of_length_le (by simp)]
    rfl
  | cons c s =>
    cases n with
    | zero => cases h
    | succ n =>
      obtain rfl : c = 0 := Option.some.inj h
      exact absurd List.mem_cons_self hs

end CharArray

end RsmpGateway.Lib
