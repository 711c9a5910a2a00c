import Mathlib.Data.Nat.Digits.Defs
import Mathlib.Data.Nat.Digits.Lemmas
import Mathlib.Data.List.TakeWhile
import RsmpGateway.Lib.Frames

/-!
# Texts as bytes

C strings and buffers are lists of bytes. A C string holds no NUL, which is why `cstr` cuts a
buffer at its first one.
-/

namespace RsmpGateway.Lib

abbrev Bytes := List UInt8

/-- The bytes of an ASCII literal. -/
def ascii (s : String) : Bytes := s.toList.map fun c => c.toNat.toUInt8

/-- A buffer read as a C string. -/
def cstr (b : Bytes) : Bytes := b.takeWhile (· ≠ 0)

theorem cstr_eq_self {b : Bytes} (h : (0 : UInt8) ∉ b) : cstr b = b := by
  rw [cstr, List.takeWhile_eq_self_iff]
  intro c hc
  have : c ≠ 0 := fun h0 => h (h0 ▸ hc)
  simpa using this

/-- What holds of the 256 bytes holds of every byte. -/
theorem forall_byte {P : UInt8 → Prop} (h : ∀ n : Fin 256, P (UInt8.ofFin n)) : ∀ c, P c :=
  fun c => h c.toFin

/-! ## Decimal numbers

A number without sign, without leading zeros. -/

/-- `isdigit` -/
def isDigit (c : UInt8) : Bool := 0x30 ≤ c && c ≤ 0x39

/-- `isxdigit` -/
def isXDigit (c : UInt8) : Bool :=
  isDigit c || (0x41 ≤ c && c ≤ 0x46) || (0x61 ≤ c && c ≤ 0x66)

/-- The digit `d < 10`. -/
def digitByte (d : Nat) : UInt8 := (0x30 + d).toUInt8

/-- `%d` of a non-negative number. -/
def decimal (n : Nat) : Bytes :=
  if n = 0 then [0x30] else (Nat.digits 10 n).reverse.map digitByte

theorem isDigit_digitByte {d : Nat} (h : d < 10) : isDigit (digitByte d) = true := by
  revert d; decide

theorem isDigit_of_mem_decimal {n : Nat} {c : UInt8} (h : c ∈ decimal n) : isDigit c = true := by
  rw [decimal] at h
  split at h
  · simp only [List.mem_singleton] at h
    subst h; decide
  · obtain ⟨d, hd, rfl⟩ := List.mem_map.mp h
    exact isDigit_digitByte (Nat.digits_lt_base (by omega) (List.mem_reverse.mp hd))

theorem decimal_ne_nil (n : Nat) : decimal n ≠ [] := by
  rw [decimal]
  split
  · simp
  · next h => simpa [Nat.digits_eq_nil_iff_eq_zero] using h

/-! ## Separators

`strtok` skips empty parts, so that texts are found again where none of them is empty. -/

/-- The tokens that `strtok_r` finds one after the other: maximal runs without
delimiter. `acc` was already read of the first one. -/
def strtokFrom {α : Type _} (isDelim : α → Bool) (acc : List α) : List α → List (List α)
  | [] => if acc.isEmpty then [] else [acc]
  | c :: cs =>
    if isDelim c then
      if acc.isEmpty then strtokFrom isDelim [] cs else acc :: strtokFrom isDelim [] cs
    else strtokFrom isDelim (acc ++ [c]) cs

/-- The tokens of a text. -/
def strtok {α : Type _} (isDelim : α → Bool) (cs : List α) : List (List α) :=
  strtokFrom isDelim [] cs

section Strtok

variable {α : Type _} {isDelim : α → Bool}

theorem strtokFrom_append {p : List α} (hp : ∀ c ∈ p, isDelim c = false) (acc cs : List α) :
    strtokFrom isDelim acc (p ++ cs) = strtokFrom isDelim (acc ++ p) cs := by
  induction p generalizing acc with
  | nil => simp
  | cons a as ih =>
    have ha : isDelim a = false := hp a (by simp)
    have has : ∀ c ∈ as, isDelim c = false := fun c hc => hp c (by simp [hc])
    rw [List.cons_append, strtokFrom, ha, if_neg (by simp), ih has, List.append_assoc]
    rfl

/-- Non-empty lines without delimiter, each ended by one, are the tokens of the
text they make. -/
theorem strtok_frames {delim : α} (hd : isDelim delim = true) :
    ∀ {ls : List (List α)}, (∀ l ∈ ls, l ≠ [] ∧ ∀ c ∈ l, isDelim c = false) →
      strtok isDelim (ls.flatMap (frame delim)) = ls
  | [], _ => rfl
  | l :: ls, h => by
    obtain ⟨hne, hl⟩ := h l (by simp)
    have hls : ∀ q ∈ ls, q ≠ [] ∧ ∀ c ∈ q, isDelim c = false := fun q hq => h q (by simp [hq])
    have ih := strtok_frames hd hls
    rw [strtok] at ih ⊢
    rw [List.flatMap_cons, frame, List.append_assoc, strtokFrom_append hl, List.nil_append,
      List.singleton_append, strtokFrom, if_pos hd, if_neg (by simpa using hne), ih]

end Strtok

end RsmpGateway.Lib
