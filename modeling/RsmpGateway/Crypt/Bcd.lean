import RsmpGateway.Lib.Text

/-!
# BCD texts

`bcd_encode` writes each byte as two uppercase hexadecimal digits and `bcd_decode` reads such a
text back.

These are the functions on bytes, for texts of an even number of digits, as the store and the
coder use them. The separators, the memory and the texts that are cut short are in
`Crypt/BcdMemory.lean`.
-/

namespace RsmpGateway.Crypt

open RsmpGateway.Lib

/-- `c2a`: the digit of the low half of `c`. -/
def c2a (c : UInt8) : UInt8 :=
  let c := c &&& 0x0F
  if c < 0x0A then 0x30 + c else 0x41 + c - 0x0A

/-- `a2c`: the value of a digit of either case, 0 for another character. -/
def a2c (c : UInt8) : UInt8 :=
  if 0x30 ≤ c ∧ c ≤ 0x39 then c - 0x30
  else if 0x61 ≤ c ∧ c ≤ 0x66 then 0x0A + c - 0x61
  else if 0x41 ≤ c ∧ c ≤ 0x46 then 0x0A + c - 0x41
  else 0

/-- `bcd_encode` of a non-empty buffer (`NULL` for an empty one, see the callers). -/
def bcdEncode (buf : Bytes) : Bytes :=
  buf.flatMap fun b : UInt8 => [c2a (b >>> 4), c2a (b &&& 0x0F)]

/-- The byte written for the digits `hi` and `lo`. -/
def bcdByte (hi lo : UInt8) : UInt8 := ((a2c hi <<< 4) &&& 0xF0) ||| a2c lo

/-- The loop of `bcd_decode`: two digits, then a separator when the next character
is no digit. An odd last digit is paired with the final NUL. -/
def bcdDecodeLoop : Bytes → Bytes
  | [] => []
  | [hi] => [bcdByte hi 0]
  | hi :: lo :: rest =>
    bcdByte hi lo ::
      match rest with
      | [] => []
      | c :: cs => if isXDigit c then bcdDecodeLoop (c :: cs) else bcdDecodeLoop cs

/-- `bcd_decode`, `none` for `NULL`. -/
def bcdDecode (buf : Bytes) : Option Bytes :=
  match buf with
  | a :: b :: _ => if isXDigit a && isXDigit b then some (bcdDecodeLoop buf) else none
  | _ => none

/-! ## Round trip

By induction on the bytes, two digits at a time. -/

theorem bcdByte_c2a : ∀ b : UInt8, bcdByte (c2a (b >>> 4)) (c2a (b &&& 0x0F)) = b :=
  forall_byte (by decide +kernel)

theorem isXDigit_c2a : ∀ b : UInt8, isXDigit (c2a b) = true :=
  forall_byte (by decide +kernel)

@[simp] theorem bcdEncode_nil : bcdEncode [] = [] := rfl

@[simp] theorem bcdEncode_cons (b : UInt8) (bs : Bytes) :
    bcdEncode (b :: bs) = c2a (b >>> 4) :: c2a (b &&& 0x0F) :: bcdEncode bs := rfl

@[simp] theorem length_bcdEncode (buf : Bytes) : (bcdEncode buf).length = 2 * buf.length := by
  induction buf with
  | nil => rfl
  | cons b bs ih => simp [ih]; omega

theorem isXDigit_of_mem_bcdEncode {buf : Bytes} {c : UInt8} (h : c ∈ bcdEncode buf) :
    isXDigit c = true := by
  obtain ⟨b, -, hc⟩ := List.mem_flatMap.mp h
  simp only [List.mem_cons, List.not_mem_nil, or_false] at hc
  rcases hc with rfl | rfl
  · exact isXDigit_c2a _
  · exact isXDigit_c2a _

theorem bcdDecodeLoop_bcdEncode (buf : Bytes) : bcdDecodeLoop (bcdEncode buf) = buf := by
  induction buf with
  | nil => rfl
  | cons b bs ih =>
    cases bs with
    | nil => simp [bcdDecodeLoop, bcdByte_c2a]
    | cons b' bs' =>
      rw [bcdEncode_cons] at ih
      rw [bcdEncode_cons, bcdEncode_cons, bcdDecodeLoop, bcdByte_c2a]
      simp only [isXDigit_c2a, if_true, ih]

/-- **BCD round trip.** -/
theorem bcdDecode_bcdEncode {buf : Bytes} (h : buf ≠ []) :
    bcdDecode (bcdEncode buf) = some buf := by
  cases buf with
  | nil => exact absurd rfl h
  | cons b bs =>
    rw [bcdEncode_cons, bcdDecode]
    simp only [isXDigit_c2a, Bool.and_self, if_true]
    rw [← bcdEncode_cons, bcdDecodeLoop_bcdEncode]

end RsmpGateway.Crypt
