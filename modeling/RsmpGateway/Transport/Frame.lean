import Mathlib.Data.List.Flatten
import RsmpGateway.Lib.Frames
import RsmpGateway.Lib.Memory

/-!
# The transport layer

`transport_payload_write` puts a payload and `RSMP_EOT` on the flux, and `transport_payload_read`
gets one payload back, byte by byte, in a buffer that grows by steps of 128. The flux itself is
external: a reader sees a list of `ReadEvent`s, one for each call of `flux->read`, and the bytes
come in order.

`received_iff` settles when the connection task obtains the payloads sent: a time-out after the
first byte of a frame and before its terminator drops what was read of the frame, and
`transport_payload_write` keeps the length in an `int`.

Frames without their bounds are those of `Lib/Frames.lean`, to which the reading of a run comes
where no time-out is in the way (`receiveFrom_eq_unframeFrom`).
-/

namespace RsmpGateway.Transport

open RsmpGateway.Lib

/-! ## The flux

A read gives a byte, a time-out or the end of the flux. Bytes that were written come in order, in
pieces of any size. -/

/-- `RSMP_EOT` -/
def rsmpEot : UInt8 := 0x0C

/-- The outcome of one call of `flux->read(flux, &c, 1, to)`. -/
inductive ReadEvent
  | /-- one byte read (`r == 1`) -/ byte (c : UInt8)
  | /-- nothing came in time (`r == -2`) -/ timeout
  | /-- connection lost (`r == -1`) -/ closed
  deriving Repr, DecidableEq

/-- The bytes that a list of reads delivers. -/
def bytesOf : List ReadEvent → List UInt8
  | [] => []
  | .byte c :: es => c :: bytesOf es
  | _ :: es => bytesOf es

/-! ## Reading

The buffer grows as the frame does, and the terminator is not part of the payload. -/

/-- `bufrealloc`: the capacity of the buffer once `newSize` was asked for. -/
def bufrealloc (newSize max offset : Nat) : Nat :=
  if newSize ≥ max then max + offset else max

/-- `strchr(term, c) != NULL` for the one-character string `RSMP_EOT`: the search
covers the final NUL. -/
def isTerm (c : UInt8) : Bool := c == rsmpEot || c == 0

/-- What `fluxreadterm_with_realloc` leaves: the return value of the last read,
`*len` (0 unless written) and the bytes of `*buf`; or a write after the end of
the buffer. -/
inductive TermRead
  | read (r : Int) (len : Nat) (buf : List UInt8)
  | overflow
  deriving Repr, DecidableEq

/-- The loop of `fluxreadterm_with_realloc`: `buf` holds the `i` bytes read so
far, in `lenmax` allocated ones. `none` while the flux has nothing to answer. -/
def fluxReadTermLoop (offset lenmax : Nat) (buf : List UInt8) :
    List ReadEvent → Option (TermRead × List ReadEvent)
  | [] => none
  | .byte c :: es =>
    let lenmax := bufrealloc buf.length lenmax offset
    if buf.length < lenmax then
      if isTerm c then some (.read 1 (buf.length + 1) (buf ++ [c]), es)
      else fluxReadTermLoop offset lenmax (buf ++ [c]) es
    else some (.overflow, es)
  | .timeout :: es => some (.read (-2) 0 buf, es)
  | .closed :: es => some (.read (-1) 0 buf, es)

/-- `fluxreadterm_with_realloc` with `after = 0`, as `transport_payload_read`
calls it. -/
def fluxReadTermWithRealloc (es : List ReadEvent) : Option (TermRead × List ReadEvent) :=
  fluxReadTermLoop 128 128 [] es

/-- Outcomes of `transport_payload_read`. -/
inductive PayloadRead
  | /-- `_rsmp_no_error_` and the payload -/ ok (payload : List UInt8)
  | /-- `_rsmp_errcod_transport_connection_` -/ errConnection
  | /-- `_rsmp_errcod_cyber_generic_` -/ errGeneric
  | fault
  deriving Repr, DecidableEq

/-- The tests of `transport_payload_read` on the result of the read; the
terminator is removed. -/
def payloadOf : TermRead → PayloadRead
  | .overflow => .fault
  | .read nb len buf =>
    if nb = -1 then .errConnection
    else if nb ≤ 0 then .errGeneric
    else .ok (buf.take (len - 1))

/-- `transport_payload_read` -/
def transportPayloadRead (es : List ReadEvent) : Option (PayloadRead × List ReadEvent) :=
  (fluxReadTermWithRealloc es).map fun (t, rest) => (payloadOf t, rest)

theorem length_lt_of_fluxReadTermLoop {offset lenmax : Nat} {buf : List UInt8}
    {es rest : List ReadEvent} {t : TermRead}
    (h : fluxReadTermLoop offset lenmax buf es = some (t, rest)) : rest.length < es.length := by
  induction es generalizing lenmax buf with
  | nil => cases h
  | cons e es ih =>
    cases e with
    | byte c =>
      rw [fluxReadTermLoop] at h
      split at h
      · split at h
        · cases h; simp
        · exact Nat.lt_succ_of_lt (ih h)
      · cases h; simp
    | timeout => cases h; simp
    | closed => cases h; simp

/-- One call takes at least one read. -/
theorem length_lt_of_transportPayloadRead {es rest : List ReadEvent} {r : PayloadRead}
    (h : transportPayloadRead es = some (r, rest)) : rest.length < es.length := by
  simp only [transportPayloadRead, Option.map_eq_some_iff, Prod.exists, Prod.mk.injEq] at h
  obtain ⟨t, rest', h, -, rfl⟩ := h
  exact length_lt_of_fluxReadTermLoop h

/-- The reception task: `cyber_receive` calls `transport_payload_read` until the
connection is lost, and frees what a failed call had read. The payloads it
obtains, in order. -/
def receivePayloads (es : List ReadEvent) : List (List UInt8) :=
  match _h : transportPayloadRead es with
  | none => []
  | some (.ok p, rest) => p :: receivePayloads rest
  | some (.errGeneric, rest) => receivePayloads rest
  | some (.errConnection, _) => []
  | some (.fault, _) => []
termination_by es.length
decreasing_by all_goals exact length_lt_of_transportPayloadRead (by assumption)

/-! ## Writing

The number of bytes written is compared with the length, both as an `int`. -/

/-- What a call of `transport_payload_write` puts on the flux. -/
inductive WriteResult
  | /-- the bytes written -/ wrote (bytes : List UInt8)
  | /-- an error is returned, nothing is written -/ refused
  | fault
  deriving Repr, DecidableEq

/-- `transport_payload_write`. A negative `_len` makes `calloc` fail on a size
near `2^64`, but for `-1` where `calloc(0)` succeeds and `memcpy` runs away; the
largest `int` overflows at `_len += RSMP_EOT_LEN`, and the flux is called with a
negative length, for which it writes nothing. -/
def transportPayloadWrite (payload : List UInt8) : WriteResult :=
  let len := toInt32 payload.length
  if len < -1 then .refused
  else if len = -1 then .fault
  else if len + 1 < 2 ^ 31 then .wrote (payload.take len.toNat ++ [rsmpEot])
  else .refused

/-- The bytes on the flux after the payloads were written one after the other. -/
def sendPayloads : List (List UInt8) → List UInt8
  | [] => []
  | p :: ps =>
    match transportPayloadWrite p with
    | .wrote bs => bs ++ sendPayloads ps
    | .refused => sendPayloads ps
    | .fault => []

/-! ## The reader, read by read

`receiveFrom` is the reception task in the middle of a frame; it satisfies one
equation for each read, and the run lemmas below are inductions over the reads. -/

/-- What the reception task obtains from `es` when `buf` was already read of the
current frame. -/
def receiveFrom (lenmax : Nat) (buf : List UInt8) (es : List ReadEvent) : List (List UInt8) :=
  match fluxReadTermLoop 128 lenmax buf es with
  | none => []
  | some (t, rest) =>
    match payloadOf t with
    | .ok p => p :: receivePayloads rest
    | .errGeneric => receivePayloads rest
    | _ => []

theorem receivePayloads_eq (es : List ReadEvent) :
    receivePayloads es = receiveFrom 128 [] es := by
  rw [receivePayloads, receiveFrom]
  unfold transportPayloadRead fluxReadTermWithRealloc
  cases fluxReadTermLoop 128 128 [] es with
  | none => rfl
  | some tr =>
    obtain ⟨t, rest⟩ := tr
    simp only [Option.map_some]
    cases payloadOf t <;> rfl

@[simp] theorem receiveFrom_nil (lenmax : Nat) (buf : List UInt8) :
    receiveFrom lenmax buf [] = [] := rfl

/-- A time-out starts a new buffer: what was read of the frame is gone. -/
@[simp] theorem receiveFrom_timeout (lenmax : Nat) (buf : List UInt8) (es : List ReadEvent) :
    receiveFrom lenmax buf (.timeout :: es) = receiveFrom 128 [] es := by
  rw [← receivePayloads_eq]; rfl

@[simp] theorem receiveFrom_closed (lenmax : Nat) (buf : List UInt8) (es : List ReadEvent) :
    receiveFrom lenmax buf (.closed :: es) = [] := rfl

theorem lt_bufrealloc {n max offset : Nat} (h : n ≤ max) (ho : 0 < offset) :
    n < bufrealloc n max offset := by
  unfold bufrealloc; split <;> omega

/-- A byte fits the buffer whatever was read before: the capacity grows in time. -/
theorem receiveFrom_byte {lenmax : Nat} {buf : List UInt8} (h : buf.length ≤ lenmax) (c : UInt8)
    (es : List ReadEvent) :
    receiveFrom lenmax buf (.byte c :: es) =
      if isTerm c then buf :: receiveFrom 128 [] es
      else receiveFrom (bufrealloc buf.length lenmax 128) (buf ++ [c]) es := by
  have hlt : buf.length < bufrealloc buf.length lenmax 128 := lt_bufrealloc h (by decide)
  rw [← receivePayloads_eq]
  unfold receiveFrom
  rw [fluxReadTermLoop]
  simp only [hlt, if_true]
  by_cases hc : isTerm c = true
  · simp [hc, payloadOf]
  · simp only [hc, if_false, Bool.false_eq_true]

/-! ## Runs

The payloads that a sequence of reads gives, and what is left in the buffer. -/

/-- A read times out after the first byte of a frame and before its terminator
(`inFrame`: a first byte was read). -/
def timeoutInFrame (inFrame : Bool) : List ReadEvent → Bool
  | [] => false
  | .byte c :: es => timeoutInFrame (!isTerm c) es
  | .timeout :: es => inFrame || timeoutInFrame false es
  | .closed :: _ => false

theorem isEmpty_append_singleton (buf : List UInt8) (c : UInt8) :
    (buf ++ [c]).isEmpty = false := by
  cases buf <;> rfl

/-- **Cuts outside of the frames are harmless.** The reception task obtains the
frames of the stream when no read times out inside of one. -/
theorem receiveFrom_eq_unframeFrom {es : List ReadEvent} (hopen : .closed ∉ es) :
    ∀ (lenmax : Nat) (buf : List UInt8), buf.length ≤ lenmax →
      timeoutInFrame (!buf.isEmpty) es = false →
      receiveFrom lenmax buf es = unframeFrom isTerm buf (bytesOf es) := by
  induction es with
  | nil => intros; rfl
  | cons e es ih =>
    intro lenmax buf hbuf hcut
    have ih := ih fun h => hopen (by simp [h])
    cases e with
    | byte c =>
      rw [receiveFrom_byte hbuf, bytesOf, unframeFrom]
      by_cases hc : isTerm c = true
      · simp only [timeoutInFrame, hc, Bool.not_true] at hcut
        simp only [hc, if_true, ih 128 [] (by simp) hcut]
      · have hlt : buf.length < bufrealloc buf.length lenmax 128 := lt_bufrealloc hbuf (by decide)
        simp only [timeoutInFrame, hc] at hcut
        have hnext := ih (bufrealloc buf.length lenmax 128) (buf ++ [c])
          (by simpa using Nat.succ_le_of_lt hlt) (by simpa [isEmpty_append_singleton] using hcut)
        simp only [hc, hnext, if_false, Bool.false_eq_true]
    | timeout =>
      simp only [timeoutInFrame, Bool.or_eq_false_iff] at hcut
      have hnil : buf = [] := by simpa using hcut.1
      subst hnil
      rw [receiveFrom_timeout]
      exact ih 128 [] (by simp) hcut.2
    | closed => exact absurd (by simp) hopen

/-- Every byte read goes to one payload at most, and a time-out inside of a frame
loses at least one. -/
theorem framesLength_receiveFrom {es : List ReadEvent} :
    ∀ (lenmax : Nat) (buf : List UInt8), buf.length ≤ lenmax →
      framesLength (receiveFrom lenmax buf es) + (timeoutInFrame (!buf.isEmpty) es).toNat
        ≤ buf.length + (bytesOf es).length := by
  induction es with
  | nil => intros; simp [timeoutInFrame]
  | cons e es ih =>
    intro lenmax buf hbuf
    have hfresh := ih 128 [] (by simp)
    simp only [List.isEmpty_nil, Bool.not_true, List.length_nil, Nat.zero_add] at hfresh
    cases e with
    | byte c =>
      rw [receiveFrom_byte hbuf]
      simp only [bytesOf, timeoutInFrame, List.length_cons]
      by_cases hc : isTerm c = true
      · simp only [hc, if_true, framesLength_cons, Bool.not_true]
        omega
      · have hlt : buf.length < bufrealloc buf.length lenmax 128 := lt_bufrealloc hbuf (by decide)
        have hnext := ih (bufrealloc buf.length lenmax 128) (buf ++ [c])
          (by simpa using Nat.succ_le_of_lt hlt)
        simp only [isEmpty_append_singleton, List.length_append, List.length_singleton,
          Bool.not_false] at hnext
        simp only [hc, if_false, Bool.false_eq_true, Bool.not_false]
        omega
    | timeout =>
      rw [receiveFrom_timeout]
      simp only [bytesOf, timeoutInFrame]
      -- what was read of the frame counts for the byte that is lost
      cases buf with
      | nil => simpa using hfresh
      | cons b bs =>
        simp only [List.isEmpty_cons, Bool.not_false, Bool.true_or, Bool.toNat_true,
          List.length_cons]
        omega
    | closed => simp [timeoutInFrame]

/-! ## The sender

The frames of the payloads, one after the other. -/

/-- A payload shorter than the largest `int` is written whole, then its
terminator. -/
theorem transportPayloadWrite_of_lt {p : List UInt8} (h : p.length < 2 ^ 31 - 1) :
    transportPayloadWrite p = .wrote (frame rsmpEot p) := by
  rw [transportPayloadWrite, toInt32_of_lt (by omega)]
  simp only [Int.toNat_natCast, List.take_length, frame]
  rw [if_neg (by omega), if_neg (by omega), if_pos (by omega)]

/-- A longer one is cut, or not written. -/
theorem length_of_transportPayloadWrite {p bs : List UInt8} (h : 2 ^ 31 - 1 ≤ p.length)
    (hw : transportPayloadWrite p = .wrote bs) : bs.length < p.length + 1 := by
  rw [transportPayloadWrite] at hw
  split at hw
  · cases hw
  · split at hw
    · cases hw
    · split at hw
      · cases hw
        simp only [List.length_append, List.length_take, List.length_cons, List.length_nil]
        omega
      · cases hw

theorem sendPayloads_of_lt :
    ∀ {ps : List (List UInt8)}, (∀ p ∈ ps, p.length < 2 ^ 31 - 1) →
      sendPayloads ps = ps.flatMap (frame rsmpEot)
  | [], _ => rfl
  | p :: ps, h => by
    have hps : ∀ q ∈ ps, q.length < 2 ^ 31 - 1 := fun q hq => h q (by simp [hq])
    rw [sendPayloads, transportPayloadWrite_of_lt (h p (by simp)), List.flatMap_cons]
    simp only [sendPayloads_of_lt hps]

/-- One payload takes at most its length and a terminator, whatever happens to it. -/
theorem length_sendPayloads_cons (p : List UInt8) (ps : List (List UInt8)) :
    (sendPayloads (p :: ps)).length ≤ p.length + 1 + (sendPayloads ps).length ∧
      (2 ^ 31 - 1 ≤ p.length →
        (sendPayloads (p :: ps)).length < p.length + 1 + (sendPayloads ps).length) := by
  by_cases hp : p.length < 2 ^ 31 - 1
  · rw [sendPayloads, transportPayloadWrite_of_lt hp]
    simp
    omega
  · have hle : 2 ^ 31 - 1 ≤ p.length := by omega
    rw [sendPayloads]
    split
    · next bs hw =>
      have := length_of_transportPayloadWrite hle hw
      simp only [List.length_append]
      omega
    · omega
    · simp only [List.length_nil]
      omega

theorem length_sendPayloads_le (ps : List (List UInt8)) :
    (sendPayloads ps).length ≤ framesLength ps := by
  induction ps with
  | nil => simp [sendPayloads]
  | cons p ps ih =>
    have := (length_sendPayloads_cons p ps).1
    rw [framesLength_cons]
    omega

/-- A payload that does not fit an `int` leaves the stream short. -/
theorem length_sendPayloads_lt {ps : List (List UInt8)}
    (h : ∃ p ∈ ps, 2 ^ 31 - 1 ≤ p.length) : (sendPayloads ps).length < framesLength ps := by
  induction ps with
  | nil => simp at h
  | cons p ps ih =>
    have hcons := length_sendPayloads_cons p ps
    have hle := length_sendPayloads_le ps
    rw [framesLength_cons]
    obtain ⟨q, hq, hlong⟩ := h
    rcases List.mem_cons.mp hq with rfl | hq
    · have := hcons.2 hlong
      omega
    · have := ih ⟨q, hq, hlong⟩
      omega

/-! ## Framing, end to end

Both ends together. -/

/-- **Framing.** For payloads without terminator nor NUL, and for every cut of the
stream into reads, the reception task obtains the payloads sent, in order, exactly
when no read times out inside of a frame and every length fits an `int` with its
terminator. -/
theorem received_iff {ps : List (List UInt8)} (hps : ∀ p ∈ ps, ∀ c ∈ p, c ≠ rsmpEot ∧ c ≠ 0)
    {es : List ReadEvent} (hopen : .closed ∉ es) (hes : bytesOf es = sendPayloads ps) :
    receivePayloads es = ps ↔
      timeoutInFrame false es = false ∧ ∀ p ∈ ps, p.length < 2 ^ 31 - 1 := by
  rw [receivePayloads_eq]
  constructor
  · intro hrec
    have hcount : _ ≤ [].length + (bytesOf es).length := framesLength_receiveFrom 128 [] (by simp)
    simp only [hrec, hes, List.isEmpty_nil, Bool.not_true, List.length_nil, Nat.zero_add] at hcount
    have hle := length_sendPayloads_le ps
    refine ⟨?_, ?_⟩
    · cases hcut : timeoutInFrame false es with
      | false => rfl
      | true => simp only [hcut, Bool.toNat_true] at hcount; omega
    · intro p hp
      refine Nat.lt_of_not_le fun hlong => ?_
      have := length_sendPayloads_lt ⟨p, hp, hlong⟩
      omega
  · intro ⟨hcut, hlen⟩
    have hplain : ∀ p ∈ ps, ∀ c ∈ p, isTerm c = false := by
      intro p hp c hc
      simp [isTerm, hps p hp c hc]
    rw [receiveFrom_eq_unframeFrom hopen 128 [] (by simp) (by simpa using hcut), hes,
      sendPayloads_of_lt hlen]
    exact unframe_frames isTerm (by decide) hplain

/-- A frame of two bytes, a time-out, a frame of one byte. -/
theorem received_two_frames :
    receivePayloads [.byte 0x7B, .byte 0x7D, .byte 0x0C, .timeout, .byte 0x7B, .byte 0x0C] =
      [[0x7B, 0x7D], [0x7B]] := by
  have hps : ∀ p ∈ [[0x7B, 0x7D], [0x7B]], ∀ c ∈ p, c ≠ rsmpEot ∧ c ≠ 0 := by
    simp [rsmpEot]
  exact (received_iff hps (by decide) (by decide)).mpr ⟨by decide, by decide⟩

/-- The payload `{}`, when a read times out between its two bytes: the receiver
obtains `}`. -/
theorem received_timeout_inside :
    ¬ ∀ (ps : List (List UInt8)) (es : List ReadEvent),
        (∀ p ∈ ps, p ≠ [] ∧ ∀ c ∈ p, c ≠ rsmpEot ∧ c ≠ 0) → .closed ∉ es →
        bytesOf es = sendPayloads ps → receivePayloads es = ps := by
  intro h
  have hsent := h [[0x7B, 0x7D]] [.byte 0x7B, .timeout, .byte 0x7D, .byte 0x0C]
    (by simp [rsmpEot])
    (by decide) (by decide)
  have hrun : receivePayloads [.byte 0x7B, .timeout, .byte 0x7D, .byte 0x0C] = [[0x7D]] := by
    rw [receivePayloads_eq, receiveFrom_byte (by simp), if_neg (by decide), receiveFrom_timeout,
      receiveFrom_byte (by simp), if_neg (by decide), receiveFrom_byte (by decide),
      if_pos (by decide)]
    rfl
  rw [hrun] at hsent
  exact absurd hsent (by decide)

end RsmpGateway.Transport
