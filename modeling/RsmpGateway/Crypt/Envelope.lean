import RsmpGateway.Crypt.Aes
import RsmpGateway.Crypt.Base64Memory

/-!
# Encryption in memory

`encrypt_aes` and `decrypt_aes` with their blocks, and with the lengths that they compute: a
difference of `size_t` wraps around, and `EVP_EncryptUpdate` and `EVP_DecryptUpdate` take an
`int`. The library is a parameter (`EvpCalls`). What it does with a negative length is left to
it, and so is what it does with a tag for a cipher that has none.

* `decryptSafe_iff`: for which texts a decryption stays in its data. The text has to be decoded to
  a vector at least; where the tag is cut short, the length wraps around, and it is the allocation
  or the library that stops it, or does not.
* `roundTrips_iff`: what is encrypted is decrypted to the same, up to the length that an `int`
  counts, where the library accepts the tag that is asked of it.
* `decryptAes_refines`: in these cases it is the function on bytes of `Crypt/Aes.lean`, on which
  the coder is built.
-/

namespace RsmpGateway.Crypt

open RsmpGateway.Lib

namespace Cipher

/-- A key of the cipher. -/
abbrev Key (cipher : Cipher) := { key : Bytes // key.length = cipher.keyLen }

/-- What `RAND_bytes` draws. -/
abbrev Vector (cipher : Cipher) := { iv : Bytes // iv.length = cipher.ivSize }

end Cipher

/-- The calls of the library, which refuses a negative length or takes it for that of as many
bytes as a `size_t` can count. -/
structure EvpCalls where
  evp : Evp
  refusesNegative : Bool

namespace Memory

open Block

variable (A : Allocator) (V : EvpCalls) (cipher : Cipher)

/-- The bytes that a call of `EVP_EncryptUpdate` or `EVP_DecryptUpdate` takes. -/
def updateLength (n : Nat) : Run Nat :=
  if toInt32 n < 0 then
    if V.refusesNegative then .error .error else .error .read
  else .ok (toInt32 n).toNat

/-! ## Encryption

The block that is encoded is laid out with the vector first, then the tag where there is one,
then the text. -/

/-- `EVP_MAX_BLOCK_LENGTH` -/
def evpMaxBlockLength : Nat := 32

/-- The encryption in `encrypt_aes`: the encrypted bytes and the tag. -/
def cipherText (iv key data : Bytes) : Run (Bytes × Bytes) := do
  let ciphertext ← Run.orError (A.malloc (sizeT (data.length + evpMaxBlockLength)))
  let n ← updateLength V data.length
  let (text, tag) ← Run.orError (V.evp.encrypt cipher key iv (data.take n))
  let _ ← ciphertext.paste 0 text
  pure (text, tag)

/-- The tag in `encrypt_aes`, for the cipher that has one. -/
def putTag (tag : Bytes) (data : Block) : Run Block :=
  if cipher.gcm then do
    let data ← Run.orError (A.realloc data (data.length + tagSize))
    data.paste cipher.ivSize tag
  else pure data

/-- The block in `encrypt_aes` that is encoded: the vector, the tag and the encrypted bytes. -/
def layOut (iv tag text : Bytes) : Run Block := do
  let data ← Run.orError (A.malloc cipher.ivSize)
  let data ← data.paste 0 iv
  let data ← putTag A cipher tag data
  let data ← Run.orError (A.realloc data (data.length + text.length))
  data.paste (data.length - text.length) text

/-- `encrypt_aes`, with the vector that `RAND_bytes` draws. -/
def encryptAes (iv : cipher.Vector) (key data : Bytes) : Run Block :=
  if data = [] then .error .abort
  else do
    let vector ← Run.orAbort (A.malloc cipher.ivSize)
    let _ ← vector.paste 0 iv
    let (text, tag) ← cipherText A V cipher iv key data
    let data ← layOut A cipher iv tag text
    base64Encode A data data.length

/-! ## Decryption

The result of the base64 decoding is not tested: after a failure the length is what it was set
to, and the data are none. -/

/-- `data_len` once the vector and the tag are taken off. -/
def textLength (dataLen : Nat) : Nat :=
  if cipher.gcm then sizeSub (sizeSub dataLen cipher.ivSize) tagSize
  else sizeSub dataLen cipher.ivSize

/-- What `decrypt_aes` does with the decoded bytes. -/
def decryptData (key : Bytes) (data : Block) (dataLen : Nat) : Run (Block × Nat) := do
  let iv ← data.slice 0 cipher.ivSize
  let dataLen := textLength cipher dataLen
  let out ← Run.orError (A.malloc (sizeT (dataLen + 1)))
  let n ← updateLength V dataLen
  let text ← data.slice (headerSize cipher) n
  if V.evp.setTag cipher then do
    let tag ← data.slice cipher.ivSize (headerSize cipher - cipher.ivSize)
    let plain ← Run.orError (V.evp.decrypt cipher key iv tag text)
    let out ← out.paste 0 plain
    let out ← out.store plain.length 0
    pure (out, plain.length)
  else .error .error

/-- `decrypt_aes`: the text with its NUL, and its length. -/
def decryptAes (key : Bytes) (inB64 : CString) : Run (Block × Nat) :=
  match base64Decode A inB64 with
  | .ok (data, dataLen) => decryptData A V cipher key data dataLen
  | .error .error => .error .undefined -- `data` is left without a value, which `if (!data)` uses
  | .error stop => .error stop

/-! ## The lengths of decryption

Two subtractions of `size_t`, in 64 bits, and a sum for the NUL. -/

variable {A : Allocator} {V : EvpCalls} {cipher : Cipher}

theorem ivSize_le_headerSize (cipher : Cipher) : cipher.ivSize ≤ headerSize cipher :=
  Nat.le_add_right _ _

/-- No difference of lengths wraps around where the vector and the tag are there. -/
theorem textLength_eq {n : Nat} (hn : n < 2 ^ 63) (h : headerSize cipher ≤ n) :
    textLength cipher n = n - headerSize cipher := by
  rw [headerSize] at h
  rw [textLength, headerSize]
  split
  · next hgcm =>
    rw [if_pos hgcm] at h
    rw [sizeSub_of_le (n := n) (by omega) (by omega), sizeSub_of_le (by omega) (by omega)]
    omega
  · next hgcm =>
    rw [if_neg hgcm] at h
    rw [sizeSub_of_le (by omega) (by omega), Nat.add_zero]

/-- Where the tag is not all there, the length is too large for any block; but where one byte of it
is missing, this is -1, and an empty block is asked for. -/
theorem textLength_short {n : Nat} (h : cipher.ivSize ≤ n) (hshort : n < headerSize cipher) :
    (n + 1 = headerSize cipher ∧ toInt32 (textLength cipher n) < 0 ∧
        sizeT (textLength cipher n + 1) = 0) ∨
      (n + 1 ≠ headerSize cipher ∧ 2 ^ 63 ≤ sizeT (textLength cipher n + 1)) := by
  have hheader : headerSize cipher = 28 ∧ cipher.ivSize = 12 ∧ cipher.gcm = true := by
    cases cipher with
    | aes256Gcm => decide
    | aes128Ctr => exact absurd hshort (Nat.not_lt.mpr h)
    | aes256Ctr => exact absurd hshort (Nat.not_lt.mpr h)
  obtain ⟨hheader, hvector, hgcm⟩ := hheader
  have htag : tagSize = 16 := rfl
  have hlen : textLength cipher n = 2 ^ 64 + n - 28 := by
    rw [textLength, if_pos hgcm, hvector, htag, sizeSub_of_le (n := n) (by omega) (by omega),
      sizeSub]
    omega
  rw [hlen]
  by_cases hlast : n = 27
  · left
    refine ⟨by omega, ?_, ?_⟩
    · rw [hlast, toInt32, BitVec.toInt_ofNat', Int.bmod]
      omega
    · rw [hlast, sizeT]
      omega
  · right
    refine ⟨by omega, ?_⟩
    rw [sizeT]
    omega

/-! ## Short and malformed texts

The condition names the two lengths that go wrong: no vector, and a tag with one byte missing. -/

/-- A text is decrypted, or refused, within its data. -/
structure DecryptSafe (A : Allocator) (V : EvpCalls) (cipher : Cipher) (key : Bytes)
    (inB64 : CString) : Prop where
  undecoded : (∀ r, base64Decode A inB64 ≠ .ok r) →
    decryptAes A V cipher key inB64 = .error .error
  short : ∀ r, base64Decode A inB64 = .ok r → r.2 < headerSize cipher →
    decryptAes A V cipher key inB64 = .error .error
  lengths : ∀ r, base64Decode A inB64 = .ok r → headerSize cipher ≤ r.2 →
    headerSize cipher + textLength cipher r.2 = r.2
  reads : decryptAes A V cipher key inB64 ≠ .error .read
  defined : decryptAes A V cipher key inB64 ≠ .error .undefined

/-- The texts that are decoded to a vector at least, and whose encrypted bytes have a length that
no block has, or that the library takes or refuses. -/
structure Decryptable (A : Allocator) (V : EvpCalls) (cipher : Cipher) (inB64 : CString) :
    Prop where
  nonEmpty : inB64.val ≠ []
  groups : inB64.strlen % 4 = 0
  granted : A.grants (decodedSize inB64) = true
  vector : cipher.ivSize ≤ decodedSize inB64
  text : A.grants (sizeT (textLength cipher (decodedSize inB64) + 1)) = false ∨
    V.refusesNegative = true ∨ 0 ≤ toInt32 (textLength cipher (decodedSize inB64))

variable {key x : Bytes} {s : CString}

/-! ### Data by their length

From what is decoded of the text to what `decrypt_aes` does with it: too short for a vector, too
short for a tag by one byte or by more, or long enough. -/

theorem decryptAes_of_ok (h : base64Decode A s = .ok (ofBytes x, x.length)) :
    decryptAes A V cipher key s = decryptData A V cipher key (ofBytes x) x.length := by
  rw [decryptAes, h]

/-- What cannot be decoded is not reported. -/
theorem decryptAes_of_error (h : ∀ r, base64Decode A s ≠ .ok r) :
    decryptAes A V cipher key s = .error .undefined ∨
      decryptAes A V cipher key s = .error .read := by
  rcases base64Decode_cases A s with ⟨r, hr⟩ | herror | ⟨-, hread⟩
  · exact absurd hr (h r)
  · left
    rw [decryptAes, herror]
  · right
    rw [decryptAes, hread]

theorem decryptData_short_vector (h : x.length < cipher.ivSize) :
    decryptData A V cipher key (ofBytes x) x.length = .error .read := by
  rw [decryptData, slice_eq_read (by simpa using h)]
  rfl

theorem decryptData_refused (h : cipher.ivSize ≤ x.length)
    (hA : A.grants (sizeT (textLength cipher x.length + 1)) = false) :
    decryptData A V cipher key (ofBytes x) x.length = .error .error := by
  rw [decryptData, slice_ofBytes (by omega), Run.ok_bind]
  simp only [Allocator.malloc, hA]
  rfl

theorem decryptData_negative (h : cipher.ivSize ≤ x.length)
    (hA : A.grants (sizeT (textLength cipher x.length + 1)) = true)
    (hneg : toInt32 (textLength cipher x.length) < 0) :
    decryptData A V cipher key (ofBytes x) x.length =
      if V.refusesNegative then .error .error else .error .read := by
  rw [decryptData, slice_ofBytes (by omega), Run.ok_bind]
  simp only [Allocator.malloc, hA, if_true, Run.orError_some, Run.ok_bind, updateLength, hneg]
  split <;> rfl

/-- The three parts of the data, and what the library makes of them. -/
theorem decryptData_eq (h : headerSize cipher ≤ x.length)
    (hA : A.grants (sizeT (textLength cipher x.length + 1)) = true)
    (hpos : 0 ≤ toInt32 (textLength cipher x.length))
    (hlen : headerSize cipher + textLength cipher x.length = x.length) :
    decryptData A V cipher key (ofBytes x) x.length =
      if V.evp.setTag cipher then do
        let plain ← Run.orError (V.evp.decrypt cipher key (x.take cipher.ivSize)
          ((x.drop cipher.ivSize).take (headerSize cipher - cipher.ivSize))
          ((x.drop (headerSize cipher)).take (toInt32 (textLength cipher x.length)).toNat))
        let out ← paste (List.replicate (sizeT (textLength cipher x.length + 1)) none) 0 plain
        let out ← out.store plain.length 0
        pure (out, plain.length)
      else .error .error := by
  have hvector := ivSize_le_headerSize cipher
  obtain ⟨hcut, -⟩ := toInt32_toNat_le (textLength cipher x.length)
  rw [decryptData, slice_ofBytes (by omega), Run.ok_bind]
  simp only [Allocator.malloc, hA, if_true, Run.orError_some, Run.ok_bind, updateLength,
    if_neg (not_lt.mpr hpos)]
  rw [slice_ofBytes (by omega), slice_ofBytes (by omega)]
  rfl

/-- Whatever the library makes of them, the parts are in the data. -/
theorem decryptData_cases (h : headerSize cipher ≤ x.length)
    (hA : A.grants (sizeT (textLength cipher x.length + 1)) = true)
    (hpos : 0 ≤ toInt32 (textLength cipher x.length))
    (hlen : headerSize cipher + textLength cipher x.length = x.length) :
    (∃ r, decryptData A V cipher key (ofBytes x) x.length = .ok r) ∨
      decryptData A V cipher key (ofBytes x) x.length = .error .error ∨
      decryptData A V cipher key (ofBytes x) x.length = .error .write := by
  rw [decryptData_eq h hA hpos hlen]
  split
  · cases V.evp.decrypt cipher key (x.take cipher.ivSize)
      ((x.drop cipher.ivSize).take (headerSize cipher - cipher.ivSize))
      ((x.drop (headerSize cipher)).take (toInt32 (textLength cipher x.length)).toNat) with
    | none => exact .inr (.inl rfl)
    | some plain =>
      rw [Run.orError_some, Run.ok_bind]
      rcases paste_cases (List.replicate (sizeT (textLength cipher x.length + 1)) none) 0 plain with
        ⟨out, hout⟩ | hout
      · rw [hout, Run.ok_bind]
        rcases store_cases out plain.length 0 with ⟨out', hout'⟩ | hout'
        · rw [hout']
          exact .inl ⟨_, rfl⟩
        · rw [hout']
          exact .inr (.inr rfl)
      · rw [hout]
        exact .inr (.inr rfl)
  · exact .inr (.inl rfl)

/-- **Decryption is safe for the texts that are decoded to a vector at least**, unless the library
takes a negative length. -/
theorem decryptSafe_iff (A : Allocator) (V : EvpCalls) (cipher : Cipher) (key : Bytes)
    (inB64 : CString) :
    DecryptSafe A V cipher key inB64 ↔ Decryptable A V cipher inB64 := by
  constructor
  · intro h
    have hdecoded : ∃ r, base64Decode A inB64 = .ok r := by
      by_contra hnot
      have hnot : ∀ r, base64Decode A inB64 ≠ .ok r := not_exists.mp hnot
      have herror := h.undecoded hnot
      have hstop : decryptAes A V cipher key inB64 = .error .undefined ∨
          decryptAes A V cipher key inB64 = .error .read := decryptAes_of_error hnot
      rcases hstop with hu | hr
      · exact h.defined hu
      · exact h.reads hr
    obtain ⟨hne, hmod, hA⟩ := base64Decode_ok_iff.mp hdecoded
    obtain ⟨x, hx, hdecode⟩ := base64Decode_size hne hmod hA
    have hdata : decryptAes A V cipher key inB64 = _ := decryptAes_of_ok hdecode
    have hvector : cipher.ivSize ≤ x.length := by
      by_contra hlt
      exact h.reads (hdata.trans (decryptData_short_vector (not_le.mp hlt)))
    refine ⟨hne, hmod, hA, hx ▸ hvector, ?_⟩
    rw [← hx]
    by_contra htext
    obtain ⟨hgranted, hrefuses, hneg⟩ : A.grants (sizeT (textLength cipher x.length + 1)) = true ∧
        ¬ V.refusesNegative = true ∧ toInt32 (textLength cipher x.length) < 0 := by
      simpa [not_or] using htext
    apply h.reads
    rw [hdata, decryptData_negative hvector hgranted hneg, if_neg hrefuses]
  · intro h
    obtain ⟨x, hx, hdecode⟩ := base64Decode_size h.nonEmpty h.groups h.granted
    have hdata : decryptAes A V cipher key inB64 = _ := decryptAes_of_ok hdecode
    have hvector : cipher.ivSize ≤ x.length := hx ▸ h.vector
    have hbound : x.length < 2 ^ 63 := hx ▸ A.bounded h.granted
    have htext := h.text
    rw [← hx] at htext
    -- a block that is refused and a length that is are reported
    have hreported : A.grants (sizeT (textLength cipher x.length + 1)) = false ∨
        toInt32 (textLength cipher x.length) < 0 →
          decryptAes A V cipher key inB64 = .error .error := by
      rintro hrefused
      rw [hdata]
      cases hgranted : A.grants (sizeT (textLength cipher x.length + 1)) with
      | false => exact decryptData_refused hvector hgranted
      | true =>
        rw [hgranted] at htext hrefused
        have hneg := hrefused.resolve_left nofun
        have hrefuses := (htext.resolve_left nofun).resolve_right (not_le.mpr hneg)
        rw [decryptData_negative hvector hgranted hneg, if_pos hrefuses]
    have hshort : x.length < headerSize cipher →
        decryptAes A V cipher key inB64 = .error .error := by
      intro hlt
      apply hreported
      rcases textLength_short hvector hlt with ⟨-, hneg, -⟩ | ⟨-, hhuge⟩
      · exact .inr hneg
      · left
        by_contra hgranted
        have := A.bounded (eq_true_of_ne_false hgranted)
        omega
    have hcases : (∃ r, decryptAes A V cipher key inB64 = .ok r) ∨
        decryptAes A V cipher key inB64 = .error .error ∨
        decryptAes A V cipher key inB64 = .error .write := by
      by_cases hrefused : A.grants (sizeT (textLength cipher x.length + 1)) = false ∨
          toInt32 (textLength cipher x.length) < 0
      · exact .inr (.inl (hreported hrefused))
      · obtain ⟨hgranted, hpos⟩ := not_or.mp hrefused
        rcases lt_or_ge x.length (headerSize cipher) with hlt | hlong
        · exact .inr (.inl (hshort hlt))
        · rw [hdata]
          apply decryptData_cases hlong (eq_true_of_ne_false hgranted) (not_lt.mp hpos)
          rw [textLength_eq hbound hlong]
          omega
    refine ⟨fun hnot => absurd hdecode (hnot _), ?_, ?_, ?_, ?_⟩
    · intro r hr hlt
      rw [hdecode] at hr
      cases hr
      exact hshort hlt
    · intro r hr hlong
      rw [hdecode] at hr
      cases hr
      show headerSize cipher + textLength cipher x.length = x.length
      have hlong : headerSize cipher ≤ x.length := hlong
      rw [textLength_eq hbound hlong]
      omega
    · intro hread
      rw [hread] at hcases
      rcases hcases with ⟨r, hr⟩ | hr | hr
      · cases hr
      · cases hr
      · cases hr
    · intro hundefined
      rw [hundefined] at hcases
      rcases hcases with ⟨r, hr⟩ | hr | hr
      · cases hr
      · cases hr
      · cases hr

/-! ## What is sealed is opened

The parts are found where they were written, and the library inverts what it did. -/

/-- What the library is trusted with: decryption inverts encryption, which keeps the length, and
the tag of a cipher that has one is accepted. -/
structure Inverts (V : EvpCalls) (cipher : Cipher) : Prop where
  decrypt_encrypt : ∀ (key : cipher.Key) (iv : cipher.Vector) {data : Bytes},
    data.length < 2 ^ 31 → ∃ text tag, V.evp.encrypt cipher key iv data = some (text, tag) ∧
      text.length = data.length ∧ tag.length = tagSize ∧
        V.evp.decrypt cipher key iv (sentTag cipher tag) text = some data
  setTag : cipher.gcm = true → V.evp.setTag cipher = true

variable {iv : cipher.Vector} {tag text plain data : Bytes}

/-! ### The three parts

They are laid out at offsets that are computed from the lengths, and copied one after the other;
the decoder takes them from the same offsets. -/

theorem putTag_eq (hA : ∀ n < 2 ^ 35, A.grants n = true) (htag : tag.length = tagSize) :
    putTag A cipher tag (ofBytes iv.val) = .ok (ofBytes (iv.val ++ sentTag cipher tag)) := by
  have hiv : iv.val.length = cipher.ivSize := iv.2
  have hsize : cipher.ivSize ≤ 16 := by cases cipher <;> decide
  have hsixteen : tagSize = 16 := rfl
  rw [putTag, sentTag]
  split
  · have hgranted : A.grants ((ofBytes iv.val).length + tagSize) = true := by
      apply hA
      rw [length_ofBytes]
      omega
    rw [Allocator.realloc_eq hgranted (Nat.le_add_right _ _), Run.orError_some, Run.ok_bind,
      paste_end (by rw [length_ofBytes, hiv]) (by simp [htag]), ofBytes_append]
  · rw [List.append_nil]
    rfl

/-- The three parts are encoded one after the other. -/
theorem seal_eq (hA : ∀ n < 2 ^ 35, A.grants n = true) (htag : tag.length = tagSize)
    (htext : text.length < 2 ^ 31) :
    ∃ rest, (do let data ← layOut A cipher iv tag text; base64Encode A data data.length) =
      .ok (ofBytes (Crypt.base64Encode (iv.val ++ sentTag cipher tag ++ text)) ++
        some 0 :: rest) := by
  have hiv : iv.val.length = cipher.ivSize := iv.2
  have hsize : cipher.ivSize ≤ 16 := by cases cipher <;> decide
  have hsent : (sentTag cipher tag).length ≤ 16 := by
    rw [sentTag]
    split
    · exact htag.le
    · exact Nat.zero_le _
  have hlen : (iv.val ++ sentTag cipher tag).length ≤ 32 := by
    rw [List.length_append]
    omega
  have hgranted : A.grants ((ofBytes (iv.val ++ sentTag cipher tag)).length + text.length) =
      true := by
    apply hA
    rw [length_ofBytes]
    omega
  have hlayOut : layOut A cipher iv tag text =
      .ok (ofBytes (iv.val ++ sentTag cipher tag ++ text)) := by
    rw [layOut, Allocator.malloc_eq (hA _ (by omega)), Run.orError_some, Run.ok_bind,
      paste_whole (by rw [List.length_replicate, hiv]), Run.ok_bind, putTag_eq hA htag, Run.ok_bind,
      Allocator.realloc_eq hgranted (Nat.le_add_right _ _), Run.orError_some, Run.ok_bind,
      paste_end (by simp; omega) (by simp), ofBytes_append _ text]
  have htotal : (iv.val ++ sentTag cipher tag ++ text).length < 2 ^ 31 + 32 := by
    rw [List.length_append]
    omega
  obtain ⟨rest, hencoded⟩ := base64Encode_granted (A := A)
    (x := iv.val ++ sentTag cipher tag ++ text) (by omega)
    (hA _ (by rw [encodedBytes]; omega))
  refine ⟨rest, ?_⟩
  rw [hlayOut, Run.ok_bind, length_ofBytes, hencoded]

/-- The parts are found where they were written. -/
theorem decryptAes_sealed (hA : ∀ n < 2 ^ 35, A.grants n = true) (htag : tag.length = tagSize)
    (htext : text.length < 2 ^ 31)
    (hs : s.val = Crypt.base64Encode (iv.val ++ sentTag cipher tag ++ text))
    (hdec : V.evp.decrypt cipher key iv (sentTag cipher tag) text = some plain)
    (hplain : plain.length = text.length) :
    decryptAes A V cipher key s =
      if V.evp.setTag cipher then .ok (ofBytes plain ++ [some 0], plain.length)
      else .error .error := by
  have hiv : iv.val.length = cipher.ivSize := iv.2
  have hsent : (sentTag cipher tag).length = headerSize cipher - cipher.ivSize :=
    length_sentTag htag
  have hvector := ivSize_le_headerSize cipher
  have hsmall : 0 < cipher.ivSize ∧ headerSize cipher ≤ 28 := by cases cipher <;> decide
  -- where the parts stand
  have hheader : (iv.val ++ sentTag cipher tag).length = headerSize cipher := by
    rw [List.length_append, hiv, hsent]
    omega
  have htotal : (iv.val ++ sentTag cipher tag ++ text).length =
      headerSize cipher + text.length := by
    rw [List.length_append, hheader]
  have hne : s.val ≠ [] := by
    intro h
    have hlen := length_base64Encode (iv.val ++ sentTag cipher tag ++ text)
    rw [← hs, h, htotal, List.length_nil] at hlen
    omega
  have hdecode : base64Decode A s = .ok (ofBytes (iv.val ++ sentTag cipher tag ++ text),
      (iv.val ++ sentTag cipher tag ++ text).length) := by
    have h := base64Decode_base64Encode (iv.val ++ sentTag cipher tag ++ text)
    rw [← hs] at h
    rw [base64Decode_of_some hne h, if_pos (hA _ (by omega))]
  have hrest : textLength cipher (iv.val ++ sentTag cipher tag ++ text).length = text.length := by
    rw [textLength_eq (by omega) (by omega), htotal]
    omega
  -- no length wraps around
  have hsize : sizeT (text.length + 1) = text.length + 1 := sizeT_of_lt (by omega)
  have hint : toInt32 text.length = text.length := toInt32_of_lt htext
  -- what is cut out is what was put together
  have hdrop : (iv.val ++ sentTag cipher tag ++ text).drop (headerSize cipher) = text := by
    rw [← hheader, List.drop_left]
  have htake : (iv.val ++ sentTag cipher tag ++ text).take cipher.ivSize = iv.val := by
    rw [List.append_assoc, List.take_left' hiv]
  have htag' : ((iv.val ++ sentTag cipher tag ++ text).drop cipher.ivSize).take
      (headerSize cipher - cipher.ivSize) = sentTag cipher tag := by
    rw [List.append_assoc, List.drop_left' hiv, List.take_left' hsent]
  rw [decryptAes_of_ok hdecode, decryptData_eq (by omega)
    (by rw [hrest, hsize]; exact hA _ (by omega)) (by rw [hrest, hint]; omega)
    (by rw [hrest, htotal])]
  rw [hrest, hint, hdrop, htake, htag', Int.toNat_natCast, List.take_length, hdec, hsize]
  split
  · rw [Run.orError_some, Run.ok_bind, List.replicate_succ',
      paste_start (by rw [List.length_replicate, hplain]), Run.ok_bind, ← length_ofBytes plain,
      store_append_zero, store_cons_zero]
    rfl
  · rfl

/-- What is encrypted is decrypted to the same text and its length. -/
def RoundTrips (A : Allocator) (V : EvpCalls) (cipher : Cipher) (iv : cipher.Vector)
    (key data : Bytes) : Prop :=
  ∃ encoded text, encryptAes A V cipher iv key data = .ok encoded ∧ encoded.string = .ok text ∧
    decryptAes A V cipher key text = .ok (ofBytes data ++ [some 0], data.length)

/-- **Round trip of the envelope**, in each mode: what an `int` can count is found again, where the
library accepts a tag for the cipher. -/
theorem roundTrips_iff {A : Allocator} {V : EvpCalls} {cipher : Cipher} (hV : Inverts V cipher)
    (hA : ∀ n < 2 ^ 35, A.grants n = true) (key : cipher.Key) (iv : cipher.Vector) {data : Bytes}
    (hne : data ≠ []) :
    RoundTrips A V cipher iv key data ↔
      data.length < 2 ^ 31 ∧ (cipher.gcm = true ∨ V.evp.setTag cipher = true) := by
  have hsize : cipher.ivSize ≤ 16 := by cases cipher <;> decide
  have hvector : A.malloc cipher.ivSize = some (List.replicate cipher.ivSize none) :=
    Allocator.malloc_eq (hA _ (by omega))
  have hpaste : paste (List.replicate cipher.ivSize none) 0 iv.val = .ok (ofBytes iv.val) :=
    paste_whole (by rw [List.length_replicate, iv.2])
  constructor
  · rintro ⟨encoded, s, henc, hs, hdec⟩
    rw [encryptAes, if_neg hne, hvector, Run.orAbort_some, Run.ok_bind, hpaste, Run.ok_bind] at henc
    obtain ⟨⟨text, tag⟩, hcipher, hseal⟩ := Except.bind_eq_ok.mp henc
    -- the library was given what is left of the length as an `int`
    obtain ⟨block, -, hcipher⟩ := Except.bind_eq_ok.mp hcipher
    obtain ⟨n, hn, hcipher⟩ := Except.bind_eq_ok.mp hcipher
    obtain rfl : (toInt32 data.length).toNat = n := by
      rw [updateLength] at hn
      split at hn
      · split at hn
        · cases hn
        · cases hn
      · exact Except.ok.inj hn
    obtain ⟨hle, hlt⟩ := toInt32_toNat_le data.length
    have htake : (data.take (toInt32 data.length).toNat).length = (toInt32 data.length).toNat := by
      rw [List.length_take]
      exact Nat.min_eq_left hle
    have hcut : (data.take (toInt32 data.length).toNat).length < 2 ^ 31 := by omega
    obtain ⟨text', tag', henc', htext, htag, hopen⟩ := hV.decrypt_encrypt key iv hcut
    rw [henc', Run.orError_some, Run.ok_bind] at hcipher
    obtain ⟨_, -, hcipher⟩ := Except.bind_eq_ok.mp hcipher
    obtain ⟨rfl, rfl⟩ : text' = text ∧ tag' = tag := by
      cases hcipher
      exact ⟨rfl, rfl⟩
    obtain ⟨rest, hencoded⟩ := @seal_eq A cipher iv tag' text' hA htag (by omega)
    obtain rfl := Except.ok.inj (hencoded.symm.trans hseal)
    have hval : s.val = Crypt.base64Encode (iv.val ++ sentTag cipher tag' ++ text') := by
      rw [string_ofBytes ⟨_, nul_not_mem_base64Encode _⟩] at hs
      rw [← Except.ok.inj hs]
    rw [decryptAes_sealed hA htag (by omega) hval hopen htext.symm] at hdec
    split at hdec
    · next htag' =>
      have hlen : (data.take (toInt32 data.length).toNat).length = data.length :=
        (Prod.mk.inj (Except.ok.inj hdec)).2
      exact ⟨by omega, .inr htag'⟩
    · cases hdec
  · rintro ⟨hlen, htag'⟩
    have haccepted : V.evp.setTag cipher = true := htag'.elim hV.setTag id
    obtain ⟨text, tag, henc, htext, htag, hopen⟩ := hV.decrypt_encrypt key iv hlen
    obtain ⟨rest, hencoded⟩ := @seal_eq A cipher iv tag text hA htag (by omega)
    have hint : toInt32 data.length = data.length := toInt32_of_lt hlen
    have hupdate : updateLength V data.length = .ok data.length := by
      rw [updateLength, hint, if_neg (by omega), Int.toNat_natCast]
    have hblock : A.malloc (sizeT (data.length + evpMaxBlockLength)) =
        some (List.replicate (data.length + evpMaxBlockLength) none) := by
      have hsmall : evpMaxBlockLength = 32 := rfl
      rw [sizeT_of_lt (by omega), Allocator.malloc_eq (hA _ (by omega))]
    have hwritten : ∃ b, paste (List.replicate (data.length + evpMaxBlockLength) none) 0 text =
        .ok b := by
      rw [paste, if_pos (by rw [List.length_replicate]; omega)]
      exact ⟨_, rfl⟩
    obtain ⟨b, hb⟩ := hwritten
    have hcipher : cipherText A V cipher iv key data = .ok (text, tag) := by
      rw [cipherText, hblock, Run.orError_some, Run.ok_bind, hupdate, Run.ok_bind,
        List.take_length, henc, Run.orError_some, Run.ok_bind]
      dsimp only
      rw [hb]
      rfl
    refine ⟨_, ⟨_, nul_not_mem_base64Encode (iv.val ++ sentTag cipher tag ++ text)⟩, ?_,
      string_ofBytes _ rest, ?_⟩
    · rw [encryptAes, if_neg hne, hvector, Run.orAbort_some, Run.ok_bind, hpaste, Run.ok_bind,
        hcipher, Run.ok_bind]
      exact hencoded
    · rw [decryptAes_sealed hA htag (by omega) rfl hopen htext.symm, if_pos haccepted]

/-! ## The functions on bytes

The functions without memory are what these come to, so that nothing has to be said of blocks
further up. -/

/-- **The decryption of texts that an `int` can count is that of bytes**, with the memory it takes
and a library that does not refuse a negative length. -/
theorem decryptAes_refines (hA : ∀ n < 2 ^ 35, A.grants n = true)
    (hV : V.refusesNegative = false) (hs : s.strlen < 2 ^ 31)
    (hlen : ∀ {iv tag text plain}, V.evp.decrypt cipher key iv tag text = some plain →
      plain.length = text.length) :
    (decryptAes A V cipher key s).outcome =
      (Crypt.decryptAes V.evp cipher key s.val >>= fun plain =>
        .ok (ofBytes plain ++ [some 0], plain.length)) := by
  have hvector := ivSize_le_headerSize cipher
  have hsmall : 0 < cipher.ivSize ∧ headerSize cipher ≤ 28 := by cases cipher <;> decide
  rw [Crypt.decryptAes]
  by_cases hne : s.val = []
  · -- the empty text: a fault here in front of it, there for the vector that is missing
    rw [decryptAes, base64Decode_empty hne, hne]
    show Outcome.fault = (if 0 < cipher.ivSize then _ else _) >>= _
    rw [if_pos hsmall.1]
    rfl
  · cases hdecode : Crypt.base64Decode s.val with
    | none =>
      rw [decryptAes, base64Decode_of_none hdecode]
      rfl
    | some x =>
      have hx : x.length ≤ s.strlen := by
        rw [Crypt.base64Decode] at hdecode
        split at hdecode
        · cases hdecode
        · rw [← Option.some.inj hdecode, List.length_take, length_base64Groups]
          have : s.strlen = s.val.length := rfl
          omega
      have hok : base64Decode A s = .ok (ofBytes x, x.length) := by
        rw [base64Decode_of_some hne hdecode, if_pos (hA _ (by omega))]
      rw [decryptAes_of_ok hok]
      dsimp only
      split
      · -- no vector
        next hshort =>
        rw [decryptData_short_vector hshort]
        rfl
      · next hiv =>
        have hiv : cipher.ivSize ≤ x.length := not_lt.mp hiv
        split
        · next hshort =>
          -- no whole tag: one byte less is a negative length, more are a length that no host has
          rcases textLength_short hiv hshort with ⟨hlast, hneg, hzero⟩ | ⟨hlast, hhuge⟩
          · rw [decryptData_negative hiv (by rw [hzero]; exact hA 0 (by decide)) hneg, hV,
              if_pos hlast]
            rfl
          · have hrefused : A.grants (sizeT (textLength cipher x.length + 1)) = false := by
              by_contra hgranted
              have := A.bounded (eq_true_of_ne_false hgranted)
              omega
            rw [decryptData_refused hiv hrefused, if_neg hlast]
            rfl
        · next hlong =>
          have hlong : headerSize cipher ≤ x.length := not_lt.mp hlong
          -- the lengths are those of the function on bytes
          have htext : textLength cipher x.length = x.length - headerSize cipher :=
            textLength_eq (by omega) hlong
          have hsize : sizeT (textLength cipher x.length + 1) = textLength cipher x.length + 1 :=
            sizeT_of_lt (by omega)
          have hint : toInt32 (textLength cipher x.length) = textLength cipher x.length :=
            toInt32_of_lt (by omega)
          have hrest : (x.drop (headerSize cipher)).take (textLength cipher x.length) =
              x.drop (headerSize cipher) :=
            List.take_of_length_le (by rw [List.length_drop]; omega)
          rw [decryptData_eq hlong (by rw [hsize]; exact hA _ (by omega)) (by rw [hint]; omega)
            (by omega)]
          split
          · rw [hint, Int.toNat_natCast, hrest]
            cases hdec : V.evp.decrypt cipher key (x.take cipher.ivSize)
              ((x.drop cipher.ivSize).take (headerSize cipher - cipher.ivSize))
              (x.drop (headerSize cipher)) with
            | none => rfl
            | some plain =>
              have hplain := hlen hdec
              rw [List.length_drop] at hplain
              rw [hsize, Run.orError_some, Run.ok_bind, List.replicate_succ',
                paste_start (by rw [List.length_replicate]; omega), Run.ok_bind,
                ← length_ofBytes plain, store_append_zero, store_cons_zero, Run.map_ok, Run.ok_bind,
                length_ofBytes]
              rfl
          · rfl

/-! ## A library

A library that does what OpenSSL does on one key and one block, for the examples. -/

/-- AES-128 in counter mode, with a key and a vector of zeros: its first block. -/
def zeroKeyStream : Bytes :=
  [0x66, 0xE9, 0x4B, 0xD4, 0xEF, 0x8A, 0x2C, 0x3B, 0x88, 0x4C, 0xFA, 0x59, 0xCA, 0x34, 0x2B, 0x2E]

def xorStream (data : Bytes) : Bytes :=
  data.mapIdx fun i b => b ^^^ zeroKeyStream.getD (i % 16) 0

theorem xorStream_xorStream (data : Bytes) : xorStream (xorStream data) = data := by
  apply List.ext_getElem
  · simp [xorStream]
  · intro i h1 h2
    simp only [xorStream, List.getElem_mapIdx]
    rw [UInt8.xor_assoc, UInt8.xor_self, UInt8.xor_zero]

/-- A library for that key, which accepts a tag for some ciphers. -/
def zeroKeyCalls (setTag : Cipher → Bool) : EvpCalls where
  evp :=
    { encrypt := fun _ _ _ data => some (xorStream data, List.replicate tagSize 0)
      decrypt := fun _ _ _ _ text => some (xorStream text)
      setTag := setTag }
  refusesNegative := true

theorem zeroKeyCalls_inverts {setTag : Cipher → Bool} {cipher : Cipher}
    (h : cipher.gcm = true → setTag cipher = true) : Inverts (zeroKeyCalls setTag) cipher where
  decrypt_encrypt _ _ data _ :=
    ⟨xorStream data, List.replicate tagSize 0, rfl, by simp [xorStream], List.length_replicate,
      congrArg some (xorStream_xorStream data)⟩
  setTag := h

def zeroKey : Cipher.Key .aes128Ctr := ⟨List.replicate 16 0, rfl⟩

def zeroVector : Cipher.Vector .aes128Ctr := ⟨List.replicate 16 0, rfl⟩

/-- A text that is no base64: what decoding left is used. -/
theorem not_decryptSafe_unaligned :
    ¬ DecryptSafe Allocator.all (zeroKeyCalls fun _ => true) .aes128Ctr zeroKey.val
      ⟨ascii "abc", by decide⟩ := by
  intro h
  apply h.defined
  rw [decryptAes, base64Decode_of_none (by decide)]

theorem roundTrips_ctr128 :
    RoundTrips Allocator.all (zeroKeyCalls fun _ => true) .aes128Ctr zeroVector zeroKey.val
        (ascii "hello") ↔
      (ascii "hello").length < 2 ^ 31 ∧ (Cipher.gcm .aes128Ctr = true ∨ true = true) :=
  roundTrips_iff (zeroKeyCalls_inverts fun _ => rfl)
    (fun _ hn => Allocator.all_grants (by omega)) zeroKey zeroVector (by decide)

/-- A tag that is refused fails the decryption. -/
theorem decryptAes_refusedTag (h : V.evp.setTag cipher = false) (r : Block × Nat) :
    decryptAes A V cipher key s ≠ .ok r := by
  intro hr
  rw [decryptAes] at hr
  split at hr
  · obtain ⟨_, -, hr⟩ := Except.bind_eq_ok.mp hr
    obtain ⟨_, -, hr⟩ := Except.bind_eq_ok.mp hr
    obtain ⟨_, -, hr⟩ := Except.bind_eq_ok.mp hr
    obtain ⟨_, -, hr⟩ := Except.bind_eq_ok.mp hr
    rw [h] at hr
    cases hr
  · cases hr
  · cases hr

/-- A library that refuses a tag in counter mode. -/
theorem not_roundTrips_ctr128 :
    ¬ RoundTrips Allocator.all (zeroKeyCalls Cipher.gcm) .aes128Ctr zeroVector zeroKey.val
      (ascii "hello") := by
  rintro ⟨encoded, text, -, -, hdec⟩
  exact decryptAes_refusedTag rfl _ hdec

end Memory

end RsmpGateway.Crypt
