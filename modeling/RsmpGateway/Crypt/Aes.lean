import RsmpGateway.Crypt.Base64
import RsmpGateway.Crypt.Cipher
import RsmpGateway.Lib.Outcome

/-!
# Encryption

`encrypt_aes` and `decrypt_aes`: base64 of the initialisation vector, the tag in GCM, and the
encrypted bytes. AES itself comes from outside (`Evp`), with what is assumed of it in
`Evp.Lawful`: decryption inverts encryption under the same key and vector, with the tag that
encryption gave.

These are the functions on bytes, without blocks. The text that is decrypted is cut where the
lengths of the cipher say. What the source does in memory, where these lengths are computed in
`size_t` and `int`, is in `Crypt/Envelope.lean`, together with the texts on which the two agree
(`decryptAes_refines`).
-/

namespace RsmpGateway.Crypt

open RsmpGateway.Lib

namespace Cipher

/-- `EVP_CIPHER_mode(evp) == EVP_CIPH_GCM_MODE` -/
def gcm : Cipher → Bool
  | aes256Gcm => true
  | _ => false

/-- `_get_ivi_size` -/
def ivSize (cipher : Cipher) : Nat := if cipher.gcm then 12 else 16

end Cipher

/-- `TAG_SIZE` -/
def tagSize : Nat := 16

/-- The calls of `EVP_Encrypt*`, with a key and a vector: the encrypted bytes and the tag;
those of `EVP_Decrypt*`; and what `EVP_CTRL_GCM_SET_TAG` returns, with no tag for a cipher
that has none. -/
structure Evp where
  encrypt : Cipher → Bytes → Bytes → Bytes → Option (Bytes × Bytes)
  decrypt : Cipher → Bytes → Bytes → Bytes → Bytes → Option Bytes
  setTag : Cipher → Bool

/-- Decryption inverts encryption, and a tag for a cipher that has none is ignored. The calls
take an `int` for the length of their data. -/
structure Evp.Lawful (V : Evp) : Prop where
  decrypt_encrypt : ∀ {cipher : Cipher} {key iv data : Bytes}, key.length = cipher.keyLen →
    iv.length = cipher.ivSize → data.length < 2 ^ 31 →
      ∃ text tag, V.encrypt cipher key iv data = some (text, tag) ∧ tag.length = tagSize ∧
        V.decrypt cipher key iv (if cipher.gcm then tag else []) text = some data
  setTag : ∀ cipher, V.setTag cipher = true

/-- The tag that is sent. -/
def sentTag (cipher : Cipher) (tag : Bytes) : Bytes := if cipher.gcm then tag else []

/-- `encrypt_aes`, with the vector that `RAND_bytes` draws. -/
def encryptAes (V : Evp) (cipher : Cipher) (iv key data : Bytes) : Outcome Bytes :=
  if data = [] then .fault
  else
    match V.encrypt cipher key iv data with
    | none => .err
    | some (text, tag) => .ok (base64Encode (iv ++ sentTag cipher tag ++ text))

/-- The bytes before the encrypted ones. -/
def headerSize (cipher : Cipher) : Nat := cipher.ivSize + if cipher.gcm then tagSize else 0

/-- `decrypt_aes` -/
def decryptAes (V : Evp) (cipher : Cipher) (key inB64 : Bytes) : Outcome Bytes :=
  match base64Decode inB64 with
  | none => .fault -- `data` is left without a value
  | some data =>
    if data.length < cipher.ivSize then .fault -- the vector is read past `data`
    else if data.length < headerSize cipher then
      -- `data_len` wraps around: no such buffer, or one of `SIZE_MAX + 1` bytes
      if data.length + 1 = headerSize cipher then .fault else .err
    else
      let iv := data.take cipher.ivSize
      let tag := (data.drop cipher.ivSize).take (headerSize cipher - cipher.ivSize)
      if V.setTag cipher then
        Outcome.ofOption (V.decrypt cipher key iv tag (data.drop (headerSize cipher)))
      else .err

theorem length_sentTag {cipher : Cipher} {tag : Bytes} (h : tag.length = tagSize) :
    (sentTag cipher tag).length = headerSize cipher - cipher.ivSize := by
  rw [sentTag, headerSize]
  split
  · rw [h]
    omega
  · simp

/-- What is encrypted is decrypted, in each mode. -/
theorem decryptAes_encryptAes {V : Evp} (hV : V.Lawful) {cipher : Cipher} {iv key data : Bytes}
    (hkey : key.length = cipher.keyLen) (hiv : iv.length = cipher.ivSize) (hne : data ≠ [])
    (hlen : data.length < 2 ^ 31) :
    ∃ text, encryptAes V cipher iv key data = .ok text ∧
      decryptAes V cipher key text = .ok data := by
  obtain ⟨text, tag, henc, htag, hdec⟩ := hV.decrypt_encrypt hkey hiv hlen
  refine ⟨base64Encode (iv ++ sentTag cipher tag ++ text), ?_, ?_⟩
  · rw [encryptAes, if_neg hne, henc]
  · have hsent : (sentTag cipher tag).length = headerSize cipher - cipher.ivSize :=
      length_sentTag htag
    have hheader : (iv ++ sentTag cipher tag).length = headerSize cipher := by
      rw [List.length_append, hiv, hsent, headerSize]
      omega
    have hlong : ¬ (iv ++ sentTag cipher tag ++ text).length < headerSize cipher := by
      rw [List.length_append, hheader]
      omega
    rw [decryptAes, base64Decode_base64Encode]
    dsimp only
    have hvector : cipher.ivSize ≤ headerSize cipher := Nat.le_add_right _ _
    rw [if_neg (by omega), if_neg hlong, if_pos (hV.setTag cipher)]
    -- the three parts are found where they were written
    have hdrop : (iv ++ sentTag cipher tag ++ text).drop (headerSize cipher) = text := by
      rw [← hheader, List.drop_left]
    have htake : (iv ++ sentTag cipher tag ++ text).take cipher.ivSize = iv := by
      rw [← hiv, List.append_assoc, List.take_left]
    have htag' : ((iv ++ sentTag cipher tag ++ text).drop cipher.ivSize).take
        (headerSize cipher - cipher.ivSize) = sentTag cipher tag := by
      rw [← hiv, List.append_assoc, List.drop_left, hiv, ← hsent, List.take_left]
    rw [hdrop, htake, htag', sentTag, hdec]
    rfl

end RsmpGateway.Crypt
