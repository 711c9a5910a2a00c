import RsmpGateway.Crypt.Bcd

/-!
# Ciphers

The three ciphers of `_cipher_list`, their names and their lengths, and the derivation of their
keys. PBKDF2 itself comes from outside; the number of its iterations and the salt are those of
the source.
-/

namespace RsmpGateway.Crypt

open RsmpGateway.Lib

/-- `cipher_enum_t` -/
inductive Cipher
  | aes128Ctr
  | aes256Ctr
  | aes256Gcm
  deriving Repr, DecidableEq

namespace Cipher

/-- The name of the cipher, under which its secrets are cached. -/
def lib : Cipher → Bytes
  | aes128Ctr => ascii "AES128CTR"
  | aes256Ctr => ascii "AES256CTR"
  | aes256Gcm => ascii "AES256GCM"

/-- The length of the key that `key_gen` makes. -/
def keyLen : Cipher → Nat
  | aes128Ctr => 16
  | aes256Ctr => 32
  | aes256Gcm => 32

theorem lib_injective {c c' : Cipher} (h : c.lib = c'.lib) : c = c' := by
  cases c <;> cases c' <;> first | rfl | exact absurd h (by decide)

end Cipher

/-- `PKCS5_PBKDF2_HMAC` with `EVP_sha256()`: the key derived from a passphrase, a salt,
a number of iterations and a length. -/
abbrev Pbkdf2 := Bytes → Bytes → Nat → Nat → Option Bytes

/-- `__SALT` -/
def keyGenSalt : Bytes := (bcdDecode (ascii "13BAC1F20AF1A5F08F9E962CD632B19B")).getD []

/-- `cipher_key_gen` -/
def cipherKeyGen (pbkdf2 : Pbkdf2) (passphrase : Bytes) (iterations keyLen : Nat) : Option Bytes :=
  pbkdf2 passphrase keyGenSalt iterations keyLen

/-- The `key_gen` of a cipher. -/
def Cipher.keyGen (pbkdf2 : Pbkdf2) (cipher : Cipher) (passphrase : Bytes) (iterations : Nat) :
    Option Bytes :=
  cipherKeyGen pbkdf2 passphrase iterations cipher.keyLen

end RsmpGateway.Crypt
