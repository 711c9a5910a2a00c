import RsmpGateway.Coder.Key

/-!
# Messages between peers

The messages that the connections exchange for themselves, and the frames that carry them. A
message is sealed with the secret of an entry of its sender, and read with that of an entry of its
receiver: the two were derived from the same passphrase or nothing is read.

Which passphrase that is depends on `coder_secret_get`. It gives the secret that the entry caches
for the cipher, of whatever password it was derived, and derives one from the current password only
where none is cached. Here it is a parameter, `SecretGet`. With `getPassphraseForPwd` for it,
nothing is ever cached; what becomes of the secrets that are is the subject of `Cyber/Vault.lean`,
where the two are shown to agree as long as nothing stale is cached when the connection begins.
-/

namespace RsmpGateway.Cyber

open RsmpGateway.Lib RsmpGateway.Auth RsmpGateway.Coder

/-- `Message`. `uuid_generate` never draws an identifier twice: an identifier is the rank
of its draw. -/
inductive Message
  | allClear (mId : Nat)
  | changePwdRequest (mId : Nat) (pwd : Bytes)
  | changePwdResponse (mId oMId : Nat) (status : Bool)
  | ping (mId : Nat) (padding : Bytes)
  | pong (mId oMId : Nat) (padding : Bytes)
  deriving Repr, DecidableEq

/-- The length that `messageCheckFields` finds for a password in base64. -/
def originalLength (pwd : Bytes) : Nat :=
  pwd.length * 3 / 4 -
    (if pwd.getLast? = some 0x3D then (if pwd.dropLast.getLast? = some 0x3D then 2 else 1) else 0)

/-- `messageCheckFields`, which also ends `deserializeMessage` and comes first in
`serializeMessage`. A short password is only logged. -/
def messageCheckFields : Message → Bool
  | .allClear _ => true
  | .changePwdRequest _ pwd => !pwd.isEmpty && originalLength pwd < authPwdLenMax
  | .changePwdResponse .. => true
  | .ping _ padding => !padding.isEmpty
  | .pong _ _ padding => !padding.isEmpty

/-- An element of the `data` of a frame: the passphrase it was encrypted with, and what
was encrypted. -/
structure Element where
  passphrase : Bytes
  msg : Message
  deriving Repr, DecidableEq

/-- `Encrypted` -/
structure Frame where
  sId : Bytes
  login : Bytes
  data : List Element
  deriving Repr, DecidableEq

/-- `coder_secret_get` of a connection, for an entry with its current password: the passphrase from
which the secret that it gives was derived. -/
abbrev SecretGet := AuthKey → CoderAction → AuthPwd → Bytes

/-- `Encrypted_encode` of one message. -/
def encryptedEncode (secret : SecretGet) (db : AuthDbs) (sIdLocal : Bytes) (login : Option Bytes)
    (sId : Bytes) (msg : Message) : Option Frame :=
  (coderAuthGet db login sId .encrypt).map fun (key, auth) =>
    ⟨sIdLocal, key.login, [⟨secret key .encrypt auth.pwd, msg⟩]⟩

theorem encryptedEncode_eq_some {secret : SecretGet} {db : AuthDbs} {sIdLocal sId : Bytes}
    {login : Option Bytes} {msg : Message} {f : Frame}
    (h : encryptedEncode secret db sIdLocal login sId msg = some f) :
    ∃ key auth, coderAuthGet db login sId .encrypt = some (key, auth) ∧
      f = ⟨sIdLocal, key.login, [⟨secret key .encrypt auth.pwd, msg⟩]⟩ := by
  obtain ⟨⟨key, auth⟩, hget, rfl⟩ := Option.map_eq_some_iff.mp h
  exact ⟨key, auth, hget, rfl⟩

/-- `Encrypted_decode`: the messages read, with the entry they were read with. `valid`
stands for `ptxt_deserial` and `ptxt_is_valid`. -/
def encryptedDecode (valid : Message → Bool) (secret : SecretGet) (db : AuthDbs) (f : Frame) :
    List (AuthKey × Message) :=
  match coderAuthGet db (some f.login) f.sId .decrypt with
  | none => []
  | some (key, auth) =>
    (f.data.filter fun e => e.passphrase == secret key .decrypt auth.pwd && valid e.msg).map
      fun e => (key, e.msg)

end RsmpGateway.Cyber
