import RsmpGateway.Coder.Classes
import RsmpGateway.Coder.RoundTrip
import RsmpGateway.Lib.Memory

/-!
# Challenges

`Challenge_encode`: the request of a new password, under the current one, and the `Ping` under
the new one, with a pad that is twelve characters longer than the new password in base64. The
length of the pad is computed in a `char`, which is signed on some hosts and not on others, and
the pad is written character by character in a block of that length and one byte more.

`challengeEncode_padRight_iff` says when the pad is right: it has its length and is written
inside its block. This depends on the length of the new password and on the kind of `char`.
-/

namespace RsmpGateway.Coder

open RsmpGateway.Lib RsmpGateway.Crypt RsmpGateway.Auth

/-! ## The pad

The arithmetic of `char` and `size_t`, with the sign that the host gives it. -/

/-- How the host has `char`. -/
inductive CharSign
  | signed
  | unsigned
  deriving Repr, DecidableEq

/-- The conversion of an integer to `char`. -/
def CharSign.toChar : CharSign → Int → Int
  | signed, n => n.bmod 256
  | unsigned, n => n % 256

/-- The conversion of an `int` to `size_t`. -/
def toSizeT (n : Int) : Nat := (n % 2 ^ 64).toNat

variable (C : CharSign) (A : Allocator)

/-- `pad_len` -/
def padLen (pwdB64 : CString) : Int := C.toChar (pwdB64.strlen + 12)

/-- What is asked of `calloc`. -/
def padRequest (pwdB64 : CString) : Nat := toSizeT (padLen C pwdB64 + 1)

/-- A character of the pad: `rand() % 94 + 33`. -/
def padChar (n : Nat) : UInt8 := (n % 94 + 33).toUInt8

/-- `pad[i] = c` -/
def padStore (pad : Bytes) (i : Int) (c : UInt8) : Outcome Bytes :=
  if 0 ≤ i ∧ i < pad.length then .ok (pad.set i.toNat c) else .fault

/-- The loop on the pad, from `i` and `n` times. -/
def padLoop (rand : Nat → Nat) : Nat → Nat → Bytes → Outcome Bytes
  | 0, _, pad => .ok pad
  | n + 1, i, pad => do
    let pad ← padStore pad i (padChar (rand i))
    padLoop rand n (i + 1) pad

/-- The pad of `Challenge_encode`. When `calloc` fails, the exit takes the length of a payload
that is null. -/
def challengePad (rand : Nat → Nat) (pwdB64 : CString) : Outcome CString :=
  if A.grants (padRequest C pwdB64) then do
    let pad ← padLoop rand (toSizeT (padLen C pwdB64)) 0 (List.replicate (padRequest C pwdB64) 0)
    let pad ← padStore pad (padLen C pwdB64) 0
    return .ofBytes pad
  else .fault

/-! ## The challenge

The identifiers, the numbers and the vectors that are drawn are one structure. The pad is made
between the two messages. -/

variable (X : CoderExt) (cipher : Cipher) (sIdLocal : Bytes)

/-- What a challenge draws: the identifiers, which `uuid_unparse` writes, the random numbers and
the vectors of its two elements. -/
structure ChallengeDraws where
  mIdRequest : CharArray uuidStrLen
  mIdPing : CharArray uuidStrLen
  mIdEncrypted : CharArray uuidStrLen
  rand : Nat → Nat
  padRand : Nat → Nat
  ivRequest : Bytes
  ivPing : Bytes
  isUuid : ∀ mId ∈ [mIdRequest, mIdPing, mIdEncrypted],
    ∃ s, mId.read = .ok s ∧ s.strlen = uuidStrLen - 1
  isIv : ∀ iv ∈ [ivRequest, ivPing], iv.length = cipher.ivSize

/-- `Challenge_encode_data`. `timestamp` is never null. -/
def challengeEncodeData (timestamp : HoroDate) (msg : Message) (secret iv : Bytes) :
    Outcome Bytes := do
  let payload ← serializeMessage X.json msg
  let ptxt ← ptxtSet timestamp (some timestamp) payload
  let text ← ptxtSerialize X.toTextExt ptxt
  encryptAes X.evp cipher iv secret text

/-- What `Challenge_encode` leaves when it succeeds: the pad in the context, and the payload. -/
structure Challenge where
  pad : CString
  payload : Bytes

/-- `Challenge_encode` once it has the password in base64 and the two secrets. -/
def challengeMessages (draws : ChallengeDraws cipher) (now : HoroDate) (login : Bytes)
    (pwdB64 : CString) (current new : Bytes) : Outcome Challenge := do
  let request ← challengeEncodeData X cipher now
    ⟨draws.mIdRequest, .changePwdRequest (some pwdB64)⟩ current draws.ivRequest
  let pad ← challengePad C A draws.padRand pwdB64
  let ping ← challengeEncodeData X cipher now ⟨draws.mIdPing, .ping (some pad)⟩ new draws.ivPing
  let payload ← serializeMessage X.json ⟨draws.mIdEncrypted,
    .encrypted (some (.ofBytes sIdLocal)) (some (.ofBytes login))
      [some (.ofBytes request), some (.ofBytes ping)]⟩
  return ⟨pad, payload⟩

/-- `Challenge_encode`, with the store. -/
def challengeEncode (draws : ChallengeDraws cipher) (now : HoroDate) (running : Bool)
    (login sIdRemote : Bytes) (db : AuthDbs) : Outcome Challenge × AuthDbs :=
  if running then (.err, db)
  else
    match coderAuthGet db (some login) sIdRemote .encrypt with
    | none => (.err, db)
    | some (key, auth) =>
      match authGetNewPwdB64 draws.rand auth with
      | .abort => (.fault, db)
      | .err => (.err, db)
      | .ok (auth, pwdB64) =>
        let db := db.modifyAuth key fun _ => auth
        match db.coderSecretGet X.pbkdf2 sIdLocal cipher key .encrypt with
        | (none, db) => (.err, db)
        | (some current, db) =>
          match derivedSecret X.pbkdf2 sIdLocal cipher key .encrypt auth.newPwd with
          | none => (.err, db)
          | some new =>
            (challengeMessages C A X cipher sIdLocal draws now key.login (.ofBytes pwdB64)
              current new, db)

/-! ## What the pad is

The loop writes as many characters as the length that was computed. -/

variable {C A}

/-- The characters that the loop has written. -/
def padChars (rand : Nat → Nat) (n : Nat) : Bytes := (List.range n).map fun i => padChar (rand i)

/-! ### The loop

The pad is written from the front, and the room after what was written stays zero, which ends the
string. -/

theorem padChars_succ (rand : Nat → Nat) (n : Nat) :
    padChars rand (n + 1) = padChars rand n ++ [padChar (rand n)] := by
  simp [padChars, List.range_succ]

theorem length_padChars (rand : Nat → Nat) (n : Nat) : (padChars rand n).length = n := by
  simp [padChars]

theorem padChar_ne_zero (n : Nat) : padChar n ≠ 0 := by
  have hlt : n % 94 + 33 < 256 := by omega
  intro h
  have := congrArg UInt8.toNat h
  simp only [padChar, Nat.toUInt8_eq, UInt8.toNat_ofNat', UInt8.toNat_zero] at this
  omega

/-- One character after those written. -/
theorem padStore_append (written rest : Bytes) (c d : UInt8) :
    padStore (written ++ c :: rest) written.length d = .ok (written ++ d :: rest) := by
  have hlt : (written.length : Int) < (written ++ c :: rest).length := by
    rw [List.length_append, List.length_cons]
    omega
  rw [padStore, if_pos ⟨by omega, hlt⟩]
  simp

/-- The loop stays inside the room that is left. -/
theorem padLoop_ok (rand : Nat → Nat) {n i room : Nat} (h : n ≤ room) :
    padLoop rand n i (padChars rand i ++ List.replicate room 0) =
      .ok (padChars rand (i + n) ++ List.replicate (room - n) 0) := by
  induction n generalizing i room with
  | zero => rfl
  | succ n ih =>
    obtain ⟨room, rfl⟩ : ∃ r, room = r + 1 := ⟨room - 1, by omega⟩
    have hstore := padStore_append (padChars rand i) (List.replicate room 0) 0 (padChar (rand i))
    rw [length_padChars] at hstore
    rw [padLoop, List.replicate_succ, hstore, Outcome.ok_bind]
    have hnext := @ih (i + 1) room (by omega)
    rw [padChars_succ, List.append_assoc, List.singleton_append] at hnext
    rw [hnext]
    congr 3 <;> omega

theorem nul_not_mem_padChars (rand : Nat → Nat) (n : Nat) : (0 : UInt8) ∉ padChars rand n := by
  intro h
  obtain ⟨i, -, hi⟩ := List.mem_map.mp h
  exact padChar_ne_zero _ hi

/-- One byte more than the pad is asked for. -/
theorem padRequest_eq {pwdB64 : CString} {n : Nat} (hlen : padLen C pwdB64 = n) (hn : n < 2 ^ 8) :
    padRequest C pwdB64 = n + 1 := by
  rw [padRequest, toSizeT, hlen]
  omega

/-- The pad has as many characters as `pad_len` says. -/
theorem challengePad_ok (rand : Nat → Nat) {pwdB64 : CString} {n : Nat}
    (hlen : padLen C pwdB64 = n) (hn : n < 2 ^ 8) (hgrants : A.grants (n + 1) = true) :
    ∃ pad, challengePad C A rand pwdB64 = .ok pad ∧ pad.strlen = n := by
  have hcount : toSizeT (padLen C pwdB64) = n := by
    rw [toSizeT, hlen]
    omega
  have hrequest := padRequest_eq hlen hn
  have hloop : padLoop rand n 0 (List.replicate (n + 1) 0) = .ok (padChars rand n ++ [0]) := by
    have h := @padLoop_ok rand n 0 (n + 1) (by omega)
    have hroom : n + 1 - n = 1 := by omega
    rwa [Nat.zero_add, hroom] at h
  have hend : padStore (padChars rand n ++ [0]) (n : Int) 0 = .ok (padChars rand n ++ [0]) := by
    have h := padStore_append (padChars rand n) [] 0 0
    rwa [length_padChars] at h
  refine ⟨⟨padChars rand n, nul_not_mem_padChars rand n⟩, ?_, length_padChars rand n⟩
  rw [challengePad, hrequest, if_pos hgrants, hcount, hloop, Outcome.ok_bind, hlen, hend]
  -- the string ends at the NUL that is stored last
  have hread : cstr (padChars rand n ++ [0]) = padChars rand n :=
    cstr_append_nul (nul_not_mem_padChars rand n) []
  exact congrArg Outcome.ok (Subtype.ext hread)

/-- A negative `pad_len` asks for more memory than there is, or for none to write to. -/
theorem challengePad_fault {rand : Nat → Nat} {pwdB64 : CString} (hneg : padLen C pwdB64 < 0)
    (hlow : -128 ≤ padLen C pwdB64) : challengePad C A rand pwdB64 = .fault := by
  rw [challengePad]
  split
  · next hgrants =>
    have hbound := A.bounded hgrants
    have hminus : padLen C pwdB64 = -1 := by
      rw [padRequest, toSizeT] at hbound
      omega
    have hrequest : padRequest C pwdB64 = 0 := by
      rw [padRequest, hminus]
      rfl
    have hstore : padStore [] (0 : Nat) (padChar (rand 0)) = .fault := rfl
    obtain ⟨n, hn⟩ : ∃ n, toSizeT (padLen C pwdB64) = n + 1 := by
      refine ⟨2 ^ 64 - 2, ?_⟩
      rw [hminus]
      rfl
    rw [hrequest, hn, List.replicate_zero, padLoop, hstore]
    rfl
  · rfl

/-! ## The lengths

For which lengths of the password the computation does not leave the range of a `char`. -/

/-- The longest password whose pad has its length in a `char`. -/
def CharSign.longest : CharSign → Nat
  | signed => 84
  | unsigned => 180

theorem strlen_base64 (pwd : AuthPwd) :
    (CString.ofBytes (base64Encode pwd)).strlen = (pwd.length + 2) / 3 * 4 := by
  rw [CString.strlen, CString.ofBytes]
  dsimp only
  rw [cstr_eq_self (nul_not_mem_base64Encode pwd), length_base64Encode]

/-- The length of the pad is kept up to the longest password. -/
theorem padLen_eq_iff (C : CharSign) {pwd : AuthPwd} (hlen : pwd.length ≤ authPwdLenMax) :
    padLen C (.ofBytes (base64Encode pwd)) = (CString.ofBytes (base64Encode pwd)).strlen + 12 ↔
      pwd.length ≤ C.longest := by
  rw [padLen, strlen_base64]
  unfold authPwdLenMax at hlen
  cases C with
  | signed =>
    simp only [CharSign.toChar, CharSign.longest, Int.bmod_eq_emod]
    split <;> omega
  | unsigned =>
    simp only [CharSign.toChar, CharSign.longest]
    omega

theorem padLen_bounds (C : CharSign) (pwdB64 : CString) :
    -128 ≤ padLen C pwdB64 ∧ padLen C pwdB64 < 256 := by
  cases C with
  | signed =>
    simp only [padLen, CharSign.toChar, Int.bmod_eq_emod]
    split <;> omega
  | unsigned =>
    simp only [padLen, CharSign.toChar]
    omega

/-- The pad that comes out has the length of `pad_len`. -/
theorem challengePad_strlen {rand : Nat → Nat} {pwdB64 pad : CString}
    (h : challengePad C A rand pwdB64 = .ok pad) : (pad.strlen : Int) = padLen C pwdB64 := by
  obtain ⟨hlow, hhigh⟩ := padLen_bounds C pwdB64
  by_cases hneg : padLen C pwdB64 < 0
  · rw [challengePad_fault hneg hlow] at h
    cases h
  · obtain ⟨n, hn⟩ := Int.eq_ofNat_of_zero_le (not_lt.mp hneg)
    have hgrants : A.grants (n + 1) = true := by
      rw [challengePad, padRequest_eq hn (by omega)] at h
      split at h
      · assumption
      · cases h
    obtain ⟨pad', hpad', hlen⟩ := challengePad_ok rand hn (by omega) hgrants
    rw [h] at hpad'
    cases hpad'
    rw [hlen, hn]

/-! ## The rest of the encoding

With the memory and the secrets that the encoding takes, what is left to go wrong is the pad. -/

/-- The libraries do what they are asked: json-c prints objects, laid out as it does, the cipher
encrypts and PBKDF2 derives. -/
structure Works (X : CoderExt) (cipher : Cipher) : Prop where
  prints : ∀ members, ∃ text, X.json.print (.obj members) = some text
  laysOut : X.json.LaysOut
  encrypts : ∀ key iv data, ∃ r, X.evp.encrypt cipher key iv data = some r
  derives : ∀ passphrase salt iterations n, ∃ key, X.pbkdf2 passphrase salt iterations n = some key

variable {X : CoderExt} {cipher : Cipher} {sIdLocal : Bytes}

/-! ### The two messages

A request with the password in base64 and a `Ping` with the pad. Both pass the check of their
fields when the password has a length that the store can draw. -/

theorem Works.serializeMessage (hX : Works X cipher) (msg : Message)
    {members : List (Bytes × Json)} (hmembers : messageMembers msg.fields = .ok members)
    (hcheck : messageCheckFields msg = .ok ()) :
    ∃ text, serializeMessage X.json msg = .ok text := by
  obtain ⟨mId, hmId, -⟩ := Outcome.bind_eq_ok.mp hcheck
  obtain ⟨text, htext⟩ := hX.prints ((ascii "mType", .str (ascii "eRMsg")) ::
    (ascii "mId", .str mId.val) :: (ascii "type", .str msg.fields.messageType.text) :: members)
  have hjson : messageJson msg = .ok (messageObject mId msg.fields.messageType members) := by
    rw [messageJson, hcheck, Outcome.ok_bind, hmId, Outcome.ok_bind, hmembers]
    rfl
  have hprint : X.json.print (messageObject mId msg.fields.messageType members) = some text := htext
  refine ⟨text, ?_⟩
  rw [Coder.serializeMessage, hjson, Outcome.ok_bind, hprint]
  rfl

/-- A message that is accepted is encoded, as a text that is not empty. -/
theorem Works.encodeData (hX : Works X cipher) (msg : Message) {members : List (Bytes × Json)}
    (hmembers : messageMembers msg.fields = .ok members)
    (hcheck : messageCheckFields msg = .ok ()) (timestamp : HoroDate) (secret : Bytes) {iv : Bytes}
    (hiv : iv.length = cipher.ivSize) :
    ∃ data, challengeEncodeData X cipher timestamp msg secret iv = .ok data ∧
      (CString.ofBytes data).strlen ≠ 0 := by
  obtain ⟨payload, hpayload⟩ := hX.serializeMessage msg hmembers hcheck
  -- whatever its class, a text with the internal mark is set
  obtain ⟨ptxt, hptxt⟩ : ∃ ptxt, ptxtSet timestamp (some timestamp) payload = .ok ptxt := by
    obtain ⟨hinternal, -⟩ := serializeMessage_marks hX.laysOut hpayload
    by_cases hexternal : Json.quoted externalWord <:+: payload
    · obtain ⟨ptxt, hset, -⟩ := hasClass_external hexternal timestamp (some timestamp)
      exact ⟨ptxt, hset⟩
    · obtain ⟨ptxt, hset, -⟩ :=
        (hasClass_internal_iff hinternal).mpr hexternal timestamp (some timestamp)
      exact ⟨ptxt, hset⟩
  obtain ⟨text, htext⟩ := hX.prints [(ascii "timestamp", .str (X.strGmtHorodate ptxt.timestamp)),
    (ascii "original", .str ptxt.original), (ascii "class", .str ptxt.cls.text)]
  have hserial : ptxtSerialize X.toTextExt ptxt = .ok text := by
    rw [ptxtSerialize, ptxtJson, htext]
  have hne : text ≠ [] := by
    obtain ⟨sp, -, rfl⟩ := hX.laysOut htext
    intro hnil
    cases hnil
  obtain ⟨⟨encrypted, tag⟩, hencrypt⟩ := hX.encrypts secret iv text
  refine ⟨base64Encode (iv ++ sentTag cipher tag ++ encrypted), ?_, ?_⟩
  · rw [challengeEncodeData, hpayload, Outcome.ok_bind, hptxt, Outcome.ok_bind, hserial,
      Outcome.ok_bind, encryptAes, if_neg hne, hencrypt]
  · have hpos : 0 < cipher.ivSize := by cases cipher <;> decide
    rw [strlen_base64]
    simp only [List.length_append]
    omega

theorem toInt_of_lt {n : Int} (h0 : 0 ≤ n) (h : n < 2 ^ 31) : toInt n = n := by
  rw [toInt, Int.bmod_eq_emod]
  split <;> omega

theorem originalLength_le {pwd : CString} {n : Int} (h : originalLength pwd = .ok n) :
    n ≤ (toInt (toInt pwd.strlen * 3)).tdiv 4 := by
  rw [originalLength] at h
  generalize (toInt (toInt pwd.strlen * 3)).tdiv 4 = bytes at h ⊢
  obtain ⟨last, -, h⟩ := Outcome.bind_eq_ok.mp h
  split at h
  · obtain ⟨before, -, h⟩ := Outcome.bind_eq_ok.mp h
    rw [← Outcome.ok.inj h]
    split <;> omega
  · rw [← Outcome.ok.inj h]

/-- A password in base64 of four to 340 characters is accepted. -/
theorem fieldsCheck_pwd {pwd : CString} (hlow : 4 ≤ pwd.strlen) (hhigh : pwd.strlen ≤ 340) :
    fieldsCheck (.changePwdRequest (some pwd)) = .ok () := by
  have hlen : toInt pwd.strlen = pwd.strlen := toInt_of_lt (by omega) (by omega)
  have hinside : PaddingInside pwd := ⟨by omega, fun h => by omega⟩
  rcases originalLength_cases pwd with ⟨-, n, hn⟩ | ⟨hnot, -⟩
  · have hle := originalLength_le hn
    rw [hlen, toInt_of_lt (by omega) (by omega), Int.tdiv_eq_ediv_of_nonneg (by omega)] at hle
    have hmax : ¬ (authPwdLenMax : Int) ≤ n := by
      rw [show (authPwdLenMax : Int) = 256 from rfl]
      omega
    rw [fieldsCheck, nonEmpty, if_neg (by omega), Outcome.ok_bind, hn, Outcome.ok_bind,
      if_neg hmax]
  · exact absurd hinside hnot

theorem messageCheckFields_drawn (draws : ChallengeDraws cipher) {mId : CharArray uuidStrLen}
    (hmId : mId ∈ [draws.mIdRequest, draws.mIdPing, draws.mIdEncrypted])
    (fields : MessageFields) : messageCheckFields ⟨mId, fields⟩ = fieldsCheck fields := by
  obtain ⟨s, hs, hlen⟩ := draws.isUuid mId hmId
  rw [messageCheckFields, hs, Outcome.ok_bind, if_neg (not_not.mpr hlen)]

/-- With a pad that is not empty, the messages of a challenge are encoded. -/
theorem Works.challengeMessages (hX : Works X cipher)
    (hsId : (CString.ofBytes sIdLocal).strlen ≠ 0) (draws : ChallengeDraws cipher) (now : HoroDate)
    (login : Bytes) {pwdB64 pad : CString} (hlow : 4 ≤ pwdB64.strlen) (hhigh : pwdB64.strlen ≤ 340)
    (current new : Bytes) (hpad : challengePad C A draws.padRand pwdB64 = .ok pad)
    (hne : pad.strlen ≠ 0) :
    ∃ payload, challengeMessages C A X cipher sIdLocal draws now login pwdB64 current new =
      .ok ⟨pad, payload⟩ := by
  obtain ⟨request, hrequest, hrequestLen⟩ := hX.encodeData
    ⟨draws.mIdRequest, .changePwdRequest (some pwdB64)⟩ rfl
    (by rw [messageCheckFields_drawn draws (by simp), fieldsCheck_pwd hlow hhigh]) now current
    (draws.isIv draws.ivRequest (by simp))
  obtain ⟨ping, hping, hpingLen⟩ := hX.encodeData
    ⟨draws.mIdPing, .ping (some pad)⟩ rfl
    (by rw [messageCheckFields_drawn draws (by simp), fieldsCheck, nonEmpty, if_neg hne]; rfl)
    now new (draws.isIv draws.ivPing (by simp))
  obtain ⟨payload, hpayload⟩ := hX.serializeMessage
    ⟨draws.mIdEncrypted, .encrypted (some (.ofBytes sIdLocal)) (some (.ofBytes login))
      [some (.ofBytes request), some (.ofBytes ping)]⟩ rfl (by
    rw [messageCheckFields_drawn draws (by simp)]
    simp [fieldsCheck, nonEmpty, hsId, hrequestLen, hpingLen, List.mapM_cons])
  refine ⟨payload, ?_⟩
  rw [Coder.challengeMessages, hrequest, Outcome.ok_bind, hpad, Outcome.ok_bind, hping,
    Outcome.ok_bind, hpayload]
  rfl

/-- The pad has twelve characters more than the password in base64, one byte more is asked for
it, and the challenge is encoded: no write is outside what was asked. -/
def PadRight (C : CharSign) (pwdB64 : CString) (r : Outcome Challenge) : Prop :=
  padRequest C pwdB64 = pwdB64.strlen + 12 + 1 ∧
    ∃ c, r = .ok c ∧ c.pad.strlen = pwdB64.strlen + 12

variable (C A sIdLocal) in
/-- Once the entry has its new password, `Challenge_encode` comes to its messages. -/
theorem Works.challengeEncode_eq (hX : Works X cipher) (draws : ChallengeDraws cipher)
    (now : HoroDate) {login sIdRemote pwdB64 : Bytes} {db : AuthDbs} {key : AuthKey}
    {auth auth' : AuthEntry} (hget : coderAuthGet db (some login) sIdRemote .encrypt =
      some (key, auth)) (hpwd : authGetNewPwdB64 draws.rand auth = .ok (auth', pwdB64)) :
    ∃ current new, (challengeEncode C A X cipher sIdLocal draws now false login sIdRemote db).1 =
      Coder.challengeMessages C A X cipher sIdLocal draws now key.login (.ofBytes pwdB64)
        current new := by
  obtain ⟨it, -, hit, -⟩ := coderAuthGet_encrypt hget
  have hderived : ∀ pwd, ∃ secret,
      derivedSecret X.pbkdf2 sIdLocal cipher key .encrypt pwd = some secret :=
    fun pwd => hX.derives _ _ _ _
  have hfound : (db.modifyAuth key fun _ => auth').authFindByKey key =
      some { it with auth := auth' } := by
    rw [AuthDbs.authFindByKey_modifyAuth, if_pos rfl, hit]
    rfl
  obtain ⟨current, db', hcurrent⟩ : ∃ current db', (db.modifyAuth key fun _ => auth').coderSecretGet
      X.pbkdf2 sIdLocal cipher key .encrypt = (some current, db') := by
    rw [AuthDbs.coderSecretGet, hfound]
    dsimp only
    split
    · exact ⟨_, _, rfl⟩
    · obtain ⟨secret, hsecret⟩ := hderived auth'.pwd
      rw [hsecret]
      exact ⟨_, _, rfl⟩
  obtain ⟨new, hnew⟩ := hderived auth'.newPwd
  refine ⟨current, new, ?_⟩
  rw [challengeEncode, if_neg Bool.false_ne_true, hget]
  dsimp only
  rw [hpwd]
  dsimp only
  rw [hcurrent]
  dsimp only
  rw [hnew]

/-- The pad of a challenge that is encoded, by a site that has an identifier. -/
theorem challengeMessages_ok {draws : ChallengeDraws cipher} {now : HoroDate} {login : Bytes}
    {pwdB64 : CString} {current new : Bytes} {c : Challenge}
    (h : Coder.challengeMessages C A X cipher sIdLocal draws now login pwdB64 current new = .ok c) :
    challengePad C A draws.padRand pwdB64 = .ok c.pad ∧ (CString.ofBytes sIdLocal).strlen ≠ 0 := by
  obtain ⟨request, -, h⟩ := Outcome.bind_eq_ok.mp h
  obtain ⟨pad, hpad, h⟩ := Outcome.bind_eq_ok.mp h
  obtain ⟨ping, -, h⟩ := Outcome.bind_eq_ok.mp h
  obtain ⟨payload, hpayload, h⟩ := Outcome.bind_eq_ok.mp h
  cases h
  refine ⟨hpad, fun hsId => ?_⟩
  -- the frame is checked before it is written
  obtain ⟨j, hjson, -⟩ := Outcome.bind_eq_ok.mp hpayload
  obtain ⟨_, hcheck, -⟩ := Outcome.bind_eq_ok.mp hjson
  rw [messageCheckFields_drawn draws (by simp), fieldsCheck, nonEmpty, if_pos hsId] at hcheck
  cases hcheck

/-- With libraries that work, and a site that has an identifier, the pad is right up to the
longest password whose pad has its length in a `char`. -/
theorem challengeEncode_padRight_iff (C : CharSign) {A : Allocator}
    (hA : ∀ n < 2 ^ 16, A.grants n = true) (hX : Works X cipher)
    (draws : ChallengeDraws cipher) (now : HoroDate) {login sIdRemote pwdB64 : Bytes}
    {db : AuthDbs} {key : AuthKey} {auth auth' : AuthEntry}
    (hget : coderAuthGet db (some login) sIdRemote .encrypt = some (key, auth))
    (hpwd : authGetNewPwdB64 draws.rand auth = .ok (auth', pwdB64))
    (hlow : authPwdLenMin ≤ auth'.newPwd.length) (hhigh : auth'.newPwd.length ≤ authPwdLenMax) :
    PadRight C (.ofBytes pwdB64)
        (challengeEncode C A X cipher sIdLocal draws now false login sIdRemote db).1 ↔
      auth'.newPwd.length ≤ C.longest ∧ (CString.ofBytes sIdLocal).strlen ≠ 0 := by
  obtain ⟨-, rfl, -⟩ := authGetNewPwdB64_ok hpwd
  obtain ⟨current, new, hmessages⟩ := hX.challengeEncode_eq C A sIdLocal draws now hget hpwd
  rw [hmessages, ← padLen_eq_iff C hhigh]
  constructor
  · rintro ⟨-, c, hc, hlen⟩
    obtain ⟨hpad, hsId⟩ := challengeMessages_ok hc
    have hpadLen := challengePad_strlen hpad
    exact ⟨by omega, hsId⟩
  · rintro ⟨hlen, hsId⟩
    have hstrlen := strlen_base64 auth'.newPwd
    have hlongest := (padLen_eq_iff C hhigh).mp hlen
    have hmax : C.longest ≤ 180 := by cases C <;> decide
    unfold authPwdLenMin at hlow
    have hcast : padLen C (.ofBytes (base64Encode auth'.newPwd)) =
        ((CString.ofBytes (base64Encode auth'.newPwd)).strlen + 12 : Nat) := by
      rw [hlen]
      omega
    obtain ⟨pad, hpad, hpadLen⟩ := challengePad_ok draws.padRand hcast (by omega)
      (hA _ (by omega))
    obtain ⟨payload, hpayload⟩ := hX.challengeMessages hsId draws now key.login (by omega)
      (by omega) current new hpad (by omega)
    refine ⟨?_, _, hpayload, hpadLen⟩
    rw [padRequest, toSizeT, hlen]
    omega

/-! ### Passwords of 8 and of 85 bytes

The longest password whose pad is right where a `char` is signed is shorter than 85 bytes. -/

/-- json-c prints every value, and every block below `PTRDIFF_MAX` is granted. -/
def printingExt : CoderExt :=
  { plainExt [] with json := ⟨fun _ => none, fun j => some j.toText⟩ }

def largeAllocator : Allocator := .all

theorem printingExt_works : Works printingExt .aes256Gcm where
  prints _ := ⟨_, rfl⟩
  laysOut := by
    intro j text h
    cases h
    exact ⟨ascii " ", by simp [ascii], rfl⟩
  encrypts _ _ _ := ⟨_, rfl⟩
  derives _ _ _ _ := ⟨_, rfl⟩

/-- A store whose entry has a password of this length. -/
def storeOfLength (n : Nat) : AuthDbs :=
  AuthDbs.authNew ⟨1457012463, 0⟩ .empty senderKey (List.replicate n 0x61) none true [] false

def sameDraws : ChallengeDraws .aes256Gcm :=
  let mId := pingMessage.mId
  { mIdRequest := mId, mIdPing := mId, mIdEncrypted := mId, rand := fun _ => 7,
    padRand := fun _ => 7, ivRequest := List.replicate 12 7, ivPing := List.replicate 12 7,
    isUuid := by
      intro a ha
      simp only [List.mem_cons, List.not_mem_nil, or_false, or_self] at ha
      rw [ha]
      exact ⟨⟨ascii "8a3fe1b2-6c7d-4e1a-9b2c-0d4f5e6a7b8c", by decide⟩, rfl, rfl⟩
    isIv := by
      intro iv hiv
      simp only [List.mem_cons, List.not_mem_nil, or_false, or_self] at hiv
      rw [hiv]
      rfl }

theorem storeOfLength_get {n : Nat} (hn : 0 < n) :
    coderAuthGet (storeOfLength n) (some (ascii "log-001")) (ascii "sId-2") .encrypt =
      some (senderKey, ⟨true, List.replicate n 0x61, ⟨1457012463, 0⟩, false, []⟩) := by
  obtain ⟨n, rfl⟩ : ∃ m, n = m + 1 := ⟨n - 1, by omega⟩
  rfl

/-- The password that is drawn for it, in base64. -/
def drawnPwdB64 (n : Nat) : Bytes := base64Encode (newPwdBytes sameDraws.rand n)

theorem storeOfLength_newPwd {n : Nat} (hlow : authPwdLenMin ≤ n) (hhigh : n ≤ authPwdLenMax) :
    authGetNewPwdB64 sameDraws.rand ⟨true, List.replicate n 0x61, ⟨1457012463, 0⟩, false, []⟩ =
      .ok (⟨true, List.replicate n 0x61, ⟨1457012463, 0⟩, true, newPwdBytes sameDraws.rand n⟩,
        drawnPwdB64 n) := by
  have hlen : ¬ (n < authPwdLenMin ∨ authPwdLenMax < n) := by omega
  simp [authGetNewPwdB64, authGenNewPwd, hlen, drawnPwdB64]

/-- The challenge of a password of this length. -/
def challengeOfLength (C : CharSign) (n : Nat) : Outcome Challenge :=
  (challengeEncode C largeAllocator printingExt .aes256Gcm (ascii "sId-1") sameDraws
    ⟨1457012463, 0⟩ false (ascii "log-001") (ascii "sId-2") (storeOfLength n)).1

theorem challengeEncode_padRight_eight :
    PadRight .signed (.ofBytes (drawnPwdB64 8)) (challengeOfLength .signed 8) := by
  have hgrants : ∀ n < 2 ^ 16, largeAllocator.grants n = true := by
    intro n hn
    exact decide_eq_true (by omega)
  exact (challengeEncode_padRight_iff .signed hgrants printingExt_works sameDraws _
    (storeOfLength_get (by decide)) (storeOfLength_newPwd (by decide) (by decide)) (by simp; decide)
    (by simp; decide)).mpr ⟨by simp; decide, by decide⟩

/-- A login with a password of 85 bytes, where `char` is signed. -/
theorem not_padRight : ¬ ∀ C n, authPwdLenMin ≤ n → n ≤ authPwdLenMax →
    PadRight C (.ofBytes (drawnPwdB64 n)) (challengeOfLength C n) := by
  intro h
  have hright := h .signed 85 (by decide) (by decide)
  have hrequest : padRequest .signed (.ofBytes (drawnPwdB64 85)) = 2 ^ 64 - 127 := by
    decide +kernel
  have hlen : (CString.ofBytes (drawnPwdB64 85)).strlen = 116 := by decide +kernel
  rw [PadRight, hrequest, hlen] at hright
  exact absurd hright.1 (by decide)

end RsmpGateway.Coder
