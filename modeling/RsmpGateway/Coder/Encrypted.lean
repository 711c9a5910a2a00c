import RsmpGateway.Coder.Key
import RsmpGateway.Coder.Ptxt
import RsmpGateway.Crypt.Aes

/-!
# Encrypted frames

`Encrypted_encode` and `Encrypted_decode`. A frame names its sender and a login; every
element of its data is encrypted with the entry of that login. An element that cannot be
read is left out, and a frame of which nothing is read is an error.
-/

namespace RsmpGateway.Coder

open RsmpGateway.Lib RsmpGateway.Crypt RsmpGateway.Auth

/-- What the coder takes from outside, with the ciphers. -/
structure CoderExt extends TextExt where
  evp : Evp
  pbkdf2 : Pbkdf2

variable (X : CoderExt) (cipher : Cipher) (sIdLocal : Bytes)

/-! ## Encoding

One entry and one secret for all the elements of a frame. -/

/-- `coder_encrypt`, with the store and the entry. -/
def coderEncrypt (login : Option Bytes) (sIdRemote input iv : Bytes) (db : AuthDbs) :
    Outcome (AuthKey × Bytes) × AuthDbs :=
  match coderAuthGet db login sIdRemote .encrypt with
  | none => (.err, db)
  | some (key, _) =>
    match db.coderSecretGet X.pbkdf2 sIdLocal cipher key .encrypt with
    | (none, db) => (.err, db)
    | (some secret, db) =>
      (do
        let text ← encryptAes X.evp cipher iv secret input
        return (key, text), db)

/-- The loop of `Encrypted_encode`: each string of the array, with its entry. `ivs` are the
vectors drawn. -/
def encodeElements (login : Option Bytes) (sId : Bytes) :
    List Ptxt → (Nat → Bytes) → AuthDbs → Outcome (List (AuthKey × Bytes)) × AuthDbs
  | [], _, db => (.ok [], db)
  | ptxt :: ptxts, ivs, db =>
    match ptxtSerialize X.toTextExt ptxt with
    | .fault => (.fault, db)
    | .err => (.err, db)
    | .ok text =>
      match coderEncrypt X cipher sIdLocal login sId text (ivs 0) db with
      | (.fault, db) => (.fault, db)
      | (.err, db) => (.err, db)
      | (.ok e, db) =>
        match encodeElements login sId ptxts (fun i => ivs (i + 1)) db with
        | (.ok es, db) => (.ok (e :: es), db)
        | r => r

/-- The JSON of a frame. -/
def encryptedJson (mId sId login : Bytes) (data : List Bytes) : Json :=
  .obj [(ascii "mType", .str (ascii "eRMsg")), (ascii "type", .str (ascii "Encrypted")),
    (ascii "mId", .str mId), (ascii "sId", .str sId), (ascii "data", .arr (data.map .str)),
    (ascii "login", .str login)]

/-- The frame that `Encrypted_encode` makes, before json-c prints it. -/
def encryptedFrame (login : Option Bytes) (sId : Bytes) (ptxts : List Ptxt) (mId : Bytes)
    (ivs : Nat → Bytes) (db : AuthDbs) : Outcome Json × AuthDbs :=
  match encodeElements X cipher sIdLocal login sId ptxts ivs db with
  | (.ok es, db) =>
    match es.getLast? with
    | none => (.err, db)
    | some (key, _) => (.ok (encryptedJson mId sIdLocal key.login (es.map Prod.snd)), db)
  | (.err, db) => (.err, db)
  | (.fault, db) => (.fault, db)

/-- `Encrypted_encode`. `mId` is the identifier drawn. -/
def encryptedEncode (login : Option Bytes) (sId : Bytes) (ptxts : List Ptxt) (mId : Bytes)
    (ivs : Nat → Bytes) (db : AuthDbs) : Outcome Bytes × AuthDbs :=
  match encryptedFrame X cipher sIdLocal login sId ptxts mId ivs db with
  | (.ok j, db) =>
    match X.json.print j with
    | some text => (.ok text, db)
    | none => (.fault, db)
  | (.err, db) => (.err, db)
  | (.fault, db) => (.fault, db)

/-! ## Decoding

The secret of the entry is looked for with each element. -/

/-- `coder_decrypt`. A missing `sId` or element stops the process. -/
def coderDecrypt (login sIdRemote input : Option Bytes) (db : AuthDbs) :
    Outcome Bytes × AuthDbs :=
  match sIdRemote with
  | none => (.fault, db)
  | some sIdRemote =>
    match coderAuthGet db login sIdRemote .decrypt with
    | none => (.err, db)
    | some (key, _) =>
      match db.coderSecretGet X.pbkdf2 sIdLocal cipher key .decrypt with
      | (none, db) => (.err, db)
      | (some secret, db) =>
        match input with
        | none => (.fault, db)
        | some input => (decryptAes X.evp cipher secret (cstr input), db)

/-- What is decrypted, when it is a valid plain text. -/
def readPtxt (now : HoroDate) (text : Bytes) : Outcome (Option Ptxt) :=
  match ptxtDeserial X.toTextExt (cstr text) with
  | .ok ptxt => .ok (if ptxtIsValid X.toTextExt now ptxt then some ptxt else none)
  | .err => .ok none
  | .fault => .fault

/-- An element of the data: nothing where it is left out. -/
def decodeElement (now : HoroDate) (login sId : Option Bytes) (e : Json) (db : AuthDbs) :
    Outcome (Option Ptxt) × AuthDbs :=
  match coderDecrypt X cipher sIdLocal login sId (e.getString X.json) db with
  | (.ok text, db) => (readPtxt X now text, db)
  | (.err, db) => (.ok none, db)
  | (.fault, db) => (.fault, db)

/-- The loop of `Encrypted_decode`. `now` is the time at each element. -/
def decodeElements (login sId : Option Bytes) :
    List Json → (Nat → HoroDate) → AuthDbs → Outcome (List Ptxt) × AuthDbs
  | [], _, db => (.ok [], db)
  | e :: es, now, db =>
    match decodeElement X cipher sIdLocal (now 0) login sId e db with
    | (.fault, db) => (.fault, db)
    | (.err, db) => (.err, db)
    | (.ok ptxt, db) =>
      match decodeElements login sId es (fun i => now (i + 1)) db with
      | (.ok ptxts, db) => (.ok (ptxt.toList ++ ptxts), db)
      | r => r

/-! ### The frame that is received

The header is read before the elements. An element that cannot be read is left out, and the frame
fails when none is left. -/

/-- The members of a frame that the decoder reads. -/
structure FrameHeader where
  login : Option Bytes
  sId : Option Bytes
  data : List Json

/-- The checks of `Encrypted_decode` before its loop. A type that is `null` and data that are
no array stop the process. -/
def frameHeader (payload : Bytes) : Outcome FrameHeader := do
  let j ← Outcome.ofOption (X.json.parse payload)
  let mType ← Outcome.ofOption (j.get? (ascii "mType"))
  let type ← Outcome.ofOption (j.get? (ascii "type"))
  let _ ← Outcome.ofOption (j.get? (ascii "mId"))
  let login ← Outcome.ofOption (j.get? (ascii "login"))
  let sId ← Outcome.ofOption (j.get? (ascii "sId"))
  let data ← Outcome.ofOption (j.get? (ascii "data"))
  match mType.getString X.json, type.getString X.json with
  | none, _ => .fault
  | some mType, type =>
    if cstr mType ≠ ascii "eRMsg" then .err
    else
      match type with
      | none => .fault
      | some type =>
        if cstr type ≠ ascii "Encrypted" then .err
        else
          match data with
          | .arr [] => .err
          | .arr es =>
            .ok ⟨(login.getString X.json).map cstr, (sId.getString X.json).map cstr, es⟩
          | _ => .fault

/-- `Encrypted_decode`: the plain texts read and the entry they were read with. -/
def encryptedDecode (payload : Bytes) (now : Nat → HoroDate) (db : AuthDbs) :
    Outcome (List Ptxt × Option AuthKey) × AuthDbs :=
  match frameHeader X payload with
  | .fault => (.fault, db)
  | .err => (.err, db)
  | .ok ⟨login, sId, data⟩ =>
    let auth := (sId.bind fun sId => coderAuthFind db login sId .decrypt).map Prod.fst
    match decodeElements X cipher sIdLocal login sId data now db with
    | (.fault, db) => (.fault, db)
    | (.err, db) => (.err, db)
    | (.ok [], db) => (.err, db)
    | (.ok ptxts, db) => (.ok (ptxts, auth), db)

/-! ## What is read

A frame comes to the plain texts of its elements, in their order. -/

/-- An element changes nothing for those after it. -/
theorem decodeElement_again (now now' : HoroDate) (login sId : Option Bytes) (e e' : Json)
    (db : AuthDbs) :
    (decodeElement X cipher sIdLocal now' login sId e'
        (decodeElement X cipher sIdLocal now login sId e db).2).1 =
      (decodeElement X cipher sIdLocal now' login sId e' db).1 := by
  have hdb : (decodeElement X cipher sIdLocal now login sId e db).2 =
      (coderDecrypt X cipher sIdLocal login sId (e.getString X.json) db).2 := by
    unfold decodeElement
    split <;> next h => rw [h]
  have hdecrypt : ∀ input, (coderDecrypt X cipher sIdLocal login sId input
      (coderDecrypt X cipher sIdLocal login sId (e.getString X.json) db).2).1 =
      (coderDecrypt X cipher sIdLocal login sId input db).1 := by
    intro input
    cases sId with
    | none => rfl
    | some sId =>
      cases hget : coderAuthGet db login sId .decrypt with
      | none => simp only [coderDecrypt, hget]
      | some r =>
        obtain ⟨key, auth⟩ := r
        -- the store is as `coder_secret_get` leaves it
        have hstore : (coderDecrypt X cipher sIdLocal login (some sId) (e.getString X.json) db).2 =
            (db.coderSecretGet X.pbkdf2 sIdLocal cipher key .decrypt).2 := by
          simp only [coderDecrypt, hget]
          split
          · next h => rw [h]
          · next h =>
            rw [h]
            split <;> rfl
        obtain ⟨-, hsame⟩ := coderSecretGet_again X.pbkdf2 sIdLocal cipher db key .decrypt
        rw [hstore]
        simp only [coderDecrypt, coderAuthGet_coderSecretGet, hget]
        rcases hfirst : db.coderSecretGet X.pbkdf2 sIdLocal cipher key .decrypt with ⟨secret, db'⟩
        rcases hsecond : db'.coderSecretGet X.pbkdf2 sIdLocal cipher key .decrypt with
          ⟨secret', db''⟩
        rw [hfirst] at hsame
        obtain rfl : secret' = secret := by simpa only [hsecond] using hsame
        cases secret' with
        | none => rfl
        | some secret => cases input <;> rfl
  rw [hdb, decodeElement, decodeElement]
  have h := hdecrypt (e'.getString X.json)
  rcases hfirst : coderDecrypt X cipher sIdLocal login sId (e'.getString X.json) db with ⟨r, db'⟩
  rcases hsecond : coderDecrypt X cipher sIdLocal login sId (e'.getString X.json)
    (coderDecrypt X cipher sIdLocal login sId (e.getString X.json) db).2 with ⟨r', db''⟩
  rw [hfirst, hsecond] at h
  obtain rfl : r' = r := h
  cases r' <;> rfl

theorem decodeElement_ne_err (now : HoroDate) (login sId : Option Bytes) (e : Json)
    (db : AuthDbs) : (decodeElement X cipher sIdLocal now login sId e db).1 ≠ .err := by
  unfold decodeElement
  split
  · next text _ _ =>
    show readPtxt X now text ≠ .err
    unfold readPtxt
    split <;> exact nofun
  · exact nofun
  · exact nofun

/-- What cannot be read is left out. -/
theorem decodeElements_ne_err (login sId : Option Bytes) (es : List Json) (now : Nat → HoroDate)
    (db : AuthDbs) : (decodeElements X cipher sIdLocal login sId es now db).1 ≠ .err := by
  induction es generalizing now db with
  | nil => exact nofun
  | cons e es ih =>
    rw [decodeElements]
    have helem := decodeElement_ne_err X cipher sIdLocal (now 0) login sId e db
    rcases hx : decodeElement X cipher sIdLocal (now 0) login sId e db with ⟨r, db'⟩
    rw [hx] at helem
    cases r with
    | err => exact absurd rfl helem
    | fault => exact nofun
    | ok ptxt =>
      dsimp only
      have hrest := ih (fun i => now (i + 1)) db'
      rcases hx : decodeElements X cipher sIdLocal login sId es (fun i => now (i + 1)) db' with
        ⟨r, db''⟩
      rw [hx] at hrest
      cases r with
      | err => exact absurd rfl hrest
      | fault => exact nofun
      | ok ptxts => exact nofun

/-- What is read of a frame are the elements that are read of it. -/
theorem mem_decodeElements {login sId : Option Bytes} {es : List Json} {now : Nat → HoroDate}
    {db db' : AuthDbs} {ptxts : List Ptxt}
    (h : decodeElements X cipher sIdLocal login sId es now db = (.ok ptxts, db')) (ptxt : Ptxt) :
    ptxt ∈ ptxts ↔ ∃ i e, es[i]? = some e ∧
      (decodeElement X cipher sIdLocal (now i) login sId e db).1 = .ok (some ptxt) := by
  induction es generalizing now db ptxts with
  | nil =>
    cases h
    simp
  | cons e es ih =>
    rw [decodeElements] at h
    rcases helem : decodeElement X cipher sIdLocal (now 0) login sId e db with ⟨r, db₁⟩
    rw [helem] at h
    -- what the first element has cached changes nothing for the others
    have hagain : ∀ i (e' : Json),
        (decodeElement X cipher sIdLocal (now i) login sId e' db₁).1 =
          (decodeElement X cipher sIdLocal (now i) login sId e' db).1 := by
      intro i e'
      have := decodeElement_again X cipher sIdLocal (now 0) (now i) login sId e e' db
      rwa [helem] at this
    cases r with
    | err => cases h
    | fault => cases h
    | ok head =>
      dsimp only at h
      rcases hrest : decodeElements X cipher sIdLocal login sId es (fun i => now (i + 1)) db₁ with
        ⟨rest, db₂⟩
      rw [hrest] at h
      cases rest with
      | err => cases h
      | fault => cases h
      | ok rest =>
        cases h
        rw [List.mem_append, ih hrest]
        constructor
        · rintro (hhead | ⟨i, e', he, hread⟩)
          · refine ⟨0, e, rfl, ?_⟩
            rw [helem, Option.mem_toList.mp hhead]
          · refine ⟨i + 1, e', he, ?_⟩
            rw [← hagain]
            exact hread
        · rintro ⟨i, e', he, hread⟩
          cases i with
          | zero =>
            cases he
            rw [helem] at hread
            cases hread
            exact .inl (Option.mem_toList.mpr rfl)
          | succ i =>
            refine .inr ⟨i, e', he, ?_⟩
            rw [hagain]
            exact hread

end RsmpGateway.Coder
