import RsmpGateway.Coder.Encrypted

/-!
# From one peer to the other

What a peer encodes with an entry for sending, the other decodes with the entry for receiving of
the same login, when both have the same password: the two passphrases are equal
(`passphrase_eq`), so are the keys, and each stage of the decoder undoes one of the encoder
(`decode_encode`).

The library of ciphers, json-c and the host are parameters, with what is assumed of them in
`CoderExt.Lawful`. The plain texts may be any, in any number, with their times; these must be
after the first second of 1970, since `ptxt_extract_timestamp` refuses the others
(`decode_encode_epoch`). A secret that is cached must be that of the current password.
-/

namespace RsmpGateway.Coder

open RsmpGateway.Lib RsmpGateway.Crypt RsmpGateway.Auth

/-- Both sides make the same passphrase. -/
theorem passphrase_eq (sIdA sIdB login : Bytes) (pwd : AuthPwd) :
    getPassphraseForPwd sIdA ⟨authToDbId, login, sIdB⟩ .encrypt pwd =
      getPassphraseForPwd sIdB ⟨authFromDbId, login, sIdA⟩ .decrypt pwd := rfl

/-- What is assumed of what comes from outside. -/
structure CoderExt.Lawful (X : CoderExt) : Prop where
  json : X.json.Lawful
  date : X.strGmtHorodate.Lawful
  zone : X.zone.Lawful
  evp : X.evp.Lawful
  pbkdf2 : ∀ passphrase salt iterations n,
    ∃ key, X.pbkdf2 passphrase salt iterations n = some key ∧ key.length = n

variable {X : CoderExt} {cipher : Cipher} {sIdLocal : Bytes}

theorem CoderExt.Lawful.derived (hX : X.Lawful) (cipher : Cipher) (sIdLocal : Bytes)
    (key : AuthKey) (action : CoderAction) (pwd : AuthPwd) :
    ∃ secret, derivedSecret X.pbkdf2 sIdLocal cipher key action pwd = some secret ∧
      secret.length = cipher.keyLen :=
  hX.pbkdf2 _ _ _ _

/-! ### The entry and its secret

`coder_secret_get` takes the secret that the entry caches for the cipher, or derives it and
caches it. Either way it is the same for each element of a frame. -/

/-- The entry found for a login, and its secret. -/
structure Ready (X : CoderExt) (cipher : Cipher) (sIdLocal : Bytes) (db : AuthDbs)
    (login : Option Bytes) (sIdRemote : Bytes) (action : CoderAction) (key : AuthKey)
    (secret : Bytes) : Prop where
  get : ∃ auth, coderAuthGet db login sIdRemote action = some (key, auth)
  secret : HasSecret X.pbkdf2 sIdLocal cipher db key action secret

theorem coderAuthGet_find {db : AuthDbs} {login : Option Bytes} {sIdRemote : Bytes}
    {action : CoderAction} {key : AuthKey} {auth : AuthEntry}
    (h : coderAuthGet db login sIdRemote action = some (key, auth)) :
    ∃ it, db.authFindByKey key = some it ∧ it.auth = auth := by
  cases action with
  | encrypt =>
    obtain ⟨it, -, hit, hauth⟩ := coderAuthGet_encrypt h
    exact ⟨it, hit, hauth⟩
  | decrypt =>
    cases login with
    | none => cases h
    | some login =>
      obtain ⟨it, hit, -, hr⟩ := coderAuthGet_decrypt h
      cases hr
      exact ⟨it, hit, rfl⟩

/-- The secret is found, and stays. -/
theorem Ready.coderSecretGet {db : AuthDbs} {login : Option Bytes} {sIdRemote : Bytes}
    {action : CoderAction} {key : AuthKey} {secret : Bytes}
    (h : Ready X cipher sIdLocal db login sIdRemote action key secret) :
    ∃ db', db.coderSecretGet X.pbkdf2 sIdLocal cipher key action = (some secret, db') ∧
      Ready X cipher sIdLocal db' login sIdRemote action key secret := by
  obtain ⟨auth, hget⟩ := h.get
  obtain ⟨it, hit, -⟩ := coderAuthGet_find hget
  obtain ⟨db', hsecret, hready, hsame⟩ := h.secret.get hit
  refine ⟨db', hsecret, ⟨auth, ?_⟩, hready⟩
  rw [coderAuthGet, hsame]
  exact hget

/-! ## One element

The stages of an element: the plain text is put in an object, printed, encrypted and encoded. -/

theorem coderEncrypt_ready {db : AuthDbs} {login : Option Bytes} {sIdRemote : Bytes}
    {key : AuthKey} {secret : Bytes}
    (h : Ready X cipher sIdLocal db login sIdRemote .encrypt key secret) {input iv text : Bytes}
    (htext : encryptAes X.evp cipher iv secret input = .ok text) :
    ∃ db', coderEncrypt X cipher sIdLocal login sIdRemote input iv db = (.ok (key, text), db') ∧
      Ready X cipher sIdLocal db' login sIdRemote .encrypt key secret := by
  obtain ⟨auth, hget⟩ := h.get
  obtain ⟨db', hsecret, hready⟩ := h.coderSecretGet
  refine ⟨db', ?_, hready⟩
  simp only [coderEncrypt, hget, hsecret, htext]
  rfl

theorem decodeElement_ready {db : AuthDbs} {login sIdRemote : Bytes} {key : AuthKey}
    {secret : Bytes} (h : Ready X cipher sIdLocal db (some login) sIdRemote .decrypt key secret)
    {input text : Bytes} (hnul : (0 : UInt8) ∉ input)
    (htext : decryptAes X.evp cipher secret input = .ok text) (now : HoroDate) :
    ∃ db', decodeElement X cipher sIdLocal now (some login) (some sIdRemote) (.str input) db =
        (readPtxt X now text, db') ∧
      Ready X cipher sIdLocal db' (some login) sIdRemote .decrypt key secret := by
  obtain ⟨auth, hget⟩ := h.get
  obtain ⟨db', hsecret, hready⟩ := h.coderSecretGet
  refine ⟨db', ?_, hready⟩
  simp only [decodeElement, coderDecrypt, Json.getString, hget, hsecret, cstr_eq_self hnul, htext]

/-- A plain text that was serialized is read. -/
theorem readPtxt_serialized (hX : X.Lawful) {ptxt : Ptxt} (hmade : ptxt.Made)
    (hdated : ptxt.Dated) (hlocal : X.zone.Reads ptxt.timestamp.sec) {now : HoroDate}
    (hwindow : timeAdmitted X.toTextExt now ptxt.toMs.timestamp = true) {text : Bytes}
    (htext : ptxtSerialize X.toTextExt ptxt = .ok text) :
    readPtxt X now text = .ok (some ptxt.toMs) := by
  have hnul : (0 : UInt8) ∉ text := by
    rw [ptxtSerialize] at htext
    split at htext
    · next hprint =>
      cases htext
      exact hX.json.nul hprint
    · cases htext
  have hvalid : ptxtIsValid X.toTextExt now ptxt.toMs = true := by
    rw [ptxtIsValid, hwindow, Bool.true_and]
    exact hmade.marked
  rw [readPtxt, cstr_eq_self hnul,
    ptxtDeserial_ptxtSerialize hX.json hX.date hX.zone hmade hdated hlocal htext]
  simp [hvalid]

/-! ## A frame

The elements are decoded in order, and the secret of the entry is the same for all of them. -/

/-- What the plain texts and the draws must be. -/
structure Sendable (X : CoderExt) (cipher : Cipher) (ptxts : List Ptxt) (ivs : Nat → Bytes)
    (now : Nat → HoroDate) : Prop where
  made : ∀ p ∈ ptxts, p.Made
  dated : ∀ p ∈ ptxts, p.Dated
  localTime : ∀ p ∈ ptxts, X.zone.Reads p.timestamp.sec
  window : ∀ i, ∀ p ∈ ptxts, timeAdmitted X.toTextExt (now i) p.toMs.timestamp = true
  ivs : ∀ i, (ivs i).length = cipher.ivSize
  prints : ∀ p ∈ ptxts, (X.json.print (ptxtJson X.toTextExt p)).isSome

theorem Sendable.tail {p : Ptxt} {ptxts : List Ptxt} {ivs : Nat → Bytes} {now : Nat → HoroDate}
    (h : Sendable X cipher (p :: ptxts) ivs now) :
    Sendable X cipher ptxts (fun i => ivs (i + 1)) (fun i => now (i + 1)) where
  made q hq := h.made q (List.mem_cons_of_mem _ hq)
  dated q hq := h.dated q (List.mem_cons_of_mem _ hq)
  localTime q hq := h.localTime q (List.mem_cons_of_mem _ hq)
  window i q hq := h.window (i + 1) q (List.mem_cons_of_mem _ hq)
  ivs i := h.ivs (i + 1)
  prints q hq := h.prints q (List.mem_cons_of_mem _ hq)

/-- The elements, one after the other. -/
theorem decodeElements_encodeElements (hX : X.Lawful) {sIdA sIdB loginB : Bytes}
    {login : Option Bytes} {keyA keyB : AuthKey} {secret : Bytes}
    (hsecret : secret.length = cipher.keyLen) {ptxts : List Ptxt} {ivs : Nat → Bytes}
    {now : Nat → HoroDate} (hsend : Sendable X cipher ptxts ivs now) {dbA dbB : AuthDbs}
    (hA : Ready X cipher sIdA dbA login sIdB .encrypt keyA secret)
    (hB : Ready X cipher sIdB dbB (some loginB) sIdA .decrypt keyB secret) :
    ∃ es dbA' dbB', encodeElements X cipher sIdA login sIdB ptxts ivs dbA = (.ok es, dbA') ∧
      (∀ e ∈ es, e.1 = keyA) ∧ es.length = ptxts.length ∧
      decodeElements X cipher sIdB (some loginB) (some sIdA) (es.map fun e => .str e.2) now dbB =
        (.ok (ptxts.map Ptxt.toMs), dbB') := by
  induction ptxts generalizing ivs now dbA dbB with
  | nil =>
    refine ⟨[], dbA, dbB, rfl, ?_, rfl, rfl⟩
    intro e he
    cases he
  | cons p ptxts ih =>
    have hp : p ∈ p :: ptxts := List.mem_cons_self
    obtain ⟨text, hprint⟩ := Option.isSome_iff_exists.mp (hsend.prints p hp)
    have hserial : ptxtSerialize X.toTextExt p = .ok text := by rw [ptxtSerialize, hprint]
    have hne : text ≠ [] := by
      rintro rfl
      have := hX.json.parse_print hprint
      rw [hX.json.parse_nil] at this
      cases this
    -- the stages of the first element
    obtain ⟨sealed, henc, hdec⟩ := decryptAes_encryptAes hX.evp hsecret (hsend.ivs 0) hne
      (hX.json.length hprint)
    have hnul : (0 : UInt8) ∉ sealed := by
      obtain ⟨_, _, _, rfl⟩ : ∃ iv tag text, sealed = base64Encode (iv ++ tag ++ text) := by
        rw [encryptAes, if_neg hne] at henc
        split at henc
        · cases henc
        · cases henc
          exact ⟨_, _, _, rfl⟩
      exact nul_not_mem_base64Encode _
    -- both stores have cached the secret, and are still ready
    obtain ⟨dbA₁, hcoder, hA₁⟩ := coderEncrypt_ready hA henc
    obtain ⟨dbB₁, hread, hB₁⟩ := decodeElement_ready hB hnul hdec (now 0)
    rw [readPtxt_serialized hX (hsend.made p hp) (hsend.dated p hp) (hsend.localTime p hp)
      (hsend.window 0 p hp) hserial] at hread
    obtain ⟨es, dbA₂, dbB₂, hes, hkeys, hlen, hrest⟩ := ih hsend.tail hA₁ hB₁
    refine ⟨(keyA, sealed) :: es, dbA₂, dbB₂, ?_, ?_, ?_, ?_⟩
    · simp only [encodeElements, hserial, hcoder, hes]
    · intro e he
      rcases List.mem_cons.mp he with rfl | he
      · rfl
      · exact hkeys e he
    · rw [List.length_cons, List.length_cons, hlen]
    · simp only [List.map_cons, decodeElements, hread, hrest, Option.toList_some,
        List.singleton_append]

/-! ### The header

The header names the login and the sender. The receiver finds its entry by them. -/

/-- The header of a frame that json-c printed. -/
theorem frameHeader_encryptedJson (hJ : X.json.Lawful) {mId sId login text : Bytes}
    {data : List Bytes} (hne : data ≠ []) (hsId : (0 : UInt8) ∉ sId)
    (hlogin : (0 : UInt8) ∉ login)
    (h : X.json.print (encryptedJson mId sId login data) = some text) :
    frameHeader X text = .ok ⟨some login, some sId, data.map .str⟩ := by
  have hmType : cstr (ascii "eRMsg") = ascii "eRMsg" := by decide
  have htype : cstr (ascii "Encrypted") = ascii "Encrypted" := by decide
  obtain ⟨d, ds, rfl⟩ := List.exists_cons_of_ne_nil hne
  have h1 : (encryptedJson mId sId login (d :: ds)).get? (ascii "mType") =
      some (.str (ascii "eRMsg")) := rfl
  have h2 : (encryptedJson mId sId login (d :: ds)).get? (ascii "type") =
      some (.str (ascii "Encrypted")) := rfl
  have h3 : (encryptedJson mId sId login (d :: ds)).get? (ascii "mId") = some (.str mId) := rfl
  have h4 : (encryptedJson mId sId login (d :: ds)).get? (ascii "login") = some (.str login) := rfl
  have h5 : (encryptedJson mId sId login (d :: ds)).get? (ascii "sId") = some (.str sId) := rfl
  have h6 : (encryptedJson mId sId login (d :: ds)).get? (ascii "data") =
      some (.arr ((d :: ds).map .str)) := rfl
  simp only [frameHeader, hJ.parse_print h, h1, h2, h3, h4, h5, h6, Outcome.ofOption,
    Outcome.ok_bind, Json.getString, hmType, htype, ne_eq, not_true_eq_false, if_false,
    List.map_cons, Option.map_some, cstr_eq_self hsId, cstr_eq_self hlogin]

/-! ### Cached secrets

What a store caches for the cipher is derived from the password that it holds. A store that was
just filled caches nothing. -/

/-- No cached secret is that of another password. -/
def NoStale (X : CoderExt) (cipher : Cipher) (sIdLocal : Bytes) (db : AuthDbs) (key : AuthKey)
    (action : CoderAction) : Prop :=
  ∀ it, db.authFindByKey key = some it → ∀ secret, it.authSecretGet cipher.lib = some secret →
    derivedSecret X.pbkdf2 sIdLocal cipher key action it.auth.pwd = some secret

theorem Ready.ofNoStale {db : AuthDbs} {login : Option Bytes} {sIdRemote : Bytes}
    {action : CoderAction} {key : AuthKey} {auth : AuthEntry} {secret : Bytes}
    (hget : coderAuthGet db login sIdRemote action = some (key, auth))
    (hstale : NoStale X cipher sIdLocal db key action)
    (hsecret : derivedSecret X.pbkdf2 sIdLocal cipher key action auth.pwd = some secret) :
    Ready X cipher sIdLocal db login sIdRemote action key secret := by
  obtain ⟨it, hit, rfl⟩ := coderAuthGet_find hget
  refine ⟨⟨it.auth, hget⟩, ?_, ?_⟩
  · intro it' hit'
    rw [hit] at hit'
    cases hit'
    exact hsecret
  · intro it' hit' s hs
    have hderived := hstale it' hit' s hs
    rw [hit] at hit'
    cases hit'
    rw [hsecret] at hderived
    exact (Option.some.inj hderived).symm

section Peers

variable {sIdA sIdB : Bytes} {dbA dbB : AuthDbs} {login : Option Bytes} {key : AuthKey}
  {tx rx : AuthEntry}

/-- Two stores that hold the same password for a login, `A` for sending and `B` for
receiving, both active. -/
structure SamePassword (X : CoderExt) (cipher : Cipher) (sIdA sIdB : Bytes) (dbA dbB : AuthDbs)
    (login : Option Bytes) (key : AuthKey) : Prop where
  nul : (0 : UInt8) ∉ sIdA ∧ (0 : UInt8) ∉ key.login
  entries : ∃ tx rx, coderAuthGet dbA login sIdB .encrypt = some (key, tx) ∧
    coderAuthGet dbB (some key.login) sIdA .decrypt =
      some (⟨authFromDbId, key.login, sIdA⟩, rx) ∧ rx.pwd = tx.pwd
  noStaleA : NoStale X cipher sIdA dbA key .encrypt
  noStaleB : NoStale X cipher sIdB dbB ⟨authFromDbId, key.login, sIdA⟩ .decrypt

theorem SamePassword.ready (hX : X.Lawful)
    (h : SamePassword X cipher sIdA sIdB dbA dbB login key) :
    ∃ secret, secret.length = cipher.keyLen ∧
      Ready X cipher sIdA dbA login sIdB .encrypt key secret ∧
      Ready X cipher sIdB dbB (some key.login) sIdA .decrypt
        ⟨authFromDbId, key.login, sIdA⟩ secret := by
  obtain ⟨tx, rx, hA, hB, hpwd⟩ := h.entries
  obtain ⟨secret, hsecret, hlen⟩ := hX.derived cipher sIdA key .encrypt tx.pwd
  obtain ⟨_, hkey, -, -⟩ := coderAuthGet_encrypt hA
  refine ⟨secret, hlen, .ofNoStale hA h.noStaleA hsecret, .ofNoStale hB h.noStaleB ?_⟩
  rw [hpwd, ← hsecret, derivedSecret, derivedSecret, ← passphrase_eq, ← hkey]

/-- **End to end.** What `A` encodes, `B` decodes: the same texts in the same order, with
their classes and their times to the millisecond, and the entry of `A` for the login. -/
theorem decode_encode (hX : X.Lawful) (h : SamePassword X cipher sIdA sIdB dbA dbB login key)
    {ptxts : List Ptxt} (hne : ptxts ≠ []) {mId : Bytes} {ivs : Nat → Bytes}
    {now : Nat → HoroDate} (hsend : Sendable X cipher ptxts ivs now)
    (hframe : ∀ j db, encryptedFrame X cipher sIdA login sIdB ptxts mId ivs dbA = (.ok j, db) →
      (X.json.print j).isSome) :
    ∃ payload, (encryptedEncode X cipher sIdA login sIdB ptxts mId ivs dbA).1 = .ok payload ∧
      (encryptedDecode X cipher sIdB payload now dbB).1 =
        .ok (ptxts.map Ptxt.toMs, some ⟨authFromDbId, key.login, sIdA⟩) := by
  obtain ⟨secret, hlen, hA, hB⟩ := h.ready hX
  obtain ⟨es, dbA', dbB', hes, hkeys, hcount, hdec⟩ :=
    decodeElements_encodeElements hX hlen hsend hA hB
  have hes0 : es ≠ [] := by
    rintro rfl
    exact hne (List.length_eq_zero_iff.mp hcount.symm)
  -- the frame names the login of the last entry, which is that of all
  have hlast : (es.getLast hes0).1 = key := hkeys _ (List.getLast_mem hes0)
  have hjson : encryptedFrame X cipher sIdA login sIdB ptxts mId ivs dbA =
      (.ok (encryptedJson mId sIdA key.login (es.map Prod.snd)), dbA') := by
    simp only [encryptedFrame, hes, List.getLast?_eq_getLast_of_ne_nil hes0, hlast]
  obtain ⟨payload, hprint⟩ := Option.isSome_iff_exists.mp (hframe _ _ hjson)
  refine ⟨payload, ?_, ?_⟩
  · simp only [encryptedEncode, hjson, hprint]
  · have hheader := frameHeader_encryptedJson hX.json (by simpa using hes0) h.nul.1 h.nul.2 hprint
    obtain ⟨rx, hget⟩ := hB.get
    have hfind : coderAuthFind dbB (some key.login) sIdA .decrypt =
        some (⟨authFromDbId, key.login, sIdA⟩, rx) := (Option.filter_eq_some_iff.mp hget).1
    rw [List.map_map] at hheader
    have hdata : (Json.str ∘ Prod.snd : AuthKey × Bytes → Json) = fun e => .str e.2 := rfl
    rw [hdata] at hheader
    obtain ⟨p, ps, rfl⟩ := List.exists_cons_of_ne_nil hne
    simp only [encryptedDecode, hheader, hdec, List.map_cons, Option.bind_some, hfind,
      Option.map_some]

end Peers

/-! ### One message, from 2016 and from 1970

The round trip on one message, with a cipher that adds its key, and the time that is refused. -/

/-- A stream of bytes added to the data. -/
def xorBytes (stream data : Bytes) : Bytes :=
  data.mapIdx fun i c => c ^^^ stream.getD (i % stream.length) 0

theorem xorBytes_xorBytes (stream data : Bytes) :
    xorBytes stream (xorBytes stream data) = data := by
  apply List.ext_getElem
  · simp [xorBytes]
  · intro i h _
    simp only [xorBytes, List.getElem_mapIdx]
    rw [UInt8.xor_assoc, UInt8.xor_self, UInt8.xor_zero]

/-- A cipher that adds the key and the vector to the data. -/
def xorEvp : Evp where
  encrypt _ key iv data := some (xorBytes (key ++ iv) data, List.replicate tagSize 0)
  decrypt _ key iv _ text := some (xorBytes (key ++ iv) text)
  setTag _ := true

theorem xorEvp_lawful : xorEvp.Lawful where
  decrypt_encrypt := by
    intro cipher key iv data _ _ _
    refine ⟨xorBytes (key ++ iv) data, List.replicate tagSize 0, rfl, List.length_replicate, ?_⟩
    exact congrArg some (xorBytes_xorBytes _ _)
  setTag _ := rfl

/-- The coder in UTC, with json-c for a list of values, and no time window. -/
def plainExt (values : List Json) : CoderExt where
  json := .ofValues values
  strGmtHorodate := zuluText
  zone := .utc
  junk := ⟨0, 0, 0, 0, 0, 0⟩
  diffHorodateMs a b := (a.sec - b.sec) * 1000 + (a.nsec - b.nsec) / 1000000
  timeWindows := -1
  evp := xorEvp
  pbkdf2 passphrase _ _ n := some ((passphrase ++ List.replicate n 0).take n)

theorem plainExt_lawful {values : List Json} (hnodup : (values.map Json.toText).Nodup)
    (htext : ∀ j ∈ values, j.toText ≠ [] ∧ (0 : UInt8) ∉ j.toText ∧ j.toText.length < 2 ^ 31) :
    (plainExt values).Lawful where
  json := by
    apply JsonLib.ofTable_lawful
    · rwa [List.map_map]
    · intro e he
      obtain ⟨j, hj, rfl⟩ := List.mem_map.mp he
      exact htext j hj
  date _ _ := rfl
  zone := Zone.utc_lawful
  evp := xorEvp_lawful
  pbkdf2 passphrase _ _ n := ⟨_, rfl, by simp⟩

/-- An internal message of a time. -/
def internalPtxt (ts : HoroDate) : Ptxt := ⟨ascii "\x7b \"mType\": \"eRMsg\" \x7d", .internal, ts⟩

theorem internalPtxt_made (ts : HoroDate) : (internalPtxt ts).Made := by
  refine ⟨ts, none, (internalPtxt ts).original, ?_, rfl⟩
  show (0 : UInt8) ∉ ascii "\x7b \"mType\": \"eRMsg\" \x7d"
  decide

def senderKey : AuthKey := ⟨authToDbId, ascii "log-001", ascii "sId-2"⟩

def receiverKey : AuthKey := ⟨authFromDbId, ascii "log-001", ascii "sId-1"⟩

/-- A store with one entry. -/
def storeOf (key : AuthKey) : AuthDbs :=
  AuthDbs.authNew ⟨1457012463, 0⟩ .empty key (ascii "password") none true [] false

theorem storeOf_samePassword (values : List Json) (cipher : Cipher) :
    SamePassword (plainExt values) cipher (ascii "sId-1") (ascii "sId-2") (storeOf senderKey)
      (storeOf receiverKey) none senderKey where
  nul := ⟨by decide, by decide⟩
  entries := ⟨_, _, rfl, rfl, rfl⟩
  noStaleA := by
    intro it hit secret hsecret
    cases hit
    cases hsecret
  noStaleB := by
    intro it hit secret hsecret
    cases hit
    cases hsecret

/-- The frame of one message, in AES256GCM. -/
def plainFrame (values : List Json) (ts : HoroDate) : Outcome Json × AuthDbs :=
  encryptedFrame (plainExt values) .aes256Gcm (ascii "sId-1") none (ascii "sId-2")
    [internalPtxt ts] (ascii "mId") (fun _ => List.replicate 12 7) (storeOf senderKey)

/-- The values that are printed on the way: the message, and the frame. -/
def printedValues (ts : HoroDate) : List Json :=
  let ptxt := ptxtJson (plainExt []).toTextExt (internalPtxt ts)
  match (plainFrame [ptxt] ts).1 with
  | .ok frame => [ptxt, frame]
  | _ => [ptxt]

/-- A time of 2016, at which the message is sent and read. -/
def ts2016 : HoroDate := ⟨1457012463, 789012345⟩

/-- The first second of 1970. -/
def ts1970 : HoroDate := ⟨0, 0⟩

theorem printedValues_lawful {ts : HoroDate} (h : ts = ts2016 ∨ ts = ts1970) :
    (plainExt (printedValues ts)).Lawful := by
  rcases h with rfl | rfl
  · exact plainExt_lawful (by decide +kernel) (by decide +kernel)
  · exact plainExt_lawful (by decide +kernel) (by decide +kernel)

theorem internalPtxt_sendable : Sendable (plainExt (printedValues ts2016)) .aes256Gcm
    [internalPtxt ts2016] (fun _ => List.replicate 12 7) (fun _ => ts2016) where
  made p hp := by
    obtain rfl := List.mem_singleton.mp hp
    exact internalPtxt_made ts2016
  dated p hp := by
    obtain rfl := List.mem_singleton.mp hp
    exact ⟨⟨by decide, by decide⟩, by decide⟩
  localTime p _ := Zone.utc_reads _
  window i p hp := by
    obtain rfl := List.mem_singleton.mp hp
    rfl
  ivs _ := rfl
  prints p hp := by
    obtain rfl := List.mem_singleton.mp hp
    decide

/-- The message of 2016 is read, to the millisecond. -/
theorem decode_encode_2016 :
    ∃ payload, (encryptedEncode (plainExt (printedValues ts2016)) .aes256Gcm (ascii "sId-1") none
        (ascii "sId-2") [internalPtxt ts2016] (ascii "mId") (fun _ => List.replicate 12 7)
        (storeOf senderKey)).1 = .ok payload ∧
      (encryptedDecode (plainExt (printedValues ts2016)) .aes256Gcm (ascii "sId-2") payload
        (fun _ => ts2016) (storeOf receiverKey)).1 =
          .ok ([internalPtxt ⟨1457012463, 789000000⟩], some receiverKey) := by
  have hprints : (match (plainFrame (printedValues ts2016) ts2016).1 with
      | .ok j => ((plainExt (printedValues ts2016)).json.print j).isSome
      | _ => true) = true := by decide +kernel
  have hframe : ∀ j db, plainFrame (printedValues ts2016) ts2016 = (.ok j, db) →
      ((plainExt (printedValues ts2016)).json.print j).isSome := by
    intro j db h
    rw [h] at hprints
    exact hprints
  exact decode_encode (printedValues_lawful (.inl rfl)) (storeOf_samePassword _ _)
    (List.cons_ne_nil _ _) internalPtxt_sendable hframe

/-- That of the first second of 1970 is encoded, and the receiver reads nothing of it. -/
theorem decode_encode_epoch :
    (plainExt (printedValues ts1970)).Lawful ∧
      SamePassword (plainExt (printedValues ts1970)) .aes256Gcm (ascii "sId-1") (ascii "sId-2")
        (storeOf senderKey) (storeOf receiverKey) none senderKey ∧
      (internalPtxt ts1970).Made ∧
      timeAdmitted (plainExt (printedValues ts1970)).toTextExt ts1970 ts1970 = true ∧
      ∃ payload, (encryptedEncode (plainExt (printedValues ts1970)) .aes256Gcm (ascii "sId-1")
          none (ascii "sId-2") [internalPtxt ts1970] (ascii "mId")
          (fun _ => List.replicate 12 7) (storeOf senderKey)).1 = .ok payload ∧
        (encryptedDecode (plainExt (printedValues ts1970)) .aes256Gcm (ascii "sId-2") payload
          (fun _ => ts1970) (storeOf receiverKey)).1 = .err := by
  refine ⟨printedValues_lawful (.inr rfl), storeOf_samePassword _ _, internalPtxt_made _, rfl,
    ((printedValues ts1970).getD 1 .null).toText, ?_, ?_⟩
  · decide +kernel
  · decide +kernel

end RsmpGateway.Coder
