import Mathlib.Data.List.Basic
import RsmpGateway.Coder.Extraction
import RsmpGateway.Coder.RoundTrip

/-!
# Elements of an encrypted frame

Each element of a frame is read on its own: the loop keeps nothing of one that the next would see,
but the secret cached on the entry, which is the same for all. What an element comes to is nothing,
a plain text, or the end of the process, and the last has three causes. An element that is `null`
meets an assertion. Base64 that is cut short, or bytes that are fewer than a vector, are read all
the same. And a plain text with a date before 1970 stops the line of the log that reports it.

Without these elements a frame comes to the plain texts that can be read of it, in their order, and
to an error when there are none (`isolates_iff`).
-/

namespace RsmpGateway.Coder

open RsmpGateway.Lib RsmpGateway.Crypt RsmpGateway.Auth

variable (X : CoderExt) (cipher : Cipher) (sIdLocal : Bytes)

/-! ## One element

The three ends of an element, and when it comes to each. -/

/-- The secret that the elements of a frame are decrypted with. -/
def frameSecret (login sId : Option Bytes) (db : AuthDbs) : Option Bytes :=
  sId.bind fun sId => (coderAuthGet db login sId .decrypt).bind fun e =>
    (db.coderSecretGet X.pbkdf2 sIdLocal cipher e.1 .decrypt).1

/-- The plain text of an element that is decrypted, deserialized and valid. -/
def elementPtxt (now : HoroDate) (login sId : Option Bytes) (db : AuthDbs) (e : Json) :
    Option Ptxt :=
  match (coderDecrypt X cipher sIdLocal login sId (e.getString X.json) db).1 with
  | .ok text =>
    match ptxtDeserial X.toTextExt (cstr text) with
    | .ok ptxt => if ptxtIsValid X.toTextExt now ptxt then some ptxt else none
    | _ => none
  | _ => none

/-- `decrypt_aes` can go through the text: whole groups of base64, for a vector at least, and not
all but one of the bytes that come before those that are encrypted. -/
structure Sized (cipher : Cipher) (text : Bytes) : Prop where
  groups : text.length % 4 = 0
  vector : cipher.ivSize ≤ text.length / 4 * 3 - base64Pad text
  header : text.length / 4 * 3 - base64Pad text + 1 ≠ headerSize cipher

/-- An element has a text, and a size. -/
def Bounded (e : Json) : Prop := ∃ text, e.getString X.json = some text ∧ Sized cipher (cstr text)

/-- The JSON of a plain text whose date is read as one before 1970. -/
def DatedBefore1970 (T : TextExt) (payload : Bytes) : Prop :=
  ∃ j str, T.json.parse payload = some j ∧
    ptxtJsonExtractField j (ascii "timestamp") = .ok str ∧ ReadBefore1970 T str

/-- An element that the secret opens to no date before 1970. -/
def NotBefore1970 (secret : Bytes) (e : Json) : Prop :=
  ∀ input text, e.getString X.json = some input →
    decryptAes X.evp cipher secret (cstr input) = .ok text →
    ¬ DatedBefore1970 X.toTextExt (cstr text)

variable {X cipher sIdLocal} {login sId : Option Bytes} {db : AuthDbs}

/-! ### Faults

Only two calls can stop the process at an element: `decrypt_aes` on a text that is too short for
what it reads of it, and the log call of `ptxt_extract_timestamp` on a date before 1970. All the
others end with a result or an error. -/

theorem decryptAes_fault_iff {V : Evp} {key text : Bytes} :
    decryptAes V cipher key text = .fault ↔ ¬ Sized cipher text := by
  have hsized : Sized cipher text ↔ text.length % 4 = 0 ∧
      cipher.ivSize ≤ text.length / 4 * 3 - base64Pad text ∧
      text.length / 4 * 3 - base64Pad text + 1 ≠ headerSize cipher :=
    ⟨fun h => ⟨h.groups, h.vector, h.header⟩, fun h => ⟨h.1, h.2.1, h.2.2⟩⟩
  rw [hsized, decryptAes, base64Decode]
  by_cases hmod : text.length % 4 = 0
  · have hlen : ((base64Groups text).take (text.length / 4 * 3 - base64Pad text)).length =
        text.length / 4 * 3 - base64Pad text := by
      rw [List.length_take, length_base64Groups]
      exact Nat.min_eq_left (Nat.sub_le _ _)
    have hheader : cipher.ivSize ≤ headerSize cipher := Nat.le_add_right _ _
    rw [if_neg (not_not.mpr hmod)]
    dsimp only
    rw [hlen]
    split
    · next hshort => exact iff_of_true rfl fun h => absurd h.2.1 (not_le.mpr hshort)
    · next hvector =>
      split
      · split
        · next hone => exact iff_of_true rfl fun h => h.2.2 hone
        · next hone =>
          apply iff_of_false (by intro hfault; cases hfault)
          intro h
          exact h ⟨hmod, not_lt.mp hvector, hone⟩
      · next hlong =>
        apply iff_of_false
        · split
          · exact Outcome.ofOption_ne_fault _
          · intro hfault
            cases hfault
        · intro h
          exact h ⟨hmod, not_lt.mp hvector, by omega⟩
  · rw [if_pos hmod]
    exact iff_of_true rfl fun h => hmod h.1

theorem ptxtJsonExtractField_ne_fault (j : Json) (key : Bytes) :
    ptxtJsonExtractField j key ≠ .fault := Outcome.ofOption_ne_fault _

/-- A plain text that is not one is an error, unless it has a date before 1970. -/
theorem ptxtDeserial_eq_fault_iff (T : TextExt) (payload : Bytes) :
    ptxtDeserial T payload = .fault ↔ DatedBefore1970 T payload := by
  have hcls : ∀ j, ptxtExtractClass j ≠ .fault := by
    intro j h
    obtain ⟨str, -, h⟩ := Outcome.bind_fault (ptxtJsonExtractField_ne_fault j _) h
    split at h
    · cases h
    · split at h
      · cases h
      · cases h
  constructor
  · intro h
    obtain ⟨j, hj, h⟩ := Outcome.bind_fault (Outcome.ofOption_ne_fault _) h
    -- of the three members only the date can stop the process
    have hts : ptxtExtractTimestamp T j = .fault := by
      rcases Outcome.bind_eq_fault.mp h with hts | ⟨ts, -, h⟩
      · exact hts
      · obtain ⟨cls, -, h⟩ := Outcome.bind_fault (hcls j) h
        obtain ⟨original, -, h⟩ := Outcome.bind_fault (ptxtJsonExtractField_ne_fault j _) h
        cases h
    have hfield : ∃ str, ptxtJsonExtractField j (ascii "timestamp") = .ok str := by
      obtain ⟨str, hstr, -⟩ := Outcome.bind_fault (ptxtJsonExtractField_ne_fault j _) hts
      exact ⟨str, hstr⟩
    obtain ⟨str, hstr⟩ := hfield
    exact ⟨j, str, Outcome.ofOption_eq_ok.mp hj, hstr, (extract_eq_fault_iff hstr).mp hts⟩
  · rintro ⟨j, str, hj, hstr, hbefore⟩
    rw [ptxtDeserial, hj]
    show (ptxtExtractTimestamp T j >>= _) = _
    rw [(extract_eq_fault_iff hstr).mpr hbefore]
    rfl

/-- What is decrypted is a valid plain text or nothing. -/
theorem readPtxt_decides (now : HoroDate) (text : Bytes) :
    (readPtxt X now text).Decides (¬ DatedBefore1970 X.toTextExt (cstr text))
      (match ptxtDeserial X.toTextExt (cstr text) with
        | .ok ptxt => if ptxtIsValid X.toTextExt now ptxt then some ptxt else none
        | _ => none) := by
  rw [← ptxtDeserial_eq_fault_iff, readPtxt]
  cases h : ptxtDeserial X.toTextExt (cstr text) with
  | ok ptxt => exact .inl ⟨(by intro hfault; cases hfault), rfl⟩
  | err => exact .inl ⟨(by intro hfault; cases hfault), rfl⟩
  | fault => exact .inr ⟨not_not.mpr rfl, rfl⟩

theorem coderDecrypt_fst {sId : Bytes} {input : Option Bytes} :
    (coderDecrypt X cipher sIdLocal login (some sId) input db).1 =
      match frameSecret X cipher sIdLocal login (some sId) db with
      | none => .err
      | some secret =>
        match input with
        | none => .fault
        | some input => decryptAes X.evp cipher secret (cstr input) := by
  rw [frameSecret, Option.bind_some, coderDecrypt]
  cases hauth : coderAuthGet db login sId .decrypt with
  | none => rfl
  | some e =>
    obtain ⟨key, auth⟩ := e
    dsimp only [Option.bind_some]
    rcases hsecret : db.coderSecretGet X.pbkdf2 sIdLocal cipher key .decrypt with ⟨secret, db'⟩
    cases secret with
    | none => rfl
    | some secret =>
      cases input with
      | none => rfl
      | some input => rfl

/-! ### What an element comes to

An entry that gives no secret protects the frame: no element is decrypted then, and none can stop
the loop. -/

variable (X cipher sIdLocal login db) in
/-- Where a secret opens the elements of the frame, this one can be read. -/
def Harmless (sId : Bytes) (e : Json) : Prop :=
  ∀ secret, frameSecret X cipher sIdLocal login (some sId) db = some secret →
    Bounded X cipher e ∧ NotBefore1970 X cipher secret e

/-- **One element**: its plain text or nothing, where the entry gives no secret or the element has
a size and no date before 1970. -/
theorem decodeElement_decides (now : HoroDate) (sId : Bytes) (e : Json) :
    (decodeElement X cipher sIdLocal now login (some sId) e db).1.Decides
      (Harmless X cipher sIdLocal login db sId e)
      (elementPtxt X cipher sIdLocal now login (some sId) db e) := by
  have hdecode : (decodeElement X cipher sIdLocal now login (some sId) e db).1 =
      match (coderDecrypt X cipher sIdLocal login (some sId) (e.getString X.json) db).1 with
      | .ok text => readPtxt X now text
      | .err => .ok none
      | .fault => .fault := by
    rw [decodeElement]
    rcases coderDecrypt X cipher sIdLocal login (some sId) (e.getString X.json) db with ⟨r, db'⟩
    cases r <;> rfl
  rw [hdecode, elementPtxt, coderDecrypt_fst]
  cases hsecret : frameSecret X cipher sIdLocal login (some sId) db with
  | none =>
    -- the element is not looked at
    refine .inl ⟨?_, rfl⟩
    intro secret hsome
    rw [hsecret] at hsome
    cases hsome
  | some secret =>
    have hHarmless : Harmless X cipher sIdLocal login db sId e ↔
        Bounded X cipher e ∧ NotBefore1970 X cipher secret e := by
      rw [Harmless, hsecret]
      exact ⟨fun h => h secret rfl, fun h secret' hsome => Option.some.inj hsome ▸ h⟩
    rw [hHarmless]
    cases htext : e.getString X.json with
    | none =>
      -- `null`, on which `decrypt_aes` asserts
      refine .inr ⟨?_, rfl⟩
      rintro ⟨⟨text, hget, -⟩, -⟩
      rw [htext] at hget
      cases hget
    | some text =>
      have hBounded : Bounded X cipher e ↔ Sized cipher (cstr text) := by
        rw [Bounded, htext]
        constructor
        · rintro ⟨text', hsome, hsized⟩
          exact Option.some.inj hsome ▸ hsized
        · intro hsized
          exact ⟨text, rfl, hsized⟩
      rw [hBounded, ← not_not (a := Sized cipher (cstr text)),
        ← @decryptAes_fault_iff _ X.evp secret]
      dsimp only
      cases hdecrypt : decryptAes X.evp cipher secret (cstr text) with
      | fault => exact .inr ⟨fun h => h.1 rfl, rfl⟩
      | err =>
        refine .inl ⟨⟨(by intro hfault; cases hfault), ?_⟩, rfl⟩
        intro input plain hget hok
        obtain rfl : text = input := Option.some.inj (htext.symm.trans hget)
        rw [hdecrypt] at hok
        cases hok
      | ok plain =>
        apply (readPtxt_decides now plain).congr
        constructor
        · intro hdate
          refine ⟨(by intro hfault; cases hfault), ?_⟩
          intro input plain' hget hok
          obtain rfl : text = input := Option.some.inj (htext.symm.trans hget)
          rw [hdecrypt] at hok
          cases hok
          exact hdate
        · intro h
          exact h.2 text plain htext hdecrypt

/-! ## The loop

By induction on the elements: the store between two of them differs in the cached secret only. -/

/-- Each element is read with what the store was before the first. -/
theorem decodeElements_eq (es : List Json) (now : Nat → HoroDate) (k : Nat) (db : AuthDbs) :
    (decodeElements X cipher sIdLocal login sId es (fun i => now (i + k)) db).1 =
      (es.zipIdx k).mapM (fun e => (decodeElement X cipher sIdLocal (now e.2) login sId e.1 db).1)
        >>= fun ptxts => pure ptxts.reduceOption := by
  -- the elements so far have changed the store; what the others come to is the same
  induction es generalizing k db with
  | nil => rfl
  | cons e es ih =>
    rw [decodeElements, List.zipIdx_cons, List.mapM_cons]
    have hnext : (fun i => now (i + 1 + k)) = fun i => now (i + (k + 1)) := by
      funext i
      congr 1
      omega
    have hagain : ∀ e' : Json × Nat,
        (decodeElement X cipher sIdLocal (now e'.2) login sId e'.1
          (decodeElement X cipher sIdLocal (now k) login sId e db).2).1 =
        (decodeElement X cipher sIdLocal (now e'.2) login sId e'.1 db).1 := by
      intro e'
      exact decodeElement_again X cipher sIdLocal (now k) (now e'.2) login sId e e'.1 db
    have helem := decodeElement_ne_err X cipher sIdLocal (now k) login sId e db
    rw [Nat.zero_add, hnext]
    rcases hx : decodeElement X cipher sIdLocal (now k) login sId e db with ⟨r, db'⟩
    rw [hx] at helem hagain
    cases r with
    | err => exact absurd rfl helem
    | fault => rfl
    | ok ptxt =>
      have hrest := ih (k + 1) db'
      simp only [hagain] at hrest
      rcases hy : decodeElements X cipher sIdLocal login sId es (fun i => now (i + (k + 1))) db'
        with ⟨rest, db''⟩
      rw [hy] at hrest
      dsimp only at hrest ⊢
      rw [hy, Outcome.ok_bind, bind_assoc]
      simp only [pure_bind]
      cases hm : (es.zipIdx (k + 1)).mapM
          fun e => (decodeElement X cipher sIdLocal (now e.2) login sId e.1 db).1 with
      | err =>
        rw [hm, Outcome.err_bind] at hrest
        rw [hrest]
        rfl
      | fault =>
        rw [hm, Outcome.fault_bind] at hrest
        rw [hrest]
        rfl
      | ok ptxts =>
        rw [hm, Outcome.ok_bind] at hrest
        rw [hrest]
        cases ptxt <;> rfl

/-- What is read of the elements, in order. -/
def readElements (X : CoderExt) (cipher : Cipher) (sIdLocal : Bytes) (now : Nat → HoroDate)
    (login sId : Option Bytes) (db : AuthDbs) (es : List Json) : List Ptxt :=
  es.zipIdx.filterMap fun e => elementPtxt X cipher sIdLocal (now e.2) login sId db e.1

/-- **The loop**: what is read of the elements, unless one ends it. -/
theorem decodeElements_decides (now : Nat → HoroDate) (sId : Bytes) (es : List Json) :
    (decodeElements X cipher sIdLocal login (some sId) es now db).1.Decides
      (∀ e ∈ es, Harmless X cipher sIdLocal login db sId e)
      (readElements X cipher sIdLocal now login (some sId) db es) := by
  have hall := Outcome.Decides.mapM (es.zipIdx 0) fun e : Json × Nat =>
    @decodeElement_decides X cipher sIdLocal login db (now e.2) sId e.1
  have hloop := @decodeElements_eq X cipher sIdLocal login (some sId) es now 0 db
  have hread : readElements X cipher sIdLocal now login (some sId) db es =
      List.reduceOption ((es.zipIdx 0).map fun e =>
        elementPtxt X cipher sIdLocal (now e.2) login (some sId) db e.1) := by
    rw [readElements]
    exact (List.filterMap_map (g := id)).symm
  simp only [Nat.add_zero] at hloop
  rw [hloop, hread]
  apply (hall.map List.reduceOption).congr
  constructor
  · intro h e he
    obtain ⟨i, hi⟩ := List.mem_iff_getElem?.mp he
    exact h (e, i) (List.mk_mem_zipIdx_iff_getElem?.mpr hi)
  · rintro h ⟨e, i⟩ he
    exact h e (List.fst_mem_of_mem_zipIdx he)

/-! ## Frames

With the header of the frame, which is read before the elements. -/

/-- The members of a frame: strings, and an array. -/
structure SentFrame where
  mType : Bytes
  type : Bytes
  mId : Bytes
  login : Bytes
  sId : Bytes
  data : List Json

/-- The frame is what the text is parsed to. -/
structure SentFrame.Parsed (X : CoderExt) (f : SentFrame) (payload : Bytes) : Prop where
  parsed : ∃ j, X.json.parse payload = some j ∧ j.get? (ascii "mType") = some (.str f.mType) ∧
    j.get? (ascii "type") = some (.str f.type) ∧ j.get? (ascii "mId") = some (.str f.mId) ∧
    j.get? (ascii "login") = some (.str f.login) ∧ j.get? (ascii "sId") = some (.str f.sId) ∧
    j.get? (ascii "data") = some (.arr f.data)
  nonempty : f.data ≠ []

/-- The frame is one of `Encrypted_decode`. -/
def SentFrame.Encrypted (f : SentFrame) : Prop :=
  cstr f.mType = ascii "eRMsg" ∧ cstr f.type = ascii "Encrypted"

theorem frameHeader_of_parsed {f : SentFrame} {payload : Bytes} (h : f.Parsed X payload)
    (hEncrypted : f.Encrypted) :
    frameHeader X payload = .ok ⟨some (cstr f.login), some (cstr f.sId), f.data⟩ := by
  obtain ⟨j, hj, hmType, htype, hmId, hlogin, hsId, hdata⟩ := h.parsed
  obtain ⟨e, es, hes⟩ := List.exists_cons_of_ne_nil h.nonempty
  rw [hes] at hdata
  simp only [frameHeader, hj, hmType, htype, hmId, hlogin, hsId, hdata, Outcome.ofOption,
    Outcome.ok_bind, Json.getString]
  rw [hes, if_neg (not_not.mpr hEncrypted.1), if_neg (not_not.mpr hEncrypted.2)]
  rfl

theorem frameHeader_of_other {f : SentFrame} {payload : Bytes} (h : f.Parsed X payload)
    (hOther : ¬ f.Encrypted) : frameHeader X payload = .err := by
  obtain ⟨j, hj, hmType, htype, hmId, hlogin, hsId, hdata⟩ := h.parsed
  simp only [frameHeader, hj, hmType, htype, hmId, hlogin, hsId, hdata, Outcome.ofOption,
    Outcome.ok_bind, Json.getString]
  by_cases hm : cstr f.mType = ascii "eRMsg"
  · rw [if_neg (not_not.mpr hm), if_pos fun ht => hOther ⟨hm, ht⟩]
  · rw [if_pos hm]

/-- The result is what is read of the elements, and an error when this is nothing. -/
def Isolates (X : CoderExt) (cipher : Cipher) (sIdLocal payload : Bytes) (f : SentFrame)
    (now : Nat → HoroDate) (db : AuthDbs) : Prop :=
  match readElements X cipher sIdLocal now (some (cstr f.login)) (some (cstr f.sId)) db f.data,
    (encryptedDecode X cipher sIdLocal payload now db).1 with
  | [], .err => True
  | ptxt :: ptxts, .ok (read, _) => read = ptxt :: ptxts
  | _, _ => False

/-- **When elements are isolated**: the frame has its type, and each of the elements that its login
lets be decrypted has a text, a size and no date before 1970; or it is of another type, and nothing
could be read. -/
theorem isolates_iff {f : SentFrame} {payload : Bytes} (h : f.Parsed X payload)
    (now : Nat → HoroDate) (db : AuthDbs) : Isolates X cipher sIdLocal payload f now db ↔
      (f.Encrypted ∧
        ∀ e ∈ f.data, Harmless X cipher sIdLocal (some (cstr f.login)) db (cstr f.sId) e) ∨
      (¬ f.Encrypted ∧ ∀ i e, f.data[i]? = some e →
        elementPtxt X cipher sIdLocal (now i) (some (cstr f.login)) (some (cstr f.sId)) db e =
          none) := by
  rw [Isolates, encryptedDecode]
  by_cases hEncrypted : f.Encrypted
  · rw [frameHeader_of_parsed h hEncrypted]
    dsimp only
    rcases @decodeElements_decides X cipher sIdLocal (some (cstr f.login)) db now (cstr f.sId)
      f.data with ⟨hP, hloop⟩ | ⟨hP, hloop⟩
    · refine iff_of_true ?_ (.inl ⟨hEncrypted, hP⟩)
      rcases hx : decodeElements X cipher sIdLocal (some (cstr f.login)) (some (cstr f.sId)) f.data
        now db with ⟨r, db'⟩
      rw [hx] at hloop
      dsimp only at hloop
      subst hloop
      cases hread : readElements X cipher sIdLocal now (some (cstr f.login)) (some (cstr f.sId)) db
        f.data with
      | nil => trivial
      | cons ptxt ptxts => exact rfl
    · apply iff_of_false
      · rcases hx : decodeElements X cipher sIdLocal (some (cstr f.login)) (some (cstr f.sId))
          f.data now db with ⟨r, db'⟩
        rw [hx] at hloop
        dsimp only at hloop
        subst hloop
        cases readElements X cipher sIdLocal now (some (cstr f.login)) (some (cstr f.sId)) db
          f.data with
        | nil => exact id
        | cons ptxt ptxts => exact id
      · rintro (⟨-, hbounded⟩ | ⟨hother, -⟩)
        · exact hP hbounded
        · exact hother hEncrypted
  · rw [frameHeader_of_other h hEncrypted]
    dsimp only
    -- a frame of another type is not decoded: that is right when nothing could be read of it
    have hnone : readElements X cipher sIdLocal now (some (cstr f.login)) (some (cstr f.sId)) db
        f.data = [] ↔ ∀ i e, f.data[i]? = some e →
          elementPtxt X cipher sIdLocal (now i) (some (cstr f.login)) (some (cstr f.sId)) db e =
            none := by
      rw [readElements, List.filterMap_eq_nil_iff]
      constructor
      · intro hread i e he
        exact hread (e, i) (List.mk_mem_zipIdx_iff_getElem?.mpr he)
      · rintro hread ⟨e, i⟩ he
        exact hread i e (List.mk_mem_zipIdx_iff_getElem?.mp he)
    constructor
    · intro hisolates
      refine .inr ⟨hEncrypted, hnone.mp ?_⟩
      cases hread : readElements X cipher sIdLocal now (some (cstr f.login)) (some (cstr f.sId)) db
        f.data with
      | nil => rfl
      | cons ptxt ptxts =>
        rw [hread] at hisolates
        cases hisolates
    · rintro (⟨hframe, -⟩ | ⟨-, hread⟩)
      · exact absurd hframe hEncrypted
      · rw [hnone.mpr hread]
        trivial

/-! ## An element that is `null` -/

/-- A frame whose element is `null`. -/
def nullFrame : SentFrame where
  mType := ascii "eRMsg"
  type := ascii "Encrypted"
  mId := ascii "mId"
  login := ascii "log-001"
  sId := ascii "sId-1"
  data := [.null]

def SentFrame.json (f : SentFrame) : Json :=
  .obj [(ascii "mType", .str f.mType), (ascii "type", .str f.type), (ascii "mId", .str f.mId),
    (ascii "sId", .str f.sId), (ascii "data", .arr f.data), (ascii "login", .str f.login)]

/-- The coder with json-c for a frame. -/
def SentFrame.ext (f : SentFrame) : CoderExt := plainExt [f.json]

theorem nullFrame_parsed : nullFrame.Parsed nullFrame.ext nullFrame.json.toText where
  parsed := by
    refine ⟨nullFrame.json, ?_, rfl, rfl, rfl, rfl, rfl, rfl⟩
    simp [SentFrame.ext, plainExt, JsonLib.ofValues, JsonLib.ofTable]
  nonempty := nofun

/-- Without an entry for the login, nothing is read of it. -/
theorem nullFrame_isolated : Isolates nullFrame.ext .aes256Gcm (ascii "sId-2")
    nullFrame.json.toText nullFrame (fun _ => ts2016) .empty :=
  (isolates_iff nullFrame_parsed (fun _ => ts2016) .empty).mpr
    (.inl ⟨⟨by decide, by decide⟩, by intro e he secret hsecret; cases hsecret⟩)

/-- With one, the process stops. -/
theorem not_isolates_null : nullFrame.Parsed nullFrame.ext nullFrame.json.toText ∧
    ¬ Isolates nullFrame.ext .aes256Gcm (ascii "sId-2") nullFrame.json.toText nullFrame
      (fun _ => ts2016) (storeOf receiverKey) := by
  refine ⟨nullFrame_parsed, ?_⟩
  have hfault : (encryptedDecode nullFrame.ext .aes256Gcm (ascii "sId-2") nullFrame.json.toText
      (fun _ => ts2016) (storeOf receiverKey)).1 = .fault := by decide
  rw [Isolates, hfault]
  split
  · next h => cases h
  · next h => cases h
  · exact id

end RsmpGateway.Coder
