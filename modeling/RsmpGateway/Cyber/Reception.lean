import RsmpGateway.Coder.RoundTrip
import RsmpGateway.Cyber.Exchange
import RsmpGateway.Lib.System

/-!
# The reception task

A connection has agreed on a cipher with a remote, and `cyber_receive` decodes the frames and
pushes what it reads. The credentials are those that the frame names, and nothing compares the
`sId` of the frame with the remote of the connection: a message is bound to the remote as long as
no frame of another opens (`pushed_bound`), and a frame keeps the messages bound exactly under
this condition (`cyberReceive_bound_iff`).

The frames are any bytes, from any party; between two of them the store may be changed by the
rest of the process. That the agreement sets the remote is `Cyber/Handshake.lean`.
-/

namespace RsmpGateway.Cyber.Reception

open RsmpGateway.Lib RsmpGateway.Crypt RsmpGateway.Auth RsmpGateway.Coder

/-! ## The task

A frame is decoded with the store of the process, by the `sId` and the login of its own header.
Everything that is read of it is pushed with the entry it was read with. -/

/-- `queue_msg_t`, and the queue by the class. -/
structure QueueMsg where
  cls : PtClass
  buf : Bytes
  attrib : Option AuthKey
  deriving Repr, DecidableEq

/-- A connection once the cipher is agreed on: the store of the process, and what was pushed
since. -/
structure State where
  conn : Conn
  db : AuthDbs
  pushed : List QueueMsg

variable (X : CoderExt) (cipher : Cipher)

/-- A frame in `cyber_receive`. -/
def cyberReceive (s : State) (payload : Bytes) (now : Nat → HoroDate) : Option State :=
  match Coder.encryptedDecode X cipher s.conn.sIdLocal payload now s.db with
  | (.ok (ptxts, auth), db) =>
    some { s with db, pushed := s.pushed ++ ptxts.map fun p => ⟨p.cls, p.original, auth⟩ }
  | (.err, db) => some { s with db }
  | (.fault, _) => none

/-- The connection comes from an exchange that succeeded, as follower or as leader. -/
def Agreed (c : Conn) : Prop :=
  (∃ table c₀ mId writes received,
    cyberExchangeFollower X.json table c₀ mId writes received = (.ok (), c)) ∨
  ∃ table c₀ mId received writes wild answer,
    cyberExchangeLeader X.json table c₀ mId received writes wild = (.ok (), c, answer)

/-- A frame arrives from any party, or the rest of the process changes the store. -/
inductive Event
  | receive (payload : Bytes) (now : Nat → HoroDate)
  | store (db : AuthDbs)

/-- The runs of a connection that uses the cipher. -/
def receptionSystem : System State Event where
  init s := Agreed X s.conn ∧ s.conn.cipher.map CipherDesc.lib = some cipher.lib ∧ s.pushed = []
  step s e s' :=
    match e with
    | .receive payload now => cyberReceive X cipher s payload now = some s'
    | .store db => s' = { s with db }

/-! ## The remote

The remote is what the exchange has received, and no frame changes it. -/

theorem checkRemote_some {c c' : Conn} {sId : Bytes} (h : c.checkRemote sId = some c') :
    c'.sIdRemote = some sId := by
  unfold Conn.checkRemote at h
  split at h
  · next hremote =>
    split at h
    · next heq =>
      cases h
      rw [hremote, heq]
    · cases h
  · cases h
    rfl

/-- An exchange that succeeds sets the remote. -/
theorem Agreed.remote {c : Conn} (h : Agreed X c) : ∃ R, c.sIdRemote = some R := by
  rcases h with ⟨table, c₀, mId, writes, received, h⟩ |
    ⟨table, c₀, mId, received, writes, wild, answer, h⟩
  · unfold cyberExchangeFollower at h
    split at h
    · split at h
      · cases h
      · split at h
        · split at h
          · cases h
          · next c₁ hcheck =>
            split at h
            · dsimp only at h
              split at h
              · cases h
                exact ⟨_, show c₁.sIdRemote = _ from checkRemote_some hcheck⟩
              · cases h
            · cases h
        · cases h
        · cases h
    · cases h
    · cases h
  · unfold cyberExchangeLeader at h
    dsimp only at h
    split at h
    · cases wild <;> cases h
    · split at h
      · split at h
        · cases wild <;> cases h
        · next c₁ hcheck =>
          split at h
          · cases wild <;> cases h
          · split at h
            · split at h
              · cases h
                exact ⟨_, show c₁.sIdRemote = _ from checkRemote_some hcheck⟩
              · cases h
            · cases h
            · cases h
      · cases wild <;> cases h
      · cases h

/-! ## Whose messages are pushed

What opens an element is an entry under the `sId` of the frame; so the frame says whose messages
they are. -/

/-- The element opens with an active entry for receiving, under the login and the `sId` that
the frame names. -/
def Opens (sIdLocal : Bytes) (db : AuthDbs) (now : HoroDate) (login sId : Option Bytes)
    (e : Json) : Prop :=
  ∃ sId', sId = some sId' ∧ ∃ key auth secret text input ptxt,
    coderAuthGet db login sId' .decrypt = some (key, auth) ∧
    (db.coderSecretGet X.pbkdf2 sIdLocal cipher key .decrypt).1 = some secret ∧
    e.getString X.json = some input ∧ decryptAes X.evp cipher secret (cstr input) = .ok text ∧
    readPtxt X now text = .ok (some ptxt)

theorem opens_iff {sIdLocal : Bytes} {db : AuthDbs} {now : HoroDate} {login sId : Option Bytes}
    {e : Json} : Opens X cipher sIdLocal db now login sId e ↔
      ∃ ptxt, (decodeElement X cipher sIdLocal now login sId e db).1 = .ok (some ptxt) := by
  constructor
  · rintro ⟨sId, rfl, key, auth, secret, text, input, ptxt, hget, hsecret, hinput, htext, hread⟩
    refine ⟨ptxt, ?_⟩
    rcases hdb : db.coderSecretGet X.pbkdf2 sIdLocal cipher key .decrypt with ⟨_, db'⟩
    rw [hdb] at hsecret
    cases hsecret
    simp only [decodeElement, coderDecrypt, hget, hdb, hinput, htext, hread]
  · rintro ⟨ptxt, h⟩
    unfold decodeElement at h
    split at h
    · next text db' hdecrypt =>
      unfold coderDecrypt at hdecrypt
      split at hdecrypt
      · cases hdecrypt
      · next sId =>
        split at hdecrypt
        · cases hdecrypt
        · next key auth hget =>
          split at hdecrypt
          · cases hdecrypt
          · next secret db'' hsecret =>
            split at hdecrypt
            · cases hdecrypt
            · next input hinput =>
              have htext := congrArg Prod.fst hdecrypt
              exact ⟨sId, rfl, key, auth, secret, text, input, ptxt, hget,
                congrArg Prod.fst hsecret, hinput, htext, h⟩
    · cases h
    · cases h

/-! ### What is bound to the remote

The step lemma is an equivalence: where nothing of a frame opens, nothing is pushed, and else
what is pushed is of the sender that the frame names. -/

/-- Every message pushed carries an entry of the remote. -/
def Bound (s : State) : Prop :=
  ∃ R, s.conn.sIdRemote = some R ∧ ∀ m ∈ s.pushed, ∃ key, m.attrib = some key ∧ key.sId = R

/-- The condition on a frame: it names the remote, or nothing of it opens. -/
def FromRemote (s : State) : Event → Prop
  | .store _ => True
  | .receive payload now =>
    ∀ header, frameHeader X payload = .ok header →
      header.sId = s.conn.sIdRemote ∨
        ∀ i e, header.data[i]? = some e →
          ¬ Opens X cipher s.conn.sIdLocal s.db (now i) header.login header.sId e

/-- What a frame pushes: nothing, or messages with the entry under its own `sId`. -/
theorem cyberReceive_pushed {s s' : State} {payload : Bytes} {now : Nat → HoroDate}
    (h : cyberReceive X cipher s payload now = some s') :
    s'.conn = s.conn ∧
      ((s'.pushed = s.pushed ∧ ∀ header, frameHeader X payload = .ok header →
          ∀ i e, header.data[i]? = some e →
            ¬ Opens X cipher s.conn.sIdLocal s.db (now i) header.login header.sId e) ∨
        ∃ header key, ∃ ptxts : List Ptxt, frameHeader X payload = .ok header ∧
          header.sId = some key.sId ∧ ptxts ≠ [] ∧
          (∃ i e, header.data[i]? = some e ∧
            Opens X cipher s.conn.sIdLocal s.db (now i) header.login header.sId e) ∧
          s'.pushed = s.pushed ++ ptxts.map fun p => ⟨p.cls, p.original, some key⟩) := by
  cases hheader : frameHeader X payload with
  | fault =>
    simp only [cyberReceive, Coder.encryptedDecode, hheader] at h
    cases h
  | err =>
    simp only [cyberReceive, Coder.encryptedDecode, hheader] at h
    cases h
    refine ⟨rfl, .inl ⟨rfl, ?_⟩⟩
    intro header h
    cases h
  | ok header =>
    rcases hdata : decodeElements X cipher s.conn.sIdLocal header.login header.sId header.data now
      s.db with ⟨r, db⟩
    simp only [cyberReceive, Coder.encryptedDecode, hheader, hdata] at h
    cases r with
    | fault => cases h
    | err =>
      have := decodeElements_ne_err X cipher s.conn.sIdLocal header.login header.sId header.data now
        s.db
      rw [hdata] at this
      exact absurd rfl this
    | ok ptxts =>
      -- a plain text comes of an element that opens, and each such element gives one
      have hmem := mem_decodeElements X cipher s.conn.sIdLocal hdata
      cases ptxts with
      | nil =>
        cases h
        refine ⟨rfl, .inl ⟨rfl, ?_⟩⟩
        intro _ hheader' i e he hopens
        cases hheader'
        obtain ⟨ptxt, hread⟩ := (opens_iff X cipher).mp hopens
        exact absurd ((hmem ptxt).mpr ⟨i, e, he, hread⟩) List.not_mem_nil
      | cons ptxt ptxts =>
        obtain ⟨i, e, he, hread⟩ := (hmem ptxt).mp List.mem_cons_self
        have hopens := (opens_iff X cipher).mpr ⟨ptxt, hread⟩
        obtain ⟨sId, hsId, key, auth, -, -, -, -, hget, -⟩ := hopens
        have hfind : coderAuthFind s.db header.login sId .decrypt = some (key, auth) :=
          (Option.filter_eq_some_iff.mp hget).1
        -- the entry is looked for under the `sId` of the frame
        have hkey : key.sId = sId := by
          cases hlogin : header.login with
          | none =>
            rw [hlogin] at hget
            cases hget
          | some login =>
            rw [hlogin] at hget
            obtain ⟨_, -, -, hr⟩ := coderAuthGet_decrypt hget
            cases hr
            rfl
        simp only [hsId, Option.bind_some, hfind, Option.map_some] at h
        cases h
        refine ⟨rfl, .inr ⟨header, key, ptxt :: ptxts, rfl, by rw [hsId, hkey],
          List.cons_ne_nil _ _, ⟨i, e, he, ?_⟩, rfl⟩⟩
        exact (opens_iff X cipher).mpr ⟨ptxt, hread⟩

/-- A frame keeps the messages bound to the remote exactly when it meets the condition. -/
theorem cyberReceive_bound_iff {s s' : State} (hs : Bound s) {payload : Bytes}
    {now : Nat → HoroDate} (h : cyberReceive X cipher s payload now = some s') :
    Bound s' ↔ FromRemote X cipher s (.receive payload now) := by
  obtain ⟨R, hR, hbound⟩ := hs
  obtain ⟨hconn, hpushed⟩ := cyberReceive_pushed X cipher h
  rcases hpushed with ⟨hsame, hnone⟩ | ⟨header, key, ptxts, hheader, hsId, hne, hopens, hpushed⟩
  · constructor
    · intro _ header hheader
      exact .inr (hnone header hheader)
    · intro _
      refine ⟨R, by rw [hconn, hR], ?_⟩
      rw [hsame]
      exact hbound
  · -- something opened, with the entry of the `sId` of the frame
    have hbound_iff : Bound s' ↔ key.sId = R := by
      constructor
      · rintro ⟨R', hR', hall⟩
        obtain ⟨ptxt, rest, rfl⟩ := List.exists_cons_of_ne_nil hne
        have hmem : ⟨ptxt.cls, ptxt.original, some key⟩ ∈ s'.pushed := by
          rw [hpushed]
          exact List.mem_append_right _ List.mem_cons_self
        obtain ⟨key', hkey, hsId'⟩ := hall _ hmem
        cases hkey
        rw [hconn, hR] at hR'
        rw [hsId', Option.some.inj hR']
      · intro hkey
        refine ⟨R, by rw [hconn, hR], ?_⟩
        intro m hm
        rw [hpushed, List.mem_append] at hm
        rcases hm with hm | hm
        · exact hbound m hm
        · obtain ⟨ptxt, -, rfl⟩ := List.mem_map.mp hm
          exact ⟨key, rfl, hkey⟩
    rw [hbound_iff]
    constructor
    · intro hkey header' hheader'
      rw [hheader] at hheader'
      cases hheader'
      exact .inl (by rw [hsId, hR, hkey])
    · intro hfrom
      rcases hfrom header hheader with hremote | hnone
      · rw [hsId, hR] at hremote
        exact Option.some.inj hremote
      · obtain ⟨i, e, he, h⟩ := hopens
        exact absurd h (hnone i e he)

/-- **Binding to the remote.** On every run whose frames meet the condition, every message
pushed carries an entry whose `sId` is the remote agreed on. -/
theorem pushed_bound {s : State}
    (h : ((receptionSystem X cipher).restrict (FromRemote X cipher)).Reachable s) : Bound s := by
  refine h.invariant ?_ ?_
  · rintro s ⟨hagreed, -, hpushed⟩
    obtain ⟨R, hR⟩ := hagreed.remote
    refine ⟨R, hR, ?_⟩
    rw [hpushed]
    exact nofun
  · rintro s e s' hs ⟨hstep, hfrom⟩
    cases e with
    | receive payload now => exact (cyberReceive_bound_iff X cipher hs hstep).mpr hfrom
    | store db =>
      cases hstep
      exact hs

/-! ### Two senders

A frame of each of two senders, on the connection of one of them. -/

/-- The frame of one message from a sender, with what AES256GCM makes of the message. -/
def frameOf (login sId data : String) : Json :=
  encryptedJson (ascii "mId") (ascii sId) (ascii login) [data.toUTF8.data.toList]

/-- What is printed on the way: the agreement, the message and the frames. -/
def receptionValues : List Json :=
  [cipherAgreementJson (ascii "m1") (ascii "sId-2") [ascii "AES256GCM"],
    cipherAgreementJson (ascii "m2") (ascii "sId-1") [ascii "AES256GCM"],
    ptxtJson (plainExt []).toTextExt (internalPtxt ts2016),
    frameOf "log-001" "sId-1"
      ("BwcHBwcHBwcHBwcHAAAAAAAAAAAAAAAAAAAAAAhpRllYAQoUWVFdQVJbU1FFX0NSXnlXAAIzVDEzOjQxPTc0" ++
        "KTA/Pl0lKyclHDsNSlgCDgsPChATC0EvURo7CxQWFUYXElwiZVJNc2dbJSd6JSsnJWRrZnQAa14NEyUhM2hi" ++
        "fnA8Q1MO"),
    frameOf "log-003" "sId-3"
      ("BwcHBwcHBwcHBwcHAAAAAAAAAAAAAAAAAAAAAAhpRllaAQoUWVFdQ1JbU1FFX0NSXnlXAAIzVDEzOjQxPTc0" ++
        "KTA/Pl0lKyclHDsNSloCDgsPChARC0EvURo7CxQWFUYXElwiZVJNc2dbJSd6JSsnJWRrZnQAa14NESUhM2hi" ++
        "fnI8Q1MO")]

def receptionExt : CoderExt := plainExt receptionValues

theorem receptionExt_lawful : receptionExt.Lawful :=
  plainExt_lawful (by decide +kernel) (by decide +kernel)

/-- The store of `sId-2`, which receives from `sId-1` and from `sId-3`. -/
def twoSenders : AuthDbs :=
  AuthDbs.authNew ⟨1457012463, 0⟩ (storeOf receiverKey)
    ⟨authFromDbId, ascii "log-003", ascii "sId-3"⟩ (ascii "password") none true [] false

/-- `sId-2`, as follower, once it has agreed with `sId-1`. -/
def agreedState : State where
  conn := ⟨ascii "sId-2", some (ascii "sId-1"), some ⟨ascii "AES256GCM", true⟩⟩
  db := twoSenders
  pushed := []

theorem agreedState_init : (receptionSystem receptionExt .aes256Gcm).init agreedState := by
  refine ⟨.inl ⟨aesTable false false true, ⟨ascii "sId-2", none, none⟩, ascii "m1", true,
    some ((receptionValues.getD 1 .null).toText), ?_⟩, rfl, rfl⟩
  decide

/-- A frame of `sId-1` is pushed with the entry of `sId-1`. -/
theorem pushed_bound_remote :
    ∃ s, ((receptionSystem receptionExt .aes256Gcm).restrict
        (FromRemote receptionExt .aes256Gcm)).Reachable s ∧
      s.pushed.map QueueMsg.attrib = [some receiverKey] ∧ Bound s := by
  have hpushed : ∃ s, cyberReceive receptionExt .aes256Gcm agreedState
      ((receptionValues.getD 3 .null).toText) (fun _ => ts2016) = some s ∧
      decide (s.pushed.map QueueMsg.attrib = [some receiverKey]) = true := by
    apply (Option.any_eq_true _ _).mp
    decide +kernel
  have hheader : (frameHeader receptionExt (receptionValues.getD 3 .null).toText >>= fun header =>
      pure header.sId) = .ok (some (ascii "sId-1")) := by decide +kernel
  obtain ⟨s, hs, hattrib⟩ := hpushed
  have hrun : ((receptionSystem receptionExt .aes256Gcm).restrict
      (FromRemote receptionExt .aes256Gcm)).Reachable s := by
    have h0 : ((receptionSystem receptionExt .aes256Gcm).restrict
        (FromRemote receptionExt .aes256Gcm)).Reachable agreedState := .init agreedState_init
    refine h0.next (.receive (receptionValues.getD 3 .null).toText fun _ => ts2016) ⟨hs, ?_⟩
    intro header h
    rw [h] at hheader
    exact .inl (Outcome.ok.inj hheader)
  exact ⟨s, hrun, of_decide_eq_true hattrib, pushed_bound receptionExt .aes256Gcm hrun⟩

/-- That of `sId-3` is pushed with the entry of `sId-3`, on the connection of `sId-1`. -/
theorem pushed_foreign :
    receptionExt.Lawful ∧ ∃ s, (receptionSystem receptionExt .aes256Gcm).Reachable s ∧
      s.conn.sIdRemote = some (ascii "sId-1") ∧
      s.pushed.map QueueMsg.attrib = [some ⟨authFromDbId, ascii "log-003", ascii "sId-3"⟩] ∧
      ¬ Bound s := by
  have hpushed : ∃ s, cyberReceive receptionExt .aes256Gcm agreedState
      ((receptionValues.getD 4 .null).toText) (fun _ => ts2016) = some s ∧
      decide (s.conn.sIdRemote = some (ascii "sId-1") ∧ s.pushed.map QueueMsg.attrib =
        [some ⟨authFromDbId, ascii "log-003", ascii "sId-3"⟩]) = true := by
    apply (Option.any_eq_true _ _).mp
    decide +kernel
  obtain ⟨s, hs, hforeign⟩ := hpushed
  obtain ⟨hremote, hattrib⟩ := of_decide_eq_true hforeign
  have hrun : (receptionSystem receptionExt .aes256Gcm).Reachable s := by
    have h0 : (receptionSystem receptionExt .aes256Gcm).Reachable agreedState :=
      .init agreedState_init
    exact h0.next (.receive (receptionValues.getD 4 .null).toText fun _ => ts2016) hs
  refine ⟨receptionExt_lawful, s, hrun, hremote, hattrib, ?_⟩
  rintro ⟨R, hR, hbound⟩
  rw [hremote] at hR
  cases hR
  cases hmsgs : s.pushed with
  | nil =>
    rw [hmsgs] at hattrib
    cases hattrib
  | cons m ms =>
    rw [hmsgs, List.map_cons, List.cons_eq_cons] at hattrib
    obtain ⟨key, hkey, hsId⟩ := hbound m (by rw [hmsgs]; exact List.mem_cons_self)
    rw [hattrib.1] at hkey
    cases hkey
    exact absurd hsId (by decide)

end RsmpGateway.Cyber.Reception
