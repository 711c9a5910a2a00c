import RsmpGateway.Cyber.Reception
import RsmpGateway.Gateway.Classes
import RsmpGateway.Transport.Frame

/-!
# From one application to the other

A message is made a payload, a plain text, an encrypted frame and bytes with a terminator, and
the other side takes these off again. Where both sides hold the same passwords, the messages that
one application has sent are, in order, those that the other one reads (`delivered`).

The layers are those of the modules before: the round trip of messages (`Rsmp/RoundTrip.lean`),
that of frames (`Coder/RoundTrip.lean`) and that of the bytes on the flux
(`Transport/Frame.lean`). Each has its condition, and the hypotheses of the theorem are these
conditions: sound messages that are kept, dates in the window, frames of a bounded length, and no
time-out inside a frame.
-/

namespace RsmpGateway.Gateway

open RsmpGateway.Lib RsmpGateway.Crypt RsmpGateway.Auth RsmpGateway.Coder RsmpGateway.Rsmp
open RsmpGateway.Cyber RsmpGateway.Transport

/-! ## Both tasks

`cyber_send` takes an entry of its queue, seals it and writes the frame; `cyber_receive` reads a
payload of the flux and opens it. -/

/-- What a gateway takes from outside. -/
structure GatewayExt extends CoderExt where
  uuidParse : Bytes → Option Uuid
  uuidUnparse : Uuid → Bytes

/-- What the messages take of it. -/
def GatewayExt.rsmp (X : GatewayExt) : RsmpExt :=
  ⟨X.json, X.strGmtHorodate, X.zone, X.junk, X.uuidParse, X.uuidUnparse⟩

structure GatewayExt.Lawful (X : GatewayExt) : Prop where
  coder : X.toCoderExt.Lawful
  rsmp : X.rsmp.Lawful
  laysOut : X.json.LaysOut

/-- An entry of the queue of `cyber_send` that is to be encrypted, and what is drawn when it is
written. -/
structure Outgoing where
  login : Bytes
  buf : Bytes
  now : HoroDate
  mId : Bytes
  iv : Bytes

section Tasks

variable (X : CoderExt) (cipher : Cipher) (sIdLocal sIdRemote : Bytes)

/-- `Encrypted_write`: the frame. -/
def encryptedWrite (o : Outgoing) (db : AuthDbs) : Outcome Bytes × AuthDbs :=
  match ptxtSet o.now none o.buf with
  | .ok ptxt =>
    Coder.encryptedEncode X cipher sIdLocal (some o.login) sIdRemote [ptxt] o.mId (fun _ => o.iv) db
  | .err => (.err, db)
  | .fault => (.fault, db)

/-- The loop of `cyber_send`: the frames that are written. An entry that fails is left out. -/
def cyberSendTask : List Outgoing → AuthDbs → Option (List Bytes × AuthDbs)
  | [], db => some ([], db)
  | o :: os, db =>
    match encryptedWrite X cipher sIdLocal sIdRemote o db with
    | (.ok frame, db) => (cyberSendTask os db).map fun r => (frame :: r.1, r.2)
    | (.err, db) => cyberSendTask os db
    | (.fault, _) => none

/-- The loop of `cyber_receive`: the frames, and the date of each. -/
def cyberReceiveTask : List Bytes → (Nat → HoroDate) → Reception.State → Option Reception.State
  | [], _, s => some s
  | frame :: frames, now, s =>
    match Reception.cyberReceive X cipher s frame fun _ => now 0 with
    | some s => cyberReceiveTask frames (fun i => now (i + 1)) s
    | none => none

end Tasks

/-! ## Stores

Sealing and opening cache secrets, and change nothing else of the stores. -/

section Stores

variable {X : CoderExt} {cipher : Cipher} {sIdLocal : Bytes} {db : AuthDbs}

/-- A secret that is looked up is not stale afterwards, nor is any other. -/
theorem noStale_lookup {key key' : AuthKey} {action action' : CoderAction}
    (h : NoStale X cipher sIdLocal db key' action') (hkey : key' = key → action' = action) :
    NoStale X cipher sIdLocal (db.coderSecretGet X.pbkdf2 sIdLocal cipher key action).2 key'
      action' := by
  cases hit : db.authFindByKey key with
  | none => simpa only [AuthDbs.coderSecretGet, hit] using h
  | some it =>
    cases hcached : it.authSecretGet cipher.lib with
    | some secret => simpa only [AuthDbs.coderSecretGet, hit, hcached] using h
    | none =>
      cases hderived : derivedSecret X.pbkdf2 sIdLocal cipher key action it.auth.pwd with
      | none => simpa only [AuthDbs.coderSecretGet, hit, hcached, hderived] using h
      | some secret =>
        have hlogin : ∀ it : AuthItem,
            (it.authSecretAddOrUpdate cipher.lib secret).login = it.login := fun _ => rfl
        have hget : db.coderSecretGet X.pbkdf2 sIdLocal cipher key action = (some secret,
            db.modify key (fun it => it.authSecretAddOrUpdate cipher.lib secret) hlogin) := by
          simp only [AuthDbs.coderSecretGet, hit, hcached, hderived]
        rw [hget]
        intro it' hit' s hs
        rw [AuthDbs.authFindByKey_modify] at hit'
        split at hit'
        · next heq =>
          rw [hit] at hit'
          cases hit'
          rw [authSecretGet_addOrUpdate, if_pos rfl] at hs
          cases hs
          rw [heq, hkey heq]
          exact hderived
        · exact h it' hit' s hs

variable {sIdA sIdB login : Bytes} {dbA dbB : AuthDbs}

/-- Both sides hold the password of the login, `A` for sending and `B` for receiving. -/
def Linked (X : CoderExt) (cipher : Cipher) (sIdA sIdB : Bytes) (dbA dbB : AuthDbs)
    (login : Bytes) : Prop :=
  SamePassword X cipher sIdA sIdB dbA dbB (some login) ⟨authToDbId, login, sIdB⟩

/-- A secret that one side looks up changes nothing for any login. -/
theorem Linked.lookupA (h : Linked X cipher sIdA sIdB dbA dbB login) (login' : Bytes) :
    Linked X cipher sIdA sIdB
      (dbA.coderSecretGet X.pbkdf2 sIdA cipher ⟨authToDbId, login', sIdB⟩ .encrypt).2 dbB
      login := by
  refine ⟨h.nul, ?_, noStale_lookup h.noStaleA fun _ => rfl, h.noStaleB⟩
  simp only [coderAuthGet_coderSecretGet]
  exact h.entries

theorem Linked.lookupB (h : Linked X cipher sIdA sIdB dbA dbB login) (login' : Bytes) :
    Linked X cipher sIdA sIdB dbA
      (dbB.coderSecretGet X.pbkdf2 sIdB cipher ⟨authFromDbId, login', sIdA⟩ .decrypt).2 login := by
  refine ⟨h.nul, ?_, h.noStaleA, noStale_lookup h.noStaleB fun _ => rfl⟩
  simp only [coderAuthGet_coderSecretGet]
  exact h.entries

end Stores

/-! ## One message

From the payload to the frame and back. -/

section Message

variable {X : CoderExt} {cipher : Cipher} {sIdA sIdB : Bytes} {dbA dbA' : AuthDbs} {o : Outgoing}

/-- The plain text of an entry. -/
def Outgoing.ptxt (o : Outgoing) : Ptxt := ⟨o.buf, .external, o.now⟩

/-- A text of the application, a date that is read back, and a vector for the cipher. -/
structure Outgoing.Fit (X : CoderExt) (cipher : Cipher) (o : Outgoing) : Prop where
  cls : HasClass o.buf .external
  nul : (0 : UInt8) ∉ o.buf
  dated : o.ptxt.Dated
  localTime : X.zone.Reads o.now.sec
  iv : o.iv.length = cipher.ivSize

theorem Outgoing.Fit.ptxtSet (h : o.Fit X cipher) : ptxtSet o.now none o.buf = .ok o.ptxt := by
  obtain ⟨ptxt, hset, hcls⟩ := h.cls o.now none
  rw [hset]
  rw [Coder.ptxtSet] at hset
  split at hset
  · cases hset
    rfl
  · split at hset
    · cases hset
      cases hcls
    · cases hset

/-! ### Written and read

An entry is sealed with the secret of its login and read with the secret of the entry that the
header names. Both sides hold the same password, so that the two secrets are one, and the text
that was sealed is pushed. -/

/-- What a write makes of an entry, when json-c has a text for the frame. -/
inductive Written (X : CoderExt) (cipher : Cipher) (sIdA sIdB : Bytes) (o : Outgoing)
    (secret : Bytes) (db : AuthDbs) : Outcome Bytes × AuthDbs → Prop
  | fault {db'} : Written X cipher sIdA sIdB o secret db (.fault, db')
  | frame {text data frame : Bytes} : ptxtSerialize X.toTextExt o.ptxt = .ok text →
    (0 : UInt8) ∉ data → decryptAes X.evp cipher secret data = .ok text →
    X.json.print (encryptedJson o.mId sIdA o.login [data]) = some frame →
    Written X cipher sIdA sIdB o secret db (.ok frame,
      (db.coderSecretGet X.pbkdf2 sIdA cipher ⟨authToDbId, o.login, sIdB⟩ .encrypt).2)

theorem encryptedWrite_written (hX : X.Lawful) (ho : o.Fit X cipher) {secret : Bytes}
    (hlen : secret.length = cipher.keyLen)
    (hA : Ready X cipher sIdA dbA (some o.login) sIdB .encrypt ⟨authToDbId, o.login, sIdB⟩
      secret) :
    Written X cipher sIdA sIdB o secret dbA (encryptedWrite X cipher sIdA sIdB o dbA) := by
  obtain ⟨auth, hget⟩ := hA.get
  obtain ⟨db', hsecret, -⟩ := hA.coderSecretGet
  simp only [encryptedWrite, ho.ptxtSet, Coder.encryptedEncode, encryptedFrame, encodeElements]
  cases hprint : X.json.print (ptxtJson X.toTextExt o.ptxt) with
  | none =>
    have hserial : ptxtSerialize X.toTextExt o.ptxt = .fault := by rw [ptxtSerialize, hprint]
    simp only [hserial]
    exact .fault
  | some text =>
    have hserial : ptxtSerialize X.toTextExt o.ptxt = .ok text := by rw [ptxtSerialize, hprint]
    have hne : text ≠ [] := by
      rintro rfl
      have hnil := hX.json.parse_print hprint
      rw [hX.json.parse_nil] at hnil
      cases hnil
    obtain ⟨data, henc, hdec⟩ := decryptAes_encryptAes hX.evp hlen ho.iv hne
      (hX.json.length hprint)
    -- base64 has no NUL, so that the element is a C string
    have hnul : (0 : UInt8) ∉ data := by
      rw [encryptAes, if_neg hne] at henc
      split at henc
      · cases henc
      · cases henc
        exact nul_not_mem_base64Encode _
    have hcoder : coderEncrypt X cipher sIdA (some o.login) sIdB text o.iv dbA =
        (.ok (⟨authToDbId, o.login, sIdB⟩, data), db') := by
      simp only [coderEncrypt, hget, hsecret, henc]
      rfl
    simp only [hserial, hcoder, List.getLast?_singleton, List.map_cons, List.map_nil]
    split
    · next hprint' =>
      have hdb : db' =
          (dbA.coderSecretGet X.pbkdf2 sIdA cipher ⟨authToDbId, o.login, sIdB⟩ .encrypt).2 := by
        rw [hsecret]
      rw [hdb]
      exact .frame hserial hnul hdec hprint'
    · exact .fault

/-- A frame that was written pushes its message. -/
theorem cyberReceive_written (hX : X.Lawful) (ho : o.Fit X cipher) {secret : Bytes}
    {s : Reception.State} (hs : s.conn.sIdLocal = sIdB)
    (hB : Ready X cipher sIdB s.db (some o.login) sIdA .decrypt ⟨authFromDbId, o.login, sIdA⟩
      secret) (hsId : (0 : UInt8) ∉ sIdA) (hlogin : (0 : UInt8) ∉ o.login) {text data frame : Bytes}
    (hserial : ptxtSerialize X.toTextExt o.ptxt = .ok text) (hnul : (0 : UInt8) ∉ data)
    (hdec : decryptAes X.evp cipher secret data = .ok text)
    (hprint : X.json.print (encryptedJson o.mId sIdA o.login [data]) = some frame) {now : HoroDate}
    (hwindow : timeAdmitted X.toTextExt now o.ptxt.toMs.timestamp = true) :
    Reception.cyberReceive X cipher s frame (fun _ => now) = some
      { s with
        db := (s.db.coderSecretGet X.pbkdf2 sIdB cipher ⟨authFromDbId, o.login, sIdA⟩ .decrypt).2
        pushed := s.pushed ++ [⟨.external, o.buf, some ⟨authFromDbId, o.login, sIdA⟩⟩] } := by
  obtain ⟨auth, hget⟩ := hB.get
  obtain ⟨db', hsecret, -⟩ := hB.coderSecretGet
  have hfind : coderAuthFind s.db (some o.login) sIdA .decrypt =
      some (⟨authFromDbId, o.login, sIdA⟩, auth) := (Option.filter_eq_some_iff.mp hget).1
  have hmade : o.ptxt.Made := ⟨o.now, none, o.buf, ho.nul, ho.ptxtSet⟩
  have hread := readPtxt_serialized hX hmade ho.dated ho.localTime hwindow hserial
  have helement : decodeElement X cipher sIdB now (some o.login) (some sIdA) (.str data) s.db =
      (.ok (some o.ptxt.toMs), db') := by
    simp only [decodeElement, coderDecrypt, Json.getString, hget, hsecret, cstr_eq_self hnul, hdec,
      hread]
  have hheader := frameHeader_encryptedJson hX.json (List.cons_ne_nil data []) hsId hlogin hprint
  simp only [Reception.cyberReceive, Coder.encryptedDecode, hheader, hs, List.map_cons,
    List.map_nil, decodeElements, helement, Option.bind_some, hfind, Option.map_some,
    Option.toList_some, List.append_nil, hsecret]
  rfl

end Message

/-! ## All of them

By induction on the messages: the stores after each of them still agree. -/

section Tasks

variable {X : CoderExt} {cipher : Cipher} {sIdA sIdB : Bytes} {os : List Outgoing}

/-- What the other side has of an entry: the text, and the login that it came with. -/
def Outgoing.pushed (sIdA : Bytes) (o : Outgoing) : Reception.QueueMsg :=
  ⟨.external, o.buf, some ⟨authFromDbId, o.login, sIdA⟩⟩

/-- The text of a frame. -/
def IsFrame (X : CoderExt) (sIdA : Bytes) (frame : Bytes) : Prop :=
  ∃ mId login data, X.json.print (encryptedJson mId sIdA login [data]) = some frame

/-- What one side writes, the other one reads: each entry gives a frame, and is pushed. -/
theorem receive_sent (hX : X.Lawful) {dbA dbA' : AuthDbs} {s : Reception.State}
    {frames : List Bytes} {now : Nat → HoroDate} (hs : s.conn.sIdLocal = sIdB)
    (hlinked : ∀ o ∈ os, Linked X cipher sIdA sIdB dbA s.db o.login)
    (hfit : ∀ o ∈ os, o.Fit X cipher)
    (hwindow : ∀ i o, os[i]? = some o →
      timeAdmitted X.toTextExt (now i) o.ptxt.toMs.timestamp = true)
    (hsent : cyberSendTask X cipher sIdA sIdB os dbA = some (frames, dbA')) :
    (∀ frame ∈ frames, IsFrame X sIdA frame) ∧
      ∃ s', cyberReceiveTask X cipher frames now s = some s' ∧
        s'.pushed = s.pushed ++ os.map (Outgoing.pushed sIdA) := by
  induction os generalizing dbA s now frames with
  | nil =>
    cases hsent
    refine ⟨?_, s, rfl, (List.append_nil _).symm⟩
    intro frame hframe
    cases hframe
  | cons o os ih =>
    have ho := hfit o List.mem_cons_self
    have hlink := hlinked o List.mem_cons_self
    obtain ⟨secret, hlen, hA, hB⟩ := SamePassword.ready hX hlink
    have hwritten := encryptedWrite_written hX ho hlen hA
    rw [cyberSendTask] at hsent
    cases hwrite : encryptedWrite X cipher sIdA sIdB o dbA with
    | mk r db =>
    rw [hwrite] at hsent hwritten
    cases hwritten with
    | fault => cases hsent
    | @frame text data frame hserial hnul hdec hprint =>
      obtain ⟨⟨frames', db'⟩, hrest, heq⟩ := Option.map_eq_some_iff.mp hsent
      cases heq
      have hread := cyberReceive_written hX ho hs hB hlink.nul.1 hlink.nul.2 hserial hnul hdec
        hprint (hwindow 0 o rfl)
      have hwindow' : ∀ i o', os[i]? = some o' →
          timeAdmitted X.toTextExt (now (i + 1)) o'.ptxt.toMs.timestamp = true :=
        fun i o' hi => hwindow (i + 1) o' hi
      -- the stores after the first message have cached secrets, and still agree
      obtain ⟨hframes, s', hreceive, hpushed⟩ := ih
        (s := { s with
          db := (s.db.coderSecretGet X.pbkdf2 sIdB cipher ⟨authFromDbId, o.login, sIdA⟩
            .decrypt).2
          pushed := s.pushed ++ [o.pushed sIdA] }) hs
        (fun o' ho' => ((hlinked o' (List.mem_cons_of_mem _ ho')).lookupA o.login).lookupB o.login)
        (fun o' ho' => hfit o' (List.mem_cons_of_mem _ ho')) hwindow' hrest
      refine ⟨?_, s', ?_, ?_⟩
      · intro f hf
        rcases List.mem_cons.mp hf with rfl | hf
        · exact ⟨_, _, _, hprint⟩
        · exact hframes f hf
      · rw [cyberReceiveTask, hread]
        exact hreceive
      · rw [hpushed, List.append_assoc]
        rfl

/-! ## On the wire

The frames are written one after the other, and come in pieces of any size. -/

/-- A frame has no control character: no terminator stands in it. -/
theorem IsFrame.printable (hlayout : X.json.LaysOut) {frame : Bytes} (h : IsFrame X sIdA frame) :
    Json.Printable frame := by
  obtain ⟨mId, login, data, hprint⟩ := h
  obtain ⟨sp, hsp, rfl⟩ := hlayout hprint
  refine Json.printable_obj hsp ?_
  intro m hm
  simp only [List.map_cons, List.map_nil, List.mem_cons, List.not_mem_nil, or_false] at hm
  rcases hm with rfl | rfl | rfl | rfl | rfl | rfl
  · trivial
  · trivial
  · trivial
  · trivial
  · intro j hj
    obtain rfl := List.mem_singleton.mp hj
    exact Option.some_ne_none _
  · trivial

/-- The frames that were written are those that are read, when no read times out inside of one and
each has a length that fits. -/
theorem receivePayloads_frames {frames : List Bytes} (hprintable : ∀ f ∈ frames, Json.Printable f)
    (hlen : ∀ f ∈ frames, f.length < 2 ^ 31 - 1) {reads : List ReadEvent}
    (hopen : .closed ∉ reads) (hbytes : bytesOf reads = sendPayloads frames)
    (hcut : timeoutInFrame false reads = false) : receivePayloads reads = frames := by
  have hplain : ∀ f ∈ frames, ∀ c ∈ f, isTerm c = false := by
    intro f hf c hc
    have hlow := hprintable f hf c hc
    simp only [isTerm, Bool.or_eq_false_iff, beq_eq_false_iff_ne]
    constructor
    · rintro rfl
      exact absurd hlow (by decide)
    · rintro rfl
      exact absurd hlow (by decide)
  have hstart : timeoutInFrame (!([] : Bytes).isEmpty) reads = false := hcut
  rw [receivePayloads_eq, receiveFrom_eq_unframeFrom hopen 128 [] (Nat.zero_le _) hstart, hbytes,
    sendPayloads_of_lt hlen]
  exact unframe_frames isTerm (by decide) hplain

end Tasks

/-! ## Messages

At both ends the messages are those of the application. -/

section Delivered

variable {X : GatewayExt} {cipher : Cipher} {sIdA sIdB : Bytes} {ms : List Rsmp.Message}
  {os : List Outgoing}

/-- What is drawn for an entry: a date that is read back, and a vector for the cipher. -/
structure Outgoing.Drawn (X : GatewayExt) (cipher : Cipher) (o : Outgoing) : Prop where
  dated : o.ptxt.Dated
  localTime : X.zone.Reads o.now.sec
  iv : o.iv.length = cipher.ivSize

/-- The payloads of messages are in the queue. -/
abbrev Queued (X : GatewayExt) : List Rsmp.Message → List Outgoing → Prop :=
  List.Forall₂ fun m o => rsmpJsonMsg2payload X.rsmp m = .ok (some o.buf)

/-- The payload of a message is a text of the application. -/
theorem Outgoing.Drawn.fit (hX : X.Lawful) {m : Rsmp.Message} {o : Outgoing}
    (h : o.Drawn X cipher) (hpayload : rsmpJsonMsg2payload X.rsmp m = .ok (some o.buf)) :
    o.Fit X.toCoderExt cipher := by
  obtain ⟨members, -, hprint⟩ := msg2payload_object hX.rsmp.json hpayload
  exact ⟨msg2payload_class hX.rsmp.json hX.laysOut hpayload, hX.coder.json.nul hprint, h.dated,
    h.localTime, h.iv⟩

/-- What is in the queue is read as the messages. -/
theorem Queued.read (hX : X.Lawful) (B : Birth) (h : Queued X ms os) (hsound : ∀ m ∈ ms, m.Sound)
    (hkept : ∀ m ∈ ms, m.Kept X.rsmp) :
    List.Forall₂ (fun m q => ∃ m', rsmpJsonPayload2msg X.rsmp B q.buf = .msg ⟨m.1, m'⟩ ∧
      m.1.desc.Same m.2 m') ms (os.map (Outgoing.pushed sIdA)) := by
  induction h with
  | nil => exact .nil
  | @cons m o ms os hpayload _ ih =>
    obtain ⟨hm, hms⟩ := List.forall_mem_cons.mp hsound
    obtain ⟨hk, hks⟩ := List.forall_mem_cons.mp hkept
    refine .cons ?_ (ih hms hks)
    obtain ⟨-, jobj, hparse, hhas⟩ := Message.msg2payload_some hX.rsmp hm.described hpayload
    exact (hm.payload2msg_iff hX.rsmp B hparse hhas).mpr hk

theorem Queued.fit (hX : X.Lawful) (h : Queued X ms os) (hdrawn : ∀ o ∈ os, o.Drawn X cipher) :
    ∀ o ∈ os, o.Fit X.toCoderExt cipher := by
  induction h with
  | nil =>
    intro o ho
    cases ho
  | cons hpayload _ ih =>
    obtain ⟨ho, hos⟩ := List.forall_mem_cons.mp hdrawn
    exact List.forall_mem_cons.mpr ⟨ho.fit hX hpayload, ih hos⟩

/-- **Delivery.** The payloads of messages are encrypted and written one after the other, and the
bytes are read in any pieces, no read timing out inside of a frame. Then the other side pushes
these payloads for its application, in order and with nothing between, each with the login that it
was sent with; and what the application reads are the messages. -/
theorem delivered (hX : X.Lawful) (hqueued : Queued X ms os) (hsound : ∀ m ∈ ms, m.Sound)
    (hkept : ∀ m ∈ ms, m.Kept X.rsmp) (hdrawn : ∀ o ∈ os, o.Drawn X cipher) {dbA dbA' : AuthDbs}
    {s : Reception.State} (hs : s.conn.sIdLocal = sIdB)
    (hlinked : ∀ o ∈ os, Linked X.toCoderExt cipher sIdA sIdB dbA s.db o.login)
    {now : Nat → HoroDate} (hwindow : ∀ i o, os[i]? = some o →
      timeAdmitted X.toTextExt (now i) o.ptxt.toMs.timestamp = true) {frames : List Bytes}
    (hsent : cyberSendTask X.toCoderExt cipher sIdA sIdB os dbA = some (frames, dbA'))
    (hlen : ∀ f ∈ frames, f.length < 2 ^ 31 - 1) {reads : List ReadEvent}
    (hopen : .closed ∉ reads) (hbytes : bytesOf reads = sendPayloads frames)
    (hcut : timeoutInFrame false reads = false) (B : Birth) :
    ∃ s', cyberReceiveTask X.toCoderExt cipher (receivePayloads reads) now s = some s' ∧
      s'.pushed = s.pushed ++ os.map (Outgoing.pushed sIdA) ∧
      List.Forall₂ (fun m q => ∃ m', rsmpJsonPayload2msg X.rsmp B q.buf = .msg ⟨m.1, m'⟩ ∧
        m.1.desc.Same m.2 m') ms (os.map (Outgoing.pushed sIdA)) := by
  obtain ⟨hframes, s', hreceive, hpushed⟩ :=
    receive_sent hX.coder hs hlinked (hqueued.fit hX hdrawn) hwindow hsent
  have hread := receivePayloads_frames (fun f hf => (hframes f hf).printable hX.laysOut) hlen hopen
    hbytes hcut
  rw [hread]
  exact ⟨s', hreceive, hpushed, hqueued.read hX B hsound hkept⟩

end Delivered

/-! ### The watchdog of 2016

All the layers on one message, with a cipher that adds its key. -/

/-- A gateway in UTC, with json-c for a list of values. -/
def wireExt (values : List Json) : GatewayExt :=
  { plainExt values with
    uuidParse := twoMessages.uuidParse
    uuidUnparse := twoMessages.uuidUnparse }

def watchdogJson : Json := .obj (watchdog2016.members twoMessages)

/-- The entry of the queue. -/
def watchdogOut : Outgoing :=
  ⟨ascii "log-001", watchdogJson.toText, ts2016, ascii "mId", List.replicate 12 7⟩

/-- What is printed on the way: the message, the plain text and the frame. -/
def wireValues : List Json :=
  [watchdogJson, ptxtJson (plainExt []).toTextExt watchdogOut.ptxt,
    Reception.frameOf "log-001" "sId-1"
      ("BwcHBwcHBwcHBwcHAAAAAAAAAAAAAAAAAAAAAAhpRllYAQoUWVFdQVJbU1FFX0NSXnlXAAIzVDEzOjQxPTc0" ++
        "KTA/Pl0lKyclHDsNSlgCDgsPChATC0EvURo7CxQWFUYXElwiclNNc2dbJSsnWyVzfndiWyVJaTgPZg0bBEVU" ++
        "X1YsQ19TK00fLRcVRhcSXCIwMDAwMDc3Nyo3Nzc3Kjc3N0NkVB0BXEJXHQAAAUBRQ0NHXRM4UWVEcRB3VHNc" ++
        "IjogWyU1NzYxKjc0Kjc0J3hXFwVdVVceHgcJSTsvUVcSUEhTawdBU3NzIjogIkVfU0JVSUZLJSd6")]

theorem wireValues_lawful : (plainExt wireValues).Lawful :=
  plainExt_lawful (by decide +kernel) (by decide +kernel)

theorem wireExt_lawful : (wireExt wireValues).Lawful where
  coder := wireValues_lawful
  rsmp :=
    { json := wireValues_lawful.json
      date := fun _ _ => rfl
      zone := Zone.utc_lawful
      uuid := twoMessages_lawful.uuid
      uuidText := twoMessages_lawful.uuidText }
  laysOut := JsonLib.ofValues_laysOut _

theorem watchdog_sent : (cyberSendTask (plainExt wireValues) .aes256Gcm (ascii "sId-1")
    (ascii "sId-2") [watchdogOut] (storeOf senderKey)).any
      (fun r => r.1.all fun f => f.length < 2 ^ 31 - 1) = true := by decide +kernel

/-- The receiver, once the cipher is agreed on. -/
def receiverState : Reception.State :=
  ⟨⟨ascii "sId-2", some (ascii "sId-1"), some ⟨ascii "AES256GCM", true⟩⟩, storeOf receiverKey, []⟩

theorem watchdogOut_queued : Queued (wireExt wireValues) [watchdog2016] [watchdogOut] := by
  refine .cons ?_ .nil
  have hprint : (wireExt wireValues).rsmp.json.print
      (.obj (watchdog2016.members (wireExt wireValues).rsmp)) = some watchdogOut.buf := by
    decide +kernel
  have hversion : strstr watchdogOut.buf (ascii "\"Version\"") = false := by decide +kernel
  have hdescribed : watchdog2016.1.Described := rfl
  rw [Message.msg2payload_eq _ hdescribed, hprint]
  dsimp only
  rw [hversion]
  rfl

theorem linked_storeOf (values : List Json) (cipher : Cipher) :
    Linked (plainExt values) cipher (ascii "sId-1") (ascii "sId-2") (storeOf senderKey)
      (storeOf receiverKey) (ascii "log-001") where
  nul := ⟨by decide, by decide⟩
  entries := ⟨_, _, rfl, rfl, rfl⟩
  noStaleA := by
    intro it hit secret hsecret
    cases hit
    cases hsecret
  noStaleB := by
    intro it hit secret hsecret
    cases hit
    cases hsecret

/-- Bytes that are read one after the other. -/
theorem reads_bytes (bs : Bytes) :
    .closed ∉ bs.map ReadEvent.byte ∧ bytesOf (bs.map .byte) = bs ∧
      ∀ inFrame, timeoutInFrame inFrame (bs.map .byte) = false := by
  induction bs with
  | nil => exact ⟨List.not_mem_nil, rfl, fun _ => rfl⟩
  | cons b bs ih =>
    obtain ⟨hopen, hbytes, hcut⟩ := ih
    refine ⟨?_, ?_, fun _ => hcut _⟩
    · intro h
      rcases List.mem_cons.mp h with h | h
      · cases h
      · exact hopen h
    · rw [List.map_cons, bytesOf, hbytes]

/-- It is delivered. -/
theorem delivered_watchdog :
    ∃ frames dbA' s', cyberSendTask (plainExt wireValues) .aes256Gcm (ascii "sId-1")
        (ascii "sId-2") [watchdogOut] (storeOf senderKey) = some (frames, dbA') ∧
      cyberReceiveTask (plainExt wireValues) .aes256Gcm
        (receivePayloads ((sendPayloads frames).map .byte)) (fun _ => ts2016) receiverState =
          some s' ∧
      s'.pushed = [watchdogOut.pushed (ascii "sId-1")] := by
  obtain ⟨⟨frames, dbA'⟩, hsent, hlen⟩ := Option.any_eq_true _ _ |>.mp watchdog_sent
  obtain ⟨hopen, hbytes, hcut⟩ := reads_bytes (sendPayloads frames)
  have hsound : watchdog2016.Sound := ⟨rfl, trivial, rfl, trivial, trivial, trivial⟩
  have hkept : watchdog2016.Kept (wireExt wireValues).rsmp := by
    refine ⟨trivial, trivial, trivial, ?_, trivial⟩
    exact ⟨fun _ => ⟨by decide, by decide, Zone.utc_reads _⟩,
      fun h => absurd (⟨by decide, by decide⟩ : HoroDate.InRange ⟨1457012463, 789000000⟩) h⟩
  have hdrawn : watchdogOut.Drawn (wireExt wireValues) .aes256Gcm := by
    exact ⟨⟨⟨by decide, by decide⟩, by decide⟩, Zone.utc_reads _, rfl⟩
  have hwindow : ∀ i o, [watchdogOut][i]? = some o →
      timeAdmitted (plainExt wireValues).toTextExt ((fun _ => ts2016 : Nat → HoroDate) i)
        o.ptxt.toMs.timestamp = true := by
    intro i o _
    rfl
  obtain ⟨s', hreceive, hpushed, -⟩ := delivered wireExt_lawful watchdogOut_queued
    (List.forall_mem_singleton.mpr hsound) (List.forall_mem_singleton.mpr hkept)
    (List.forall_mem_singleton.mpr hdrawn) (s := receiverState) rfl
    (List.forall_mem_singleton.mpr (linked_storeOf wireValues .aes256Gcm)) hwindow hsent
    (fun f hf => of_decide_eq_true (List.all_eq_true.mp hlen f hf)) hopen hbytes (hcut false)
    bareBirth
  exact ⟨frames, dbA', s', hsent, hreceive, hpushed⟩

end RsmpGateway.Gateway
