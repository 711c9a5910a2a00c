import RsmpGateway.Lib.Json
import RsmpGateway.Lib.Outcome

/-!
# The choice of a cipher

A connection begins with one message each way: the follower offers the ciphers that it has
enabled, the leader takes the last one that it has enabled too and answers with it alone, and the
follower checks the answer against its own table. Both then hold the same cipher
(`cipher_agreement`).

The two functions are run on the messages of each other, over a line on which a write may fail
and a message may be lost. The tables may be any, of any ciphers, as long as a table names none
twice. That both sides succeed is not said: a leader that has answered does not know what becomes
of its answer.
-/

namespace RsmpGateway.Cyber

open RsmpGateway.Lib

/-- `cipher_t`, as the exchange reads it. -/
structure CipherDesc where
  lib : Bytes
  enabled : Bool
  deriving Repr, DecidableEq

/-- `_cipher_list` -/
abbrev CipherTable := List CipherDesc

/-- `cipher_get_by_str` -/
def cipherGetByStr (table : CipherTable) (name : Bytes) : Option CipherDesc :=
  table.find? fun c => c.lib = name

/-- `cipher_foreach` with `cipher_foreach_cb`: the names of the ciphers enabled. -/
def enabledNames (table : CipherTable) : List Bytes :=
  (table.filter fun c => c.enabled).map CipherDesc.lib

variable (J : JsonLib)

/-- The JSON of a `CipherAgreement`. -/
def cipherAgreementJson (mId sIdLocal : Bytes) (ciphers : List Bytes) : Json :=
  .obj [(ascii "mType", .str (ascii "eRMsg")), (ascii "type", .str (ascii "CipherAgreement")),
    (ascii "mId", .str mId), (ascii "sId", .str sIdLocal),
    (ascii "cipher", .arr (ciphers.map .str))]

/-- `CipherAgreement_serial`. `mId` is the identifier drawn. -/
def cipherAgreementSerial (sIdLocal : Bytes) (ciphers : List Bytes) (mId : Bytes) :
    Outcome Bytes :=
  if ciphers = [] then .err
  else .ofOption (J.print (cipherAgreementJson mId sIdLocal ciphers))

/-- A string that is compared or copied: `null` has none. -/
def stringOf (j : Json) : Outcome Bytes :=
  match j.getString J with
  | some s => .ok (cstr s)
  | none => .fault

/-- `CipherAgreement_deserial`: the identity of the remote and its ciphers. What is no array
has no length. -/
def cipherAgreementDeserial (payload : Bytes) : Outcome (Bytes × List Bytes) := do
  let j ← Outcome.ofOption (J.parse payload)
  let mType ← Outcome.ofOption (j.get? (ascii "mType"))
  let type ← Outcome.ofOption (j.get? (ascii "type"))
  let mId ← Outcome.ofOption (j.get? (ascii "mId"))
  let sId ← Outcome.ofOption (j.get? (ascii "sId"))
  let ciphers ← Outcome.ofOption (j.get? (ascii "cipher"))
  if (← stringOf J mType) ≠ ascii "eRMsg" then .err
  else if (← stringOf J type) ≠ ascii "CipherAgreement" then .err
  else
    let _ ← stringOf J mId
    let sId ← stringOf J sId
    match ciphers with
    | .arr [] => .err
    | .arr items => return (sId, ← items.mapM (stringOf J))
    | _ => .fault

/-! ### The two roles

The follower offers and the leader chooses. The identity of the remote is learnt from its
message, or compared with the one that was known. -/

/-- What the exchange reads and sets in a connection. -/
structure Conn where
  sIdLocal : Bytes
  sIdRemote : Option Bytes
  cipher : Option CipherDesc
  deriving Repr, DecidableEq

/-- The identity of the remote is set, or compared. -/
def Conn.checkRemote (c : Conn) (sId : Bytes) : Option Conn :=
  match c.sIdRemote with
  | some sIdRemote => if sId = sIdRemote then some c else none
  | none => some { c with sIdRemote := some sId }

/-- What `cyber_exchange_follower` sends. -/
def followerOffer (table : CipherTable) (c : Conn) (mId : Bytes) : Outcome Bytes :=
  cipherAgreementSerial J c.sIdLocal (enabledNames table) mId

/-- `cyber_exchange_follower`, once its offer is made. `writes` tells whether the offer is
sent, `received` is the answer. The cipher is set before it is checked. -/
def cyberExchangeFollower (table : CipherTable) (c : Conn) (mId : Bytes) (writes : Bool)
    (received : Option Bytes) : Outcome Unit × Conn :=
  match followerOffer J table c mId with
  | .ok _ =>
    match (if writes then received else none) with
    | none => (.err, c)
    | some payload =>
      match cipherAgreementDeserial J payload with
      | .ok (sId, ciphers) =>
        match c.checkRemote sId with
        | none => (.err, c)
        | some c =>
          match ciphers with
          | [name] =>
            let c := { c with cipher := cipherGetByStr table name }
            if c.cipher.any fun d => d.enabled then (.ok (), c) else (.err, c)
          | _ => (.err, c)
      | .err => (.err, c)
      | .fault => (.fault, c)
  | .err => (.err, c)
  | .fault => (.fault, c)

/-- The search of the leader, from the end of the offer. -/
def leaderChoice (table : CipherTable) (offer : List Bytes) : Option CipherDesc :=
  offer.reverse.findSome? fun name => (cipherGetByStr table name).filter fun c => c.enabled

/-- `cyber_exchange_leader`: how it ends, and the answer that it sends. `wild` tells whether
what `sndPayload` holds before its declaration, which the first exits free, is no pointer. -/
def cyberExchangeLeader (table : CipherTable) (c : Conn) (mId : Bytes) (received : Option Bytes)
    (writes wild : Bool) : Outcome Unit × Conn × Option Bytes :=
  let early : Outcome Unit := if wild then .fault else .err
  match received with
  | none => (early, c, none)
  | some payload =>
    match cipherAgreementDeserial J payload with
    | .ok (sId, ciphers) =>
      match c.checkRemote sId with
      | none => (early, c, none)
      | some c =>
        match leaderChoice table ciphers with
        | none => (early, c, none)
        | some cipher =>
          match cipherAgreementSerial J c.sIdLocal [cipher.lib] mId with
          | .ok answer =>
            if writes then (.ok (), { c with cipher := some cipher }, some answer)
            else (.err, c, some answer)
          | .err => (.err, c, none)
          | .fault => (.fault, c, none)
    | .err => (early, c, none)
    | .fault => (.fault, c, none)

/-- Which writes succeed, which of the two messages arrive, and what the leader may free. -/
structure Line where
  followerWrites : Bool
  offerArrives : Bool
  leaderWrites : Bool
  answerArrives : Bool
  wild : Bool

/-- The two sides, on the messages of each other: how the follower ends, and the leader. -/
def exchange (tableF tableL : CipherTable) (F L : Conn) (mIdF mIdL : Bytes) (x : Line) :
    (Outcome Unit × Conn) × (Outcome Unit × Conn) :=
  let offer := match followerOffer J tableF F mIdF with
    | .ok payload => if x.offerArrives then some payload else none
    | _ => none
  let (ret, L, answer) := cyberExchangeLeader J tableL L mIdL offer x.leaderWrites x.wild
  (cyberExchangeFollower J tableF F mIdF x.followerWrites
      (if x.answerArrives then answer else none),
    (ret, L))

/-! ## Tables

A table says which ciphers there are and which are enabled, in an order of its own on each side. -/

theorem mem_enabledNames {table : CipherTable} {name : Bytes} :
    name ∈ enabledNames table ↔ ∃ c ∈ table, c.enabled = true ∧ c.lib = name := by
  simp only [enabledNames, List.mem_map, List.mem_filter, and_assoc]

/-- Names that are all different name one cipher each. -/
theorem cipherGetByStr_of_mem {table : CipherTable} (hnodup : (table.map CipherDesc.lib).Nodup)
    {c : CipherDesc} (hc : c ∈ table) : cipherGetByStr table c.lib = some c := by
  cases hfind : cipherGetByStr table c.lib with
  | none =>
    rw [cipherGetByStr, List.find?_eq_none] at hfind
    exact absurd (decide_eq_true rfl) (hfind c hc)
  | some d =>
    have hname : d.lib = c.lib := by simpa using List.find?_some hfind
    rw [List.inj_on_of_nodup_map hnodup (List.mem_of_find?_eq_some hfind) hc hname]

theorem enabled_iff {table : CipherTable} (hnodup : (table.map CipherDesc.lib).Nodup)
    {name : Bytes} {c : CipherDesc} :
    ((cipherGetByStr table name).filter fun c => c.enabled) = some c ↔
      c ∈ table ∧ c.enabled = true ∧ c.lib = name := by
  rw [Option.filter_eq_some_iff]
  constructor
  · rintro ⟨hfind, henabled⟩
    exact ⟨List.mem_of_find?_eq_some hfind, henabled, by simpa using List.find?_some hfind⟩
  · rintro ⟨hc, henabled, rfl⟩
    exact ⟨cipherGetByStr_of_mem hnodup hc, henabled⟩

/-- The leader takes the last cipher of the offer that it has enabled. -/
theorem leaderChoice_eq_some {table : CipherTable} (hnodup : (table.map CipherDesc.lib).Nodup)
    {offer : List Bytes} {c : CipherDesc} (h : leaderChoice table offer = some c) :
    c ∈ table ∧ c.enabled = true ∧
      (offer.filter fun name => name ∈ enabledNames table).getLast? = some c.lib := by
  rw [leaderChoice] at h
  rw [← List.head?_reverse, ← List.filter_reverse]
  generalize offer.reverse = names at h ⊢
  induction names with
  | nil => cases h
  | cons name names ih =>
    rw [List.findSome?_cons] at h
    split at h
    · next d hd =>
      cases h
      obtain ⟨hc, henabled, rfl⟩ := (enabled_iff hnodup).mp hd
      have hmem : c.lib ∈ enabledNames table := mem_enabledNames.mpr ⟨c, hc, henabled, rfl⟩
      refine ⟨hc, henabled, ?_⟩
      rw [List.filter_cons_of_pos (by simpa using hmem)]
      rfl
    · next hnone =>
      have hmem : name ∉ enabledNames table := by
        intro hmem
        obtain ⟨c, hc, henabled, hname⟩ := mem_enabledNames.mp hmem
        rw [(enabled_iff hnodup).mpr ⟨hc, henabled, hname⟩] at hnone
        cases hnone
      rw [List.filter_cons_of_neg (by simpa using hmem)]
      exact ih h

/-! ## Messages

The offer and the answer are texts; what is read of a text is a list of names. -/

variable {J}

/-- A message of the other side is read. -/
theorem deserial_serial (hJ : J.Lawful) {sIdLocal mId payload : Bytes} {ciphers : List Bytes}
    (hnul : ∀ name ∈ ciphers, (0 : UInt8) ∉ name)
    (h : cipherAgreementSerial J sIdLocal ciphers mId = .ok payload) :
    cipherAgreementDeserial J payload = .ok (cstr sIdLocal, ciphers) := by
  rw [cipherAgreementSerial] at h
  split at h
  · cases h
  · next hne =>
    have hprint := Outcome.ofOption_eq_ok.mp h
    have hmType : cstr (ascii "eRMsg") = ascii "eRMsg" := by decide
    have htype : cstr (ascii "CipherAgreement") = ascii "CipherAgreement" := by decide
    have hitems : (ciphers.map Json.str).mapM (stringOf J) = .ok ciphers := by
      clear h hne hprint
      induction ciphers with
      | nil => rfl
      | cons name names ih =>
        have hname : stringOf J (.str name) = .ok name := by
          show Outcome.ok (cstr name) = _
          rw [cstr_eq_self (hnul name List.mem_cons_self)]
        rw [List.map_cons, List.mapM_cons, hname,
          ih fun name h => hnul name (List.mem_cons_of_mem _ h)]
        rfl
    obtain ⟨name, names, rfl⟩ := List.exists_cons_of_ne_nil hne
    have h1 : (cipherAgreementJson mId sIdLocal (name :: names)).get? (ascii "mType") =
        some (.str (ascii "eRMsg")) := rfl
    have h2 : (cipherAgreementJson mId sIdLocal (name :: names)).get? (ascii "type") =
        some (.str (ascii "CipherAgreement")) := rfl
    have h3 : (cipherAgreementJson mId sIdLocal (name :: names)).get? (ascii "mId") =
        some (.str mId) := rfl
    have h4 : (cipherAgreementJson mId sIdLocal (name :: names)).get? (ascii "sId") =
        some (.str sIdLocal) := rfl
    have h5 : (cipherAgreementJson mId sIdLocal (name :: names)).get? (ascii "cipher") =
        some (.arr ((name :: names).map .str)) := rfl
    have hstring : ∀ s, stringOf J (.str s) = .ok (cstr s) := fun _ => rfl
    simp only [cipherAgreementDeserial, hJ.parse_print hprint, h1, h2, h3, h4, h5, hstring, hmType,
      htype, Outcome.ofOption, Outcome.ok_bind, ne_eq, not_true_eq_false, if_false]
    rw [List.map_cons] at hitems ⊢
    simp only [hitems, Outcome.ok_bind, Outcome.pure_eq]

/-! ## The exchange

Both sides run against each other; the messages come, or the exchange fails. -/

/-- What the follower does when it succeeds. -/
theorem cyberExchangeFollower_ok {table : CipherTable} {c c' : Conn} {mId : Bytes} {writes : Bool}
    {received : Option Bytes}
    (h : cyberExchangeFollower J table c mId writes received = (.ok (), c')) :
    ∃ payload sId name d, received = some payload ∧
      cipherAgreementDeserial J payload = .ok (sId, [name]) ∧
      cipherGetByStr table name = some d ∧ d.enabled = true ∧ c'.cipher = some d := by
  unfold cyberExchangeFollower at h
  split at h
  · split at h
    · cases h
    · next payload hreceived =>
      split at h
      · next sId ciphers hread =>
        split at h
        · cases h
        · split at h
          · next name =>
            dsimp only at h
            split at h
            · next henabled =>
              cases h
              obtain ⟨d, hd, henabled⟩ := (Option.any_eq_true _ _).mp henabled
              refine ⟨payload, sId, name, d, ?_, hread, hd, henabled, hd⟩
              split at hreceived
              · exact hreceived
              · cases hreceived
            · cases h
          · cases h
      · cases h
      · cases h
  · cases h
  · cases h

/-- What the leader does when it answers or succeeds. -/
theorem cyberExchangeLeader_cases {table : CipherTable} {c c' : Conn} {mId : Bytes}
    {received answer : Option Bytes} {writes wild : Bool} {ret : Outcome Unit}
    (h : cyberExchangeLeader J table c mId received writes wild = (ret, c', answer)) :
    (ret ≠ .ok () ∧ answer = none) ∨
      ∃ payload sId ciphers cipher sIdLocal text, received = some payload ∧
        cipherAgreementDeserial J payload = .ok (sId, ciphers) ∧
        leaderChoice table ciphers = some cipher ∧
        cipherAgreementSerial J sIdLocal [cipher.lib] mId = .ok text ∧ answer = some text ∧
        (ret = .ok () → c'.cipher = some cipher) := by
  -- an exit before the list is allocated frees what the stack has in its place
  have hearly : (if wild then Outcome.fault else Outcome.err : Outcome Unit) ≠ .ok () := by
    cases wild <;> exact nofun
  unfold cyberExchangeLeader at h
  dsimp only at h
  split at h
  · cases h
    exact .inl ⟨hearly, rfl⟩
  · next payload =>
    split at h
    · next sId ciphers hread =>
      split at h
      · cases h
        exact .inl ⟨hearly, rfl⟩
      · split at h
        · cases h
          exact .inl ⟨hearly, rfl⟩
        · next cipher hchoice =>
          split at h
          · next text hserial =>
            refine .inr ⟨payload, sId, ciphers, cipher, _, text, rfl, hread, hchoice, hserial, ?_⟩
            split at h
            · cases h
              exact ⟨rfl, fun _ => rfl⟩
            · cases h
              exact ⟨rfl, nofun⟩
          · cases h
            exact .inl ⟨nofun, rfl⟩
          · cases h
            exact .inl ⟨nofun, rfl⟩
    · cases h
      exact .inl ⟨hearly, rfl⟩
    · cases h
      exact .inl ⟨nofun, rfl⟩

/-- An answer of the leader to the offer of the follower. -/
theorem leader_answers (hJ : J.Lawful) {tableF tableL : CipherTable} {F L L' : Conn}
    {mIdF mIdL offer : Bytes} {answer : Option Bytes} {writes wild : Bool} {ret : Outcome Unit}
    (hnulF : ∀ c ∈ tableF, (0 : UInt8) ∉ c.lib) (hnulL : ∀ c ∈ tableL, (0 : UInt8) ∉ c.lib)
    (hL : (tableL.map CipherDesc.lib).Nodup) (hoffer : followerOffer J tableF F mIdF = .ok offer)
    (h : cyberExchangeLeader J tableL L mIdL (some offer) writes wild = (ret, L', answer)) :
    (ret ≠ .ok () ∧ answer = none) ∨
      ∃ l text sId, l ∈ tableL ∧ l.enabled = true ∧
        ((enabledNames tableF).filter fun name => name ∈ enabledNames tableL).getLast? =
          some l.lib ∧
        answer = some text ∧ cipherAgreementDeserial J text = .ok (sId, [l.lib]) ∧
        (ret = .ok () → L'.cipher = some l) := by
  rcases cyberExchangeLeader_cases h with hnone |
    ⟨payload, sId, ciphers, l, sIdLocal, text, hpayload, hread, hchoice, hserial, hanswer, hok⟩
  · exact .inl hnone
  · cases hpayload
    have hnames : ∀ name ∈ enabledNames tableF, (0 : UInt8) ∉ name := by
      intro name hname
      obtain ⟨c, hc, -, rfl⟩ := mem_enabledNames.mp hname
      exact hnulF c hc
    rw [deserial_serial hJ hnames hoffer] at hread
    cases hread
    obtain ⟨hl, henabled, hlast⟩ := leaderChoice_eq_some hL hchoice
    refine .inr ⟨l, text, cstr sIdLocal, hl, henabled, hlast, hanswer, ?_, hok⟩
    apply deserial_serial hJ _ hserial
    intro name hname
    obtain rfl := List.mem_singleton.mp hname
    exact hnulL l hl

/-- **Cipher agreement.** When both sides succeed on the messages of each other they hold the
same cipher: the last one of the offer that the leader has enabled. When they have none in
common neither succeeds. -/
theorem cipher_agreement (hJ : J.Lawful) {tableF tableL : CipherTable}
    (hF : (tableF.map CipherDesc.lib).Nodup) (hL : (tableL.map CipherDesc.lib).Nodup)
    (hnulF : ∀ c ∈ tableF, (0 : UInt8) ∉ c.lib) (hnulL : ∀ c ∈ tableL, (0 : UInt8) ∉ c.lib)
    {F L : Conn} {mIdF mIdL : Bytes} {x : Line} {r : (Outcome Unit × Conn) × (Outcome Unit × Conn)}
    (hr : exchange J tableF tableL F L mIdF mIdL x = r) :
    (r.1.1 = .ok () → r.2.1 = .ok () → ∃ f ∈ tableF, ∃ l ∈ tableL,
      r.1.2.cipher = some f ∧ r.2.2.cipher = some l ∧ f.lib = l.lib ∧
      f.enabled = true ∧ l.enabled = true ∧
      ((enabledNames tableF).filter fun name => name ∈ enabledNames tableL).getLast? =
        some f.lib) ∧
      ((∀ f ∈ tableF, ∀ l ∈ tableL, f.lib = l.lib → ¬ (f.enabled = true ∧ l.enabled = true)) →
        r.1.1 ≠ .ok () ∧ r.2.1 ≠ .ok ()) := by
  subst hr
  rw [exchange]
  generalize hlead : cyberExchangeLeader J tableL L mIdL
    (match followerOffer J tableF F mIdF with
      | .ok payload => if x.offerArrives then some payload else none
      | _ => none) x.leaderWrites x.wild = lead
  obtain ⟨ret, L', answer⟩ := lead
  dsimp only
  generalize hfollow : cyberExchangeFollower J tableF F mIdF x.followerWrites
    (if x.answerArrives then answer else none) = follow
  obtain ⟨retF, F'⟩ := follow
  dsimp only
  -- what the leader answers, to the offer or to nothing
  have hanswers : (ret ≠ .ok () ∧ answer = none) ∨
      ∃ l text sId, l ∈ tableL ∧ l.enabled = true ∧
        ((enabledNames tableF).filter fun name => name ∈ enabledNames tableL).getLast? =
          some l.lib ∧
        answer = some text ∧ cipherAgreementDeserial J text = .ok (sId, [l.lib]) ∧
        (ret = .ok () → L'.cipher = some l) := by
    split at hlead
    · next offer hoffer =>
      split at hlead
      · exact leader_answers hJ hnulF hnulL hL hoffer hlead
      · rcases cyberExchangeLeader_cases hlead with hnone | ⟨_, _, _, _, _, _, hpayload, -⟩
        · exact .inl hnone
        · cases hpayload
    · rcases cyberExchangeLeader_cases hlead with hnone | ⟨_, _, _, _, _, _, hpayload, -⟩
      · exact .inl hnone
      · cases hpayload
  constructor
  · rintro rfl rfl
    obtain ⟨payload, sId, name, f, hreceived, hread, hfind, henabled, hcipher⟩ :=
      cyberExchangeFollower_ok hfollow
    rcases hanswers with ⟨hret, -⟩ | ⟨l, text, sId', hl, henabledL, hlast, hanswer, hdeserial, hok⟩
    · exact absurd rfl hret
    · have htext : text = payload := by
        rw [hanswer] at hreceived
        split at hreceived
        · exact Option.some.inj hreceived
        · cases hreceived
      subst htext
      rw [hdeserial] at hread
      cases hread
      obtain ⟨hf, -, hname⟩ := (enabled_iff hF).mp
        (Option.filter_eq_some_iff.mpr ⟨hfind, henabled⟩)
      refine ⟨f, hf, l, hl, hcipher, hok rfl, hname, henabled, henabledL, ?_⟩
      rw [hname]
      exact hlast
  · intro hnone
    rcases hanswers with ⟨hret, rfl⟩ | ⟨l, _, _, hl, henabled, hlast, -⟩
    · refine ⟨?_, hret⟩
      rintro rfl
      obtain ⟨_, _, _, _, hreceived, -⟩ := cyberExchangeFollower_ok hfollow
      rw [ite_self] at hreceived
      cases hreceived
    · -- the last of the common names is one
      obtain ⟨hmem, -⟩ := List.mem_filter.mp (List.mem_of_getLast? hlast)
      obtain ⟨f, hf, hfe, hname⟩ := mem_enabledNames.mp hmem
      exact absurd ⟨hfe, henabled⟩ (hnone f hf l hl hname)

/-! ### A choice

Two tables that have two ciphers in common. -/

/-- The ciphers of the program, with what is enabled. -/
def aesTable (ctr128 ctr256 gcm256 : Bool) : CipherTable :=
  [⟨ascii "AES128CTR", ctr128⟩, ⟨ascii "AES256CTR", ctr256⟩, ⟨ascii "AES256GCM", gcm256⟩]

/-- json-c for the two messages. -/
def agreementJson : JsonLib :=
  .ofValues [
    cipherAgreementJson (ascii "m1") (ascii "A")
      [ascii "AES128CTR", ascii "AES256CTR", ascii "AES256GCM"],
    cipherAgreementJson (ascii "m2") (ascii "B") [ascii "AES256CTR"]]

theorem agreementJson_lawful : agreementJson.Lawful := by
  apply JsonLib.ofTable_lawful
  · decide
  · decide +kernel

/-- `A` offers three ciphers, and `B` has all but the last enabled. -/
def agreementResult : (Outcome Unit × Conn) × (Outcome Unit × Conn) :=
  exchange agreementJson (aesTable true true true) (aesTable true true false)
    ⟨ascii "A", none, none⟩ ⟨ascii "B", none, none⟩ (ascii "m1") (ascii "m2")
    ⟨true, true, true, true, false⟩

theorem cipher_agreement_ctr256 :
    agreementResult.1.1 = .ok () ∧ agreementResult.2.1 = .ok () ∧
      ∃ f ∈ aesTable true true true, ∃ l ∈ aesTable true true false,
        agreementResult.1.2.cipher = some f ∧ agreementResult.2.2.cipher = some l ∧
        f.lib = l.lib ∧ f.enabled = true ∧ l.enabled = true ∧
        ((enabledNames (aesTable true true true)).filter fun name =>
          name ∈ enabledNames (aesTable true true false)).getLast? = some f.lib := by
  have hok : agreementResult.1.1 = .ok () ∧ agreementResult.2.1 = .ok () := by decide
  refine ⟨hok.1, hok.2, ?_⟩
  exact (cipher_agreement agreementJson_lawful (by decide) (by decide) (by decide) (by decide)
    (rfl : _ = agreementResult)).1 hok.1 hok.2

end RsmpGateway.Cyber
