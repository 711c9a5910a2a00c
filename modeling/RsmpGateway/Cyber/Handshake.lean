import RsmpGateway.Cyber.Exchange

/-!
# What a failed handshake leaves

Both sides take the identity of the remote as soon as they have read its message, and the
follower takes the cipher before it looks whether this one can be used: a handshake that fails
after that leaves them in the connection (`leavesNoTrace_iff`).

The condition is on the message that is received, on the table and on the connection before. A
follower leaves nothing when the answer chooses one cipher that is enabled, or what the
connection has; a leader, when it has an identity of the remote already, or when it can answer.
-/

namespace RsmpGateway.Cyber

open RsmpGateway.Lib

/-- A call of `cyber_exchange_follower` or of `cyber_exchange_leader`, with what the transport
does. -/
inductive Handshake
  | follower (mId : Bytes) (writes : Bool) (received : Option Bytes)
  | leader (mId : Bytes) (received : Option Bytes) (writes wild : Bool)

section Handshake

variable (J : JsonLib) (table : CipherTable) (c : Conn)

/-- How it ends, and the connection then. -/
def Handshake.run : Handshake → Outcome Unit × Conn
  | follower mId writes received => cyberExchangeFollower J table c mId writes received
  | leader mId received writes wild =>
    let (ret, c, _) := cyberExchangeLeader J table c mId received writes wild
    (ret, c)

/-- **No trace.** When the call returns an error the cipher and the identity are those before. -/
def LeavesNoTrace (h : Handshake) : Prop :=
  (h.run J table c).1 = .err →
    (h.run J table c).2.cipher = c.cipher ∧ (h.run J table c).2.sIdRemote = c.sIdRemote

/-- The choice of one cipher that is enabled. -/
def ChoosesOne (ciphers : List Bytes) : Prop :=
  ∃ name d, ciphers = [name] ∧ cipherGetByStr table name = some d ∧ d.enabled = true

/-- The connection has an identity of the remote already, and the message that arrives comes from
another remote, or does not choose one cipher, or chooses what the connection has. -/
def KeepsAnswer (sId : Bytes) (ciphers : List Bytes) : Prop :=
  ∃ sIdRemote, c.sIdRemote = some sIdRemote ∧
    (sId = sIdRemote → ∀ name, ciphers = [name] → cipherGetByStr table name = c.cipher)

/-- When a message is read: the follower finds one cipher that is enabled, or keeps what it has;
the leader has an identity of the remote already, or finds a cipher and answers, or does not come
back from the call. -/
def Handshake.Clean : Handshake → Prop
  | follower mId writes received =>
    ∀ offer payload sId ciphers, followerOffer J table c mId = .ok offer → writes = true →
      received = some payload → cipherAgreementDeserial J payload = .ok (sId, ciphers) →
        ChoosesOne table ciphers ∨ KeepsAnswer table c sId ciphers
  | leader mId received writes wild =>
    ∀ payload sId ciphers, received = some payload →
      cipherAgreementDeserial J payload = .ok (sId, ciphers) →
        c.sIdRemote ≠ none ∨
          match leaderChoice table ciphers with
          | none => wild = true
          | some d => writes = true ∧
            ∃ answer, cipherAgreementSerial J c.sIdLocal [d.lib] mId = .ok answer

end Handshake

variable {J : JsonLib} {table : CipherTable} {c : Conn}

/-- The identity is checked: it stays, or it is set. -/
theorem checkRemote_cases (c : Conn) (sId : Bytes) :
    (∃ r, c.sIdRemote = some r ∧ c.checkRemote sId = if sId = r then some c else none) ∨
      (c.sIdRemote = none ∧ c.checkRemote sId = some { c with sIdRemote := some sId }) := by
  rw [Conn.checkRemote]
  cases c.sIdRemote with
  | some r => exact .inl ⟨r, rfl, rfl⟩
  | none => exact .inr ⟨rfl, rfl⟩

/-! ## The follower

It reads the answer of the leader, takes the remote and the cipher from it, and looks at the
cipher then. -/

/-- The end of the follower, once it has read an answer. -/
def followerEnd (table : CipherTable) (c : Conn) (sId : Bytes) (ciphers : List Bytes) :
    Outcome Unit × Conn :=
  match c.checkRemote sId with
  | none => (.err, c)
  | some c =>
    match ciphers with
    | [name] =>
      let c := { c with cipher := cipherGetByStr table name }
      if c.cipher.any fun d => d.enabled then (.ok (), c) else (.err, c)
    | _ => (.err, c)

variable (table) in
/-- The end of the follower, with the identity checked. -/
theorem followerEnd_cases {c' : Conn} {sId : Bytes} (ciphers : List Bytes)
    (h : c.checkRemote sId = some c') :
    (ChoosesOne table ciphers ∧ (followerEnd table c sId ciphers).1 = .ok ()) ∨
      (¬ ChoosesOne table ciphers ∧ ∃ d,
        followerEnd table c sId ciphers = (.err, { c' with cipher := d }) ∧
          (d = c'.cipher ↔ ∀ name, ciphers = [name] → cipherGetByStr table name = c'.cipher)) := by
  rw [followerEnd, h]
  by_cases hone : ∃ name, ciphers = [name]
  · obtain ⟨name, rfl⟩ := hone
    by_cases henabled : (cipherGetByStr table name).any (fun d => d.enabled) = true
    · refine .inl ⟨?_, by simp [henabled]⟩
      obtain ⟨d, hd, hon⟩ := (Option.any_eq_true _ _).mp henabled
      exact ⟨name, d, rfl, hd, hon⟩
    · refine .inr ⟨?_, cipherGetByStr table name, by simp [henabled], by simp⟩
      rintro ⟨_, d, ⟨⟩, hd, hon⟩
      exact henabled ((Option.any_eq_true _ _).mpr ⟨d, hd, hon⟩)
  · refine .inr ⟨?_, c'.cipher, ?_, ?_⟩
    · rintro ⟨name, _, hname, -⟩
      exact hone ⟨name, hname⟩
    · rcases ciphers with _ | ⟨name, _ | ⟨_, _⟩⟩
      · rfl
      · exact absurd ⟨name, rfl⟩ hone
      · rfl
    · exact iff_of_true rfl fun name hname => absurd ⟨name, hname⟩ hone

theorem followerEnd_iff {sId : Bytes} {ciphers : List Bytes} :
    ((followerEnd table c sId ciphers).1 = .err →
      (followerEnd table c sId ciphers).2.cipher = c.cipher ∧
        (followerEnd table c sId ciphers).2.sIdRemote = c.sIdRemote) ↔
      ChoosesOne table ciphers ∨ KeepsAnswer table c sId ciphers := by
  rcases checkRemote_cases c sId with ⟨r, hr, hcheck⟩ | ⟨hnone, hcheck⟩
  · by_cases hsame : sId = r
    · rw [if_pos hsame] at hcheck
      have hkeeps : KeepsAnswer table c sId ciphers ↔
          ∀ name, ciphers = [name] → cipherGetByStr table name = c.cipher := by
        simp [KeepsAnswer, hr, hsame]
      rcases followerEnd_cases table ciphers hcheck with
        ⟨hone, hok⟩ | ⟨hone, d, herr, hcipher⟩
      · rw [hok]
        exact iff_of_true nofun (.inl hone)
      · rw [herr, hkeeps, ← hcipher]
        simp [hone]
    · -- another remote: nothing is set
      rw [if_neg hsame] at hcheck
      rw [followerEnd, hcheck]
      exact iff_of_true (fun _ => ⟨rfl, rfl⟩) (.inr ⟨r, hr, fun h => absurd h hsame⟩)
  · have hkeeps : ¬ KeepsAnswer table c sId ciphers := by
      rintro ⟨r, hr, -⟩
      rw [hnone] at hr
      cases hr
    rcases followerEnd_cases table ciphers hcheck with
      ⟨hone, hok⟩ | ⟨hone, d, herr, -⟩
    · rw [hok]
      exact iff_of_true nofun (.inl hone)
    · rw [herr, hnone]
      simp [hone, hkeeps]

/-- Once the offer is made and sent, and an answer is read. -/
theorem follower_run {mId offer payload sId : Bytes} {writes : Bool} {received : Option Bytes}
    {ciphers : List Bytes} (hoffer : followerOffer J table c mId = .ok offer)
    (hwrites : writes = true) (hreceived : received = some payload)
    (hread : cipherAgreementDeserial J payload = .ok (sId, ciphers)) :
    (Handshake.follower mId writes received).run J table c = followerEnd table c sId ciphers := by
  subst hwrites hreceived
  rw [Handshake.run, cyberExchangeFollower, hoffer]
  simp only [hread, if_true]
  rfl

/-- Before that, nothing is set. -/
theorem follower_unread {mId : Bytes} {writes : Bool} {received : Option Bytes}
    (h : ∀ offer payload sId ciphers, followerOffer J table c mId = .ok offer → writes = true →
      received = some payload → cipherAgreementDeserial J payload ≠ .ok (sId, ciphers)) :
    ((Handshake.follower mId writes received).run J table c).2 = c := by
  rw [Handshake.run, cyberExchangeFollower]
  split
  · next offer hoffer =>
    split
    · rfl
    · next payload hreceived =>
      split
      · next sId ciphers hread =>
        split at hreceived
        · next hwrites => exact absurd hread (h offer payload sId ciphers hoffer hwrites hreceived)
        · cases hreceived
      · rfl
      · rfl
  · rfl
  · rfl

theorem follower_iff (mId : Bytes) (writes : Bool) (received : Option Bytes) :
    LeavesNoTrace J table c (.follower mId writes received) ↔
      Handshake.Clean J table c (.follower mId writes received) := by
  by_cases hread : ∃ offer payload sId ciphers, followerOffer J table c mId = .ok offer ∧
      writes = true ∧ received = some payload ∧
        cipherAgreementDeserial J payload = .ok (sId, ciphers)
  · obtain ⟨offer, payload, sId, ciphers, hoffer, hwrites, hreceived, hread⟩ := hread
    rw [LeavesNoTrace, follower_run hoffer hwrites hreceived hread, followerEnd_iff]
    constructor
    · intro h offer' payload' sId' ciphers' hoffer' _ hreceived' hread'
      rw [hreceived] at hreceived'
      cases hreceived'
      rw [hread] at hread'
      cases hread'
      exact h
    · intro h
      exact h offer payload sId ciphers hoffer hwrites hreceived hread
  · have hunread : ∀ offer payload sId ciphers, followerOffer J table c mId = .ok offer →
        writes = true → received = some payload →
          cipherAgreementDeserial J payload ≠ .ok (sId, ciphers) :=
      fun offer payload sId ciphers hoffer hwrites hreceived h =>
        hread ⟨offer, payload, sId, ciphers, hoffer, hwrites, hreceived, h⟩
    rw [LeavesNoTrace, follower_unread hunread]
    refine iff_of_true (fun _ => ⟨rfl, rfl⟩) ?_
    intro offer payload sId ciphers hoffer hwrites hreceived h
    exact absurd h (hunread offer payload sId ciphers hoffer hwrites hreceived)

/-! ## The leader

It reads the offer, takes the remote from it, and looks for a cipher then. -/

/-- The leader fails after it has read an offer, and comes back. -/
def LeaderFails (J : JsonLib) (table : CipherTable) (c : Conn) (mId : Bytes) (writes wild : Bool)
    (ciphers : List Bytes) : Prop :=
  match leaderChoice table ciphers with
  | none => wild = false
  | some d => ¬ (writes = true ∧
    ∃ answer, cipherAgreementSerial J c.sIdLocal [d.lib] mId = .ok answer)

theorem serial_ne_fault (sIdLocal : Bytes) (ciphers : List Bytes) (mId : Bytes) :
    cipherAgreementSerial J sIdLocal ciphers mId ≠ .fault := by
  rw [cipherAgreementSerial]
  split
  · intro h
    cases h
  · exact Outcome.ofOption_ne_fault _

variable (table) in
/-- The end of the leader, with the identity checked. -/
theorem leader_end (mId : Bytes) (writes wild : Bool) {payload sId : Bytes} {ciphers : List Bytes}
    {c' : Conn}
    (hread : cipherAgreementDeserial J payload = .ok (sId, ciphers))
    (hcheck : c.checkRemote sId = some c') (hlocal : c'.sIdLocal = c.sIdLocal) :
    (LeaderFails J table c mId writes wild ciphers ∧
        (Handshake.leader mId (some payload) writes wild).run J table c = (.err, c')) ∨
      (¬ LeaderFails J table c mId writes wild ciphers ∧
        ((Handshake.leader mId (some payload) writes wild).run J table c).1 ≠ .err) := by
  rw [Handshake.run, cyberExchangeLeader, LeaderFails]
  simp only [hread, hcheck, hlocal]
  cases leaderChoice table ciphers with
  | none => cases wild <;> simp
  | some d =>
    cases hserial : cipherAgreementSerial J c.sIdLocal [d.lib] mId with
    | ok answer => cases writes <;> simp [hserial]
    | err => simp [hserial]
    | fault => exact absurd hserial (serial_ne_fault _ _ _)

/-- Nothing is set before an offer is read. -/
theorem leader_unread {mId : Bytes} {received : Option Bytes} {writes wild : Bool}
    (h : ∀ payload sId ciphers, received = some payload →
      cipherAgreementDeserial J payload ≠ .ok (sId, ciphers)) :
    ((Handshake.leader mId received writes wild).run J table c).2 = c := by
  cases received with
  | none => rfl
  | some payload =>
    rw [Handshake.run, cyberExchangeLeader]
    cases hread : cipherAgreementDeserial J payload with
    | ok r => exact absurd hread (h payload r.1 r.2 rfl)
    | err => rfl
    | fault => rfl

theorem leader_iff (mId : Bytes) (received : Option Bytes) (writes wild : Bool) :
    LeavesNoTrace J table c (.leader mId received writes wild) ↔
      Handshake.Clean J table c (.leader mId received writes wild) := by
  by_cases hread : ∃ payload sId ciphers, received = some payload ∧
      cipherAgreementDeserial J payload = .ok (sId, ciphers)
  · obtain ⟨payload, sId, ciphers, rfl, hread⟩ := hread
    -- there is one message, and the condition is on it
    have hclean : Handshake.Clean J table c (.leader mId (some payload) writes wild) ↔
        c.sIdRemote ≠ none ∨ ¬ LeaderFails J table c mId writes wild ciphers := by
      have hfails : (match leaderChoice table ciphers with
          | none => wild = true
          | some d => writes = true ∧
            ∃ answer, cipherAgreementSerial J c.sIdLocal [d.lib] mId = .ok answer) ↔
          ¬ LeaderFails J table c mId writes wild ciphers := by
        rw [LeaderFails]
        split <;> simp
      rw [← hfails]
      constructor
      · intro h
        exact h payload sId ciphers rfl hread
      · intro h payload' sId' ciphers' hreceived hread'
        cases hreceived
        rw [hread] at hread'
        cases hread'
        exact h
    rw [hclean, LeavesNoTrace]
    -- an identity that was there is kept; one that is taken stays if the rest fails
    rcases checkRemote_cases c sId with ⟨r, hr, hcheck⟩ | ⟨hnone, hcheck⟩
    · refine iff_of_true ?_ (.inl (by rw [hr]; exact nofun))
      intro herr
      by_cases hsame : sId = r
      · rw [if_pos hsame] at hcheck
        rcases leader_end table mId writes wild hread
          hcheck rfl with ⟨-, hrun⟩ | ⟨-, hrun⟩
        · rw [hrun]
          exact ⟨rfl, rfl⟩
        · exact absurd herr hrun
      · rw [if_neg hsame] at hcheck
        rw [Handshake.run, cyberExchangeLeader]
        simp only [hread, hcheck, and_self]
    · rcases leader_end table mId writes wild hread
        hcheck rfl with ⟨hfails, hrun⟩ | ⟨hfails, hrun⟩
      · rw [hrun, hnone]
        simp [hfails]
      · exact iff_of_true (fun herr => absurd herr hrun) (.inr hfails)
  · have hunread : ∀ payload sId ciphers, received = some payload →
        cipherAgreementDeserial J payload ≠ .ok (sId, ciphers) :=
      fun payload sId ciphers hreceived h => hread ⟨payload, sId, ciphers, hreceived, h⟩
    rw [LeavesNoTrace, leader_unread hunread]
    refine iff_of_true (fun _ => ⟨rfl, rfl⟩) ?_
    intro payload sId ciphers hreceived h
    exact absurd h (hunread payload sId ciphers hreceived)

/-! ## Both

The ends of the two are put side by side. -/

/-- **Failed handshakes.** They leave no trace exactly where they are clean. -/
theorem leavesNoTrace_iff (J : JsonLib) (table : CipherTable) (c : Conn) (h : Handshake) :
    LeavesNoTrace J table c h ↔ h.Clean J table c := by
  cases h with
  | follower mId writes received => exact follower_iff mId writes received
  | leader mId received writes wild => exact leader_iff mId received writes wild

/-! ### An unknown cipher

An answer with a cipher that no table has. -/

/-- json-c for an offer and for an answer with a cipher that the table does not have. -/
def unknownJson : JsonLib :=
  .ofValues [
    cipherAgreementJson (ascii "m1") (ascii "A") [ascii "AES128CTR"],
    cipherAgreementJson (ascii "m2") (ascii "B") [ascii "ROT13"]]

/-- The answer comes from anyone who can reach the gateway. -/
def unknownAnswer : Handshake :=
  .follower (ascii "m1") true
    (some (cipherAgreementJson (ascii "m2") (ascii "B") [ascii "ROT13"]).toText)

/-- The follower fails, and keeps the identity. -/
theorem not_leavesNoTrace_unknown :
    unknownJson.Lawful ∧
      ¬ LeavesNoTrace unknownJson (aesTable true false false) ⟨ascii "A", none, none⟩
        unknownAnswer := by
  refine ⟨JsonLib.ofTable_lawful (by decide) (by decide), ?_⟩
  intro h
  have herr : (unknownAnswer.run unknownJson (aesTable true false false)
      ⟨ascii "A", none, none⟩).1 = .err := by decide
  have hkept : (unknownAnswer.run unknownJson (aesTable true false false)
      ⟨ascii "A", none, none⟩).2.sIdRemote ≠ none := by decide
  exact hkept (h herr).2

end RsmpGateway.Cyber
