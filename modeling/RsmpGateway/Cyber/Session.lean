import RsmpGateway.Cyber.Network

/-!
# The runs of one connection

One side of a connection from its start to its end, against anyone: every message may be received
in any order, any number of times, and the store may be changed by others between two turns. What
the side queued and which messages it took is kept, so that a property of a run is one of a
state.

The other end is not modelled here at all. What is proved of these runs holds against a peer that
keeps to nothing: how often `AllClear` and the event of an exchange can come (in
`Cyber/AllClear.lean` and `Cyber/Exchange.lean`), and when a password is switched (in
`Cyber/Renewal.lean`).

`SessionStep` is the inversion lemma of the step: everything a step can do, each case with its
guards. The invariants of the later modules are shown by cases on it and never unfold a turn.
-/

namespace RsmpGateway.Cyber

open RsmpGateway.Lib RsmpGateway.Auth RsmpGateway.Coder

/-- What does not change on a side. -/
structure Link where
  sIdLocal : Bytes
  sIdRemote : Bytes
  diffHorodateSec : HoroDate → HoroDate → Int

/-- A peer in a connection, the next identifier, all that was queued and all the messages
that were taken since the start. -/
structure Session where
  peer : Peer
  uuid : Nat
  pushed : List QueueMsg
  taken : List Message

inductive SessionOp
  | /-- `cyber_receive`, of a frame with these messages -/
    receive (msgs : List (AuthKey × Message))
  | /-- `cyber_receive_internal`, on a message -/
    process (i : Input)
  | /-- `cyber_receive_internal`, between messages -/
    initiate (i : Input)
  | /-- `cyber_send` -/
    send (i : Input)
  | /-- `handler_timeout_challenge` -/
    timeout
  | /-- `_stop` -/
    stop
  | /-- an operation on the store outside of the connection -/
    store (db saved : AuthDbs)

namespace Session

variable (L : Link)

def env (n : Session) (i : Input) : Env where
  sIdLocal := L.sIdLocal
  sIdRemote := L.sIdRemote
  secret := getPassphraseForPwd L.sIdLocal
  diffHorodateSec := L.diffHorodateSec
  now := i.now
  rand := i.rand
  pad := i.pad
  uuid := n.uuid
  encodes := i.encodes
  failure := i.failure

/-- After a turn. A process that stops does nothing more. -/
def turn (n : Session) : Turn → Session
  | .ok p =>
    { n with
      peer := p, uuid := n.uuid + 2
      pushed := n.pushed ++ p.sendQ.drop n.peer.sendQ.length }
  | .error file => { n with peer := { n.peer with up := false, saved := file }, uuid := n.uuid + 2 }

def stop (n : Session) : Session := { n with peer := { n.peer with up := false } }

/-- A step, `none` where there is none. -/
def apply (n : Session) (op : SessionOp) : Option Session :=
  if ¬ n.peer.up then none
  else
    match op with
    | .receive msgs =>
      if msgs.all fun e => e.1.dbId = authFromDbId then
        some { n with peer := { n.peer with internalQ := n.peer.internalQ ++ msgs } }
      else none
    | .process i =>
      some { n.turn (n.peer.cyberReceiveInternal (n.env L i)) with
        taken := n.taken ++ (n.peer.internalQ.head?.map Prod.snd).toList }
    | .initiate i => some (n.turn (n.peer.initiateChallenge (n.env L i)))
    | .send i => some { n with peer := (n.peer.cyberSend (n.env L i)).1 }
    | .timeout => some (if n.peer.challengeCtxt.any fun c => c.running then n.stop else n)
    | .stop => some n.stop
    | .store db saved => some { n with peer := { n.peer with db, saved } }

end Session

/-- The runs of a connection that starts on the peer `p₀`, with the next identifier
`uuid`. -/
def sessionSystem (L : Link) (p₀ : Peer) (uuid : Nat) : System Session SessionOp where
  init n := n = ⟨p₀.start, uuid, [], []⟩
  step n op n' := n.apply L op = some n'

/-! ## AllClear

What a turn queues, seen from `AllClear`: it is sent by one turn and by no other. The event is
raised when both directions are clear, by the second of the two. -/

/-- A message of the send queue that is an `AllClear`. -/
def QueueMsg.isAllClear : QueueMsg → Bool
  | .message (.allClear _) _ => true
  | _ => false

/-- What a turn queues, with the `AllClear` that it sends. -/
structure Announces (E : Env) (p p' : Peer) (q : List QueueMsg) : Prop where
  queued : p'.sendQ = p.sendQ ++ q
  sent : p.allClearSent.toNat + q.countP QueueMsg.isAllClear = p'.allClearSent.toNat
  clear : 0 < q.countP QueueMsg.isAllClear → p'.challengeBusy = false ∧
    ∀ it ∈ p'.db.logins authToDbId E.sIdRemote, Peer.challengeDue E it.auth = false

/-- A turn that sends no `AllClear`. -/
theorem Announces.silent {E : Env} {p p' : Peer} {q : List QueueMsg}
    (hq : p'.sendQ = p.sendQ ++ q) (hnone : ∀ m ∈ q, m.isAllClear = false)
    (hsent : p'.allClearSent = p.allClearSent) : Announces E p p' q := by
  have hcount : q.countP QueueMsg.isAllClear = 0 := by
    rw [List.countP_eq_zero]
    intro m hm
    simp [hnone m hm]
  refine ⟨hq, ?_, ?_⟩
  · rw [hcount, hsent]
    rfl
  · rw [hcount]
    intro h
    cases h

theorem Announces.nothing {E : Env} {p p' : Peer} (hq : p'.sendQ = p.sendQ)
    (hsent : p'.allClearSent = p.allClearSent) : Announces E p p' [] := by
  apply Announces.silent
  · rw [hq, List.append_nil]
  · intro m hm
    cases hm
  · exact hsent

/-- How often the event was raised. -/
def Peer.exchanged (p : Peer) : Nat := p.events.count .allClearExchanged

/-- `AllClear` was sent and received. -/
def Peer.bothClear (p : Peer) : Bool := p.allClearSent && p.allClearRxed

/-- The event is raised when the second of the two is seen, and then only. -/
def Raises (p p' : Peer) : Prop :=
  p'.exchanged + p.bothClear.toNat = p.exchanged + p'.bothClear.toNat

/-! ### The turns and `AllClear`

`initiateChallenge` sends it when no challenge is found and it was not sent yet. The other
direction is cleared by the message of the remote, and the event is raised by the later of the
two. -/

theorem challengeBusy_quiet {sIdRemote : Bytes} {p : Peer}
    (hctxt : CtxtIdle sIdRemote p.challengeCtxt) (hquiet : CtxtQuiet p.challengeCtxt) :
    p.challengeBusy = false := by
  rw [Peer.challengeBusy]
  cases h : p.challengeCtxt with
  | none => rfl
  | some c => simp [hquiet c h, (hctxt c h).2]

theorem Initiated.announces {E : Env} {p p' : Peer} (hi : Initiated E p (.ok p')) :
    ∃ q, Announces E p p' q := by
  cases hi with
  | running => exact ⟨_, .nothing rfl rfl⟩
  | quiet => exact ⟨_, .nothing rfl rfl⟩
  | allClear _ hctxt hquiet hsent hdue =>
    refine ⟨[.message (.allClear E.uuid) none], rfl, ?_, ?_⟩
    · rw [hsent]
      rfl
    · intro _
      exact ⟨challengeBusy_quiet hctxt hquiet, hdue⟩
  | kept => exact ⟨_, .nothing rfl rfl⟩
  | recorded => exact ⟨_, .nothing rfl rfl⟩
  | unqueued => exact ⟨_, .nothing rfl rfl⟩
  | sent =>
    refine ⟨[.challenge _], .silent rfl ?_ rfl⟩
    intro m hm
    obtain rfl := List.mem_singleton.mp hm
    rfl

theorem Initiated.raises {E : Env} {p p' : Peer} (hi : Initiated E p (.ok p')) :
    Raises p p' := by
  cases hi with
  | allClear _ _ _ hsent =>
    show List.count _ (p.events ++ _) + _ = _
    rw [List.count_append, Peer.bothClear, hsent]
    show _ = _ + (true && p.allClearRxed).toNat
    cases p.allClearRxed <;> rfl
  | running => rfl
  | quiet => rfl
  | kept => rfl
  | recorded => rfl
  | unqueued => rfl
  | sent => rfl

theorem Initiated.keeps {E : Env} {p p' : Peer} (hi : Initiated E p (.ok p')) :
    p'.up = p.up ∧ p'.allClearRxed = p.allClearRxed ∧ p'.internalQ = p.internalQ := by
  cases hi <;> exact ⟨rfl, rfl, rfl⟩

/-- A message queued that is no `AllClear`. -/
theorem Announces.sendMessage {E : Env} {p p' : Peer} {msg : Message} {login : Option Bytes}
    (hq : p'.sendQ = p.sendQ) (hsent : p'.allClearSent = p.allClearSent)
    (hmsg : QueueMsg.isAllClear (.message msg login) = false) :
    ∃ q, Announces E p (p'.sendMessage msg login) q := by
  rw [Peer.sendMessage]
  split
  · refine ⟨[.message msg login], .silent ?_ ?_ hsent⟩
    · rw [← hq]
    · intro m hm
      obtain rfl := List.mem_singleton.mp hm
      exact hmsg
  · exact ⟨_, .nothing hq hsent⟩

theorem Processed.announces {E : Env} {p p' : Peer} {authFrom : AuthKey} {msg : Message}
    (hp : Processed E p authFrom msg (.ok p')) : ∃ q, Announces E p p' q := by
  cases hp with
  | ignored => exact ⟨_, .nothing rfl rfl⟩
  | allClear => exact ⟨_, .nothing rfl rfl⟩
  | refused => exact Announces.sendMessage rfl rfl rfl
  | accepted => exact Announces.sendMessage rfl rfl rfl
  | ping => exact Announces.sendMessage rfl rfl rfl
  | busy _ _ _ hi =>
    -- the end of the challenge queues nothing
    obtain ⟨q, hq, hsent, hclear⟩ := hi.announces
    exact ⟨q, hq, hsent, hclear⟩
  | succeeded _ _ _ _ _ _ hi =>
    obtain ⟨q, hq, hsent, hclear⟩ := hi.announces
    exact ⟨q, hq, hsent, hclear⟩

theorem raises_sendMessage {p p' : Peer} (h : Raises p p') (msg : Message)
    (login : Option Bytes) : Raises p (p'.sendMessage msg login) := by
  rw [Peer.sendMessage]
  split
  · exact h
  · exact h

/-- The event is raised once more only for an `AllClear` that comes after both. -/
theorem Processed.raises {E : Env} {p p' : Peer} {authFrom : AuthKey} {msg : Message}
    (hp : Processed E p authFrom msg (.ok p'))
    (hmsg : ∀ mId, msg = .allClear mId → p.bothClear = false) : Raises p p' := by
  cases hp with
  | ignored => rfl
  | allClear =>
    have hboth := hmsg _ rfl
    rw [Raises, hboth, Peer.exchanged, List.count_append]
    show _ = _ + (p.allClearSent && true).toNat
    cases p.allClearSent <;> rfl
  | refused => exact raises_sendMessage rfl ..
  | accepted => exact raises_sendMessage rfl ..
  | ping => exact raises_sendMessage rfl ..
  | busy _ _ _ hi => exact hi.raises
  | succeeded _ _ _ _ _ _ hi =>
    have h := hi.raises
    rw [Raises, Peer.exchanged, Peer.exchanged] at h ⊢
    rw [List.count_append] at h
    exact h

theorem Processed.keeps {E : Env} {p p' : Peer} {authFrom : AuthKey} {msg : Message}
    (hp : Processed E p authFrom msg (.ok p')) :
    p'.up = p.up ∧ p'.internalQ = p.internalQ ∧
      (p'.allClearRxed = true → p.allClearRxed = true ∨ ∃ mId, msg = .allClear mId) := by
  have hsend : ∀ (p : Peer) msg login, (p.sendMessage msg login).up = p.up ∧
      (p.sendMessage msg login).internalQ = p.internalQ ∧
      (p.sendMessage msg login).allClearRxed = p.allClearRxed := by
    intro p msg login
    rw [Peer.sendMessage]
    split <;> exact ⟨rfl, rfl, rfl⟩
  cases hp with
  | ignored => exact ⟨rfl, rfl, .inl⟩
  | allClear => exact ⟨rfl, rfl, fun _ => .inr ⟨_, rfl⟩⟩
  | refused =>
    obtain ⟨hup, hi, hrx⟩ := hsend p _ _
    exact ⟨hup, hi, fun h => .inl (hrx ▸ h)⟩
  | accepted =>
    obtain ⟨hup, hi, hrx⟩ := hsend _ _ _
    exact ⟨hup, hi, fun h => .inl (hrx ▸ h)⟩
  | ping =>
    obtain ⟨hup, hi, hrx⟩ := hsend p _ _
    exact ⟨hup, hi, fun h => .inl (hrx ▸ h)⟩
  | busy _ _ _ hi =>
    obtain ⟨hup, hrx, hi⟩ := hi.keeps
    exact ⟨hup, hi, fun h => .inl (hrx ▸ h)⟩
  | succeeded _ _ _ _ _ _ hi =>
    obtain ⟨hup, hrx, hi⟩ := hi.keeps
    exact ⟨hup, hi, fun h => .inl (hrx ▸ h)⟩

/-! ## Challenges

What a turn does about the challenge, seen from its identifiers: it starts one, ends one with a
switch or without, or leaves the one there is. -/

/-- The frame carries a challenge, with these identifiers. -/
def IsChallenge (f : Frame) (request ping : Nat) : Prop :=
  ∃ a b pwd pad, f.data = [⟨a, .changePwdRequest request pwd⟩, ⟨b, .ping ping pad⟩]

/-- The request of a challenge that ends with a switch. -/
def Event.request : Event → Option (Option Nat)
  | .allClearExchanged => none
  | .switched c => some c.mIdChangePwdRequest

def switchedRequests (events : List Event) : List (Option Nat) := events.filterMap Event.request

/-- No switch, or one for the challenge that runs. -/
def Switches (p p' : Peer) : Prop :=
  switchedRequests p'.events = switchedRequests p.events ∨
    ∃ c, p.challengeCtxt = some c ∧ c.running = true ∧ switchedRequests p'.events =
      switchedRequests p.events ++ [c.mIdChangePwdRequest]

/-- What a turn does about the challenge. -/
inductive Rounds (E : Env) (p p' : Peer) (q : List QueueMsg) : Prop
  | same (hctxt : p'.challengeCtxt = p.challengeCtxt) (hq : ∀ f, QueueMsg.challenge f ∉ q)
      (hevents : switchedRequests p'.events = switchedRequests p.events)
  | /-- none runs afterwards -/
    idle (hctxt : CtxtIdle E.sIdRemote p'.challengeCtxt) (hq : ∀ f, QueueMsg.challenge f ∉ q)
      (hevents : Switches p p')
  | /-- one is encoded, and queued unless the allocation fails -/
    started {key toSend} (hctxt : p'.challengeCtxt =
        some ⟨some key, toSend, true, some E.uuid, some (E.uuid + 1)⟩)
      (hkey : key = ⟨authToDbId, key.login, E.sIdRemote⟩)
      (hq : ∀ f, QueueMsg.challenge f ∈ q → IsChallenge f E.uuid (E.uuid + 1))
      (hevents : Switches p p')

theorem switchedRequests_append_exchanged (events : List Event) (b : Bool) :
    switchedRequests (events ++ if b then [.allClearExchanged] else []) =
      switchedRequests events := by
  cases b <;> simp [switchedRequests, Event.request]

theorem challenge_not_mem_nil {p p' : Peer} {q : List QueueMsg} (hq : p'.sendQ = p.sendQ ++ q)
    (hsame : p'.sendQ = p.sendQ) (f : Frame) : QueueMsg.challenge f ∉ q := by
  have hnil : q = [] := by simpa [hsame] using hq
  simp [hnil]

theorem Initiated.rounds {E : Env} {p p' : Peer} {q : List QueueMsg}
    (hi : Initiated E p (.ok p')) (hq : p'.sendQ = p.sendQ ++ q) : Rounds E p p' q := by
  cases hi with
  | running => exact .same rfl (challenge_not_mem_nil hq rfl) rfl
  | quiet _ hctxt => exact .idle hctxt (challenge_not_mem_nil hq rfl) (.inl rfl)
  | allClear _ hctxt =>
    refine .idle hctxt ?_ (.inl (switchedRequests_append_exchanged ..))
    obtain rfl : q = [.message (.allClear E.uuid) none] := (List.append_cancel_left hq).symm
    simp
  | kept hto => exact .idle hto.found (challenge_not_mem_nil hq rfl) (.inl rfl)
  | recorded hto => exact .idle (hto.recorded _ _) (challenge_not_mem_nil hq rfl) (.inl rfl)
  | unqueued _ hto =>
    refine .started rfl hto.remote ?_ (.inl rfl)
    intro f hf
    exact absurd hf (challenge_not_mem_nil hq rfl f)
  | sent hto =>
    refine .started rfl hto.remote ?_ (.inl rfl)
    obtain rfl : q = [.challenge _] := (List.append_cancel_left hq).symm
    intro f hf
    obtain rfl : f = _ := by simpa using hf
    exact ⟨_, _, _, _, rfl⟩

/-- A message is queued. -/
theorem Rounds.sendMessage {E : Env} {p p' : Peer} {q : List QueueMsg} {msg : Message}
    {login : Option Bytes} (hq : (p'.sendMessage msg login).sendQ = p.sendQ ++ q)
    (hsame : p'.sendQ = p.sendQ) (hctxt : p'.challengeCtxt = p.challengeCtxt)
    (hevents : p'.events = p.events) : Rounds E p (p'.sendMessage msg login) q := by
  rw [Peer.sendMessage] at hq ⊢
  split at hq
  · next hcheck =>
    rw [if_pos hcheck]
    refine .same hctxt ?_ (congrArg switchedRequests hevents)
    rw [hsame] at hq
    obtain rfl : q = [.message msg login] := (List.append_cancel_left hq).symm
    simp
  · next hcheck =>
    rw [if_neg hcheck]
    exact .same hctxt (challenge_not_mem_nil hq hsame) (congrArg switchedRequests hevents)

/-- A turn that begins with the end of the challenge. -/
theorem Rounds.ended {E : Env} {p p₁ p' : Peer} {q : List QueueMsg} (h : Rounds E p₁ p' q)
    (hidle : CtxtIdle E.sIdRemote p₁.challengeCtxt) (hswitch : Switches p p₁) :
    Rounds E p p' q := by
  have hswitches : switchedRequests p'.events = switchedRequests p₁.events → Switches p p' := by
    intro hevents
    rw [Switches, hevents]
    exact hswitch
  have hsame : Switches p₁ p' → switchedRequests p'.events = switchedRequests p₁.events := by
    rintro (hevents | ⟨c, hc, hrun, -⟩)
    · exact hevents
    · rw [(hidle c hc).2] at hrun
      cases hrun
  cases h with
  | same hctxt hq hevents =>
    refine .idle ?_ hq (hswitches hevents)
    rw [hctxt]
    exact hidle
  | idle hctxt hq hevents => exact .idle hctxt hq (hswitches (hsame hevents))
  | started hctxt hkey hq hevents => exact .started hctxt hkey hq (hswitches (hsame hevents))

theorem Processed.rounds {E : Env} {p p' : Peer} {authFrom : AuthKey} {msg : Message}
    {q : List QueueMsg} (hctxt : ∀ c, p.challengeCtxt = some c → CtxtOk E.sIdRemote c)
    (hp : Processed E p authFrom msg (.ok p')) (hq : p'.sendQ = p.sendQ ++ q) :
    Rounds E p p' q := by
  cases hp with
  | ignored => exact .same rfl (challenge_not_mem_nil hq rfl) rfl
  | allClear =>
    exact .same rfl (challenge_not_mem_nil hq rfl) (switchedRequests_append_exchanged ..)
  | refused => exact .sendMessage hq rfl rfl rfl
  | accepted => exact .sendMessage hq rfl rfl rfl
  | ping => exact .sendMessage hq rfl rfl rfl
  | busy hc _ _ hi => exact (hi.rounds hq).ended (hctxt _ hc).ended (.inl rfl)
  | @succeeded _ c _ _ _ _ hc hrun _ _ _ _ hi =>
    refine (hi.rounds hq).ended (hctxt _ hc).ended (.inr ⟨c, hc, hrun, ?_⟩)
    exact List.filterMap_append

/-! ## The steps of a session

The cases of a step, and the rule for invariants of a run. -/

/-- What a step does. -/
inductive SessionStep (L : Link) (n : Session) : SessionOp → Session → Prop
  | receive {msgs} (hfrom : ∀ e ∈ msgs, e.1.dbId = authFromDbId) :
      SessionStep L n (.receive msgs)
        { n with peer := { n.peer with internalQ := n.peer.internalQ ++ msgs } }
  | /-- there is no message -/
    waited {i} (hq : n.peer.internalQ = []) :
      SessionStep L n (.process i) { n with uuid := n.uuid + 2 }
  | processed {i e rest p q} (hq : n.peer.internalQ = e :: rest)
      (hp : Processed (n.env L i) { n.peer with internalQ := rest } e.1 e.2 (.ok p))
      (ha : Announces (n.env L i) { n.peer with internalQ := rest } p q) :
      SessionStep L n (.process i) ⟨p, n.uuid + 2, n.pushed ++ q, n.taken ++ [e.2]⟩
  | initiated {i p q} (hi : Initiated (n.env L i) n.peer (.ok p))
      (ha : Announces (n.env L i) n.peer p q) :
      SessionStep L n (.initiate i)
        { n with peer := p, uuid := n.uuid + 2, pushed := n.pushed ++ q }
  | sent {i r} (hs : Sent (n.env L i) n.peer r) : SessionStep L n (.send i) { n with peer := r.1 }
  | /-- the challenge is not late -/
    late : SessionStep L n .timeout n
  | /-- the tasks end, or the process does -/
    ended {op saved uuid taken} (huuid : n.uuid ≤ uuid) (htaken : ∃ ms, taken = n.taken ++ ms) :
      SessionStep L n op { n with peer := { n.peer with up := false, saved }, uuid, taken }
  | store {db saved} :
      SessionStep L n (.store db saved) { n with peer := { n.peer with db, saved } }

theorem Session.apply_cases {L : Link} {n n' : Session} {op : SessionOp}
    (hctxt : ∀ c, n.peer.challengeCtxt = some c → CtxtOk L.sIdRemote c)
    (h : n.apply L op = some n') : n.peer.up = true ∧ SessionStep L n op n' := by
  unfold Session.apply at h
  split at h
  · cases h
  · next hup =>
    refine ⟨by simpa using hup, ?_⟩
    cases op with
    | receive msgs =>
      dsimp only at h
      split at h
      · next hfrom =>
        cases h
        apply SessionStep.receive
        intro e he
        simpa using List.all_eq_true.mp hfrom e he
      · cases h
    | process i =>
      cases h
      rcases n.peer.cyberReceiveInternal_cases (E := n.env L i) hctxt with
        ⟨hq, hsame⟩ | ⟨e, rest, hq, hp⟩
      · rw [hsame, hq]
        simpa [Session.turn] using SessionStep.waited (L := L) (i := i) hq
      · rw [hq]
        cases hr : n.peer.cyberReceiveInternal (n.env L i) with
        | error file => exact .ended (Nat.le_add_right _ 2) ⟨_, rfl⟩
        | ok p =>
          rw [hr] at hp
          -- what is queued is what the queue has more
          obtain ⟨q, ha⟩ := hp.announces
          have hstep := SessionStep.processed hq hp ha
          have hdrop : p.sendQ.drop n.peer.sendQ.length = q := by
            rw [ha.queued]
            exact List.drop_left
          rw [← hdrop] at hstep
          exact hstep
    | initiate i =>
      cases h
      have hi := n.peer.initiateChallenge_cases (E := n.env L i) hctxt
      cases hr : n.peer.initiateChallenge (n.env L i) with
      | error file => exact .ended (Nat.le_add_right _ 2) ⟨[], (List.append_nil _).symm⟩
      | ok p =>
        rw [hr] at hi
        obtain ⟨q, ha⟩ := hi.announces
        have hstep := SessionStep.initiated hi ha
        have hdrop : p.sendQ.drop n.peer.sendQ.length = q := by
          rw [ha.queued]
          exact List.drop_left
        rw [← hdrop] at hstep
        exact hstep
    | send i =>
      cases h
      exact .sent (n.peer.cyberSend_cases (n.env L i))
    | timeout =>
      cases h
      split
      · exact .ended (Nat.le_refl _) ⟨[], (List.append_nil _).symm⟩
      · exact .late
    | stop =>
      cases h
      exact .ended (Nat.le_refl _) ⟨[], (List.append_nil _).symm⟩
    | store db saved =>
      cases h
      exact .store

/-! ### Invariants of a run

What every turn relies on is part of each invariant, so that it is shown once, and given to the
step of each property. -/

/-- What every turn relies on. -/
structure SessionOk (L : Link) (n : Session) : Prop where
  ctxt : ∀ c, n.peer.challengeCtxt = some c → CtxtOk L.sIdRemote c
  read : ∀ e ∈ n.peer.internalQ, e.1.dbId = authFromDbId

theorem Rounds.ctxtOk {E : Env} {p p' : Peer} {q : List QueueMsg} (h : Rounds E p p' q)
    (hctxt : ∀ c, p.challengeCtxt = some c → CtxtOk E.sIdRemote c) :
    ∀ c, p'.challengeCtxt = some c → CtxtOk E.sIdRemote c := by
  intro c hc
  cases h with
  | same hsame =>
    rw [hsame] at hc
    exact hctxt c hc
  | idle hidle => exact (hidle c hc).1
  | started hstart hkey =>
    rw [hstart] at hc
    cases hc
    refine ⟨?_, fun _ => ⟨rfl, rfl, rfl⟩⟩
    intro k hk
    cases hk
    exact hkey

theorem SessionOk.step {L : Link} {n n' : Session} {op : SessionOp} (hn : SessionOk L n)
    (hs : SessionStep L n op n') : SessionOk L n' := by
  cases hs with
  | receive hfrom =>
    refine ⟨hn.ctxt, ?_⟩
    intro e he
    rcases List.mem_append.mp he with he | he
    · exact hn.read e he
    · exact hfrom e he
  | waited => exact ⟨hn.ctxt, hn.read⟩
  | processed hq hp ha =>
    refine ⟨(hp.rounds hn.ctxt ha.queued).ctxtOk hn.ctxt, ?_⟩
    intro e he
    rw [hp.keeps.2.1] at he
    apply hn.read
    rw [hq]
    exact List.mem_cons_of_mem _ he
  | initiated hi ha =>
    refine ⟨(hi.rounds ha.queued).ctxtOk hn.ctxt, ?_⟩
    show ∀ e ∈ Peer.internalQ _, _
    rw [hi.keeps.2.2]
    exact hn.read
  | sent hs => cases hs <;> exact ⟨hn.ctxt, hn.read⟩
  | late => exact hn
  | ended => exact ⟨hn.ctxt, hn.read⟩
  | store => exact ⟨hn.ctxt, hn.read⟩

/-- **The runs of a connection.** What holds at its start and is kept by every step holds in
every state that is reached. -/
theorem session_invariant {L : Link} {p₀ : Peer} {uuid : Nat} {ok : Session → SessionOp → Prop}
    {P : Session → Prop} (h0 : P ⟨p₀.start, uuid, [], []⟩)
    (hstep : ∀ n op n', SessionOk L n → P n → n.peer.up = true → ok n op →
      SessionStep L n op n' → P n') {n : Session}
    (h : ((sessionSystem L p₀ uuid).restrict ok).Reachable n) : SessionOk L n ∧ P n := by
  refine h.invariant (P := fun n => SessionOk L n ∧ P n) ?_ ?_
  · rintro _ rfl
    have hidle : CtxtIdle L.sIdRemote (some challengeCtxtNew) := by
      apply CtxtOk.idle
      · intro key hkey
        cases hkey
      · rfl
    refine ⟨⟨fun c hc => (hidle c hc).1, ?_⟩, h0⟩
    intro e he
    cases he
  · rintro n op n' ⟨hn, hP⟩ ⟨happly, hok⟩
    obtain ⟨hup, hs⟩ := Session.apply_cases hn.ctxt happly
    exact ⟨hn.step hs, hstep n op n' hn hP hup hok hs⟩

end RsmpGateway.Cyber
