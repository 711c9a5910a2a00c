import RsmpGateway.Cyber.AllClear

/-!
# Renewal of the passwords

Two properties of one side of a connection, over every run and against anyone on the other end.

* `switched_on_proof`: the entry of a challenge is switched to its new password on an answer to
  the request or to the ping of that challenge, and once. The other side has shown by then that it
  has the new password.
* `challenge_context`: the context of a challenge is complete in every state, as long as each
  challenge that is encoded is queued and nobody deletes the entry of one that is still to be
  sent.

Both rest on the numbers that `uuid_generate` draws. They are counted here, so that a number that
was drawn later is larger (`Fresh`); that the real ones do not repeat is what is assumed of them.
-/

namespace RsmpGateway.Cyber

open RsmpGateway.Lib RsmpGateway.Auth RsmpGateway.Coder

variable {L : Link} {p₀ : Peer} {uuid : Nat}

/-! ## Identifiers

A challenge is known by the identifier of its request. The identifiers of the challenges that
were switched, of the one that runs and of those to come are kept apart, which is all that is
needed for a switch to be the only one of its challenge. -/

/-- The challenge of the request runs. -/
def Peer.runs (p : Peer) (request : Nat) : Prop :=
  ∃ c, p.challengeCtxt = some c ∧ c.running = true ∧ c.mIdChangePwdRequest = some request

/-- The identifiers of the challenges, below the next one: those of the challenge that runs
are after all the others, and were not switched. -/
structure Fresh (p : Peer) (uuid : Nat) (pushed : List QueueMsg) : Prop where
  queued : ∀ f, QueueMsg.challenge f ∈ pushed → ∃ request, IsChallenge f request (request + 1) ∧
    request + 1 < uuid ∧ ∀ r, p.runs r → request = r ∨ request + 1 < r
  running : ∀ c, p.challengeCtxt = some c → c.running = true → ∃ request,
    c.mIdChangePwdRequest = some request ∧ c.mIdPing = some (request + 1) ∧ request + 1 < uuid ∧
      some request ∉ switchedRequests p.events
  nodup : (switchedRequests p.events).Nodup
  switched : ∀ r ∈ switchedRequests p.events, ∃ request, r = some request ∧ request < uuid

theorem Fresh.of_eq {p p' : Peer} {uuid : Nat} {pushed : List QueueMsg} (h : Fresh p uuid pushed)
    (hctxt : p'.challengeCtxt = p.challengeCtxt) (hevents : p'.events = p.events) {uuid' : Nat}
    (hu : uuid ≤ uuid') : Fresh p' uuid' pushed := by
  refine ⟨?_, ?_, ?_, ?_⟩
  · intro f hf
    obtain ⟨request, hchallenge, hlt, hother⟩ := h.queued f hf
    refine ⟨request, hchallenge, by omega, ?_⟩
    rintro r ⟨c, hc, hrun, hr⟩
    exact hother r ⟨c, hctxt ▸ hc, hrun, hr⟩
  · intro c hc hrun
    obtain ⟨request, hrequest, hping, hlt, hnot⟩ := h.running c (hctxt ▸ hc) hrun
    exact ⟨request, hrequest, hping, by omega, hevents ▸ hnot⟩
  · rw [hevents]
    exact h.nodup
  · intro r hr
    rw [hevents] at hr
    obtain ⟨request, rfl, hlt⟩ := h.switched r hr
    exact ⟨request, rfl, by omega⟩

/-- The switch of the challenge that runs is a new one. -/
theorem Switches.fresh {p p' : Peer} {uuid : Nat} {pushed : List QueueMsg} (hs : Switches p p')
    (h : Fresh p uuid pushed) : (switchedRequests p'.events).Nodup ∧
      ∀ r ∈ switchedRequests p'.events, ∃ request, r = some request ∧ request < uuid := by
  rcases hs with hs | ⟨c, hc, hrun, hs⟩
  · rw [hs]
    exact ⟨h.nodup, h.switched⟩
  · obtain ⟨request, hrequest, -, hlt, hnot⟩ := h.running c hc hrun
    rw [hs, hrequest]
    constructor
    · rw [List.nodup_append]
      refine ⟨h.nodup, List.nodup_singleton _, ?_⟩
      rintro r hr r' hr' rfl
      obtain rfl := List.mem_singleton.mp hr'
      exact hnot hr
    · intro r hr
      rcases List.mem_append.mp hr with hr | hr
      · exact h.switched r hr
      · exact ⟨request, List.mem_singleton.mp hr, by omega⟩

/-- The turns keep the identifiers apart. -/
theorem Rounds.fresh {E : Env} {p p' : Peer} {q : List QueueMsg} {pushed : List QueueMsg}
    (hr : Rounds E p p' q) (h : Fresh p E.uuid pushed) : Fresh p' (E.uuid + 2) (pushed ++ q) := by
  cases hr with
  | same hctxt hq hevents =>
    have hruns : ∀ r, p'.runs r → p.runs r := by
      rintro r ⟨c, hc, hrun, hr⟩
      exact ⟨c, hctxt ▸ hc, hrun, hr⟩
    refine ⟨?_, ?_, ?_, ?_⟩
    · intro f hf
      rcases List.mem_append.mp hf with hf | hf
      · obtain ⟨request, hchallenge, hlt, hother⟩ := h.queued f hf
        exact ⟨request, hchallenge, by omega, fun r hr => hother r (hruns r hr)⟩
      · exact absurd hf (hq f)
    · intro c hc hrun
      obtain ⟨request, hrequest, hping, hlt, hnot⟩ := h.running c (hctxt ▸ hc) hrun
      exact ⟨request, hrequest, hping, by omega, hevents ▸ hnot⟩
    · rw [hevents]
      exact h.nodup
    · intro r hr
      rw [hevents] at hr
      obtain ⟨request, rfl, hlt⟩ := h.switched r hr
      exact ⟨request, rfl, by omega⟩
  | idle hctxt hq hevents =>
    obtain ⟨hnodup, hswitched⟩ := hevents.fresh h
    refine ⟨?_, ?_, hnodup, ?_⟩
    · intro f hf
      rcases List.mem_append.mp hf with hf | hf
      · obtain ⟨request, hchallenge, hlt, -⟩ := h.queued f hf
        refine ⟨request, hchallenge, by omega, ?_⟩
        rintro r ⟨c, hc, hrun, -⟩
        rw [(hctxt c hc).2] at hrun
        cases hrun
      · exact absurd hf (hq f)
    · intro c hc hrun
      rw [(hctxt c hc).2] at hrun
      cases hrun
    · intro r hr
      obtain ⟨request, rfl, hlt⟩ := hswitched r hr
      exact ⟨request, rfl, by omega⟩
  | started hctxt _ hq hevents =>
    obtain ⟨hnodup, hswitched⟩ := hevents.fresh h
    refine ⟨?_, ?_, hnodup, ?_⟩
    · intro f hf
      have hruns : ∀ r, p'.runs r → r = E.uuid := by
        rintro r ⟨c, hc, -, hr⟩
        rw [hctxt] at hc
        cases hc
        exact (Option.some.inj hr).symm
      -- a challenge in the queue is an earlier one, or the one that runs
      rcases List.mem_append.mp hf with hf | hf
      · obtain ⟨request, hchallenge, hlt, -⟩ := h.queued f hf
        refine ⟨request, hchallenge, by omega, ?_⟩
        intro r hr
        rw [hruns r hr]
        exact .inr hlt
      · refine ⟨E.uuid, hq f hf, by omega, ?_⟩
        intro r hr
        exact .inl (hruns r hr).symm
    · intro c hc hrun
      rw [hctxt] at hc
      cases hc
      refine ⟨E.uuid, rfl, rfl, by omega, ?_⟩
      intro hmem
      -- the number was drawn now, and all that were switched are smaller
      obtain ⟨request, heq, hlt⟩ := hswitched _ hmem
      cases heq
      omega
    · intro r hr
      obtain ⟨request, rfl, hlt⟩ := hswitched r hr
      exact ⟨request, rfl, by omega⟩

theorem Fresh.step {n n' : Session} {op : SessionOp} (hok : SessionOk L n)
    (hn : Fresh n.peer n.uuid n.pushed) (hs : SessionStep L n op n') :
    Fresh n'.peer n'.uuid n'.pushed := by
  cases hs with
  | @processed i e rest p q hq hp ha =>
    have hpop : Fresh { n.peer with internalQ := rest } n.uuid n.pushed :=
      ⟨hn.queued, hn.running, hn.nodup, hn.switched⟩
    exact (hp.rounds hok.ctxt ha.queued).fresh hpop
  | initiated hi ha => exact (hi.rounds ha.queued).fresh hn
  | sent hs => cases hs <;> exact ⟨hn.queued, hn.running, hn.nodup, hn.switched⟩
  | receive => exact ⟨hn.queued, hn.running, hn.nodup, hn.switched⟩
  | waited =>
    apply hn.of_eq
    · rfl
    · rfl
    · exact Nat.le_add_right _ 2
  | late => exact hn
  | ended hu =>
    apply hn.of_eq
    · rfl
    · rfl
    · exact hu
  | store => exact ⟨hn.queued, hn.running, hn.nodup, hn.switched⟩

/-! ## Passwords

Most steps leave the passwords alone, some record a new one that is not in use yet, and one
switches. `Renewed` has these cases, and the turns are sorted into them one by one. -/

/-- The entries keep their passwords. -/
def KeepsPwd (db db' : AuthDbs) : Prop :=
  ∀ key it it', db.authFindByKey key = some it → db'.authFindByKey key = some it' →
    it'.auth.pwd = it.auth.pwd

/-! ### Turns that keep the passwords

A new password is recorded beside the current one, and the current one is left: this is all that
`initiateChallenge` does to the entry of a challenge. -/

theorem KeepsPwd.refl (db : AuthDbs) : KeepsPwd db db := by
  intro key it it' hit hit'
  rw [hit] at hit'
  cases hit'
  rfl

theorem KeepsPwd.modifyAuth {db : AuthDbs} {key : AuthKey} {it : AuthItem} {auth : AuthEntry}
    (hit : db.authFindByKey key = some it) (hpwd : auth.pwd = it.auth.pwd) :
    KeepsPwd db (db.modifyAuth key fun _ => auth) := by
  intro k it₁ it₂ h₁ h₂
  rw [AuthDbs.authFindByKey_modifyAuth] at h₂
  split at h₂
  · next hk =>
    subst hk
    rw [hit] at h₁ h₂
    cases h₁
    cases h₂
    exact hpwd
  · rw [h₁] at h₂
    cases h₂
    rfl

theorem Initiated.keepsPwd {E : Env} {p p' : Peer} (hi : Initiated E p (.ok p')) :
    KeepsPwd p.db p'.db := by
  have hpwd : ∀ {auth auth' : AuthEntry} {pwdB64 : Bytes},
      authGetNewPwdB64 E.rand auth = .ok (auth', pwdB64) → auth'.pwd = auth.pwd := by
    intro auth auth' pwdB64 h
    rw [(authGetNewPwdB64_ok h).2.2.1]
  cases hi with
  | running => exact .refl _
  | quiet => exact .refl _
  | allClear => exact .refl _
  | kept => exact .refl _
  | recorded _ hit hauth => exact .modifyAuth hit (hpwd hauth)
  | unqueued _ _ hit hauth => exact .modifyAuth hit (hpwd hauth)
  | sent _ hit hauth => exact .modifyAuth hit (hpwd hauth)

/-- What a step does to the passwords for sending. -/
inductive Renewed (n n' : Session) : SessionOp → Prop
  | kept {op} (hpwd : ∀ key it it', key.dbId = authToDbId →
        n.peer.db.authFindByKey key = some it → n'.peer.db.authFindByKey key = some it' →
        it'.auth.pwd = it.auth.pwd)
      (hevents : switchedRequests n'.peer.events = switchedRequests n.peer.events) :
      Renewed n n' op
  | /-- the entry of the challenge that runs, on the answer that it waits for -/
    switched {i authFrom msg rest c key it} (hq : n.peer.internalQ = (authFrom, msg) :: rest)
      (hctxt : n.peer.challengeCtxt = some c) (hrun : c.running = true)
      (hauth : c.auth = some key) (hmsg : Answers c msg)
      (hit : n.peer.db.authFindByKey key = some it) (hpending : it.auth.newPwdPending = true)
      (hpwd : ∀ key' it₁ it₂, key'.dbId = authToDbId →
        n.peer.db.authFindByKey key' = some it₁ → n'.peer.db.authFindByKey key' = some it₂ →
        it₂.auth.pwd = if key' = key then it.auth.newPwd else it₁.auth.pwd)
      (hevents : switchedRequests n'.peer.events =
        switchedRequests n.peer.events ++ [c.mIdChangePwdRequest]) :
      Renewed n n' (.process i)

theorem Renewed.of_keepsPwd {n n' : Session} {op : SessionOp}
    (h : KeepsPwd n.peer.db n'.peer.db)
    (hevents : switchedRequests n'.peer.events = switchedRequests n.peer.events) :
    Renewed n n' op :=
  .kept (fun key it it' _ => h key it it') hevents

theorem Initiated.switchedRequests {E : Env} {p p' : Peer} (hi : Initiated E p (.ok p')) :
    switchedRequests p'.events = switchedRequests p.events := by
  cases hi with
  | allClear => exact switchedRequests_append_exchanged ..
  | running => rfl
  | quiet => rfl
  | kept => rfl
  | recorded => rfl
  | unqueued => rfl
  | sent => rfl

theorem events_sendMessage (p : Peer) (msg : Message) (login : Option Bytes) :
    (p.sendMessage msg login).events = p.events := by
  rw [Peer.sendMessage]
  split <;> rfl

/-! ### A message that is processed

Only the answer to the challenge that runs switches. Each other message keeps the passwords for
sending; the request of the remote changes one for receiving. -/

/-- A message is processed: the passwords for sending are kept, or one is switched. -/
theorem Processed.renewed {n : Session} {i : Input} {e : AuthKey × Message}
    {rest : List (AuthKey × Message)} {p : Peer} {uuid : Nat} {pushed : List QueueMsg}
    {taken : List Message} (hok : SessionOk L n) (hq : n.peer.internalQ = e :: rest)
    (hp : Processed (n.env L i) { n.peer with internalQ := rest } e.1 e.2 (.ok p)) :
    Renewed n ⟨p, uuid, pushed, taken⟩ (.process i) := by
  have hfrom : e.1.dbId = authFromDbId := hok.read e (by rw [hq]; exact List.mem_cons_self)
  obtain ⟨authFrom, msg⟩ := e
  cases hp with
  | ignored => exact .of_keepsPwd (.refl _) rfl
  | allClear => exact .of_keepsPwd (.refl _) (switchedRequests_append_exchanged ..)
  | refused =>
    refine .of_keepsPwd ?_ (congrArg switchedRequests (events_sendMessage ..))
    show KeepsPwd _ (Peer.sendMessage _ _ _).db
    rw [db_sendMessage]
    exact .refl _
  | ping =>
    refine .of_keepsPwd ?_ (congrArg switchedRequests (events_sendMessage ..))
    show KeepsPwd _ (Peer.sendMessage _ _ _).db
    rw [db_sendMessage]
    exact .refl _
  | @accepted mId pwd it auth =>
    refine .kept ?_ (congrArg switchedRequests (events_sendMessage ..))
    intro key it₁ it₂ hto h₁ h₂
    -- the entry set is one for receiving
    have hne : key ≠ authFrom := by
      rintro rfl
      exact dbIds_ne (hto.symm.trans hfrom)
    have hdb : AuthDbs.authFindByKey (Peer.sendMessage _ _ _).db key = some it₂ := h₂
    rw [db_sendMessage, AuthDbs.authFindByKey_modifyAuth, if_neg hne] at hdb
    exact KeepsPwd.refl _ key it₁ it₂ h₁ hdb
  | busy _ _ _ hi => exact .of_keepsPwd hi.keepsPwd hi.switchedRequests
  | @succeeded _ c key it auth _ hctxt hrun hmsg hauth hit hswitch hi =>
    obtain ⟨-, hpending, -, hauth'⟩ := authSwitchToNewPwd_ok hswitch
    refine .switched hq hctxt hrun hauth hmsg hit hpending ?_ ?_
    · intro key' it₁ it₂ _ h₁ h₂
      have hkeeps := hi.keepsPwd key'
      simp only [AuthDbs.authFindByKey_modifyAuth] at hkeeps
      split
      · next hk =>
        subst hk
        rw [if_pos rfl] at hkeeps
        have hmod : (n.peer.db.authFindByKey key').map (fun it => { it with auth := auth }) =
            some { it with auth := auth } := by
          rw [hit]
          rfl
        rw [hkeeps _ it₂ hmod h₂, hauth']
      · next hk =>
        rw [if_neg hk] at hkeeps
        exact hkeeps it₁ it₂ h₁ h₂
    · rw [hi.switchedRequests]
      exact List.filterMap_append

theorem SessionStep.renewed {n n' : Session} {op : SessionOp} (hok : SessionOk L n)
    (hop : ∀ db saved, op ≠ .store db saved) (hs : SessionStep L n op n') : Renewed n n' op := by
  cases hs with
  | processed hq hp => exact hp.renewed hok hq
  | initiated hi => exact .of_keepsPwd hi.keepsPwd hi.switchedRequests
  | sent hs => cases hs <;> exact .of_keepsPwd (.refl _) rfl
  | receive => exact .of_keepsPwd (.refl _) rfl
  | waited => exact .of_keepsPwd (.refl _) rfl
  | late => exact .of_keepsPwd (.refl _) rfl
  | ended => exact .of_keepsPwd (.refl _) rfl
  | store => exact absurd rfl (hop _ _)

/-! ### Replies that come late

A reply to a challenge that was given up, or to one that was answered already, finds another
identifier in the context or no challenge that runs, and is ignored. -/

/-- A reply to the message of the identifier. -/
def Message.repliesTo (id : Nat) : Message → Prop
  | .changePwdResponse _ oMId _ => oMId = id
  | .pong _ oMId _ => oMId = id
  | _ => False

/-- A reply to a challenge that does not run changes nothing. -/
theorem Fresh.ignores {n : Session} (h : Fresh n.peer n.uuid n.pushed) {f : Frame}
    {request ping : Nat} (hf : QueueMsg.challenge f ∈ n.pushed) (hids : IsChallenge f request ping)
    (hruns : ¬ n.peer.runs request) {authFrom : AuthKey} {msg : Message}
    {rest : List (AuthKey × Message)} (hq : n.peer.internalQ = (authFrom, msg) :: rest)
    (hmsg : msg.repliesTo request ∨ msg.repliesTo ping) (E : Env) :
    n.peer.cyberReceiveInternal E = .ok { n.peer with internalQ := rest } := by
  obtain ⟨r, ⟨_, _, _, _, hdata⟩, hlt, hother⟩ := h.queued f hf
  obtain ⟨_, _, _, _, hdata'⟩ := hids
  obtain ⟨rfl, rfl⟩ : request = r ∧ ping = r + 1 := by
    rw [hdata] at hdata'
    simp only [List.cons.injEq, Element.mk.injEq, Message.changePwdRequest.injEq,
      Message.ping.injEq] at hdata'
    exact ⟨hdata'.1.2.1.symm, hdata'.2.1.2.1.symm⟩
  -- the identifiers of the challenge that runs are after those of the frame
  have hids : ∀ c, n.peer.challengeCtxt = some c → c.running = true →
      ∀ id, (id = request ∨ id = request + 1) →
        c.mIdChangePwdRequest ≠ some id ∧ c.mIdPing ≠ some id := by
    intro c hc hrun id hid
    obtain ⟨r, hr, hping, -, -⟩ := h.running c hc hrun
    have hafter : request + 1 < r := by
      rcases hother r ⟨c, hc, hrun, hr⟩ with rfl | hlt
      · exact absurd ⟨c, hc, hrun, hr⟩ hruns
      · exact hlt
    rw [hr, hping]
    constructor
    · intro heq
      cases heq
      omega
    · intro heq
      have := Option.some.inj heq
      omega
  rw [Peer.cyberReceiveInternal, hq]
  dsimp only
  split
  · cases msg with
    | changePwdResponse mId oMId status =>
      rw [Peer.cyberProcessInternalMsg]
      cases hc : n.peer.challengeCtxt with
      | none => rfl
      | some c =>
        dsimp only
        rw [if_neg]
        rintro ⟨hrun, hid⟩
        exact (hids c hc hrun oMId hmsg).1 hid
    | pong mId oMId padding =>
      rw [Peer.cyberProcessInternalMsg]
      cases hc : n.peer.challengeCtxt with
      | none => rfl
      | some c =>
        dsimp only
        rw [if_neg]
        rintro ⟨hrun, hid⟩
        exact (hids c hc hrun oMId hmsg).2 hid
    | allClear => exact (hmsg.elim id id).elim
    | changePwdRequest => exact (hmsg.elim id id).elim
    | ping => exact (hmsg.elim id id).elim
  · rfl

theorem fresh_start (p₀ : Peer) (uuid : Nat) : Fresh p₀.start uuid [] := by
  refine ⟨fun _ h => (nomatch h), ?_, List.nodup_nil, fun _ h => (nomatch h)⟩
  intro c hc hrun
  cases hc
  cases hrun

/-- **Renewal.** A password for sending is switched only for the challenge that runs and on
the answer to its request or to its ping, no challenge is switched twice, and a reply to a
challenge that does not run changes nothing. -/
theorem switched_on_proof {n : Session} (h : (sessionSystem L p₀ uuid).Reachable n) :
    (switchedRequests n.peer.events).Nodup ∧
      (∀ op n', n.apply L op = some n' → (∀ db saved, op ≠ .store db saved) → Renewed n n' op) ∧
      ∀ f request ping, QueueMsg.challenge f ∈ n.pushed → IsChallenge f request ping →
        ¬ n.peer.runs request → ∀ authFrom msg rest,
        n.peer.internalQ = (authFrom, msg) :: rest →
        msg.repliesTo request ∨ msg.repliesTo ping → ∀ i,
        n.peer.cyberReceiveInternal (n.env L i) = .ok { n.peer with internalQ := rest } := by
  obtain ⟨hok, hfresh⟩ := session_invariant (P := fun n => Fresh n.peer n.uuid n.pushed)
    (fresh_start p₀ uuid) (fun n op n' hok hn _ _ hs => hn.step hok hs)
    (h.to_restrict fun _ _ => trivial)
  refine ⟨hfresh.nodup, ?_, ?_⟩
  · intro op n' happly hop
    exact (Session.apply_cases hok.ctxt happly).2.renewed hok hop
  · intro f request ping hf hids hruns authFrom msg rest hq hmsg i
    exact hfresh.ignores hf hids hruns hq hmsg _

/-! ## The context of the challenge

`initiateChallenge` fills the context of a challenge in two goes: it chooses an entry, and it
sends the challenge, possibly at a later turn. In between there is an entry and no identifier. -/

/-- The context of a challenge is complete. -/
structure ContextOk (sIdRemote : Bytes) (p : Peer) (pushed : List QueueMsg) : Prop where
  entry : ∀ c, p.challengeCtxt = some c → c.toSend = true ∨ c.running = true →
    ∃ key, c.auth = some key ∧ key = ⟨authToDbId, key.login, sIdRemote⟩
  found : ∀ c, p.challengeCtxt = some c → c.toSend = true → ∀ key, c.auth = some key →
    (p.db.authFindByKey key).isSome
  sent : ∀ c, p.challengeCtxt = some c → c.running = true →
    ∃ f request ping, QueueMsg.challenge f ∈ pushed ∧ IsChallenge f request ping ∧
      c.mIdChangePwdRequest = some request ∧ c.mIdPing = some ping ∧
      ∃ key, c.auth = some key ∧ f.login = key.login
  once : ∀ c, p.challengeCtxt = some c → ¬ (c.toSend = true ∧ c.running = true)

theorem ContextOk.of_quiet {sIdRemote : Bytes} {p : Peer} (pushed : List QueueMsg)
    (hidle : CtxtIdle sIdRemote p.challengeCtxt) (hquiet : CtxtQuiet p.challengeCtxt) :
    ContextOk sIdRemote p pushed := by
  have hto : ∀ c, p.challengeCtxt = some c → c.toSend ≠ true := by
    intro c hc
    rw [hquiet c hc]
    exact Bool.false_ne_true
  have hrun : ∀ c, p.challengeCtxt = some c → c.running ≠ true := by
    intro c hc
    rw [(hidle c hc).2]
    exact Bool.false_ne_true
  refine ⟨?_, ?_, ?_, ?_⟩
  · rintro c hc (h | h)
    · exact absurd h (hto c hc)
    · exact absurd h (hrun c hc)
  · intro c hc h
    exact absurd h (hto c hc)
  · intro c hc h
    exact absurd h (hrun c hc)
  · intro c hc h
    exact hto c hc h.1

/-- The entries stay, and more is queued. -/
theorem ContextOk.mono {sIdRemote : Bytes} {p p' : Peer} {pushed pushed' : List QueueMsg}
    (h : ContextOk sIdRemote p pushed) (hctxt : p'.challengeCtxt = p.challengeCtxt)
    (hdb : ∀ c, p.challengeCtxt = some c → c.toSend = true → ∀ key, c.auth = some key →
      (p.db.authFindByKey key).isSome → (p'.db.authFindByKey key).isSome)
    (hpushed : pushed ⊆ pushed') : ContextOk sIdRemote p' pushed' := by
  refine ⟨?_, ?_, ?_, ?_⟩
  · intro c hc
    exact h.entry c (hctxt ▸ hc)
  · intro c hc hto key hkey
    have hc := hctxt ▸ hc
    exact hdb c hc hto key hkey (h.found c hc hto key hkey)
  · intro c hc hrun
    obtain ⟨f, request, ping, hf, hrest⟩ := h.sent c (hctxt ▸ hc) hrun
    exact ⟨f, request, ping, hpushed hf, hrest⟩
  · intro c hc
    exact h.once c (hctxt ▸ hc)

/-! ### A challenge that is left to send

The context names an entry of the store. While its frame could not be encoded it is to be sent,
and nothing of it was sent yet; a later turn goes on with it. -/

/-- A challenge for an entry that exists is left to send. -/
theorem ToSend.contextOk {E : Env} {p p' : Peer} {c c' : ChallengeContext} {key : AuthKey}
    (h : ToSend E p c key) (hctxt : p'.challengeCtxt = some c') (hauth : c'.auth = some key)
    (hto : c'.toSend = c.toSend) (hrun : c'.running = c.running)
    (hfound : (p'.db.authFindByKey key).isSome) (pushed : List QueueMsg) :
    ContextOk E.sIdRemote p' pushed := by
  have hc' : ∀ c, p'.challengeCtxt = some c → c = c' := by
    intro c hc
    rw [hctxt] at hc
    exact (Option.some.inj hc).symm
  have hidle : c'.running = false := hrun.trans h.running
  refine ⟨?_, ?_, ?_, ?_⟩
  · intro c hc _
    obtain rfl := hc' c hc
    exact ⟨key, hauth, h.remote⟩
  · intro c hc _ k hk
    obtain rfl := hc' c hc
    rw [hauth] at hk
    cases hk
    exact hfound
  · intro c hc hr
    obtain rfl := hc' c hc
    rw [hidle] at hr
    cases hr
  · rintro c hc ⟨-, hr⟩
    obtain rfl := hc' c hc
    rw [hidle] at hr
    cases hr

/-- The entry of the challenge to send exists. -/
theorem ToSend.exists {E : Env} {p : Peer} {c : ChallengeContext} {key : AuthKey}
    {pushed : List QueueMsg} (h : ToSend E p c key) (hp : ContextOk E.sIdRemote p pushed) :
    ∃ it, p.db.authFindByKey key = some it := by
  rcases h.origin with hc | ⟨it, hit, -⟩
  · exact Option.isSome_iff_exists.mp (hp.found c hc h.toSend key h.auth)
  · exact ⟨it, hit⟩

theorem isSome_find_modifyAuth {db : AuthDbs} {key k : AuthKey} {f : AuthEntry → AuthEntry}
    (h : (db.authFindByKey k).isSome) : ((db.modifyAuth key f).authFindByKey k).isSome := by
  rw [AuthDbs.authFindByKey_modifyAuth]
  split
  · next hk =>
    subst hk
    rw [Option.isSome_map]
    exact h
  · exact h

theorem Initiated.contextOk {E : Env} {p p' : Peer} {q pushed : List QueueMsg}
    (hi : Initiated E p (.ok p')) (hq : p'.sendQ = p.sendQ ++ q) (hE : E.failure ≠ some .queue)
    (h : ContextOk E.sIdRemote p pushed) : ContextOk E.sIdRemote p' (pushed ++ q) := by
  cases hi with
  | running => exact h.mono rfl (fun _ _ _ _ _ h => h) (List.subset_append_left _ _)
  | quiet _ hctxt hquiet => exact .of_quiet _ hctxt hquiet
  | allClear _ hctxt hquiet => exact .of_quiet _ hctxt hquiet
  | kept hto =>
    obtain ⟨it, hit⟩ := hto.exists h
    apply hto.contextOk
    · rfl
    · show Option.map _ _ = _
      rw [hit]
      rfl
    · rfl
    · rfl
    · exact Option.isSome_iff_exists.mpr ⟨it, hit⟩
  | recorded hto hit =>
    apply hto.contextOk
    · rfl
    · rfl
    · rfl
    · rfl
    · exact isSome_find_modifyAuth (Option.isSome_iff_exists.mpr ⟨_, hit⟩)
  | unqueued hqueue => exact absurd hqueue hE
  | @sent c key _ auth pwdB64 hto =>
    obtain rfl : q = [.challenge (challengeFrame E key auth pwdB64)] :=
      (List.append_cancel_left hq).symm
    refine ⟨?_, ?_, ?_, ?_⟩
    · intro c hc _
      cases hc
      exact ⟨key, rfl, hto.remote⟩
    · intro c hc hsend
      cases hc
      cases hsend
    · intro c hc _
      cases hc
      exact ⟨_, _, _, List.mem_append_right _ List.mem_cons_self, ⟨_, _, _, _, rfl⟩, rfl, rfl,
        key, rfl, rfl⟩
    · rintro c hc ⟨hsend, -⟩
      cases hc
      cases hsend

/-- The end of a challenge. -/
theorem ContextOk.ended {sIdRemote : Bytes} {p : Peer} {pushed : List QueueMsg}
    {c : ChallengeContext} (h : ContextOk sIdRemote p pushed)
    (hok : ∀ c, p.challengeCtxt = some c → CtxtOk sIdRemote c) (hc : p.challengeCtxt = some c)
    (hrun : c.running = true) {p' : Peer}
    (hp' : p'.challengeCtxt = some { c with running := false }) :
    ContextOk sIdRemote p' pushed := by
  apply ContextOk.of_quiet
  · rw [hp']
    exact (hok c hc).ended
  · intro c' hc'
    rw [hp'] at hc'
    cases hc'
    have hto : ¬ c.toSend = true := fun hto => h.once c hc ⟨hto, hrun⟩
    simpa using hto

theorem Processed.contextOk {E : Env} {p p' : Peer} {authFrom : AuthKey} {msg : Message}
    {q pushed : List QueueMsg} (hp : Processed E p authFrom msg (.ok p'))
    (hq : p'.sendQ = p.sendQ ++ q) (hok : ∀ c, p.challengeCtxt = some c → CtxtOk E.sIdRemote c)
    (hE : E.failure ≠ some .queue) (h : ContextOk E.sIdRemote p pushed) :
    ContextOk E.sIdRemote p' (pushed ++ q) := by
  have hsub : pushed ⊆ pushed ++ q := List.subset_append_left _ _
  cases hp with
  | ignored => exact h.mono rfl (fun _ _ _ _ _ h => h) hsub
  | allClear => exact h.mono rfl (fun _ _ _ _ _ h => h) hsub
  | refused =>
    refine h.mono (challengeCtxt_sendMessage ..) ?_ hsub
    rw [db_sendMessage]
    exact fun _ _ _ _ _ h => h
  | accepted =>
    refine h.mono (challengeCtxt_sendMessage ..) ?_ hsub
    rw [db_sendMessage]
    exact fun _ _ _ _ _ h => isSome_find_modifyAuth h
  | ping =>
    refine h.mono (challengeCtxt_sendMessage ..) ?_ hsub
    rw [db_sendMessage]
    exact fun _ _ _ _ _ h => h
  | busy hc hrun _ hi => exact hi.contextOk hq hE (h.ended hok hc hrun rfl)
  | succeeded hc hrun _ _ _ _ hi => exact hi.contextOk hq hE (h.ended hok hc hrun rfl)

/-! ### Every run

The two things that break the context are excluded step by step: a challenge that is encoded and
does not get into the queue, and an entry that is deleted while its challenge is to be sent. -/

/-- The step queues a challenge that it encodes, and leaves the entry of a challenge to be
sent. -/
def challengeClear (n : Session) : SessionOp → Bool
  | .process i => i.failure ≠ some .queue
  | .initiate i => i.failure ≠ some .queue
  | .store db _ => n.peer.challengeCtxt.all fun c =>
      !c.toSend || c.auth.all fun key => (db.authFindByKey key).isSome
  | _ => true

theorem ContextOk.step {n n' : Session} {op : SessionOp} (hok : SessionOk L n)
    (hn : ContextOk L.sIdRemote n.peer n.pushed) (hop : challengeClear n op = true)
    (hs : SessionStep L n op n') : ContextOk L.sIdRemote n'.peer n'.pushed := by
  have hsame : ∀ {p' : Peer}, p'.challengeCtxt = n.peer.challengeCtxt → p'.db = n.peer.db →
      ContextOk L.sIdRemote p' n.pushed := by
    intro p' hctxt hdb
    refine hn.mono hctxt ?_ (List.Subset.refl _)
    rw [hdb]
    exact fun _ _ _ _ _ h => h
  cases hs with
  | processed hq hp ha =>
    exact hp.contextOk ha.queued hok.ctxt (of_decide_eq_true hop) (hsame rfl rfl)
  | initiated hi ha => exact hi.contextOk ha.queued (of_decide_eq_true hop) hn
  | sent hs => cases hs <;> exact hsame rfl rfl
  | receive => exact hsame rfl rfl
  | waited => exact hn
  | late => exact hn
  | ended => exact hsame rfl rfl
  | @store db saved =>
    refine hn.mono rfl ?_ (List.Subset.refl _)
    intro c hc hto key hkey _
    rw [challengeClear, hc, Option.all_some, hto, hkey] at hop
    exact hop

/-- A challenge that was left to send is sent by a later turn that fails nowhere. -/
theorem initiateChallenge_again {E : Env} {p : Peer} {c : ChallengeContext} {key : AuthKey}
    {it : AuthItem} {auth : AuthEntry} {pwdB64 : Bytes} (hc : p.challengeCtxt = some c)
    (hto : c.toSend = true) (hrun : c.running = false) (hauth : c.auth = some key)
    (hkey : key = ⟨authToDbId, key.login, E.sIdRemote⟩) (hit : p.db.authFindByKey key = some it)
    (hget : authGetNewPwdB64 E.rand it.auth = .ok (auth, pwdB64))
    (hrequest : messageCheckFields (.changePwdRequest E.uuid pwdB64) = true)
    (hping : messageCheckFields (.ping (E.uuid + 1) E.pad) = true) (hE : E.failure = none) :
    p.initiateChallenge E = .ok { p with
      db := p.db.modifyAuth key fun _ => auth, saved := p.db.modifyAuth key fun _ => auth
      challengeCtxt := some ⟨some key, false, true, some E.uuid, some (E.uuid + 1)⟩
      sendQ := p.sendQ ++ [.challenge (challengeFrame E key auth pwdB64)] } := by
  have hbusy : p.challengeBusy = true := by simp [Peer.challengeBusy, hc, hto]
  have hfind : coderAuthFind p.db (some key.login) E.sIdRemote .encrypt = some (key, it.auth) := by
    show (p.db.authFindByKey ⟨authToDbId, key.login, E.sIdRemote⟩).map (fun it => (_, it.auth)) = _
    rw [← hkey, hit]
    rfl
  have hactive := (authGetNewPwdB64_ok hget).1
  simp only [Peer.initiateChallenge, Peer.searchChallenge, hbusy, if_true, Peer.sendChallenge, hc,
    hto, hauth, Peer.challengeEncode, hrun, hfind, hactive, hget, hE, hrequest, hping]
  simp [freeChallengeContextMembers, challengeFrame]

/-- `Challenge_encode` succeeds with a whole frame, and a context that runs with the
identifiers of the frame. -/
theorem challengeEncode_complete {E : Env} {p p' : Peer} {c : ChallengeContext} {login : Bytes}
    {f : Frame} (h : p.challengeEncode E c login = .ok (p', some f)) :
    IsChallenge f E.uuid (E.uuid + 1) ∧ ∃ c', p'.challengeCtxt = some c' ∧ c'.running = true ∧
      c'.mIdChangePwdRequest = some E.uuid ∧ c'.mIdPing = some (E.uuid + 1) ∧
      ∃ key, c'.auth = some key ∧ f.login = key.login := by
  unfold Peer.challengeEncode at h
  split at h
  · cases h
  · split at h
    · cases h
    · next key auth _ =>
      dsimp only at h
      split at h
      · cases h
      · split at h
        · cases h
        · cases h
        · -- the exits of the encoding give no frame
          split at h
          · cases h
          · split at h
            · cases h
            · split at h
              · cases h
              · split at h
                · cases h
                · cases h
                  exact ⟨⟨_, _, _, _, rfl⟩, _, rfl, rfl, rfl, rfl, key, rfl, rfl⟩

/-- **The context.** Where each challenge that is encoded is queued and no entry of a challenge
to be sent is deleted, the context is complete in every state, the challenge that is left to
send is sent by a later turn that fails nowhere, and `Challenge_encode` succeeds with a whole
frame only. -/
theorem challenge_context {n : Session}
    (h : ((sessionSystem L p₀ uuid).restrict fun n op => challengeClear n op = true).Reachable n) :
    ContextOk L.sIdRemote n.peer n.pushed ∧
      (∀ c, n.peer.challengeCtxt = some c → c.toSend = true → ∃ key it,
        c.auth = some key ∧ n.peer.db.authFindByKey key = some it ∧
        ∀ i auth pwdB64, authGetNewPwdB64 i.rand it.auth = .ok (auth, pwdB64) →
          messageCheckFields (.changePwdRequest n.uuid pwdB64) = true →
          messageCheckFields (.ping (n.uuid + 1) i.pad) = true → i.failure = none →
          ∃ p, n.peer.initiateChallenge (n.env L i) = .ok p ∧
            p.challengeCtxt = some ⟨some key, false, true, some n.uuid, some (n.uuid + 1)⟩ ∧
            p.sendQ = n.peer.sendQ ++
              [.challenge (challengeFrame (n.env L i) key auth pwdB64)]) ∧
      ∀ i c login p f, n.peer.challengeEncode (n.env L i) c login = .ok (p, some f) →
        IsChallenge f n.uuid (n.uuid + 1) ∧ ∃ c', p.challengeCtxt = some c' ∧
          c'.running = true ∧ c'.mIdChangePwdRequest = some n.uuid ∧
          c'.mIdPing = some (n.uuid + 1) ∧ ∃ key, c'.auth = some key ∧ f.login = key.login := by
  have h0 : ContextOk L.sIdRemote p₀.start [] := by
    apply ContextOk.of_quiet
    · apply CtxtOk.idle
      · intro key hkey
        cases hkey
      · rfl
    · intro c hc
      cases hc
      rfl
  obtain ⟨hok, hn⟩ := session_invariant (P := fun n => ContextOk L.sIdRemote n.peer n.pushed)
    h0 (fun _ _ _ hok hn _ hop hs => hn.step hok hop hs) h
  refine ⟨hn, ?_, fun i c login p f hf => challengeEncode_complete hf⟩
  intro c hc hto
  obtain ⟨key, hauth, hkey⟩ := hn.entry c hc (.inl hto)
  obtain ⟨it, hit⟩ := Option.isSome_iff_exists.mp (hn.found c hc hto key hauth)
  have hrun : c.running = false := by
    have hne : ¬ c.running = true := fun hr => hn.once c hc ⟨hto, hr⟩
    simpa using hne
  refine ⟨key, it, hauth, hit, ?_⟩
  intro i auth pwdB64 hget hrequest hping hi
  have hagain := initiateChallenge_again (E := n.env L i) hc hto hrun hauth hkey hit hget hrequest
    hping hi
  exact ⟨_, hagain, rfl, rfl⟩

/-! ### Runs of a side

A challenge that is sent and accepted, and one whose frame finds no memory in the send queue: the
context then says that a challenge runs of which nothing was sent. -/

/-- A challenge is sent, and its request accepted. -/
def renewedRun (ok : Session → SessionOp → Bool) : Option Session :=
  [.initiate renewInput, .receive [(keyFromB, .changePwdResponse 9 0 true)],
    .process renewInput].foldlM (Session.stepIf linkAB ok) ⟨peerA.start, 0, [], []⟩

theorem switched_on_proof_renewed :
    ∃ n, renewedRun (fun _ _ => true) = some n ∧
      switchedRequests n.peer.events = [some 0] ∧ (switchedRequests n.peer.events).Nodup ∧
      (∀ op n', n.apply linkAB op = some n' → (∀ db saved, op ≠ .store db saved) →
        Renewed n n' op) := by
  obtain ⟨n, hn, hevents⟩ : ∃ n, renewedRun (fun _ _ => true) = some n ∧
      decide (switchedRequests n.peer.events = [some 0]) := by
    apply (Option.any_eq_true _ _).mp
    decide
  obtain ⟨hnodup, hstep, -⟩ := switched_on_proof (reachable_stepIf hn).of_restrict
  exact ⟨n, hn, of_decide_eq_true hevents, hnodup, hstep⟩

theorem challenge_context_renewed :
    ∃ n, renewedRun challengeClear = some n ∧ ContextOk (ascii "B") n.peer n.pushed := by
  obtain ⟨n, hn, -⟩ : ∃ n, renewedRun challengeClear = some n ∧ true = true := by
    apply (Option.any_eq_true _ _).mp
    decide
  exact ⟨n, hn, (challenge_context (reachable_stepIf hn)).1⟩

/-- The allocation for the queue fails: the challenge is to be sent and runs, and nothing was
sent. -/
theorem challenge_context_unqueued :
    ∃ n, (sessionSystem linkAB peerA 0).Reachable n ∧ n.pushed = [] ∧
      ∃ c, n.peer.challengeCtxt = some c ∧ c.toSend = true ∧ c.running = true := by
  obtain ⟨n, hn, hboth⟩ : ∃ n, [.initiate { renewInput with failure := some .queue }].foldlM
      (Session.stepIf linkAB fun _ _ => true) ⟨peerA.start, 0, [], []⟩ = some n ∧
        (decide (n.pushed = []) && n.peer.challengeCtxt.any fun c => c.toSend && c.running) := by
    apply (Option.any_eq_true _ _).mp
    decide
  rw [Bool.and_eq_true] at hboth
  obtain ⟨c, hc, hflags⟩ := (Option.any_eq_true _ _).mp hboth.2
  rw [Bool.and_eq_true] at hflags
  exact ⟨n, (reachable_stepIf hn).of_restrict, of_decide_eq_true hboth.1, c, hc, hflags⟩

end RsmpGateway.Cyber
