import RsmpGateway.Cyber.Rotation

/-!
# Turns are steps of the rotation

What owner and holder do to the rotation of `Cyber/Rotation.lean`, when they process a message of
their queue and when they read or write a frame. The lemmas are named after who acts
(`owner_processes`, `holder_receives`, ...), and each gives a number of steps of the rotation.

`rotation_steps`, which is in `Cyber/Agreement.lean`, puts them together: every step of the two
peers is a number of steps of the rotation, in either direction.
-/

namespace RsmpGateway.Cyber

open RsmpGateway.Lib RsmpGateway.Crypt RsmpGateway.Auth RsmpGateway.Coder Rotation

variable {C : Site}

/-! ## A message that is processed

The cases are those of `cyber_process_internal_msg`. A peer is the owner in one rotation and the
holder in the other, so each message is looked at twice: an answer matters to the owner, a
request to the holder, and the rest to neither. -/

section Process

variable {s : Side} {o h : Peer} {fwd bwd : List Frame} {uuid : Nat} {E : Env}

/-- The owner takes a message from its queue. -/
theorem owner_pops {o' : Peer} {e : AuthKey × Message} {rest : List (AuthKey × Message)}
    (hq : o.internalQ = e :: rest) (hi : o'.internalQ = rest)
    (hdb : SameUnder authToDbId (C.sId s.remote) o'.db o.db) (hup : o'.up = o.up)
    (hr : o'.challengeCtxt = o.challengeCtxt)
    (hs : o'.sendQ.flatMap (queuedRequests C s) = o.sendQ.flatMap (queuedRequests C s))
    {uuid' : Nat} (hu : uuid ≤ uuid') :
    Steps (rotationOf C s o h fwd bwd uuid) (rotationOf C s o' h fwd bwd uuid') := by
  apply rotation_loss hdb (.of_eq rfl) hup (congrArg runningRound hr)
  · rw [requestsOf, requestsOf, hs]
  · apply answersOf_subset
    · intro e' he'
      rw [hi] at he'
      rw [hq]
      exact List.mem_cons_of_mem _ he'
    · exact fun _ h => h
    · exact fun _ h => h
  · exact hu

/-! ### The owner

The challenge context of the owner is the running round of its rotation. An answer to it switches
the password or gives the round up; any other answer is taken from the queue and changes nothing. -/

/-- The round of a challenge that runs. -/
theorem runningRound_running {c : ChallengeContext} {key : AuthKey}
    {sIdRemote : Bytes} (hok : CtxtOk sIdRemote c) (hctxt : o.challengeCtxt = some c)
    (hrun : c.running = true) (hauth : c.auth = some key) :
    ∃ request ping, c.mIdChangePwdRequest = some request ∧ c.mIdPing = some ping ∧
      runningRound o.challengeCtxt = some (key.login, request, ping) := by
  obtain ⟨-, hrequest, hping⟩ := hok.running hrun
  obtain ⟨request, hrequest⟩ := Option.isSome_iff_exists.mp hrequest
  obtain ⟨ping, hping⟩ := Option.isSome_iff_exists.mp hping
  refine ⟨request, ping, hrequest, hping, ?_⟩
  simp [runningRound, hctxt, hrun, hauth, hrequest, hping]

/-- The answer at the head of the queue of the owner. -/
theorem mem_answersOf_head (h : Peer) (bwd : List Frame) {e : AuthKey × Message}
    {rest : List (AuthKey × Message)} {i : Nat × Bool} (hq : o.internalQ = e :: rest)
    (hi : answerOf e.2 = some i) : i ∈ answersOf o h bwd := by
  simp only [answersOf, List.mem_append, List.mem_filterMap]
  exact .inl (.inl ⟨e, by rw [hq]; exact List.mem_cons_self, hi⟩)

/-- The answer that a challenge waits for is an answer to its round. -/
theorem answerOf_of_answers {c : ChallengeContext} {msg : Message} {request ping : Nat}
    (hmsg : Answers c msg) (hrequest : c.mIdChangePwdRequest = some request)
    (hping : c.mIdPing = some ping) :
    answerOf msg = some (request, true) ∨ answerOf msg = some (ping, true) := by
  cases msg with
  | changePwdResponse mId oMId status =>
    obtain ⟨rfl, hid⟩ := hmsg
    rw [hrequest] at hid
    cases hid
    exact .inl rfl
  | pong mId oMId padding =>
    have hid : c.mIdPing = some oMId := hmsg
    rw [hping] at hid
    cases hid
    exact .inr rfl
  | allClear => exact hmsg.elim
  | changePwdRequest => exact hmsg.elim
  | ping => exact hmsg.elim

/-- The owner switches to the new password. -/
theorem owner_switches {c : ChallengeContext} {key : AuthKey} {it : AuthItem} {auth : AuthEntry}
    {e : AuthKey × Message} {rest : List (AuthKey × Message)} {now : HoroDate}
    (hq : o.internalQ = e :: rest) (hok : CtxtOk (C.sId s.remote) c)
    (hctxt : o.challengeCtxt = some c) (hrun : c.running = true) (hmsg : Answers c e.2)
    (hauth : c.auth = some key) (hit : o.db.authFindByKey key = some it)
    (hswitch : authSwitchToNewPwd now it.auth = .ok auth) :
    Steps (rotationOf C s o h fwd bwd uuid)
      (rotationOf C s { o with
        internalQ := rest
        db := o.db.modifyAuth key fun _ => auth, saved := o.db.modifyAuth key fun _ => auth
        challengeCtxt := some { c with running := false }
        events := o.events ++ [.switched c] } h fwd bwd uuid) := by
  obtain ⟨-, hpending, -, hauth'⟩ := authSwitchToNewPwd_ok hswitch
  have hkey := hok.auth key hauth
  obtain ⟨request, ping, hrequest, hping, hround⟩ :=
    runningRound_running hok hctxt hrun hauth
  have hanswer := (answerOf_of_answers hmsg hrequest hping).imp (mem_answersOf_head h bwd hq)
    (mem_answersOf_head h bwd hq)
  have hp : (rotationOf C s o h fwd bwd uuid).pending key.login = some it.auth.newPwd := by
    apply (perLogin_find hkey hit).trans
    rw [pendingPwd, if_pos hpending]
  refine .tail (.single (Step.commit hround hanswer hp)) (Step.loss ?_ ?_ rfl rfl ?_ ?_ ?_ ?_)
  · have hpwd : currentPwd auth = some it.auth.newPwd := by
      rw [hauth']
      rfl
    rw [← hpwd]
    exact perLogin_modifyAuth hkey hit
  · have hnone : pendingPwd auth = none := by
      rw [hauth']
      rfl
    rw [← hnone]
    exact perLogin_modifyAuth hkey hit
  · exact runningRound_idle hok.ended
  · exact List.Sublist.refl _
  · apply answersOf_subset
    · intro e' he'
      rw [hq]
      exact List.mem_cons_of_mem _ he'
    · exact fun _ h => h
    · exact fun _ h => h
  · exact Nat.le_refl _

/-- The owner ends a challenge that is refused. -/
theorem owner_gives_up {c : ChallengeContext} {e : AuthKey × Message}
    {rest : List (AuthKey × Message)} {mId oMId : Nat} (hq : o.internalQ = e :: rest)
    (hok : CtxtOk (C.sId s.remote) c) (hctxt : o.challengeCtxt = some c) (hrun : c.running = true)
    (hmsg : e.2 = .changePwdResponse mId oMId false) (hid : c.mIdChangePwdRequest = some oMId) :
    Steps (rotationOf C s o h fwd bwd uuid)
      (rotationOf C s { o with
        internalQ := rest
        challengeCtxt := some { c with running := false } } h fwd bwd uuid) := by
  obtain ⟨key, hauth⟩ := Option.isSome_iff_exists.mp (hok.running hrun).1
  obtain ⟨request, ping, hrequest, hping, hround⟩ := runningRound_running hok hctxt hrun hauth
  rw [hid] at hrequest
  cases hrequest
  have hanswer : (oMId, false) ∈ answersOf o h bwd :=
    mem_answersOf_head h bwd hq (by rw [hmsg]; rfl)
  refine .tail (.single (Step.giveUp hround hanswer)) (Step.loss rfl rfl rfl rfl ?_ ?_ ?_ ?_)
  · exact runningRound_idle hok.ended
  · exact List.Sublist.refl _
  · apply answersOf_subset
    · intro e' he'
      rw [hq]
      exact List.mem_cons_of_mem _ he'
    · exact fun _ h => h
    · exact fun _ h => h
  · exact Nat.le_refl _

/-- The peer after a message of its queue and the end of its challenge. -/
theorem PeerOk.ended {p : Peer} {db saved : AuthDbs} {events : List Event} {c : ChallengeContext}
    {e : AuthKey × Message} {rest : List (AuthKey × Message)} (hp : PeerOk C s p)
    (hs : saved = db) (hq : p.internalQ = e :: rest) (hctxt : p.challengeCtxt = some c) :
    PeerOk C s { p with
      internalQ := rest, db, saved, events
      challengeCtxt := some { c with running := false } } where
  saved := hs
  ctxt := (hp.ctxt c hctxt).ended.ok
  queued := hp.queued
  frames := hp.frames
  read e he := hp.read e (by rw [hq]; exact List.mem_cons_of_mem _ he)

/-- The owner processes the message that it takes from its queue. -/
theorem owner_processes {r : Turn} {e : AuthKey × Message} {rest : List (AuthKey × Message)}
    (hE : EnvOk C s uuid E) (ho : PeerOk C s o) (hq : o.internalQ = e :: rest)
    (hp : Processed E { o with internalQ := rest } e.1 e.2 r) :
    Steps (rotationOf C s o h fwd bwd uuid) (ownerTurn C s h fwd bwd (uuid + 2) r) := by
  have hread := ho.read e (by rw [hq]; exact List.mem_cons_self)
  obtain ⟨authFrom, msg⟩ := e
  have hu : uuid ≤ uuid + 2 := by omega
  cases hp with
  | ignored =>
    show Steps _ (rotationOf C s { o with internalQ := rest } h fwd bwd (uuid + 2))
    apply owner_pops hq
    · rfl
    · exact .of_eq rfl
    · rfl
    · rfl
    · rfl
    · exact hu
  | stopped => exact owner_leaves ho.saved rfl rfl rfl rfl hu
  | allClear =>
    show Steps _ (rotationOf C s { o with internalQ := rest, allClearRxed := true } h fwd bwd
      (uuid + 2))
    apply owner_pops hq
    · rfl
    · exact .of_eq rfl
    · rfl
    · rfl
    · rfl
    · exact hu
  -- the request is one of the other rotation: its answer is queued, this owner is as before
  | refused =>
    show Steps _ (rotationOf C s (Peer.sendMessage _ _ _) h fwd bwd (uuid + 2))
    apply owner_pops hq
    · rw [internalQ_sendMessage]
    · exact .of_eq (db_sendMessage ..)
    · rw [up_sendMessage]
    · rw [challengeCtxt_sendMessage]
    · rw [requests_sendMessage]
    · exact hu
  | accepted =>
    show Steps _ (rotationOf C s (Peer.sendMessage _ _ _) h fwd bwd (uuid + 2))
    apply owner_pops hq
    · rw [internalQ_sendMessage]
    · rw [db_sendMessage]
      -- the password that is set is of an entry for receiving
      apply SameUnder.of_ne
      rw [hread]
      exact dbIds_ne
    · rw [up_sendMessage]
    · rw [challengeCtxt_sendMessage]
    · rw [requests_sendMessage]
    · exact hu
  | ping =>
    show Steps _ (rotationOf C s (Peer.sendMessage _ _ _) h fwd bwd (uuid + 2))
    apply owner_pops hq
    · rw [internalQ_sendMessage]
    · exact .of_eq (db_sendMessage ..)
    · rw [up_sendMessage]
    · rw [challengeCtxt_sendMessage]
    · rw [requests_sendMessage]
    · exact hu
  -- the end of the round, without a switch or with one, and then the next search
  | busy hctxt hrun hid hi =>
    have hok := ho.ctxt _ hctxt
    refine Relation.ReflTransGen.trans ?_ (owner_initiates hE ?_ hi)
    · exact owner_gives_up hq hok hctxt hrun rfl hid
    · exact ho.ended ho.saved hq hctxt
  | succeeded hctxt hrun hmsg hauth hit hswitch hi =>
    have hok := ho.ctxt _ hctxt
    refine Relation.ReflTransGen.trans ?_ (owner_initiates hE ?_ hi)
    · exact owner_switches hq hok hctxt hrun hmsg hauth hit hswitch
    · exact ho.ended rfl hq hctxt

/-! ### The holder

A request that is taken is accepted, and the holder has the new password from then on, or refused
when `responseBusy` says so or the password is not valid. The reply is an answer to the round of
the request, and is counted from then on among those under way. -/

/-- The holder takes a message from its queue, and answers no request. -/
theorem holder_pops {h' : Peer} {e : AuthKey × Message} {rest : List (AuthKey × Message)}
    (hq : h.internalQ = e :: rest) (hi : h'.internalQ = rest)
    (hdb : SameUnder authFromDbId (C.sId s) h'.db h.db)
    (hs : h'.sendQ.flatMap queuedAnswers = h.sendQ.flatMap queuedAnswers)
    {uuid' : Nat} (hu : uuid ≤ uuid') :
    Steps (rotationOf C s o h fwd bwd uuid) (rotationOf C s o h' fwd bwd uuid') := by
  apply rotation_loss (.of_eq rfl) hdb rfl rfl
  · apply requestsOf_sublist _ (List.Sublist.refl _) (List.Sublist.refl _)
    rw [hi, hq]
    exact List.sublist_cons_self _ _
  · rw [answersOf, answersOf, hs]
    exact List.Subset.refl _
  · exact hu

/-- The answers after the holder answers request `i`. -/
theorem answersOf_reply {h' : Peer} {msg : Message} {i : Nat × Bool} (hs : h'.sendQ = h.sendQ)
    (hmsg : answerOf msg = some i) (login : Option Bytes) :
    answersOf o (h'.sendMessage msg login) bwd ⊆ i :: answersOf o h bwd := by
  have hsub := answers_sendMessage h' msg login
  rw [hs, hmsg] at hsub
  intro j hj
  simp only [answersOf, List.mem_append, List.mem_cons] at hj ⊢
  rcases hj with hj | hj
  · exact .inr (.inl hj)
  · have := hsub hj
    simp only [List.mem_append, Option.toList_some, List.mem_singleton] at this
    tauto

theorem requestsOf_cons {e : AuthKey × Message} {rest : List (AuthKey × Message)}
    {q : Request Bytes AuthPwd} (hq : h.internalQ = e :: rest) (he : readRequest e = some q) :
    requestsOf C s o h fwd = q :: requestsOf C s o { h with internalQ := rest } fwd := by
  simp [requestsOf, hq, he]

/-- The holder processes the message that it takes from its queue. -/
theorem holder_processes {r : Turn} {e : AuthKey × Message} {rest : List (AuthKey × Message)}
    (hE : EnvOk C s.remote uuid E) (hh : PeerOk C s.remote h) (hq : h.internalQ = e :: rest)
    (hp : Processed E { h with internalQ := rest } e.1 e.2 r) :
    Steps (rotationOf C s o h fwd bwd uuid) (holderTurn C s o fwd bwd (uuid + 2) r) := by
  have hread := hh.read e (by rw [hq]; exact List.mem_cons_self)
  rw [Side.remote_remote] at hread
  obtain ⟨authFrom, msg⟩ := e
  have hu : uuid ≤ uuid + 2 := by omega
  cases hp with
  | ignored =>
    show Steps _ (rotationOf C s o { h with internalQ := rest } fwd bwd (uuid + 2))
    apply holder_pops hq
    · rfl
    · exact .of_eq rfl
    · rfl
    · exact hu
  | stopped => exact holder_leaves hh.saved rfl rfl hu
  | allClear =>
    show Steps _ (rotationOf C s o { h with internalQ := rest, allClearRxed := true } fwd bwd
      (uuid + 2))
    apply holder_pops hq
    · rfl
    · exact .of_eq rfl
    · rfl
    · exact hu
  | @refused mId pwd =>
    have hreq : readRequest (authFrom, .changePwdRequest mId pwd) =
        some (.change mId authFrom.login ((base64Decode pwd).getD [])) := rfl
    -- the request is taken from the queue, the answer is queued; what cannot be queued is lost
    have hstep := Step.refuse (x := rotationOf C s o h fwd bwd uuid) (requestsOf_cons hq hreq)
    refine .tail (.single hstep) (Step.loss rfl rfl ?_ rfl rfl ?_ ?_ hu)
    · show perLogin (Peer.sendMessage _ _ _).db authFromDbId (C.sId s) currentPwd = _
      rw [db_sendMessage]
      rfl
    · apply requestsOf_sublist _ (List.Sublist.refl _) (List.Sublist.refl _)
      rw [internalQ_sendMessage]
    · exact answersOf_reply rfl rfl _
  | @accepted mId pwd it auth hit hset =>
    obtain ⟨-, pwd', hpwd, hauth⟩ := authSetPwdB64_ok hset
    have hreq : readRequest (authFrom, .changePwdRequest mId pwd) =
        some (.change mId authFrom.login pwd') := by
      simp [readRequest, requestOf, hpwd]
    have hstep := Step.change (x := rotationOf C s o h fwd bwd uuid) (requestsOf_cons hq hreq)
    refine .tail (.single hstep) (Step.loss rfl rfl ?_ rfl rfl ?_ ?_ hu)
    · show perLogin (Peer.sendMessage _ _ _).db authFromDbId (C.sId s) currentPwd =
        Function.update (perLogin h.db authFromDbId (C.sId s) currentPwd) authFrom.login (some pwd')
      -- the holder has the password at once, whatever becomes of its answer
      have hcurrent : currentPwd auth = some pwd' := by rw [hauth]; rfl
      rw [db_sendMessage, ← hcurrent]
      exact perLogin_modifyAuth hread hit
    · apply requestsOf_sublist _ (List.Sublist.refl _) (List.Sublist.refl _)
      rw [internalQ_sendMessage]
    · exact answersOf_reply rfl rfl _
  | @ping mId padding =>
    have hreq : readRequest (authFrom, .ping mId padding) =
        some (.probe mId authFrom.login none) := rfl
    have hstep := Step.probe (x := rotationOf C s o h fwd bwd uuid) (requestsOf_cons hq hreq)
    refine .tail (.single hstep) (Step.loss rfl rfl ?_ rfl rfl ?_ ?_ hu)
    · show perLogin (Peer.sendMessage _ _ _).db authFromDbId (C.sId s) currentPwd = _
      rw [db_sendMessage]
      rfl
    · apply requestsOf_sublist _ (List.Sublist.refl _) (List.Sublist.refl _)
      rw [internalQ_sendMessage]
    · exact answersOf_reply rfl rfl _
  | busy hctxt hrun hid hi =>
    -- the challenge of the other rotation, and then the next one of it
    refine Relation.ReflTransGen.trans ?_ (holder_initiates hE ?_ hi)
    · apply holder_pops hq
      · rfl
      · exact .of_eq rfl
      · rfl
      · exact Nat.le_refl _
    · exact hh.saved
  | @succeeded _ c key _ _ _ hctxt hrun hmsg hauth hit hswitch hi =>
    have hkey := (hh.ctxt _ hctxt).auth _ hauth
    refine Relation.ReflTransGen.trans ?_ (holder_initiates hE rfl hi)
    apply holder_pops hq
    · rfl
    · apply SameUnder.of_ne
      -- the entry that is switched is one for sending, the rotation has those for receiving
      rw [hkey]
      exact dbIds_ne.symm
    · rfl
    · exact Nat.le_refl _

end Process

/-! ## Frames

A frame is written whole or lost, and read whole or refused. What is delicate is the frame of a
challenge, whose second element is sealed with the new password: `readWith` says which elements
the holder reads under the password that it has by then. -/

section Frames

variable {s : Side} {o h : Peer} {fwd bwd : List Frame} {uuid : Nat}

/-- The owner reads a frame. -/
theorem owner_receives (valid : Message → Bool) (f : Frame) {uuid' : Nat} (hu : uuid ≤ uuid') :
    Steps (rotationOf C s o h fwd (f :: bwd) uuid)
      (rotationOf C s (o.cyberReceive (C.derived s) valid f) h fwd bwd uuid') := by
  apply rotation_loss
  · exact .of_eq rfl
  · exact .of_eq rfl
  · rfl
  · rfl
  · exact List.Sublist.refl _
  · intro i hi
    simp only [answersOf, Peer.cyberReceive, List.filterMap_append, List.mem_append,
      List.flatMap_cons] at hi ⊢
    rcases hi with ((hi | hi) | hi) | hi
    · exact .inl (.inl hi)
    · -- what is read was in the frame
      refine .inl (.inr (.inl ?_))
      obtain ⟨e, he, hi⟩ := List.mem_filterMap.mp hi
      unfold encryptedDecode at he
      split at he
      · cases he
      · obtain ⟨x, hx, rfl⟩ := List.mem_map.mp he
        exact List.mem_filterMap.mpr ⟨x, (List.mem_filter.mp hx).1, hi⟩
    · exact .inl (.inr (.inr hi))
    · exact .inr hi
  · exact hu

/-! ### The holder reads

The elements of a frame are read one after the other under the password of the entry, which no
element changes: what is read is put in the queue, and is processed later. So the elements that
are readable are known when the frame arrives. -/

/-- The elements that the holder reads with an entry. -/
def readWith (valid : Message → Bool) (key : AuthKey) (passphrase : Bytes) (es : List Element) :
    List (AuthKey × Message) :=
  (es.filter fun e => e.passphrase == passphrase && valid e.msg).map fun e => (key, e.msg)

theorem readWith_cons_of_neg {valid : Message → Bool} {key : AuthKey} {passphrase : Bytes}
    {e : Element} (h : ¬ (e.passphrase == passphrase && valid e.msg) = true) (es : List Element) :
    readWith valid key passphrase (e :: es) = readWith valid key passphrase es := by
  simp only [readWith, List.filter_cons, if_neg h]

theorem readWith_cons_of_pos {valid : Message → Bool} {key : AuthKey} {passphrase : Bytes}
    {e : Element} (h : (e.passphrase == passphrase && valid e.msg) = true) (es : List Element) :
    readWith valid key passphrase (e :: es) =
      (key, e.msg) :: readWith valid key passphrase es := by
  simp only [readWith, List.filter_cons, if_pos h, List.map_cons]

/-- The holder reads elements, one after the other. -/
theorem holder_reads (valid : Message → Bool) (f : Frame) {key : AuthKey} {pwd : AuthPwd}
    (hkey : key = ⟨authFromDbId, f.login, C.sId s⟩) (es : List Element)
    {x : Rotation Bytes AuthPwd} (pre post : List (Request Bytes AuthPwd))
    (hheld : x.held f.login = some pwd)
    (hq : x.requests = pre ++ frameRequests C s { f with data := es } ++ post) :
    Steps x { x with
      requests := pre ++ (readWith valid key
        (getPassphraseForPwd (C.sId s.remote) key .decrypt pwd) es).filterMap readRequest ++
        post } := by
  induction es generalizing x pre with
  | nil =>
    have hx : { x with requests := pre ++ List.filterMap readRequest [] ++ post } = x := by
      cases x
      simp_all [frameRequests]
    show Steps x { x with requests := pre ++ List.filterMap readRequest [] ++ post }
    rw [hx]
  | cons e es ih =>
    obtain ⟨passphrase, msg⟩ := e
    have hcons : frameRequests C s { f with data := ⟨passphrase, msg⟩ :: es } =
        (requestOf f.login (some (passwordOf (C.sId s ++ f.login) (C.sId s.remote) passphrase))
          msg).toList ++ frameRequests C s { f with data := es } := by
      simp only [frameRequests, List.filterMap_cons]
      split <;> simp_all
    rw [hcons] at hq
    -- the first element, which is read under the password that is held, or lost
    by_cases hopen : (passphrase == getPassphraseForPwd (C.sId s.remote) key .decrypt pwd &&
        valid msg) = true
    · rw [readWith_cons_of_pos hopen]
      have hread : readRequest (key, msg) = requestOf f.login none msg := by
        rw [readRequest, hkey]
      cases msg with
      | changePwdRequest mId pwd64 =>
        have := ih (pre ++ [.change mId f.login ((base64Decode pwd64).getD [])]) hheld
          (by simpa [requestOf] using hq)
        simpa [hread, requestOf] using this
      | ping mId padding =>
        -- the probe was sealed with this password, since it is opened with it
        have hpass : passwordOf (C.sId s ++ f.login) (C.sId s.remote) passphrase = pwd := by
          have heq : passphrase = C.sId s ++ f.login ++ pwd ++ C.sId s.remote := by
            simp only [Bool.and_eq_true, beq_iff_eq] at hopen
            rw [hopen.1, hkey]
            rfl
          rw [heq, passwordOf_append]
        rw [hpass] at hq
        have hq' : x.requests = pre ++ .probe mId f.login (some pwd) ::
            (frameRequests C s { f with data := es } ++ post) := by
          simpa [requestOf] using hq
        refine .trans (.single (Step.opened hq' hheld)) ?_
        have := ih (x := { x with requests := pre ++ .probe mId f.login none ::
          (frameRequests C s { f with data := es } ++ post) })
          (pre ++ [.probe mId f.login none]) hheld (by simp)
        simpa [hread, requestOf] using this
      | allClear =>
        have := ih pre hheld (by simpa [requestOf] using hq)
        simpa [hread, requestOf] using this
      | changePwdResponse =>
        have := ih pre hheld (by simpa [requestOf] using hq)
        simpa [hread, requestOf] using this
      | pong =>
        have := ih pre hheld (by simpa [requestOf] using hq)
        simpa [hread, requestOf] using this
    · -- the element is not read
      rw [readWith_cons_of_neg hopen]
      refine .trans (.single (Step.loss (y := { x with
        requests := pre ++ frameRequests C s { f with data := es } ++ post })
        rfl rfl rfl rfl rfl ?_ (List.Subset.refl _) (Nat.le_refl _)))
        (ih (x := { x with
          requests := pre ++ frameRequests C s { f with data := es } ++ post }) pre hheld rfl)
      rw [hq, List.append_assoc, List.append_assoc, List.append_assoc]
      exact (List.Sublist.refl _).append (List.sublist_append_right _ _)

/-- The holder reads a frame of the owner. -/
theorem holder_receives (valid : Message → Bool) {f : Frame} (hf : f.sId = C.sId s)
    {uuid' : Nat} (hu : uuid ≤ uuid') :
    Steps (rotationOf C s o h (f :: fwd) bwd uuid)
      (rotationOf C s o (h.cyberReceive (C.derived s.remote) valid f) fwd bwd uuid') := by
  cases hget : coderAuthGet h.db (some f.login) f.sId .decrypt with
  | none =>
    have hnone : (h.cyberReceive (C.derived s.remote) valid f).internalQ = h.internalQ := by
      simp [Peer.cyberReceive, encryptedDecode, hget]
    apply rotation_loss
    · exact .of_eq rfl
    · exact .of_eq rfl
    · rfl
    · rfl
    · apply requestsOf_sublist _ (List.sublist_cons_self _ _) (List.Sublist.refl _)
      rw [hnone]
    · exact List.Subset.refl _
    · exact hu
  | some r =>
    obtain ⟨it, hit, -, rfl⟩ := coderAuthGet_decrypt hget
    rw [hf] at hget hit
    have hheld : (rotationOf C s o h (f :: fwd) bwd uuid).held f.login = some it.auth.pwd := by
      show perLogin h.db authFromDbId (C.sId s) currentPwd f.login = _
      rw [perLogin, hit]
      rfl
    have hread := holder_reads (C := C) (s := s) valid f rfl f.data
      (h.internalQ.filterMap readRequest)
      (fwd.flatMap (frameRequests C s) ++ o.sendQ.flatMap (queuedRequests C s)) hheld
      (by simp [rotationOf, requestsOf])
    refine hread.tail (Step.loss rfl rfl rfl rfl rfl ?_ (List.Subset.refl _) hu)
    have hdecode : encryptedDecode valid (C.derived s.remote) h.db f =
        readWith valid ⟨authFromDbId, f.login, C.sId s⟩ (getPassphraseForPwd (C.sId s.remote)
          ⟨authFromDbId, f.login, C.sId s⟩ .decrypt it.auth.pwd) f.data := by
      simp only [encryptedDecode, hf, hget]
      rfl
    simp only [rotationOf, requestsOf, Peer.cyberReceive, hdecode, List.filterMap_append,
      List.append_assoc]
    exact List.Sublist.refl _

/-! ### Frames that are written

A message leaves the queue of its sender and is on the line, or is lost. A challenge was sealed
when it was queued, and its round is the same in the queue and on the line. -/

/-- The owner writes a frame, or loses a message of its own. -/
theorem owner_sends {E : Env} {r : Peer × Option Frame} (ho : PeerOk C s o) (hr : Sent E o r)
    {uuid' : Nat} (hu : uuid ≤ uuid') :
    Steps (rotationOf C s o h fwd bwd uuid)
      (rotationOf C s r.1 h (fwd ++ r.2.toList) bwd uuid') := by
  apply rotation_loss
  · cases hr <;> exact .of_eq rfl
  · exact .of_eq rfl
  · cases hr <;> rfl
  · cases hr <;> rfl
  · cases hr with
    | nothing => simp
    | challenge hq => simp [requestsOf, hq, queuedRequests]
    | lost hq => simp [requestsOf, hq, queuedRequests]
    | @message msg login rest f hq hf =>
      -- the message is no request
      have hmsg := ho.queued msg login (by rw [hq]; exact List.mem_cons_self)
      obtain ⟨key, auth, -, rfl⟩ := encryptedEncode_eq_some hf
      simp [requestsOf, hq, queuedRequests, frameRequests, hmsg]
  · cases hr <;> exact List.Subset.refl _
  · exact hu

/-- The holder writes a frame, or loses a message of its own. -/
theorem holder_sends {E : Env} {r : Peer × Option Frame} (hr : Sent E h r)
    {uuid' : Nat} (hu : uuid ≤ uuid') :
    Steps (rotationOf C s o h fwd bwd uuid)
      (rotationOf C s o r.1 fwd (bwd ++ r.2.toList) uuid') := by
  apply rotation_loss
  · exact .of_eq rfl
  · cases hr <;> exact .of_eq rfl
  · rfl
  · rfl
  · cases hr <;> exact List.Sublist.refl _
  · cases hr with
    | nothing => simp
    | challenge hq => simp [answersOf, hq, queuedAnswers]
    | lost hq =>
      apply answersOf_subset
      · exact fun _ h => h
      · simp
      · rw [hq]
        exact fun _ h => List.mem_cons_of_mem _ h
    | @message msg login rest f hq hf =>
      obtain ⟨key, auth, -, rfl⟩ := encryptedEncode_eq_some hf
      cases hans : answerOf msg <;>
        simp [answersOf, hq, queuedAnswers, frameAnswers, hans]
  · exact hu

end Frames

end RsmpGateway.Cyber
