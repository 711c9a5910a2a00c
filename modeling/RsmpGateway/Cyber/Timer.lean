import RsmpGateway.Cyber.Renewal
import RsmpGateway.Cyber.Reply
import RsmpGateway.Lib.Alarm

/-!
# The timer of a challenge

A challenge that is queued is given sixty seconds: `launchTimerResponse` sets a timer in place of
the one that the context holds, and each end of a challenge, good or bad, cancels it.

The turns of the internal task are defined again with the timers beside the peer. For the peer they
are the turns of `Cyber/Connection.lean` (`Timed.cyberReceiveInternal_fst`); for the timers, a turn
keeps them, cancels the one that is held, or launches one for the challenge that it queues
(`Times`). What this is worth in a run is the subject of `Cyber/TimerRuns.lean`.
-/

namespace RsmpGateway.Cyber

open RsmpGateway.Lib RsmpGateway.Auth RsmpGateway.Coder

/-! ## Turns, with the timers

The definitions follow those of `Cyber/Connection.lean` line by line, with the calls of the timer
where the source has them. -/

/-- `stopTimerResponse` -/
def stopTimerResponse (timers : Alarms) : Alarms := timers.cancel

/-- `launchTimerResponse`, with the date when a new timer fires. -/
def launchTimerResponse (due : Option Int) (timers : Alarms) : Alarms := timers.set due

namespace Timed

/-- `searchLoginForChallenge` -/
def searchLoginForChallenge (E : Env) (s : Option ChallengeContext × Alarms) (it : AuthItem) :
    Option ChallengeContext × Alarms :=
  if s.1.any fun c => c.auth.isSome && (c.running || c.toSend) then s
  else
    -- the context is freed, with the handle
    let s := if s.1.any fun c => c.auth.isSome && !c.running && !c.toSend then
        (none, (stopTimerResponse s.2).forget) else s
    if Peer.challengeDue E it.auth then
      (some { s.1.getD challengeCtxtNew with
        auth := some ⟨authToDbId, it.login, E.sIdRemote⟩, toSend := true }, s.2)
    else s

/-- The search of `initiateChallenge`. -/
def searchChallenge (E : Env) (p : Peer) (timers : Alarms) : Peer × Alarms :=
  if p.challengeBusy then (p, timers)
  else
    let s := (p.db.logins authToDbId E.sIdRemote).foldl (searchLoginForChallenge E)
      (p.challengeCtxt, timers)
    ({ p with challengeCtxt := s.1 }, s.2)

/-- `initiateChallenge` after the search. -/
def sendChallenge (E : Env) (due : Option Int) (p : Peer) (timers : Alarms) : Turn × Alarms :=
  if ¬ p.challengeBusy then
    if p.allClearSent then (.ok p, timers) else (.ok (p.sendAllClear E), timers)
  else
    match p.challengeCtxt with
    | none => (.ok p, timers)
    | some ctxt =>
      if ctxt.toSend then
        match ctxt.auth with
        | none => (.error p.saved, timers)
        | some key =>
          match p.challengeEncode E ctxt key.login with
          | .error db => (.error db, timers)
          | .ok (p, none) => (.ok p, timers)
          | .ok (p, some f) =>
            if E.failure = some .queue then (.ok p, timers)
            else
              (.ok { p with
                sendQ := p.sendQ ++ [.challenge f]
                challengeCtxt :=
                  p.challengeCtxt.map fun c => { c with running := true, toSend := false } },
                launchTimerResponse due timers)
      else (.ok p, timers)

/-- `initiateChallenge` -/
def initiateChallenge (E : Env) (due : Option Int) (p : Peer) (timers : Alarms) : Turn × Alarms :=
  let s := searchChallenge E p timers
  sendChallenge E due s.1 s.2

/-- The end of a challenge that succeeds. -/
def challengeSucceeds (E : Env) (due : Option Int) (p : Peer) (timers : Alarms)
    (ctxt : ChallengeContext) : Turn × Alarms :=
  let timers := stopTimerResponse timers
  match ctxt.auth with
  | none => (.error p.saved, timers)
  | some key =>
    match p.onAuth key (authSwitchToNewPwd E.now) with
    | .abort => (.error p.saved, timers)
    | .err => (.ok p, timers)
    | .ok p =>
      initiateChallenge E due { p with
        challengeCtxt := some { ctxt with running := false }
        events := p.events ++ [.switched ctxt] } timers

/-- `cyber_process_internal_msg`. Only the answers to a challenge deal with timers. -/
def cyberProcessInternalMsg (E : Env) (due : Option Int) (p : Peer) (timers : Alarms)
    (authFrom : AuthKey) : Message → Turn × Alarms
  | .changePwdResponse _ oMId status =>
    match p.challengeCtxt with
    | none => (.ok p, timers)
    | some ctxt =>
      if ctxt.running ∧ ctxt.mIdChangePwdRequest = some oMId then
        if status then challengeSucceeds E due p timers ctxt
        else
          initiateChallenge E due { p with challengeCtxt := some { ctxt with running := false } }
            (stopTimerResponse timers)
      else (.ok p, timers)
  | .pong _ oMId _ =>
    match p.challengeCtxt with
    | none => (.ok p, timers)
    | some ctxt =>
      if ctxt.running ∧ ctxt.mIdPing = some oMId then challengeSucceeds E due p timers ctxt
      else (.ok p, timers)
  | msg => (p.cyberProcessInternalMsg E authFrom msg, timers)

/-- A message of the queue in `cyber_receive_internal`. -/
def cyberReceiveInternal (E : Env) (due : Option Int) (p : Peer) (timers : Alarms) :
    Turn × Alarms :=
  match p.internalQ with
  | [] => (.ok p, timers)
  | (authFrom, msg) :: rest =>
    let p := { p with internalQ := rest }
    if messageCheckFields msg then cyberProcessInternalMsg E due p timers authFrom msg
    else (.ok p, timers)

end Timed

/-! ### They are the turns

Without the timers nothing is different. Case by case, as the definitions go. -/

theorem Timed.searchLogin_fst (E : Env) (s : Option ChallengeContext × Alarms) (it : AuthItem) :
    (Timed.searchLoginForChallenge E s it).1 = Peer.searchLoginForChallenge E s.1 it := by
  unfold Timed.searchLoginForChallenge Peer.searchLoginForChallenge
  split
  · rfl
  · split
    · split <;> rfl
    · split <;> rfl

theorem Timed.search_fst (E : Env) (its : List AuthItem) (s : Option ChallengeContext × Alarms) :
    (its.foldl (Timed.searchLoginForChallenge E) s).1 =
      its.foldl (Peer.searchLoginForChallenge E) s.1 := by
  induction its generalizing s with
  | nil => rfl
  | cons it its ih => rw [List.foldl_cons, List.foldl_cons, ih, Timed.searchLogin_fst]

theorem Timed.sendChallenge_fst (E : Env) (due : Option Int) (p : Peer) (timers : Alarms) :
    (Timed.sendChallenge E due p timers).1 = p.sendChallenge E := by
  unfold Timed.sendChallenge Peer.sendChallenge
  split
  · split <;> rfl
  · cases p.challengeCtxt with
    | none => rfl
    | some ctxt =>
      dsimp only
      split
      · cases ctxt.auth with
        | none => rfl
        | some key =>
          dsimp only
          cases p.challengeEncode E ctxt key.login with
          | error db => rfl
          | ok r =>
            obtain ⟨p', f?⟩ := r
            cases f? with
            | none => rfl
            | some f =>
              dsimp only
              split <;> rfl
      · rfl

theorem Timed.searchChallenge_fst (E : Env) (p : Peer) (timers : Alarms) :
    (Timed.searchChallenge E p timers).1 = p.searchChallenge E := by
  unfold Timed.searchChallenge Peer.searchChallenge
  by_cases hbusy : p.challengeBusy = true
  · rw [if_pos hbusy, if_pos hbusy]
  · rw [if_neg hbusy, if_neg hbusy, ← search_fst E _ (p.challengeCtxt, timers)]

theorem Timed.initiateChallenge_fst (E : Env) (due : Option Int) (p : Peer) (timers : Alarms) :
    (Timed.initiateChallenge E due p timers).1 = p.initiateChallenge E := by
  rw [Timed.initiateChallenge, Peer.initiateChallenge, ← searchChallenge_fst E p timers]
  exact sendChallenge_fst E due _ _

theorem Timed.challengeSucceeds_fst (E : Env) (due : Option Int) (p : Peer) (timers : Alarms)
    (ctxt : ChallengeContext) :
    (Timed.challengeSucceeds E due p timers ctxt).1 = p.challengeSucceeds E ctxt := by
  unfold Timed.challengeSucceeds Peer.challengeSucceeds
  cases ctxt.auth with
  | none => rfl
  | some key =>
    dsimp only
    cases p.onAuth key (authSwitchToNewPwd E.now) with
    | ok p => exact initiateChallenge_fst E due _ _
    | err => rfl
    | abort => rfl

theorem Timed.cyberProcessInternalMsg_fst (E : Env) (due : Option Int) (p : Peer)
    (timers : Alarms) (authFrom : AuthKey) (msg : Message) :
    (Timed.cyberProcessInternalMsg E due p timers authFrom msg).1 =
      p.cyberProcessInternalMsg E authFrom msg := by
  cases msg with
  | changePwdResponse mId oMId status =>
    rw [cyberProcessInternalMsg, Peer.cyberProcessInternalMsg]
    cases p.challengeCtxt with
    | none => rfl
    | some ctxt =>
      dsimp only
      split
      · split
        · exact challengeSucceeds_fst E due p timers ctxt
        · exact initiateChallenge_fst E due _ _
      · rfl
  | pong mId oMId padding =>
    rw [cyberProcessInternalMsg, Peer.cyberProcessInternalMsg]
    cases p.challengeCtxt with
    | none => rfl
    | some ctxt =>
      dsimp only
      split
      · exact challengeSucceeds_fst E due p timers ctxt
      · rfl
  | _ => rfl

/-- **The turns.** With the timers, a turn is what it is without. -/
theorem Timed.cyberReceiveInternal_fst (E : Env) (due : Option Int) (p : Peer)
    (timers : Alarms) :
    (Timed.cyberReceiveInternal E due p timers).1 = p.cyberReceiveInternal E := by
  unfold Timed.cyberReceiveInternal Peer.cyberReceiveInternal
  cases p.internalQ with
  | nil => rfl
  | cons e rest =>
    obtain ⟨authFrom, msg⟩ := e
    dsimp only
    split
    · exact cyberProcessInternalMsg_fst E due _ timers authFrom msg
    · rfl

/-! ## What a turn does to the timers

A turn that launches a timer queues a challenge, and a challenge that is queued runs; a turn that
ends a challenge cancels the timer. `Times` sorts the turns by what they do, and the lemmas after
it say what each case keeps of the alarms (`Lib/Alarm.lean`). -/

/-- The turn queues a challenge. -/
def queuesChallenge (p : Peer) : Turn → Bool
  | .ok p' => (p'.sendQ.drop p.sendQ.length).any QueueMsg.isChallenge
  | .error _ => false

/-- A challenge runs. -/
def Peer.challengeRuns (p : Peer) : Bool := p.challengeCtxt.any ChallengeContext.running

theorem queuesChallenge_same {p p' : Peer} (h : p'.sendQ = p.sendQ) :
    queuesChallenge p (.ok p') = false := by
  rw [queuesChallenge, h, List.drop_length]
  rfl

theorem queuesChallenge_append {p p' : Peer} {m : QueueMsg} (h : p'.sendQ = p.sendQ ++ [m]) :
    queuesChallenge p (.ok p') = m.isChallenge := by
  rw [queuesChallenge, h, List.drop_left]
  exact Bool.or_false _

theorem queuesChallenge_sendMessage (p : Peer) (msg : Message) (login : Option Bytes) :
    queuesChallenge p (.ok (p.sendMessage msg login)) = false := by
  rw [Peer.sendMessage]
  split
  · exact queuesChallenge_append (m := .message msg login) rfl
  · exact queuesChallenge_same rfl

/-- The encoding of a challenge queues nothing. -/
theorem challengeEncode_sendQ {E : Env} {p p' : Peer} {ctxt : ChallengeContext} {login : Bytes}
    {f : Option Frame} (h : p.challengeEncode E ctxt login = .ok (p', f)) :
    p'.sendQ = p.sendQ := by
  unfold Peer.challengeEncode at h
  split at h
  · cases h
    rfl
  · split at h
    · cases h
      rfl
    · split at h
      · cases h
        rfl
      · split at h
        · cases h
        · cases h
          rfl
        · split at h
          · cases h
          · split at h
            · cases h
              rfl
            · dsimp only at h
              split at h
              · cases h
                rfl
              · split at h
                · cases h
                  rfl
                · cases h
                  rfl

/-- A timer is launched with a challenge that is queued. -/
theorem Timed.sendChallenge_snd (E : Env) (due : Option Int) (p : Peer) (timers : Alarms) :
    (Timed.sendChallenge E due p timers).2 =
      bif queuesChallenge p (p.sendChallenge E) then launchTimerResponse due timers
      else timers := by
  unfold Timed.sendChallenge Peer.sendChallenge
  split
  · split
    · rw [queuesChallenge_same rfl]
      rfl
    · have hsilent : queuesChallenge p (.ok (p.sendAllClear E)) = false :=
        queuesChallenge_sendMessage p _ _
      rw [hsilent]
      rfl
  · cases p.challengeCtxt with
    | none =>
      dsimp only
      rw [queuesChallenge_same rfl]
      rfl
    | some ctxt =>
      dsimp only
      split
      · cases ctxt.auth with
        | none => rfl
        | some key =>
          dsimp only
          cases hencode : p.challengeEncode E ctxt key.login with
          | error db => rfl
          | ok r =>
            obtain ⟨p', f?⟩ := r
            have hsendQ := challengeEncode_sendQ hencode
            cases f? with
            | none =>
              dsimp only
              rw [queuesChallenge_same hsendQ]
              rfl
            | some f =>
              dsimp only
              split
              · rw [queuesChallenge_same hsendQ]
                rfl
              · rw [queuesChallenge_append (congrArg (· ++ [_]) hsendQ)]
                rfl
      · rw [queuesChallenge_same rfl]
        rfl

/-! ### Searches

The search frees the context of a challenge that has ended, and the handle of its timer with it.
It is begun without a timer that is held, so that none is forgotten while it is armed. -/

/-- The timer that is held is that of a challenge that runs. -/
def Watches (p : Peer) (timers : Alarms) : Prop :=
  timers.held.isSome = true → p.challengeRuns = true

theorem Watches.held_none {p : Peer} {timers : Alarms} (h : Watches p timers)
    (hrun : p.challengeRuns = false) : timers.held = none := by
  cases hheld : timers.held with
  | none => rfl
  | some id =>
    have := h (by rw [hheld]; rfl)
    rw [hrun] at this
    cases this

theorem Watches.stopped (p : Peer) (timers : Alarms) : Watches p (stopTimerResponse timers) := by
  intro hheld
  rw [stopTimerResponse, Alarms.held_cancel] at hheld
  cases hheld

/-- A search that begins without timer leaves the timers. -/
theorem Timed.search_snd {E : Env} {its : List AuthItem} {s : Option ChallengeContext × Alarms}
    (h : s.2.held = none) : (its.foldl (Timed.searchLoginForChallenge E) s).2 = s.2 := by
  induction its generalizing s with
  | nil => rfl
  | cons it its ih =>
    have hfreed : (stopTimerResponse s.2).forget = s.2 := by
      rw [stopTimerResponse, Alarms.cancel_of_held_none h, Alarms.forget, ← h]
    have hsnd : (Timed.searchLoginForChallenge E s it).2 = s.2 := by
      unfold Timed.searchLoginForChallenge
      split
      · rfl
      · split
        · split
          · exact hfreed
          · exact hfreed
        · split <;> rfl
    rw [List.foldl_cons, ih (by rw [hsnd]; exact h), hsnd]

theorem Peer.challengeRuns_of_not_busy {p : Peer} (h : p.challengeBusy = false) :
    p.challengeRuns = false := by
  rw [Peer.challengeBusy] at h
  rw [Peer.challengeRuns]
  cases hc : p.challengeCtxt with
  | none => rfl
  | some c =>
    rw [hc, Option.any_some, Bool.or_eq_false_iff] at h
    exact h.2

theorem Timed.searchChallenge_snd {E : Env} {p : Peer} {timers : Alarms}
    (h : Watches p timers) : (Timed.searchChallenge E p timers).2 = timers := by
  unfold Timed.searchChallenge
  split
  · rfl
  · next hbusy =>
    exact search_snd (h.held_none (p.challengeRuns_of_not_busy (by simpa using hbusy)))

theorem Timed.initiateChallenge_snd {E : Env} {due : Option Int} {p : Peer} {timers : Alarms}
    (h : Watches p timers) :
    (Timed.initiateChallenge E due p timers).2 =
      bif queuesChallenge p (p.initiateChallenge E) then launchTimerResponse due timers
      else timers := by
  have hsendQ : (p.searchChallenge E).sendQ = p.sendQ := by
    rw [Peer.searchChallenge]
    split <;> rfl
  have hqueues : ∀ r, queuesChallenge (p.searchChallenge E) r = queuesChallenge p r := by
    intro r
    cases r with
    | error db => rfl
    | ok p' => rw [queuesChallenge, queuesChallenge, hsendQ]
  rw [Timed.initiateChallenge, sendChallenge_snd, searchChallenge_fst, searchChallenge_snd h,
    hqueues, Peer.initiateChallenge]

/-! ### The cases of a turn

A turn keeps the timers, cancels the one that is held, or launches one for the challenge that it
queues. A switch that fails is a case of its own: the timer is cancelled, and nothing is said of
the challenge then. -/

/-- What a turn does to the timers; a switch may have failed. -/
inductive Times (E : Env) (due : Option Int) (fails : Prop) (p : Peer) (timers : Alarms)
    (r : Turn) : Alarms → Prop
  | kept (hq : queuesChallenge p r = false)
      (hruns : ∀ p', r = .ok p' → p.challengeRuns = true → p'.challengeRuns = true)
      (hnew : ∀ p', r = .ok p' → p'.challengeRuns = true →
        p.challengeRuns = true ∨ E.failure = some .queue) : Times E due fails p timers r timers
  | ended (hq : queuesChallenge p r = false)
      (hnew : ∀ p', r = .ok p' → p'.challengeRuns = true → E.failure = some .queue) :
      Times E due fails p timers r (stopTimerResponse timers)
  | failed (hq : queuesChallenge p r = false) (hrun : p.challengeRuns = true) (hfails : fails) :
      Times E due fails p timers r (stopTimerResponse timers)
  | launched {p'} (hr : r = .ok p') (hrun : p'.challengeRuns = true)
      (hq : queuesChallenge p r = true) :
      Times E due fails p timers r (launchTimerResponse due timers)

section Times

variable {E : Env} {due : Option Int} {fails : Prop} {p p₁ : Peer} {timers timers' : Alarms}
  {r : Turn} {d : Int}

/-- Nothing is done. -/
theorem Times.same {p' : Peer} (hsendQ : p'.sendQ = p.sendQ)
    (hctxt : p'.challengeCtxt = p.challengeCtxt) : Times E due fails p timers (.ok p') timers := by
  have hruns : p'.challengeRuns = p.challengeRuns := by
    rw [Peer.challengeRuns, hctxt, Peer.challengeRuns]
  refine .kept (queuesChallenge_same hsendQ) ?_ ?_
  · intro p'' h
    cases h
    rw [hruns]
    exact id
  · intro p'' h
    cases h
    rw [hruns]
    exact .inl

theorem Times.sendMessage {p' : Peer} (hsendQ : p'.sendQ = p.sendQ)
    (hctxt : p'.challengeCtxt = p.challengeCtxt) (msg : Message) (login : Option Bytes) :
    Times E due fails p timers (.ok (p'.sendMessage msg login)) timers := by
  have hq : queuesChallenge p (.ok (p'.sendMessage msg login)) = false := by
    have := queuesChallenge_sendMessage p' msg login
    rwa [queuesChallenge, hsendQ] at this
  have hruns : (p'.sendMessage msg login).challengeRuns = p.challengeRuns := by
    rw [Peer.challengeRuns, challengeCtxt_sendMessage, hctxt, Peer.challengeRuns]
  refine .kept hq ?_ ?_
  · intro p'' h
    cases h
    rw [hruns]
    exact id
  · intro p'' h
    cases h
    rw [hruns]
    exact .inl

theorem challengeRuns_of_idle {sIdRemote : Bytes} (h : CtxtIdle sIdRemote p.challengeCtxt) :
    p.challengeRuns = false := by
  rw [Peer.challengeRuns]
  cases hc : p.challengeCtxt with
  | none => rfl
  | some c => exact (h c hc).2

/-- A challenge that did not run does not run afterwards. -/
theorem Times.idle {p' : Peer} (hq : queuesChallenge p (.ok p') = false)
    (hidle : p.challengeRuns = false) (hidle' : p'.challengeRuns = false) :
    Times E due fails p timers (.ok p') timers := by
  refine .kept hq ?_ ?_
  · intro p'' h hrun
    rw [hidle] at hrun
    cases hrun
  · intro p'' h hrun
    cases h
    rw [hidle'] at hrun
    cases hrun

theorem Times.error {db : AuthDbs} : Times E due fails p timers (.error db) timers := by
  refine .kept rfl ?_ ?_
  · intro p' h
    cases h
  · intro p' h
    cases h

theorem Times.silent {p' : Peer} (hq : queuesChallenge p (.ok p') = false)
    (h : Times E due fails p timers (.ok p') timers) :
    Times E due fails p timers (.ok p')
      (bif queuesChallenge p (.ok p') then launchTimerResponse due timers else timers) := by
  rw [hq]
  exact h

/-! ### The search for a challenge, and a message that is processed

The two kinds of turns with timers are sorted into `Times`. A message that answers the challenge
ends it first, and then the next one is looked for: `Times.after` puts the two halves together. -/

theorem Timed.initiated (hctxt : ∀ c, p.challengeCtxt = some c → CtxtOk E.sIdRemote c)
    (h : Watches p timers) :
    Times E due fails p timers (p.initiateChallenge E)
      (Timed.initiateChallenge E due p timers).2 := by
  rw [initiateChallenge_snd h]
  have hi := p.initiateChallenge_cases hctxt
  generalize p.initiateChallenge E = r at hi
  have hquiet : ∀ {p' : Peer}, p'.sendQ = p.sendQ → CtxtIdle E.sIdRemote p.challengeCtxt →
      CtxtIdle E.sIdRemote p'.challengeCtxt → Times E due fails p timers (.ok p')
        (bif queuesChallenge p (.ok p') then launchTimerResponse due timers else timers) :=
    fun hsendQ hidle hidle' => .silent (queuesChallenge_same hsendQ)
      (.idle (queuesChallenge_same hsendQ) (challengeRuns_of_idle hidle)
        (challengeRuns_of_idle hidle'))
  cases hi with
  | running => exact .silent (queuesChallenge_same rfl) (.same rfl rfl)
  | stopped => exact .error
  | memory => exact .error
  | quiet hidle hidle' => exact hquiet rfl hidle hidle'
  | @allClear ctxt hidle hidle' =>
    have hq : queuesChallenge p (.ok ({ p with challengeCtxt := ctxt }.sendAllClear E)) = false :=
      queuesChallenge_sendMessage { p with challengeCtxt := ctxt } _ _
    have hidle'' : CtxtIdle E.sIdRemote
        ({ p with challengeCtxt := ctxt }.sendAllClear E).challengeCtxt := by
      rw [Peer.sendAllClear, challengeCtxt_sendMessage]
      exact hidle'
    exact .silent hq (.idle hq (challengeRuns_of_idle hidle) (challengeRuns_of_idle hidle''))
  | kept hto => exact hquiet rfl hto.idle hto.found
  | recorded hto => exact hquiet rfl hto.idle (hto.recorded _ _)
  | unqueued hE hto =>
    refine .silent (queuesChallenge_same rfl) (.kept (queuesChallenge_same rfl) ?_ ?_)
    · intro p' hp' _
      cases hp'
      rfl
    · exact fun _ _ _ => .inr hE
  | @sent c key it auth pwdB64 hto hit hauth =>
    have hq : queuesChallenge p (.ok { p with
        db := p.db.modifyAuth key fun _ => auth, saved := p.db.modifyAuth key fun _ => auth
        challengeCtxt := some ⟨some key, false, true, some E.uuid, some (E.uuid + 1)⟩
        sendQ := p.sendQ ++ [.challenge (challengeFrame E key auth pwdB64)] }) =
          (QueueMsg.challenge (challengeFrame E key auth pwdB64)).isChallenge :=
      queuesChallenge_append rfl
    rw [QueueMsg.isChallenge] at hq
    rw [hq]
    exact .launched rfl rfl hq

end Times
section Times

variable {E : Env} {due : Option Int} {fails : Prop} {p p₁ : Peer} {timers timers' : Alarms}
  {r : Turn} {d : Int}

/-- The queue and the challenge are those of another peer. -/
theorem Times.moved {fails' : Prop} (hsendQ : p₁.sendQ = p.sendQ)
    (hctxt : p₁.challengeCtxt = p.challengeCtxt) (h : Times E due fails p₁ timers r timers')
    (hfails : fails → fails') : Times E due fails' p timers r timers' := by
  have hqueues : queuesChallenge p₁ r = queuesChallenge p r := by
    cases r with
    | error db => rfl
    | ok p' => rw [queuesChallenge, queuesChallenge, hsendQ]
  have hruns : p₁.challengeRuns = p.challengeRuns := by
    rw [Peer.challengeRuns, hctxt, Peer.challengeRuns]
  cases h with
  | kept hq hkept hnew => exact .kept (hqueues ▸ hq) (hruns ▸ hkept) (hruns ▸ hnew)
  | ended hq hnew => exact .ended (hqueues ▸ hq) hnew
  | failed hq hrun hf => exact .failed (hqueues ▸ hq) (hruns ▸ hrun) (hfails hf)
  | launched hr hrun hq => exact .launched hr hrun (hqueues ▸ hq)

/-- The challenge that ran has ended, with its timer. -/
theorem Times.after (hsendQ : p₁.sendQ = p.sendQ) (hidle : p₁.challengeRuns = false)
    (h : Times E due fails p₁ (stopTimerResponse timers) r timers') :
    Times E due fails p timers r timers' := by
  have hqueues : queuesChallenge p₁ r = queuesChallenge p r := by
    cases r with
    | error db => rfl
    | ok p' => rw [queuesChallenge, queuesChallenge, hsendQ]
  cases h with
  | kept hq _ hnew =>
    refine .ended (hqueues ▸ hq) ?_
    intro p' hr hrun
    refine (hnew p' hr hrun).resolve_left ?_
    rw [hidle]
    exact Bool.false_ne_true
  | ended hq hnew =>
    have hagain : stopTimerResponse (stopTimerResponse timers) = stopTimerResponse timers :=
      timers.cancel_cancel
    rw [hagain]
    exact .ended (hqueues ▸ hq) hnew
  | failed _ hrun =>
    rw [hidle] at hrun
    cases hrun
  | launched hr hrun hq =>
    have hagain : launchTimerResponse due (stopTimerResponse timers) =
        launchTimerResponse due timers := timers.set_cancel due
    rw [hagain]
    exact .launched hr hrun (hqueues ▸ hq)

/-- The timer of a challenge that has ended is stopped before the next one. -/
theorem Timed.ended {c : ChallengeContext} {p' : Peer} (hok : CtxtOk E.sIdRemote c)
    (hsendQ : p'.sendQ = p.sendQ)
    (hctxt : p'.challengeCtxt = some { c with running := false }) :
    Times E due fails p timers (p'.initiateChallenge E)
      (Timed.initiateChallenge E due p' (stopTimerResponse timers)).2 := by
  have hidle : p'.challengeRuns = false := by
    rw [Peer.challengeRuns, hctxt]
    rfl
  refine .after hsendQ hidle (initiated ?_ (.stopped p' timers))
  intro c' hc'
  rw [hctxt] at hc'
  exact (hok.ended c' hc').1

/-- The challenge is answered by the message. -/
def ChallengeContext.answeredBy (c : ChallengeContext) : Message → Bool
  | .changePwdResponse _ oMId status => status && c.mIdChangePwdRequest = some oMId
  | .pong _ oMId _ => c.mIdPing = some oMId
  | _ => false

/-- The challenge that runs is answered by the message, and its entry cannot be switched. -/
def Peer.switchFails (E : Env) (p : Peer) (msg : Message) : Bool :=
  p.challengeCtxt.any fun c => c.running && c.answeredBy msg && c.auth.any fun key =>
    (p.db.authFindByKey key).any fun it => decide (authSwitchToNewPwd E.now it.auth = .err)

theorem Peer.switchFails_of_err {c : ChallengeContext} {key : AuthKey} {msg : Message}
    (hctxt : p.challengeCtxt = some c) (hrun : c.running = true)
    (hmsg : c.answeredBy msg = true) (hauth : c.auth = some key)
    (herr : p.onAuth key (authSwitchToNewPwd E.now) = .err) : p.switchFails E msg = true := by
  have hentry : (p.db.authFindByKey key).any fun it =>
      decide (authSwitchToNewPwd E.now it.auth = .err) := by
    unfold onAuth at herr
    split at herr
    · cases herr
    · next it hit =>
      rw [hit]
      split at herr
      · cases herr
      · next hop => exact decide_eq_true hop
      · cases herr
  rw [switchFails, hctxt, Option.any_some, hrun, hmsg, hauth]
  exact hentry

theorem Timed.succeeded {c : ChallengeContext} {msg : Message} (hctxt : p.challengeCtxt = some c)
    (hok : CtxtOk E.sIdRemote c) (hrun : c.running = true) (hmsg : c.answeredBy msg = true) :
    Times E due (p.switchFails E msg = true) p timers (p.challengeSucceeds E c)
      (Timed.challengeSucceeds E due p timers c).2 := by
  have hstop : ∀ db, Times E due (p.switchFails E msg = true) p timers (.error db)
      (stopTimerResponse timers) := by
    intro db
    refine .ended rfl ?_
    intro p' hp'
    cases hp'
  unfold Peer.challengeSucceeds Timed.challengeSucceeds
  cases hauth : c.auth with
  | none => exact hstop _
  | some key =>
    dsimp only
    cases hswitch : p.onAuth key (authSwitchToNewPwd E.now) with
    | abort => exact hstop _
    | err =>
      refine .failed (queuesChallenge_same rfl) ?_
        (p.switchFails_of_err hctxt hrun hmsg hauth hswitch)
      rw [Peer.challengeRuns, hctxt]
      exact hrun
    | ok p' =>
      obtain ⟨it, auth, -, -, rfl⟩ := Peer.onAuth_ok hswitch
      refine ended hok ?_ ?_
      · rfl
      · rw [hauth]

/-- A message that is processed. -/
theorem Timed.processed (hctxt : ∀ c, p.challengeCtxt = some c → CtxtOk E.sIdRemote c)
    (authFrom : AuthKey) (msg : Message) :
    Times E due (p.switchFails E msg = true) p timers (p.cyberProcessInternalMsg E authFrom msg)
      (Timed.cyberProcessInternalMsg E due p timers authFrom msg).2 := by
  cases msg with
  | allClear mId => exact .same rfl rfl
  -- a request and a ping are answered, and touch no challenge of this side
  | changePwdRequest mId pwd =>
    rw [cyberProcessInternalMsg, Peer.cyberProcessInternalMsg]
    · dsimp only
      split
      · exact .sendMessage rfl rfl _ _
      · split
        · exact .error
        · exact .sendMessage rfl rfl _ _
        · next p' hset =>
          obtain ⟨it, auth, -, -, rfl⟩ := Peer.onAuth_ok hset
          refine .sendMessage ?_ ?_ _ _ <;> rfl
    · intro _ _ _ heq
      cases heq
    · intro _ _ _ heq
      cases heq
  -- an answer to the challenge that runs ends it
  | changePwdResponse mId oMId status =>
    rw [cyberProcessInternalMsg, Peer.cyberProcessInternalMsg]
    cases hc : p.challengeCtxt with
    | none => exact .same rfl rfl
    | some c =>
      dsimp only
      split
      · next hanswer =>
        split
        · next hstatus =>
          subst hstatus
          refine succeeded hc (hctxt c hc) hanswer.1 ?_
          rw [ChallengeContext.answeredBy]
          exact decide_eq_true hanswer.2
        · exact ended (hctxt c hc) rfl rfl
      · exact .same rfl rfl
  | ping mId padding => exact .sendMessage rfl rfl _ _
  | pong mId oMId padding =>
    rw [cyberProcessInternalMsg, Peer.cyberProcessInternalMsg]
    cases hc : p.challengeCtxt with
    | none => exact .same rfl rfl
    | some c =>
      dsimp only
      split
      · next hanswer =>
        exact succeeded hc (hctxt c hc) hanswer.1 (decide_eq_true hanswer.2)
      · exact .same rfl rfl

/-! ### What the cases keep

The lemmas that the runs use. Each says of `Times` one thing that the invariants of
`Cyber/TimerRuns.lean` are made of: who holds a timer, which timers are armed, and when one is
launched. -/

/-- After a turn, the timer that is held is that of the challenge that runs. -/
theorem Times.watches {p' : Peer} (ht : Times E due fails p timers (.ok p') timers')
    (h : Watches p timers) : Watches p' timers' := by
  cases ht with
  | kept _ hruns => exact fun hheld => hruns p' rfl (h hheld)
  | ended => exact .stopped p' timers
  | failed => exact .stopped p' timers
  | launched hr hrun =>
    cases hr
    exact fun _ => hrun

/-- And no other timer is armed than that. -/
theorem Times.within {date : Int} (ht : Times E due fails p timers r timers')
    (h : timers.Within d) (hdue : ∀ x ∈ due, x = date) :
    timers'.Within (if queuesChallenge p r then date else d) := by
  cases ht with
  | kept hq =>
    rw [hq]
    exact h
  | ended => exact (h.cancel _).within
  | failed => exact (h.cancel _).within
  | launched _ _ hq =>
    rw [hq, if_pos rfl]
    cases due with
    | none => exact (h.cancel date).within
    | some x =>
      obtain rfl := hdue x rfl
      exact (h.set x).within

theorem Times.sole {date : Int} (ht : Times E due fails p timers r timers') (h : timers.Sole d)
    (hdue : ∀ x ∈ due, x = date) :
    timers'.Sole (if queuesChallenge p r then date else d) := by
  cases ht with
  | kept hq =>
    rw [hq]
    exact h
  | ended => exact h.within.cancel _
  | failed => exact h.within.cancel _
  | launched _ _ hq =>
    rw [hq, if_pos rfl]
    cases due with
    | none => exact h.within.cancel date
    | some x =>
      obtain rfl := hdue x rfl
      exact h.within.set x

/-- A turn arms a timer only for the challenge that it queues. -/
theorem Times.armed (ht : Times E due fails p timers r timers') (h : timers.Within d) :
    timers'.armed = timers.armed ∨ timers'.armed = [] ∨ queuesChallenge p r = true := by
  cases ht with
  | kept => exact .inl rfl
  | ended => exact .inr (.inl h.armed_cancel)
  | failed => exact .inr (.inl h.armed_cancel)
  | launched _ _ hq => exact .inr (.inr hq)

/-- After a turn of which nothing fails, a challenge that runs has the timer that it had, or a new
one. -/
theorem Times.guards {p' : Peer} (ht : Times E due fails p timers (.ok p') timers')
    (hdue : due.isSome = true) (hE : E.failure ≠ some .queue) (hfails : ¬ fails)
    (hrun : p'.challengeRuns = true) :
    queuesChallenge p (.ok p') = false ∧ p.challengeRuns = true ∧ timers' = timers ∨
      queuesChallenge p (.ok p') = true ∧ timers'.held.isSome = true := by
  cases ht with
  | kept hq _ hnew => exact .inl ⟨hq, (hnew p' rfl hrun).resolve_right hE, rfl⟩
  | ended _ hnew => exact absurd (hnew p' rfl hrun) hE
  | failed _ _ hf => exact absurd hf hfails
  | launched _ _ hq =>
    obtain ⟨x, rfl⟩ := Option.isSome_iff_exists.mp hdue
    exact .inr ⟨hq, rfl⟩

end Times

/-- A message is taken. -/
theorem Timed.received {E : Env} {due : Option Int} {p : Peer} {timers : Alarms}
    (hctxt : ∀ c, p.challengeCtxt = some c → CtxtOk E.sIdRemote c) :
    Times E due (p.internalQ.head?.any (fun e => p.switchFails E e.2) = true) p timers
      (p.cyberReceiveInternal E) (Timed.cyberReceiveInternal E due p timers).2 := by
  unfold Timed.cyberReceiveInternal Peer.cyberReceiveInternal
  cases hq : p.internalQ with
  | nil => exact .same rfl rfl
  | cons e rest =>
    obtain ⟨authFrom, msg⟩ := e
    dsimp only
    split
    · have hp : Times E due (Peer.switchFails E { p with internalQ := rest } msg = true)
          { p with internalQ := rest } timers
          (Peer.cyberProcessInternalMsg E { p with internalQ := rest } authFrom msg)
          (cyberProcessInternalMsg E due { p with internalQ := rest } timers authFrom msg).2 :=
        processed (p := { p with internalQ := rest }) hctxt authFrom msg
      refine hp.moved ?_ ?_ id
      · rfl
      · rfl
    · exact .same rfl rfl

end RsmpGateway.Cyber
