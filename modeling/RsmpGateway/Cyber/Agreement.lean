import RsmpGateway.Cyber.Refinement

/-!
# Agreement on the passwords

Whatever the two peers do and lose, the password under which a peer accepts the messages of a
login is the one that the other side sends them with, or the new one that it keeps pending
(`passwords_agree`).

The steps of the network are those of two processes: each takes turns of its two tasks in any
order, frames are lost with the connection, a process stops and starts again from its file. The
proof is the refinement of `Cyber/Refinement.lean` put together: every step is a number of steps
of the rotation, in either direction (`rotation_steps`), and the agreement of a rotation is kept
by any number of steps (`Agrees.runs`).
-/

namespace RsmpGateway.Cyber

open RsmpGateway.Lib RsmpGateway.Auth RsmpGateway.Coder Rotation

variable {C : Site} {n n' : Net}

/-! ## Peers stay in order

What each peer keeps for itself, step by step. The refinement needs it of both sides. -/

theorem PeerOk.processed {s : Side} {uuid : Nat} {E : Env} {p p' : Peer} (hp : PeerOk C s p)
    (hE : EnvOk C s uuid E) {e : AuthKey × Message} {rest : List (AuthKey × Message)}
    (hq : p.internalQ = e :: rest)
    (h : Processed E { p with internalQ := rest } e.1 e.2 (.ok p')) : PeerOk C s p' := by
  have hrest : PeerOk C s { p with internalQ := rest } :=
    { hp with read := fun e he => hp.read e (by rw [hq]; exact List.mem_cons_of_mem _ he) }
  obtain ⟨authFrom, msg⟩ := e
  cases h with
  | ignored => exact hrest
  | allClear => exact { hrest with }
  | refused => exact hrest.sendMessage (.changePwdResponse ..) (fun _ _ => rfl) none
  | accepted =>
    apply PeerOk.sendMessage
    · exact { hrest with saved := rfl }
    · exact fun _ _ => rfl
  | ping => exact hrest.sendMessage (.pong ..) (fun _ _ => rfl) none
  | busy hctxt _ _ hi => exact (hp.ended hp.saved hq hctxt).initiated hE hi
  | succeeded hctxt _ _ _ _ _ hi => exact (hp.ended rfl hq hctxt).initiated hE hi

theorem PeerOk.receives {s : Side} {p : Peer} (hp : PeerOk C s p) (valid : Message → Bool)
    {f : Frame} (hf : f.sId = C.sId s.remote) :
    PeerOk C s (p.cyberReceive (C.derived s) valid f) where
  saved := hp.saved
  ctxt := hp.ctxt
  queued := hp.queued
  frames := hp.frames
  read := by
    intro e he
    rcases List.mem_append.mp he with he | he
    · exact hp.read e he
    · unfold encryptedDecode at he
      split at he
      · cases he
      · next hget =>
        obtain ⟨it, -, -, hr⟩ := coderAuthGet_decrypt hget
        obtain ⟨x, -, rfl⟩ := List.mem_map.mp he
        cases hr
        rw [hf]

theorem PeerOk.sends {s : Side} {E : Env} {p : Peer} {r : Peer × Option Frame}
    (hp : PeerOk C s p) (hE : E.sIdLocal = C.sId s) (hr : Sent E p r) :
    PeerOk C s r.1 ∧ ∀ f, r.2 = some f → f.sId = C.sId s := by
  have hrest : ∀ {m rest}, p.sendQ = m :: rest → PeerOk C s { p with sendQ := rest } := by
    intro m rest hq
    exact { hp with
      queued := fun msg login h => hp.queued msg login (by rw [hq]; exact List.mem_cons_of_mem _ h)
      frames := fun f h => hp.frames f (by rw [hq]; exact List.mem_cons_of_mem _ h) }
  cases hr with
  | nothing => exact ⟨hp, fun _ h => nomatch h⟩
  | @challenge f rest hq =>
    refine ⟨hrest hq, ?_⟩
    rintro _ ⟨⟩
    exact hp.frames f (by rw [hq]; exact List.mem_cons_self)
  | lost hq => exact ⟨hrest hq, fun _ h => nomatch h⟩
  | message hq hf =>
    refine ⟨hrest hq, ?_⟩
    obtain ⟨key, auth, -, rfl⟩ := encryptedEncode_eq_some hf
    rintro _ ⟨⟩
    exact hE

/-! ### Both sides

What is asked of the two sides is the same, and a step changes one of them, its queues and the
path that it writes to or reads from. -/

theorem NetOk.setPeer (hn : NetOk C n) {s : Side} {p : Peer} (hp : PeerOk C s p) :
    NetOk C (n.setPeer s p) where
  peer := by
    intro t
    by_cases h : t = s
    · subst h
      simpa [Net.setPeer] using hp
    · simpa [Net.setPeer, h] using hn.peer t
  chan := hn.chan

theorem NetOk.setChan (hn : NetOk C n) {s : Side} {fs : List Frame}
    (hfs : ∀ f ∈ fs, f.sId = C.sId s) :
    NetOk C { n with chan := Function.update n.chan s fs } where
  peer := hn.peer
  chan := by
    intro t
    by_cases h : t = s
    · subst h
      simpa using hfs
    · simpa [h] using hn.chan t

theorem NetOk.leave (hn : NetOk C n) {s : Side} {p : Peer} (hp : PeerOk C s p) :
    NetOk C (n.leave s p) :=
  (hn.setPeer hp).setChan fun _ h => nomatch h

theorem NetOk.uuid (hn : NetOk C n) (uuid : Nat) : NetOk C { n with uuid } where
  peer := hn.peer
  chan := hn.chan

theorem NetOk.turn (hn : NetOk C n) {s : Side} {r : Turn}
    (hr : ∀ p, r = .ok p → PeerOk C s p) : NetOk C (n.turn s r) := by
  cases r with
  | ok p => exact (hn.setPeer (hr p rfl)).uuid _
  | error file => exact (hn.leave (PeerOk.ofRestart s file)).uuid _

theorem envOk (C : Site) (n : Net) (s : Side) (i : Input) :
    EnvOk C s n.uuid (n.env C s i) := by
  refine ⟨rfl, rfl, rfl, ?_⟩
  intro f hf
  simpa using (Option.filter_eq_some_iff.mp hf).2

/-- Every step keeps the peers in order. -/
theorem NetOk.step {op : NetOp} (hn : NetOk C n) (h : applyNetOp C n op = some n') :
    NetOk C n' := by
  cases op with
  | process s i =>
    rw [applyNetOp, applyNetOpWith] at h
    split at h
    · cases h
      apply hn.turn
      intro p hp
      have hE := envOk C n s i
      rcases Peer.cyberReceiveInternal_cases (E := n.env C s i) (hn.peer s).ctxt with
        ⟨-, hsame⟩ | ⟨e, rest, hq, hcases⟩
      · rw [hp] at hsame
        cases hsame
        exact hn.peer s
      · rw [hp] at hcases
        exact (hn.peer s).processed hE hq hcases
    · cases h
  | initiate s i =>
    rw [applyNetOp, applyNetOpWith] at h
    split at h
    · cases h
      apply hn.turn
      intro p hp
      have hcases := Peer.initiateChallenge_cases (E := n.env C s i) (hn.peer s).ctxt
      rw [hp] at hcases
      exact (hn.peer s).initiated (envOk C n s i) hcases
    · cases h
  | send s i =>
    rw [applyNetOp, applyNetOpWith] at h
    split at h
    · cases h
      obtain ⟨hp, hf⟩ := (hn.peer s).sends rfl ((n.peer s).cyberSend_cases (n.env C s i))
      apply (hn.setPeer hp).setChan
      intro f hmem
      rcases List.mem_append.mp hmem with hmem | hmem
      · exact hn.chan s f hmem
      · exact hf f (by simpa using hmem)
    · cases h
  | receive s valid =>
    rw [applyNetOp, applyNetOpWith] at h
    split at h
    · next f rest _ hchan =>
      cases h
      -- the frames of the remote bear its name, the one that is read and the others
      have hmem : ∀ g ∈ f :: rest, g.sId = C.sId s.remote := by
        rw [← hchan]
        exact hn.chan s.remote
      apply (hn.setPeer ((hn.peer s).receives valid (hmem f List.mem_cons_self))).setChan
      exact fun g hg => hmem g (List.mem_cons_of_mem _ hg)
    · cases h
  | stop s =>
    cases h
    exact hn.leave (PeerOk.ofStop (hn.peer s).saved)
  | restart s =>
    cases h
    exact hn.leave (PeerOk.ofRestart s _)
  | connect =>
    rw [applyNetOp, applyNetOpWith] at h
    split at h
    · cases h
    · cases h
      exact ⟨fun s => PeerOk.ofStart (hn.peer s).saved, fun _ _ h => nomatch h⟩

/-! ## Every step is a number of steps of the rotations

A turn of the owner is seen by its rotation through what it queues, reads and records; a turn of
the holder through what it reads and answers. A new connection is a departure of the owner and
its return. -/

/-! ### A side in two rotations

Each side owns the rotation for what it sends and holds the other one. A turn is thus looked at
twice, from the two sides of `Cyber/Refinement.lean`. -/

theorem rotation_remote (n : Net) (s : Side) :
    n.rotation C s.remote = rotationOf C s.remote (n.peer s.remote) (n.peer s) (n.chan s.remote)
      (n.chan s) n.uuid := by
  simp only [Net.rotation, Side.remote_remote]

theorem rotation_turn_owner (s : Side) (r : Turn) :
    (n.turn s r).rotation C s =
      ownerTurn C s (n.peer s.remote) (n.chan s) (n.chan s.remote) (n.uuid + 2) r := by
  cases r <;> simp [Net.turn, Net.rotation, Net.setPeer, Net.leave, ownerTurn]

theorem rotation_turn_holder (s : Side) (r : Turn) :
    (n.turn s r).rotation C s.remote =
      holderTurn C s.remote (n.peer s.remote) (n.chan s.remote) (n.chan s) (n.uuid + 2) r := by
  cases r <;> simp [Net.turn, Net.rotation, Net.setPeer, Net.leave, holderTurn]

/-- A side does nothing but draw identifiers. -/
theorem rotation_steps_same (n : Net) (s t : Side) :
    Steps (n.rotation C t) ((n.turn s (.ok (n.peer s))).rotation C t) := by
  have hpeer : Function.update n.peer s (n.peer s) = n.peer := Function.update_eq_self s n.peer
  have hu : n.uuid ≤ n.uuid + 2 := by omega
  simp only [Net.turn, Net.setPeer, hpeer]
  exact rotation_loss (.of_eq rfl) (.of_eq rfl) rfl rfl (List.Sublist.refl _)
    (List.Subset.refl _) hu

/-- **Refinement.** A step of two peers that stay connected, or leave, is a number of steps
of the rotation of the passwords of either side. -/
theorem rotation_steps {op : NetOp} (hn : NetOk C n) (h : applyNetOp C n op = some n')
    (hop : op ≠ .connect) (t : Side) : Steps (n.rotation C t) (n'.rotation C t) := by
  cases op with
  | process s i =>
    rw [applyNetOp, applyNetOpWith] at h
    split at h
    · cases h
      rcases Peer.cyberReceiveInternal_cases (E := n.env C s i) (hn.peer s).ctxt with
        ⟨-, hsame⟩ | ⟨e, rest, hq, hcases⟩
      · rw [hsame]
        exact rotation_steps_same n s t
      · rcases Side.eq_or_eq_remote s t with rfl | rfl
        · -- the side that takes the turn is the owner of one rotation
          rw [rotation_turn_owner]
          exact owner_processes (envOk C n t i) (hn.peer t) hq hcases
        · -- and the holder of the other
          have hs : PeerOk C s.remote.remote (n.peer s) := by
            rw [Side.remote_remote]
            exact hn.peer s
          rw [rotation_remote, rotation_turn_holder]
          have hE : EnvOk C s.remote.remote n.uuid (n.env C s i) := by
            rw [Side.remote_remote]
            exact envOk C n s i
          exact holder_processes hE hs hq hcases
    · cases h
  | initiate s i =>
    rw [applyNetOp, applyNetOpWith] at h
    split at h
    · cases h
      have hcases := Peer.initiateChallenge_cases (E := n.env C s i) (hn.peer s).ctxt
      rcases Side.eq_or_eq_remote s t with rfl | rfl
      · rw [rotation_turn_owner]
        exact owner_initiates (envOk C n t i) (hn.peer t) hcases
      · rw [rotation_remote, rotation_turn_holder]
        have hE : EnvOk C s.remote.remote n.uuid (n.env C s i) := by
          rw [Side.remote_remote]
          exact envOk C n s i
        exact holder_initiates hE (hn.peer s).saved hcases
    · cases h
  | send s i =>
    rw [applyNetOp, applyNetOpWith] at h
    split at h
    · cases h
      have hcases := (n.peer s).cyberSend_cases (n.env C s i)
      rcases Side.eq_or_eq_remote s t with rfl | rfl
      · simpa [Net.rotation, Net.setPeer] using
          owner_sends (hn.peer t) hcases (Nat.le_refl n.uuid)
      · simpa [Net.rotation, Net.setPeer] using
          holder_sends (C := C) (s := s.remote) (o := n.peer s.remote) hcases (Nat.le_refl n.uuid)
    · cases h
  | receive s valid =>
    rw [applyNetOp, applyNetOpWith] at h
    split at h
    · next f rest _ hchan =>
      cases h
      -- the frame names its sender, as every frame of the network does
      have hf : f.sId = C.sId s.remote :=
        hn.chan s.remote f (by rw [hchan]; exact List.mem_cons_self)
      rcases Side.eq_or_eq_remote s t with rfl | rfl
      · simpa [Net.rotation, Net.setPeer, hchan] using
          owner_receives (C := C) (s := t) (o := n.peer t) valid f (Nat.le_refl n.uuid)
      · simp only [Net.rotation, Net.setPeer, hchan, Side.remote_remote, Function.update_self,
          ne_eq, Side.remote_ne, Side.ne_remote, not_false_eq_true, Function.update_of_ne]
        have := @holder_receives C s.remote (n.peer s.remote) (n.peer s) rest (n.chan s)
          n.uuid valid f hf n.uuid (Nat.le_refl _)
        rwa [Side.remote_remote] at this
    · cases h
  | stop s =>
    cases h
    rcases Side.eq_or_eq_remote s t with rfl | rfl
    · simp only [Net.rotation, Net.setPeer, Net.leave, Function.update_self, ne_eq,
        Side.remote_ne, Side.ne_remote, not_false_eq_true, Function.update_of_ne]
      exact owner_leaves rfl rfl rfl rfl rfl (Nat.le_refl _)
    · simp only [Net.rotation, Net.setPeer, Net.leave, Side.remote_remote, Function.update_self,
        ne_eq, Side.remote_ne, Side.ne_remote, not_false_eq_true, Function.update_of_ne]
      apply holder_leaves
      · rfl
      · rfl
      · rfl
      · exact Nat.le_refl _
  | restart s =>
    cases h
    have hsaved := (hn.peer s).saved
    rcases Side.eq_or_eq_remote s t with rfl | rfl
    · simp only [Net.rotation, Net.setPeer, Net.leave, Function.update_self, ne_eq,
        Side.remote_ne, Side.ne_remote, not_false_eq_true, Function.update_of_ne]
      exact owner_leaves hsaved rfl rfl rfl rfl (Nat.le_refl _)
    · simp only [Net.rotation, Net.setPeer, Net.leave, Side.remote_remote, Function.update_self,
        ne_eq, Side.remote_ne, Side.ne_remote, not_false_eq_true, Function.update_of_ne]
      apply holder_leaves
      · exact hsaved
      · rfl
      · rfl
      · exact Nat.le_refl _
  | connect => exact absurd rfl hop

/-- A new connection starts with nothing on its way. -/
theorem rotation_connect (h : applyNetOp C n .connect = some n') (t : Side) :
    n'.rotation C t = (n.rotation C t).again := by
  rw [applyNetOp, applyNetOpWith] at h
  split at h
  · cases h
  · cases h
    rfl

theorem rotation_runs {op : NetOp} (hn : NetOk C n) (h : applyNetOp C n op = some n')
    (t : Side) : Runs (n.rotation C t) (n'.rotation C t) := by
  by_cases hop : op = .connect
  · subst hop
    exact .single (.inr (rotation_connect h t))
  · exact Steps.runs (rotation_steps hn h hop t)

/-! ## Runs

The state of a run is related to its start by a run of the rotation, and what is kept there is read
back. -/

/-- What every reachable state keeps. -/
structure Inv (C : Site) (n₀ n : Net) : Prop where
  ok : NetOk C n
  runs : ∀ s, Runs (n₀.rotation C s) (n.rotation C s)

theorem Net.Idle.inv {n₀ : Net} (h : n₀.Idle) : Inv C n₀ n₀ where
  ok := {
    peer := by
      intro s
      rw [← h.stopped s]
      exact PeerOk.ofStop (h.saved s)
    chan := by
      intro s f hf
      rw [h.chan s] at hf
      cases hf }
  runs _ := .refl

theorem Inv.step {n₀ : Net} {op : NetOp} (hn : Inv C n₀ n) (h : applyNetOp C n op = some n') :
    Inv C n₀ n' where
  ok := hn.ok.step h
  runs s := (hn.runs s).trans (rotation_runs hn.ok h s)

theorem Net.Idle.reachable {n₀ : Net} (h₀ : n₀.Idle)
    (h : (exchangeSystem C n₀).Reachable n) : Inv C n₀ n := by
  apply h.invariant
  · rintro _ rfl
    exact h₀.inv
  · intro n op n' hn hstep
    exact hn.step hstep

/-- Two processes that are not connected have no message on its way. -/
theorem Net.Idle.sound {n₀ : Net} (h : n₀.Idle) (s : Side) : Sound (n₀.rotation C s) := by
  have hsend : ∀ t, (n₀.peer t).sendQ = [] := fun t => by rw [← h.stopped t]; rfl
  have hinternal : ∀ t, (n₀.peer t).internalQ = [] := fun t => by rw [← h.stopped t]; rfl
  have hctxt : (n₀.peer s).challengeCtxt = none := by rw [← h.stopped s]; rfl
  have hrequests : (n₀.rotation C s).requests = [] := by
    simp [Net.rotation, rotationOf, requestsOf, hsend, hinternal, h.chan]
  have hanswers : (n₀.rotation C s).answers = [] := by
    simp [Net.rotation, rotationOf, answersOf, hsend, hinternal, h.chan]
  have hrunning : (n₀.rotation C s).running = none := by
    simp [Net.rotation, rotationOf, runningRound, hctxt]
  constructor
  · rw [hrequests, hanswers]
    exact Rounds.nil _
  · intro id l p hmem
    rw [hrequests] at hmem
    cases hmem
  · intro l c c' hrun
    rw [hrunning] at hrun
    cases hrun

/-! ### Passwords of entries

The rotation speaks of secrets by login. They are the passwords of the two entries, as the stores
of the two sides have them. -/

/-- The entry of a side for sending to the other under a login. -/
def Net.toEntry (C : Site) (n : Net) (s : Side) (login : Bytes) : Option AuthEntry :=
  ((n.peer s).db.authFindByKey ⟨authToDbId, login, C.sId s.remote⟩).map AuthItem.auth

/-- The entry of the other side for what `s` sends under a login. -/
def Net.fromEntry (C : Site) (n : Net) (s : Side) (login : Bytes) : Option AuthEntry :=
  ((n.peer s.remote).db.authFindByKey ⟨authFromDbId, login, C.sId s⟩).map AuthItem.auth

/-- The password of the other side for a login is the current one of `s` or, while its
entry is pending, the new one. -/
def Net.PasswordsAgree (C : Site) (n : Net) (s : Side) (login : Bytes) : Prop :=
  ∃ tx rx, n.toEntry C s login = some tx ∧ n.fromEntry C s login = some rx ∧
    (rx.pwd = tx.pwd ∨ tx.newPwdPending = true ∧ rx.pwd = tx.newPwd)

theorem rotation_current (s : Side) (login : Bytes) :
    (n.rotation C s).current login = (n.toEntry C s login).bind currentPwd := by
  show perLogin _ _ _ _ _ = _
  rw [perLogin, Net.toEntry, Option.bind_map]
  rfl

theorem rotation_pending (s : Side) (login : Bytes) :
    (n.rotation C s).pending login = (n.toEntry C s login).bind pendingPwd := by
  show perLogin _ _ _ _ _ = _
  rw [perLogin, Net.toEntry, Option.bind_map]
  rfl

theorem rotation_held (s : Side) (login : Bytes) :
    (n.rotation C s).held login = (n.fromEntry C s login).bind currentPwd := by
  show perLogin _ _ _ _ _ = _
  rw [perLogin, Net.fromEntry, Option.bind_map]
  rfl

/-- **Agreement of the passwords.** When the passwords of a login are equal at the start,
then in every state that two peers reach, in whatever order they send, receive, lose,
stop, restart and connect again, the other side has the current password of the login or
the new one recorded as pending. -/
theorem passwords_agree {n₀ : Net} (h₀ : n₀.Idle) {s : Side} {login : Bytes}
    {tx rx : AuthEntry} (htx : n₀.toEntry C s login = some tx)
    (hrx : n₀.fromEntry C s login = some rx) (heq : rx.pwd = tx.pwd)
    (h : (exchangeSystem C n₀).Reachable n) : n.PasswordsAgree C s login := by
  have hruns := (h₀.reachable h).runs s
  have hagree : Agrees (n₀.rotation C s) login := by
    intro p hp
    rw [rotation_held, hrx] at hp
    cases hp
    rw [rotation_current, htx, heq]
    exact .inl rfl
  -- both entries are still there
  obtain ⟨hcurrent, hheld⟩ := Runs.isSome hruns login
  rw [rotation_current, rotation_current, htx] at hcurrent
  rw [rotation_held, rotation_held, hrx] at hheld
  cases htx' : n.toEntry C s login with
  | none =>
    rw [htx'] at hcurrent
    cases hcurrent rfl
  | some tx' =>
    cases hrx' : n.fromEntry C s login with
    | none =>
      rw [hrx'] at hheld
      cases hheld rfl
    | some rx' =>
      refine ⟨tx', rx', htx', hrx', ?_⟩
      have := hagree.runs (h₀.sound s) hruns rx'.pwd (by rw [rotation_held, hrx']; rfl)
      rw [rotation_current, rotation_pending, htx'] at this
      rcases this with hcur | hpend
      · exact .inl (Option.some.inj hcur).symm
      · rw [Option.bind_some, pendingPwd] at hpend
        split at hpend
        · next hpending =>
          exact .inr ⟨hpending, (Option.some.inj hpend).symm⟩
        · cases hpend

/-! ### A run that loses a response

`B` has the new password of `A` and has said so, and `A` restarts before it hears of it. The two
passwords differ, and the pending one of `A` is the one that `B` has. -/

/-- Steps one after the other. -/
def runNet (C : Site) (n : Net) (ops : List NetOp) : Option Net := ops.foldlM (applyNetOp C) n

theorem reachable_runNet {n₀ : Net} {ops : List NetOp} (hn : (exchangeSystem C n₀).Reachable n)
    (h : runNet C n ops = some n') : (exchangeSystem C n₀).Reachable n' :=
  hn.foldlM (fun _ _ _ hop => hop) h

/-- Two sides named `A` and `B`, and dates counted in seconds. -/
def twoSites : Site where
  sId s := match s with
    | .a => ascii "A"
    | .b => ascii "B"
  diffHorodateSec now ts := now.sec - ts.sec

/-- A store with the logins given, all under one password. -/
def loginsStore (sIdRemote : Bytes) (logins : List (Bytes × Bytes)) : AuthDbs :=
  logins.foldl (fun db (dbId, login) =>
    db.authNew ⟨0, 0⟩ ⟨dbId, login, sIdRemote⟩ (ascii "password") none true [] false) .empty

/-- Two sides where `A` has the logins given, and `B` one login. -/
def idleNet (loginsA : List Bytes) : Net where
  peer s := match s with
    | .a => .restart (loginsStore (ascii "B")
        (loginsA.map (authToDbId, ·) ++ [(authFromDbId, ascii "log-b")]))
    | .b => .restart (loginsStore (ascii "A")
        ((authToDbId, ascii "log-b") :: loginsA.map (authFromDbId, ·)))
  chan _ := []
  uuid := 0

theorem idleNet_idle (loginsA : List Bytes) : (idleNet loginsA).Idle where
  saved s := by cases s <;> rfl
  stopped s := by cases s <;> rfl
  chan _ := rfl

/-- A date at which every password is to be renewed. -/
def renewInput : Input := ⟨⟨1000, 0⟩, id, ascii "pad", true, none⟩

/-- `B` takes the new password of `A`, and `A` restarts before it knows. -/
def lostResponse : Option Net :=
  runNet twoSites (idleNet [ascii "log-a"])
    [.connect, .initiate .a renewInput, .send .a renewInput, .receive .b fun _ => true,
      .process .b renewInput, .restart .a]

theorem passwords_agree_lost_response :
    ∃ n, lostResponse = some n ∧ n.PasswordsAgree twoSites .a (ascii "log-a") := by
  obtain ⟨n, hn⟩ : ∃ n, lostResponse = some n :=
    Option.isSome_iff_exists.mp (by decide)
  refine ⟨n, hn, ?_⟩
  exact passwords_agree (idleNet_idle _) (s := .a) rfl rfl rfl
    (reachable_runNet (.init rfl) hn)

end RsmpGateway.Cyber
