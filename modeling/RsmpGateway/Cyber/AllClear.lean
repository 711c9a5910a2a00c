import RsmpGateway.Cyber.Agreement
import RsmpGateway.Cyber.Session

/-!
# AllClear

A side says `AllClear` once, when it has no password to renew (`allClear_once`). The event that
both sides have said it is raised by the second of the two; an `AllClear` received once more
raises it again (`exchanged_once`, `exchanged_repeated`).

The runs are those of `Cyber/Session.lean`: one side, against anyone. The invariant counts what
was queued, and is tied to the two flags of the connection, which are only ever set.
-/

namespace RsmpGateway.Cyber

open RsmpGateway.Lib RsmpGateway.Auth RsmpGateway.Coder

variable {L : Link} {p₀ : Peer} {uuid : Nat}

/-- `AllClear` was queued when the flag is set, and then once. -/
def Session.SaidOnce (n : Session) : Prop :=
  n.pushed.countP QueueMsg.isAllClear = n.peer.allClearSent.toNat

theorem Announces.saidOnce {E : Env} {n : Session} {p p' : Peer} {q : List QueueMsg}
    (h : Announces E p p' q) (hp : p.allClearSent = n.peer.allClearSent) (hn : n.SaidOnce) :
    (n.pushed ++ q).countP QueueMsg.isAllClear = p'.allClearSent.toNat := by
  rw [List.countP_append, ← h.sent, hp, hn]

theorem Session.SaidOnce.step {n n' : Session} {op : SessionOp} (hn : n.SaidOnce)
    (hs : SessionStep L n op n') : n'.SaidOnce := by
  cases hs with
  | processed _ _ ha => exact ha.saidOnce rfl hn
  | initiated _ ha => exact ha.saidOnce rfl hn
  | sent hs => cases hs <;> exact hn
  | receive => exact hn
  | waited => exact hn
  | late => exact hn
  | ended => exact hn
  | store => exact hn

/-- No password for the remote is to be renewed, and no challenge is to be sent or runs. -/
structure Session.Clear (L : Link) (now : HoroDate) (n : Session) : Prop where
  pending : ∀ it ∈ n.peer.db.logins authToDbId L.sIdRemote, it.auth.newPwdPending = false
  recent : ∀ it ∈ n.peer.db.logins authToDbId L.sIdRemote,
    L.diffHorodateSec now it.auth.timestamp ≤ Peer.triggerPeriodSec
  idle : n.peer.challengeBusy = false

theorem challengeDue_eq_false {E : Env} {auth : AuthEntry}
    (h : Peer.challengeDue E auth = false) :
    auth.newPwdPending = false ∧
      E.diffHorodateSec E.now auth.timestamp ≤ Peer.triggerPeriodSec := by
  rw [Peer.challengeDue, Bool.or_eq_false_iff, Bool.and_eq_false_iff] at h
  obtain ⟨hpending, hold⟩ := h
  refine ⟨hpending, ?_⟩
  rcases hold with hold | hold
  · exact absurd hold (by decide)
  · simpa using hold

theorem Announces.clear_of_pushed {n : Session} {i : Input} {p p' : Peer} {q : List QueueMsg}
    {taken : List Message} (h : Announces (n.env L i) p p' q)
    (hq : 0 < q.countP QueueMsg.isAllClear) :
    Session.Clear L i.now ⟨p', n.uuid + 2, n.pushed ++ q, taken⟩ := by
  obtain ⟨hidle, hdue⟩ := h.clear hq
  exact ⟨fun it hit => (challengeDue_eq_false (hdue it hit)).1,
    fun it hit => (challengeDue_eq_false (hdue it hit)).2, hidle⟩

/-- The date of a step. -/
def SessionOp.now? : SessionOp → Option HoroDate
  | .process i => some i.now
  | .initiate i => some i.now
  | _ => none

/-- **AllClear.** A connection queues `AllClear` at most once, and when it does, no login of
the remote is pending or old and no challenge is to be sent or runs. -/
theorem allClear_once {n : Session} (h : (sessionSystem L p₀ uuid).Reachable n) :
    n.pushed.countP QueueMsg.isAllClear ≤ 1 ∧
      ∀ op n', n.apply L op = some n' →
        n.pushed.countP QueueMsg.isAllClear < n'.pushed.countP QueueMsg.isAllClear →
        ∃ now, op.now? = some now ∧ n'.Clear L now := by
  have hstart : Session.SaidOnce ⟨p₀.start, uuid, [], []⟩ := rfl
  obtain ⟨hok, hsaid⟩ := session_invariant hstart
    (fun n op n' _ hn _ _ hs => hn.step hs) (h.to_restrict fun _ _ => trivial)
  refine ⟨?_, ?_⟩
  · rw [hsaid]
    exact Bool.toNat_le _
  · intro op n' happly hmore
    obtain ⟨-, hs⟩ := Session.apply_cases hok.ctxt happly
    have hpushed : ∀ {q : List QueueMsg}, n.pushed.countP QueueMsg.isAllClear <
        (n.pushed ++ q).countP QueueMsg.isAllClear → 0 < q.countP QueueMsg.isAllClear := by
      intro q h
      rw [List.countP_append] at h
      omega
    cases hs with
    | processed hq hp ha => exact ⟨_, rfl, ha.clear_of_pushed (hpushed hmore)⟩
    | initiated hi ha => exact ⟨_, rfl, ha.clear_of_pushed (hpushed hmore)⟩
    | receive => exact absurd hmore (Nat.lt_irrefl _)
    | waited => exact absurd hmore (Nat.lt_irrefl _)
    | sent => exact absurd hmore (Nat.lt_irrefl _)
    | late => exact absurd hmore (Nat.lt_irrefl _)
    | ended => exact absurd hmore (Nat.lt_irrefl _)
    | store => exact absurd hmore (Nat.lt_irrefl _)

/-! ## The exchange

The event is raised when the second of the two is seen. A remote that says `AllClear` twice makes
the side raise it again; the runs in which it does not are those of the condition. -/

def Message.isAllClear : Message → Bool
  | .allClear _ => true
  | _ => false

/-- The step processes no `AllClear` after both were sent and received. -/
def notRepeated (n : Session) : SessionOp → Bool
  | .process _ => !(n.peer.bothClear && n.peer.internalQ.head?.any fun e => e.2.isAllClear)
  | _ => true

/-- What the flags and the events say. -/
structure Session.Exchanges (n : Session) : Prop where
  said : n.SaidOnce
  heard : n.peer.allClearRxed = true → ∃ mId, .allClear mId ∈ n.taken
  raised : n.peer.exchanged = n.peer.bothClear.toNat

theorem Raises.exchanged {p p' : Peer} (h : Raises p p') (hp : p.exchanged = p.bothClear.toNat) :
    p'.exchanged = p'.bothClear.toNat := by
  rw [Raises] at h
  omega

theorem Session.Exchanges.step {n n' : Session} {op : SessionOp} (hn : n.Exchanges)
    (hop : notRepeated n op = true) (hs : SessionStep L n op n') : n'.Exchanges := by
  have hsaid := hn.said.step hs
  cases hs with
  | @processed i e rest p q hq hp ha =>
    refine ⟨hsaid, ?_, ?_⟩
    · intro hrx
      rcases hp.keeps.2.2 hrx with hrx | ⟨mId, hmsg⟩
      · obtain ⟨mId, hmem⟩ := hn.heard hrx
        exact ⟨mId, List.mem_append_left _ hmem⟩
      · exact ⟨mId, List.mem_append_right _ (by simp [hmsg])⟩
    · refine (hp.raises ?_).exchanged hn.raised
      rintro mId hmsg
      have hhead : (n.peer.internalQ.head?.any fun e => e.2.isAllClear) = true := by
        rw [hq, List.head?_cons, Option.any_some, hmsg]
        rfl
      rw [notRepeated, hhead, Bool.and_true] at hop
      have hboth : n.peer.bothClear = false := by simpa using hop
      exact hboth
  | initiated hi ha =>
    refine ⟨hsaid, ?_, hi.raises.exchanged hn.raised⟩
    intro hrx
    apply hn.heard
    rw [← hi.keeps.2.1]
    exact hrx
  | sent hs => cases hs <;> exact ⟨hsaid, hn.heard, hn.raised⟩
  | receive => exact ⟨hsaid, hn.heard, hn.raised⟩
  | waited => exact ⟨hsaid, hn.heard, hn.raised⟩
  | late => exact hn
  | ended _ htaken =>
    obtain ⟨ms, rfl⟩ := htaken
    refine ⟨hsaid, ?_, hn.raised⟩
    intro hrx
    obtain ⟨mId, hmem⟩ := hn.heard hrx
    exact ⟨mId, List.mem_append_left _ hmem⟩
  | store => exact ⟨hsaid, hn.heard, hn.raised⟩

/-- **The exchange.** Where no `AllClear` comes after both, the event is raised at most once,
and in a state where `AllClear` was queued and one was taken. -/
theorem exchanged_once {n : Session}
    (h : ((sessionSystem L p₀ uuid).restrict fun n op => notRepeated n op = true).Reachable n) :
    n.peer.exchanged ≤ 1 ∧
      (0 < n.peer.exchanged →
        n.peer.allClearSent = true ∧ n.pushed.countP QueueMsg.isAllClear = 1 ∧
        n.peer.allClearRxed = true ∧ ∃ mId, .allClear mId ∈ n.taken) := by
  have h0 : Session.Exchanges ⟨p₀.start, uuid, [], []⟩ := ⟨rfl, nofun, rfl⟩
  obtain ⟨-, hn⟩ := session_invariant h0 (fun _ _ _ _ hn _ hop hs => hn.step hop hs) h
  rw [hn.raised]
  refine ⟨Bool.toNat_le _, ?_⟩
  intro hboth
  have hboth : n.peer.bothClear = true := by
    cases hb : n.peer.bothClear with
    | true => rfl
    | false =>
      rw [hb] at hboth
      cases hboth
  obtain ⟨hsent, hrx⟩ := Bool.and_eq_true_iff.mp hboth
  refine ⟨hsent, ?_, hrx, hn.heard hrx⟩
  rw [hn.said, hsent]
  rfl

/-! ### Runs of a side

A connection on which nothing has to be renewed, from its start until both have said so. -/

/-- A step, where it is admitted. -/
def Session.stepIf (L : Link) (ok : Session → SessionOp → Bool) (n : Session) (op : SessionOp) :
    Option Session :=
  if ok n op then n.apply L op else none

theorem reachable_stepIf {ok : Session → SessionOp → Bool} {ops : List SessionOp} {n : Session}
    (h : ops.foldlM (Session.stepIf L ok) ⟨p₀.start, uuid, [], []⟩ = some n) :
    ((sessionSystem L p₀ uuid).restrict fun n op => ok n op = true).Reachable n := by
  refine System.Reachable.foldlM ?_ (.init rfl) h
  intro s op s' hstep
  rw [Session.stepIf] at hstep
  split at hstep
  · next hok => exact ⟨hstep, hok⟩
  · cases hstep

/-- A side `A` with a remote `B`. -/
def linkAB : Link := ⟨ascii "A", ascii "B", fun now ts => now.sec - ts.sec⟩

/-- `A`, with one login each way. -/
def peerA : Peer :=
  .restart (loginsStore (ascii "B") [(authToDbId, ascii "log-a"), (authFromDbId, ascii "log-b")])

/-- A date at which no password is to be renewed. -/
def recentInput : Input := ⟨⟨10, 0⟩, id, ascii "pad", true, none⟩

def keyFromB : AuthKey := ⟨authFromDbId, ascii "log-b", ascii "B"⟩

/-- Both sides say `AllClear`. -/
def clearRun (ok : Session → SessionOp → Bool) : Option Session :=
  [.initiate recentInput, .receive [(keyFromB, .allClear 7)], .process recentInput].foldlM
    (Session.stepIf linkAB ok) ⟨peerA.start, 0, [], []⟩

theorem allClear_once_clear :
    ∃ n, clearRun (fun _ _ => true) = some n ∧ n.pushed.countP QueueMsg.isAllClear = 1 ∧
      n.pushed.countP QueueMsg.isAllClear ≤ 1 ∧
      ∀ op n', n.apply linkAB op = some n' →
        n.pushed.countP QueueMsg.isAllClear < n'.pushed.countP QueueMsg.isAllClear →
        ∃ now, op.now? = some now ∧ n'.Clear linkAB now := by
  obtain ⟨n, hn, hcount⟩ : ∃ n, clearRun (fun _ _ => true) = some n ∧
      decide (n.pushed.countP QueueMsg.isAllClear = 1) := by
    apply (Option.any_eq_true _ _).mp
    decide
  exact ⟨n, hn, of_decide_eq_true hcount, allClear_once (reachable_stepIf hn).of_restrict⟩

theorem exchanged_once_clear :
    ∃ n, clearRun notRepeated = some n ∧ n.peer.exchanged = 1 ∧ n.peer.exchanged ≤ 1 ∧
      (0 < n.peer.exchanged →
        n.peer.allClearSent = true ∧ n.pushed.countP QueueMsg.isAllClear = 1 ∧
        n.peer.allClearRxed = true ∧ ∃ mId, .allClear mId ∈ n.taken) := by
  obtain ⟨n, hn, hcount⟩ : ∃ n, clearRun notRepeated = some n ∧
      decide (n.peer.exchanged = 1) := by
    apply (Option.any_eq_true _ _).mp
    decide
  exact ⟨n, hn, of_decide_eq_true hcount, exchanged_once (reachable_stepIf hn)⟩

/-- `B` says it twice. -/
theorem exchanged_repeated :
    ∃ n, (sessionSystem linkAB peerA 0).Reachable n ∧ n.peer.exchanged = 2 := by
  obtain ⟨n, hn, hcount⟩ : ∃ n, [.initiate recentInput,
      .receive [(keyFromB, .allClear 7), (keyFromB, .allClear 8)], .process recentInput,
      .process recentInput].foldlM (Session.stepIf linkAB fun _ _ => true)
        ⟨peerA.start, 0, [], []⟩ = some n ∧ decide (n.peer.exchanged = 2) := by
    apply (Option.any_eq_true _ _).mp
    decide
  exact ⟨n, (reachable_stepIf hn).of_restrict, of_decide_eq_true hcount⟩

end RsmpGateway.Cyber
