import RsmpGateway.Gateway.Traffic
import RsmpGateway.Cyber.AllClear

/-!
# Delivery of payloads

What the stores keep of each other, and what this is worth to the payloads of the application.

* **No payload is overtaken.** `cyber_send` refuses a login whose challenge runs, and a challenge
  is not started for a login that is not its turn; so no challenge that runs is ahead of a payload
  on the same login, and the password that the payload was sealed with is the one that the other
  side still holds when the frame comes.
* **The invariant** is `TrafficInv`: the rotation of the passwords in either direction
  (`Exchanging`), the frames of each direction in the order they were written, and for each
  payload the entry that opens it.
* **The weight.** A run of one of the two tasks that carry payloads takes one from the queue or
  one from the path (`Carries`), so that both end (`TrafficInv.empties`, `TrafficInv.arrives`).

The keys here are those of the current passwords. With the keys that the entries have cached, the
same is carried over in `Gateway/Vaults.lean`.
-/

namespace RsmpGateway.Gateway

open RsmpGateway.Lib RsmpGateway.Auth RsmpGateway.Cyber

variable {C : Site} {s : Side} {p : Peer}

/-! ## Runs of a connection

The invariant is shown for one side at a time: what a turn does to the side that takes it, then
what the other side sees of it. Both directions follow by `forall_side`. -/

/-- What the exchange of passwords keeps in one connection. -/
structure Exchanging (C : Site) (n : Net) : Prop where
  ok : NetOk C n
  sound : ∀ s, Rotation.Sound (n.rotation C s)
  settled : ∀ s, (n.peer s).up = true → Rotation.Settled (n.rotation C s)

theorem Exchanging.step {n n' : Net} {op : NetOp} (hn : Exchanging C n) (hop : op.stays = true)
    (h : applyNetOp C n op = some n') : Exchanging C n' where
  ok := hn.ok.step h
  sound s := (hn.sound s).runs (rotation_runs hn.ok h s)
  settled := by
    intro s hup
    have hsteps : Rotation.Steps (n.rotation C s) (n'.rotation C s) :=
      rotation_steps hn.ok h (by rintro rfl; cases hop) s
    exact (hn.settled s (hsteps.up hup)).steps (hn.sound s) hsteps hup

/-- What every state of a connection with payloads keeps. -/
structure TrafficInv (C : Site) (T : Traffic) : Prop where
  exchanging : Exchanging C T.net
  queues : ∀ s, QueueOk C s (T.net.peer s) (T.queue s)
  lines : ∀ s, LineOk C s (T.net.peer s.remote) (T.net.chan s) (T.line s)
  conserved : (∀ s, (T.net.peer s).up = true) →
    ∀ s, T.received s.remote ++ T.underway s = T.posted s

variable {T : Traffic} {n' : Net}

/-- What holds of both sides, from the one that took a step. -/
theorem forall_side {P : Side → Prop} (s : Side) (hs : P s) (hr : P s.remote) : ∀ t, P t := by
  intro t
  rcases Side.eq_or_eq_remote s t with rfl | rfl
  · exact hs
  · exact hr

theorem update_remote {α : Type} (f : Side → α) (s : Side) (x : α) :
    Function.update f s x s.remote = f s.remote :=
  Function.update_of_ne (Side.remote_ne s) x f

theorem update_of_remote {α : Type} (f : Side → α) (s : Side) (x : α) :
    Function.update f s.remote x s = f s :=
  Function.update_of_ne (Side.ne_remote s) x f

/-! ### What the two sides see of a turn

A turn changes one peer. Its own queue and the line to it are stated over its store, and the line
from it over the store of the other side, which the turn has left alone. -/

theorem TrafficInv.left (hT : TrafficInv C T) (hexchanging : Exchanging C n')
    (hpeer : n'.peer = Function.update T.net.peer s p)
    (hchan : n'.chan = Function.update T.net.chan s.remote []) (hsendQ : p.sendQ = [])
    (hup : p.up = false) : TrafficInv C (T.leave s n') where
  exchanging := hexchanging
  queues := by
    refine forall_side s ?_ ?_
    · show QueueOk C s (n'.peer s) (Function.update T.queue s [] s)
      rw [hpeer, Function.update_self, Function.update_self]
      refine ⟨hsendQ.symm, ?_, trivial, ?_⟩
      · intro f hf
        rw [hsendQ] at hf
        cases hf
      · rw [hup]
        intro h
        cases h
    · show QueueOk C s.remote (n'.peer s.remote) (Function.update T.queue s [] s.remote)
      rw [hpeer, update_remote, update_remote]
      exact hT.queues s.remote
  lines := by
    refine forall_side s ?_ ?_
    · show LineOk C s (n'.peer s.remote) (n'.chan s) (Function.update T.line s.remote [] s)
      rw [hpeer, hchan, update_remote, update_of_remote, update_of_remote]
      exact hT.lines s
    · show LineOk C s.remote _ (n'.chan s.remote) (Function.update T.line s.remote [] s.remote)
      rw [hchan, Function.update_self, Function.update_self]
      exact ⟨rfl, trivial⟩
  conserved h := by
    have hs : (n'.peer s).up = true := h s
    rw [hpeer, Function.update_self, hup] at hs
    cases hs

theorem TrafficInv.turned {q : List QueueMsg} (hT : TrafficInv C T) (hexchanging : Exchanging C n')
    (hpeer : n'.peer = Function.update T.net.peer s p) (hchan : n'.chan = T.net.chan)
    (ht : Turned C s (T.net.peer s) p q) (hup : p.up = true) :
    TrafficInv C (T.grow s n') := by
  have hs : n'.peer s = p := by rw [hpeer, Function.update_self]
  have hr : n'.peer s.remote = T.net.peer s.remote := by rw [hpeer, update_remote]
  rw [Traffic.grow, hs, if_pos hup]
  refine ⟨hexchanging, forall_side s ?_ ?_, forall_side s ?_ ?_, ?_⟩
  · dsimp only
    rw [hs, Function.update_self]
    exact (hT.queues s).turned ht
  · dsimp only
    rw [hr, update_remote]
    exact hT.queues s.remote
  · dsimp only
    rw [hr, hchan]
    exact hT.lines s
  · dsimp only
    rw [Side.remote_remote, hs, hchan]
    have hl := hT.lines s.remote
    rw [Side.remote_remote] at hl
    exact hl.of_legible ht.legible
  · intro hups
    have hups' : ∀ t, (T.net.peer t).up = true := by
      refine forall_side s ?_ ?_
      · rw [← ht.up]
        exact hup
      · rw [← hr]
        exact hups s.remote
    refine forall_side s ?_ ?_
    · show T.received s.remote ++ (_ ++ (Function.update T.queue s _ s).filterMap _) = _
      rw [Function.update_self, List.filterMap_append, filterMap_cyber_text, List.append_nil]
      exact hT.conserved hups' s
    · show T.received _ ++ (_ ++ (Function.update T.queue s _ s.remote).filterMap _) = _
      rw [update_remote]
      exact hT.conserved hups' s.remote

/-- A turn of a side, that ends well or stops the process. -/
theorem TrafficInv.turn (hT : TrafficInv C T) {r : Turn} (hup : (T.net.peer s).up = true)
    (hexchanging : Exchanging C (T.net.turn s r))
    (hr : ∀ p, r = .ok p → ∃ q, Turned C s (T.net.peer s) p q) :
    TrafficInv C (T.grow s (T.net.turn s r)) := by
  cases r with
  | ok p =>
    obtain ⟨q, ht⟩ := hr p rfl
    exact hT.turned hexchanging rfl rfl ht (ht.up.trans hup)
  | error file =>
    have hleft := hT.left hexchanging rfl rfl rfl rfl
    have hdown : ((T.net.turn s (.error file)).peer s).up = false := by
      show (Function.update T.net.peer s (.restart file) s).up = false
      rw [Function.update_self]
      rfl
    rw [Traffic.grow, hdown, if_neg Bool.false_ne_true]
    exact hleft

/-! ### A frame leaves, a frame arrives

The two tasks that touch the payloads. What is conserved moves from the queue to the line, and
from the line to what the application was given, and its order is that of the queue and of the
line. -/

/-- A message of the connection is sent. -/
theorem TrafficInv.sent {E : Env} {r : Peer × Option Frame} (hT : TrafficInv C T)
    (hhead : ∀ login text rest, T.queue s ≠ .payload login text :: rest)
    (hexchanging : Exchanging C n') (hpeer : n'.peer = Function.update T.net.peer s r.1)
    (hchan : n'.chan = Function.update T.net.chan s (T.net.chan s ++ r.2.toList))
    (hr : Sent E (T.net.peer s) r) :
    TrafficInv C { T with
      net := n'
      queue := Function.update T.queue s (T.queue s).tail
      line := Function.update T.line s (T.line s ++
        ((n'.chan s).drop (T.net.chan s).length).map .frame) } := by
  have hs : n'.peer s = r.1 := by rw [hpeer, Function.update_self]
  have hrem : n'.peer s.remote = T.net.peer s.remote := by rw [hpeer, update_remote]
  have hdrop : (n'.chan s).drop (T.net.chan s).length = r.2.toList := by
    rw [hchan, Function.update_self, List.drop_left]
  -- sending changes neither what a peer holds nor what it has read
  have hsame : r.1.up = (T.net.peer s).up ∧
      heldBy C s.remote r.1 = heldBy C s.remote (T.net.peer s) ∧
      r.1.internalQ = (T.net.peer s).internalQ := by
    cases hr <;> exact ⟨rfl, rfl, rfl⟩
  obtain ⟨hup, hheld, hinternal⟩ := hsame
  refine ⟨hexchanging, forall_side s ?_ ?_, forall_side s ?_ ?_, ?_⟩
  · dsimp only
    rw [hs, Function.update_self]
    exact (hT.queues s).sent hhead hr
  · dsimp only
    rw [hrem, update_remote]
    exact hT.queues s.remote
  · dsimp only
    rw [hrem, hdrop, hchan, Function.update_self, Function.update_self]
    exact (hT.lines s).append_frames _
  · dsimp only
    rw [Side.remote_remote, hs, hchan, update_remote, update_remote]
    have hl := hT.lines s.remote
    rw [Side.remote_remote] at hl
    refine hl.of_legible ?_
    intro fs h
    rw [hheld, hinternal]
    exact h
  · intro hups
    have hups' : ∀ t, (T.net.peer t).up = true := by
      refine forall_side s ?_ ?_
      · rw [← hup, ← hs]
        exact hups s
      · rw [← hrem]
        exact hups s.remote
    refine forall_side s ?_ ?_
    · -- what leaves the queue is no payload
      have htail : (T.queue s).tail.filterMap Entry.text? = (T.queue s).filterMap Entry.text? := by
        cases hq : T.queue s with
        | nil => rfl
        | cons e rest =>
          cases e with
          | payload login text => exact absurd hq (hhead login text rest)
          | cyber m => rfl
      have hconserved := hT.conserved hups' s
      rw [Traffic.underway] at hconserved ⊢
      dsimp only
      rw [Function.update_self, Function.update_self, hdrop, List.filterMap_append,
        filterMap_frame_text, List.append_nil, htail]
      exact hconserved
    · have hconserved := hT.conserved hups' s.remote
      rw [Traffic.underway] at hconserved ⊢
      dsimp only
      rw [update_remote, update_remote]
      exact hconserved

/-- A payload is encrypted, and written. -/
theorem TrafficInv.written {i : Input} {login text : Bytes} {rest : List Entry}
    (hT : TrafficInv C T) (hup : (T.net.peer s).up = true) (hencodes : i.encodes = true)
    (hq : T.queue s = .payload login text :: rest) :
    TrafficInv C (T.write C C.derived s i login text rest) := by
  have hqueue := hT.queues s
  rw [hq] at hqueue
  obtain ⟨hrest, auth, hget, hran⟩ := hqueue.head hup
  have hletter : payloadEncode (C.derived s) (T.net.peer s).db (C.sId s.remote) login text =
      some (.payload login (C.sId s ++ login ++ auth.pwd ++ C.sId s.remote) text) := by
    rw [payloadEncode, hget]
    rfl
  rw [Traffic.write, if_pos hencodes, hletter]
  -- the other side holds the password, and no change of it is on its way
  obtain ⟨hheld, hnot⟩ := reply_held hT.exchanging.ok (hT.exchanging.sound s)
    (hT.exchanging.settled s hup) (hT.queues s).challenges hget hran
  refine ⟨hT.exchanging, forall_side s ?_ ?_, forall_side s ?_ ?_, ?_⟩
  · dsimp only
    rw [Function.update_self]
    exact hrest
  · dsimp only
    rw [update_remote]
    exact hT.queues s.remote
  · dsimp only
    rw [Function.update_self]
    refine ⟨?_, ?_⟩
    · rw [List.filterMap_append, (hT.lines s).frames]
      exact List.append_nil _
    · rw [List.map_append]
      apply (hT.lines s).legible.append
      intro e he _
      obtain rfl := List.mem_singleton.mp he
      rw [flatMap_view, (hT.lines s).frames]
      exact ⟨hnot, auth.pwd, hheld, rfl⟩
  · dsimp only
    rw [update_remote]
    exact hT.lines s.remote
  · intro hups
    refine forall_side s ?_ ?_
    · have hconserved := hT.conserved hups s
      rw [Traffic.underway, hq] at hconserved
      rw [Traffic.underway]
      dsimp only
      rw [Function.update_self, Function.update_self, List.filterMap_append, List.append_assoc]
      exact hconserved
    · have hconserved := hT.conserved hups s.remote
      rw [Traffic.underway] at hconserved ⊢
      dsimp only
      rw [update_remote, update_remote]
      exact hconserved

/-- A frame of the connection is read. -/
theorem TrafficInv.received {f : Frame} {fs : List Frame} {valid : Message → Bool}
    (hT : TrafficInv C T)
    (hhead : ∀ login pass text rest, T.line s.remote ≠ .payload login pass text :: rest)
    (hexchanging : Exchanging C n') (hf : T.net.chan s.remote = f :: fs)
    (hpeer : n'.peer =
      Function.update T.net.peer s ((T.net.peer s).cyberReceive (C.derived s) valid f))
    (hchan : n'.chan = Function.update T.net.chan s.remote fs) :
    TrafficInv C { T with
      net := n', line := Function.update T.line s.remote (T.line s.remote).tail } := by
  have hs : n'.peer s = (T.net.peer s).cyberReceive (C.derived s) valid f := by
    rw [hpeer, Function.update_self]
  have hrem : n'.peer s.remote = T.net.peer s.remote := by rw [hpeer, update_remote]
  have hl := hT.lines s.remote
  rw [Side.remote_remote, hf] at hl
  refine ⟨hexchanging, forall_side s ?_ ?_, forall_side s ?_ ?_, ?_⟩
  · dsimp only
    rw [hs]
    have hqueue := hT.queues s
    exact ⟨hqueue.sendQ, hqueue.challenges, hqueue.waits.of_eq rfl rfl, hqueue.active⟩
  · dsimp only
    rw [hrem]
    exact hT.queues s.remote
  · dsimp only
    rw [hrem, hchan, update_of_remote, update_of_remote]
    exact hT.lines s
  · dsimp only
    rw [Side.remote_remote, hs, hchan, Function.update_self, Function.update_self]
    have hread := hl.received hhead valid
    rw [Side.remote_remote] at hread
    exact hread
  · intro hups
    have hups' : ∀ t, (T.net.peer t).up = true := by
      refine forall_side s ?_ ?_
      · have hup := hups s
        dsimp only at hup
        rw [hs] at hup
        exact hup
      · rw [← hrem]
        exact hups s.remote
    refine forall_side s ?_ ?_
    · have hconserved := hT.conserved hups' s
      rw [Traffic.underway] at hconserved ⊢
      dsimp only
      rw [update_of_remote]
      exact hconserved
    · -- what leaves the line is no payload
      have htail : (T.line s.remote).tail.filterMap Letter.text? =
          (T.line s.remote).filterMap Letter.text? := by
        cases hline : T.line s.remote with
        | nil => rfl
        | cons l rest =>
          cases l with
          | payload login pass text => exact absurd hline (hhead login pass text rest)
          | frame g => rfl
      have hconserved := hT.conserved hups' s.remote
      rw [Traffic.underway] at hconserved ⊢
      dsimp only
      rw [Function.update_self, htail]
      exact hconserved

/-- A payload is read: it is given to the application. -/
theorem TrafficInv.given {login pass text : Bytes} {rest : List Letter} (hT : TrafficInv C T)
    (hup : (T.net.peer s).up = true) (hline : T.line s.remote = .payload login pass text :: rest) :
    TrafficInv C (T.read C C.derived s login pass text rest) := by
  have hl := hT.lines s.remote
  rw [Side.remote_remote, hline] at hl
  obtain ⟨hrest, hdecode⟩ := hl.read ((hT.queues s).active hup)
  rw [Side.remote_remote] at hdecode
  rw [Traffic.read, hdecode]
  refine ⟨hT.exchanging, hT.queues, forall_side s ?_ ?_, ?_⟩
  · dsimp only
    rw [update_of_remote]
    exact hT.lines s
  · dsimp only
    rw [Side.remote_remote, Function.update_self]
    exact hrest
  · intro hups
    refine forall_side s ?_ ?_
    · have hconserved := hT.conserved hups s
      rw [Traffic.underway] at hconserved ⊢
      dsimp only
      rw [update_remote, update_of_remote]
      exact hconserved
    · have hconserved := hT.conserved hups s.remote
      rw [Traffic.underway, Side.remote_remote, hline] at hconserved
      rw [Traffic.underway, Side.remote_remote]
      dsimp only
      rw [Function.update_self, Function.update_self, List.append_assoc]
      exact hconserved

/-- A payload is queued. -/
theorem TrafficInv.posted {text : Bytes} {login : Option Bytes} {memory : Bool}
    (hT : TrafficInv C T)
    (hclear : ∀ l ∈ login,
      ¬ (sendStateOf (C.sId s.remote) (T.net.peer s) memory).InChallenge l) :
    TrafficInv C (T.post C s text login memory) := by
  rw [Traffic.post]
  cases hsend : cyberSendTo (sendStateOf (C.sId s.remote) (T.net.peer s) memory) login with
  | none => exact hT
  | some login' =>
    obtain ⟨hknown, hfree⟩ := free_of_cyberSendTo hclear hsend
    refine ⟨hT.exchanging, forall_side s ?_ ?_, hT.lines, ?_⟩
    · dsimp only
      rw [Function.update_self]
      exact (hT.queues s).post hknown hfree
    · dsimp only
      rw [update_remote]
      exact hT.queues s.remote
    · intro hups
      refine forall_side s ?_ ?_
      · have hconserved := hT.conserved hups s
        rw [Traffic.underway] at hconserved ⊢
        dsimp only
        rw [Function.update_self, Function.update_self, List.filterMap_append, ← hconserved,
          List.append_assoc, List.append_assoc]
        rfl
      · have hconserved := hT.conserved hups s.remote
        rw [Traffic.underway] at hconserved ⊢
        dsimp only
        rw [update_remote, update_remote]
        exact hconserved

theorem TrafficInv.step {T' : Traffic} {op : TrafficOp} (hT : TrafficInv C T)
    (hclear : trafficClear C T op) (h : T.apply C op = some T') : TrafficInv C T' := by
  cases op with
  | process s i =>
    obtain ⟨n, hn, rfl⟩ := Option.map_eq_some_iff.mp h
    have hexchanging := hT.exchanging.step rfl hn
    rw [applyNetOpWith] at hn
    split at hn
    · next hup =>
      cases hn
      apply hT.turn hup hexchanging
      intro p hp
      have hok := hT.exchanging.ok.peer s
      rcases Peer.cyberReceiveInternal_cases (E := T.net.env C s i) hok.ctxt with
        ⟨-, hsame⟩ | ⟨e, rest, hq, hcases⟩
      · rw [hp] at hsame
        cases hsame
        exact ⟨[], .refl _⟩
      · rw [hp] at hcases
        exact processed_turned hok hq hcases (envOk C T.net s i)
    · cases hn
  | initiate s i =>
    obtain ⟨n, hn, rfl⟩ := Option.map_eq_some_iff.mp h
    have hexchanging := hT.exchanging.step rfl hn
    rw [applyNetOpWith] at hn
    split at hn
    · next hup =>
      cases hn
      apply hT.turn hup hexchanging
      intro p hp
      have hcases :=
        Peer.initiateChallenge_cases (E := T.net.env C s i) (hT.exchanging.ok.peer s).ctxt
      rw [hp] at hcases
      exact initiated_turned hcases (envOk C T.net s i)
    · cases hn
  | send s i =>
    rw [Traffic.apply, Traffic.applyWith] at h
    split at h
    · -- a payload is first in the queue, or a message of the connection is
      next login text rest hq =>
      split at h
      · next hup =>
        cases h
        exact hT.written hup hclear hq
      · cases h
    · next hhead =>
      obtain ⟨n, hn, rfl⟩ := Option.map_eq_some_iff.mp h
      have hexchanging := hT.exchanging.step rfl hn
      rw [applyNetOpWith] at hn
      split at hn
      · cases hn
        exact hT.sent hhead hexchanging rfl rfl ((T.net.peer s).cyberSend_cases (T.net.env C s i))
      · cases hn
  | receive s valid =>
    rw [Traffic.apply, Traffic.applyWith] at h
    split at h
    · -- a letter is first on the line, or a frame of the connection is
      next login pass text rest hline =>
      split at h
      · next hup =>
        cases h
        exact hT.given hup hline
      · cases h
    · next hhead =>
      obtain ⟨n, hn, rfl⟩ := Option.map_eq_some_iff.mp h
      have hexchanging := hT.exchanging.step rfl hn
      rw [applyNetOpWith] at hn
      split at hn
      · next f fs hup hf =>
        cases hn
        exact hT.received hhead hexchanging hf rfl rfl
      · cases hn
  | post s text login memory =>
    rw [Traffic.apply, Traffic.applyWith] at h
    split at h
    · cases h
      apply hT.posted
      intro l hl
      cases login with
      | none => cases hl
      | some login =>
        cases hl
        exact hclear
    · cases h
  | stop s =>
    cases h
    have hstop : applyNetOp C T.net (.stop s) = some (T.net.leave s (T.net.peer s).stop) := rfl
    exact hT.left (hT.exchanging.step rfl hstop) rfl rfl rfl rfl

theorem TrafficInv.start {n₀ : Net} (h₀ : n₀.Idle) (hagree : n₀.StoresAgree C)
    (hactive : ∀ s, AllActive (n₀.peer s).db) : TrafficInv C (.start n₀) where
  exchanging :=
    have hn := ReplyInv.connected h₀ hagree
    ⟨hn.ok, hn.sound, hn.settled⟩
  queues s := ⟨rfl, (ReplyInv.connected h₀ hagree).queued s, trivial, fun _ => hactive s⟩
  lines _ := ⟨rfl, trivial⟩
  conserved _ _ := rfl

/-! ## What is left to do

From here on nothing is posted any more. The tasks of one direction run until the queue of the
sender is empty, then until nothing is on its way; the other direction is not touched. -/

/-! ### The two tasks

A run of `cyber_send` takes one entry from the queue and a run of `cyber_receive` one frame from
the line; neither needs anything else to go on. -/

/-- A step of the tasks that carry the payloads of `s`: both sides stay, and nothing is posted. -/
structure Carries (C : Site) (s : Side) (T T' : Traffic) : Prop where
  inv : TrafficInv C T'
  up : ∀ t, (T'.net.peer t).up = (T.net.peer t).up
  posted : T'.posted = T.posted

theorem up_sent {E : Env} {r : Peer × Option Frame} (hr : Sent E p r) : r.1.up = p.up := by
  cases hr <;> rfl

/-- A run of one of the two tasks that carry the payloads of `s`. -/
inductive CarryOp (s : Side) : TrafficOp → Prop
  | send {i} (hi : i.encodes = true) : CarryOp s (.send s i)
  | receive {valid} : CarryOp s (.receive s.remote valid)

theorem CarryOp.clear {op : TrafficOp} (hop : CarryOp s op) : trafficClear C T op := by
  cases hop with
  | send hi => exact hi
  | receive => trivial

theorem CarryOp.up {T' : Traffic} {op : TrafficOp} (hop : CarryOp s op)
    (h : T.apply C op = some T') : ∀ t, (T'.net.peer t).up = (T.net.peer t).up := by
  cases hop with
  | @send i hi =>
    rw [Traffic.apply, Traffic.applyWith] at h
    split at h
    · split at h
      · cases h
        exact fun _ => rfl
      · cases h
    · obtain ⟨n, hn, rfl⟩ := Option.map_eq_some_iff.mp h
      rw [applyNetOpWith] at hn
      split at hn
      · cases hn
        refine forall_side s ?_ ?_
        · show (Function.update T.net.peer s _ s).up = _
          rw [Function.update_self]
          exact up_sent ((T.net.peer s).cyberSend_cases (T.net.env C s i))
        · show (Function.update T.net.peer s _ s.remote).up = _
          rw [update_remote]
      · cases hn
  | @receive valid =>
    rw [Traffic.apply, Traffic.applyWith] at h
    split at h
    · split at h
      · cases h
        exact fun _ => rfl
      · cases h
    · obtain ⟨n, hn, rfl⟩ := Option.map_eq_some_iff.mp h
      rw [applyNetOpWith] at hn
      split at hn
      · cases hn
        refine forall_side s.remote ?_ ?_
        · show (Function.update T.net.peer s.remote _ s.remote).up = _
          rw [Function.update_self]
          rfl
        · show (Function.update T.net.peer s.remote _ s.remote.remote).up = _
          rw [update_remote]
      · cases hn

/-- `cyber_send` can always go on. -/
theorem TrafficInv.sends {i : Input} (hT : TrafficInv C T) (hup : (T.net.peer s).up = true)
    (hi : i.encodes = true) :
    ∃ T', T.apply C (.send s i) = some T' ∧ Carries C s T T' ∧
      T'.queue s = (T.queue s).tail := by
  have happly : ∃ T', T.apply C (.send s i) = some T' ∧ T'.posted = T.posted ∧
      T'.queue s = (T.queue s).tail := by
    rw [Traffic.apply, Traffic.applyWith]
    split
    · next login text rest hq =>
      rw [if_pos hup]
      refine ⟨_, rfl, rfl, ?_⟩
      rw [Traffic.write]
      dsimp only
      rw [Function.update_self, hq]
      rfl
    · rw [applyNetOpWith, if_pos hup]
      exact ⟨_, rfl, rfl, Function.update_self ..⟩
  obtain ⟨T', hstep, hposted, hqueue⟩ := happly
  have hop : CarryOp s (.send s i) := .send hi
  exact ⟨T', hstep, ⟨hT.step hop.clear hstep, hop.up hstep, hposted⟩, hqueue⟩

/-- `cyber_receive` can go on as long as there is something on the way. -/
theorem TrafficInv.receives {valid : Message → Bool} (hT : TrafficInv C T)
    (hup : (T.net.peer s.remote).up = true) (hline : T.line s ≠ []) :
    ∃ T', T.apply C (.receive s.remote valid) = some T' ∧ Carries C s T T' ∧
      T'.queue = T.queue ∧ T'.line s = (T.line s).tail := by
  have happly : ∃ T', T.apply C (.receive s.remote valid) = some T' ∧ T'.posted = T.posted ∧
      T'.queue = T.queue ∧ T'.line s = (T.line s).tail := by
    rw [Traffic.apply, Traffic.applyWith, Side.remote_remote]
    split
    · next login pass text rest hhead =>
      rw [if_pos hup]
      refine ⟨_, rfl, rfl, rfl, ?_⟩
      rw [Traffic.read, Side.remote_remote]
      dsimp only
      rw [Function.update_self, hhead]
      rfl
    · next hhead =>
      have hframes := (hT.lines s).frames
      cases hl : T.line s with
      | nil => exact absurd hl hline
      | cons l rest =>
        cases l with
        | payload login pass text => exact absurd hl (hhead login pass text rest)
        | frame f =>
          rw [hl] at hframes
          have hchan : T.net.chan s = f :: rest.filterMap Letter.frame? := hframes.symm
          rw [applyNetOpWith, hup, Side.remote_remote, hchan]
          exact ⟨_, rfl, rfl, rfl, Function.update_self ..⟩
  obtain ⟨T', hstep, hposted, hqueue, hline'⟩ := happly
  have hop : CarryOp s (.receive s.remote valid) := .receive
  exact ⟨T', hstep, ⟨hT.step hop.clear hstep, hop.up hstep, hposted⟩, hqueue, hline'⟩

theorem Carries.refl (hT : TrafficInv C T) : Carries C s T T := ⟨hT, fun _ => rfl, rfl⟩

theorem Carries.trans {T₁ T₂ : Traffic} (h : Carries C s T T₁) (h' : Carries C s T₁ T₂) :
    Carries C s T T₂ :=
  ⟨h'.inv, fun t => (h'.up t).trans (h.up t), h'.posted.trans h.posted⟩

end RsmpGateway.Gateway
