import RsmpGateway.Gateway.Dialogue
import RsmpGateway.Gateway.Vaults

/-!
# Gateways on a connection

The loops of two gateways, over the connection that carries their payloads. `waitForMessage` gives
a loop the next payload that the connection brought; the replies to it are queued by `_send`, one
after the other, while the tasks of the connection write, read, and renew the passwords. Each
process keeps the secrets that it has derived, as in `Gateway/Vaults.lean`.

* Every message that is to be acknowledged is acknowledged once (`stack_acknowledged`): the
  acknowledgements that one side has given, or has still to give, balance the messages that the
  other side treated. A `StatusRequest` is never acknowledged, and is not counted.
* As long as no renewal has left a lock taken, the two gateways can treat all that is left once the
  applications are silent (`stack_settles`). What is left weighs what it may give rise to, and each
  turn lowers the weight of both sides together.
-/

namespace RsmpGateway.Lib.System

/-- A run goes on from where another one has come. -/
theorem Reachable.trans {σ : Type _} {ε : Type _} {T : System σ ε} {s s' s'' : σ}
    (h : (T.startingAt s).Reachable s') (h' : (T.startingAt s').Reachable s'') :
    (T.startingAt s).Reachable s'' := by
  induction h' with
  | init hs =>
    cases hs
    exact h
  | step _ hstep ih => exact .step ih hstep

end RsmpGateway.Lib.System

namespace RsmpGateway.Gateway

open RsmpGateway.Lib RsmpGateway.Rsmp
open RsmpGateway.Cyber hiding Message

/-! ## Two gateways

The connection with what each side caches, and beside it what a loop has: its engine, the payloads
that were treated and the replies that it still has to send. A step is one of the connection, a
`_send` of the application, a turn of `external_receive` on the next payload, or the `_send` of
one reply. -/

/-- Two gateways and their connection. Of each: the secrets that it caches, what its engine holds,
the payloads that it has treated and with what outcome, the replies that it has not sent yet, what
its application sent by itself, and the replies that were refused. -/
structure Stack (σ : Type) where
  traffic : Traffic
  vault : Side → Vault
  host : Side → σ
  treated : Side → List (Bytes × Option Message)
  pending : Side → List Bytes
  sent : Side → List Bytes
  refused : Side → List Bytes

inductive StackOp
  | /-- a task of the connection -/
    carry (op : VaultOp TrafficOp)
  | /-- the application sends a payload, with a login or without -/
    send (s : Side) (text : Bytes) (login : Option Bytes) (memory : Bool)
  | /-- a turn of `external_receive` -/
    treat (s : Side)
  | /-- the next reply of the turn -/
    reply (s : Side) (memory : Bool)

/-- A step of a task, and not of an application. -/
def carries : VaultOp TrafficOp → Bool
  | .step (.post ..) => false
  | _ => true

/-- `_send` queues the payload. -/
def Traffic.takes (C : Site) (T : Traffic) (s : Side) (login : Option Bytes) (memory : Bool) :
    Bool :=
  (cyberSendTo (sendStateOf (C.sId s.remote) (T.net.peer s) memory) login).isSome

variable {σ : Type}

namespace Stack

/-- The connection. -/
def link (S : Stack σ) : VaultTraffic := ⟨S.traffic, S.vault⟩

/-- What a side was given and has not treated. -/
def unread (S : Stack σ) (s : Side) : List Bytes :=
  (S.traffic.received s).drop (S.treated s).length

def send (C : Site) (S : Stack σ) (s : Side) (text : Bytes) (login : Option Bytes)
    (memory : Bool) : Stack σ :=
  { S with
    traffic := S.traffic.post C s text login memory
    sent := Function.update S.sent s
      (S.sent s ++ bif S.traffic.takes C s login memory then [text] else []) }

def treat (S : Stack σ) (s : Side) (h : σ) (payload : Bytes) (outcome : Option Message)
    (replies : List Bytes) : Stack σ :=
  { S with
    host := Function.update S.host s h
    treated := Function.update S.treated s (S.treated s ++ [(payload, outcome)])
    pending := Function.update S.pending s replies }

/-- A reply has no login. -/
def reply (C : Site) (S : Stack σ) (s : Side) (text : Bytes) (rest : List Bytes)
    (memory : Bool) : Stack σ :=
  { S with
    traffic := S.traffic.post C s text none memory
    pending := Function.update S.pending s rest
    refused := Function.update S.refused s
      (S.refused s ++ bif S.traffic.takes C s none memory then [] else [text]) }

/-- Two gateways that have just made a connection. -/
def start (n₀ : Net) (vault₀ : Side → Vault) (host : Side → σ) : Stack σ where
  traffic := .start n₀
  vault := vault₀
  host := host
  treated _ := []
  pending _ := []
  sent _ := []
  refused _ := []

end Stack

section System

variable (X : RsmpExt) (engine : Bytes → σ → Int × σ) (R : SxlRegistry σ) (C : Site) (n₀ : Net)
  (vault₀ : Side → Vault)

/-- A loop takes the next payload when it has sent the replies to the last one. -/
inductive StackStep : Stack σ → StackOp → Stack σ → Prop
  | carry {S op v} : carries op = true → S.link.apply C op = some v →
    StackStep S (.carry op) { S with traffic := v.traffic, vault := v.vault }
  | send {S s text login memory} : (S.traffic.net.peer s).up = true →
    StackStep S (.send s text login memory) (S.send C s text login memory)
  | treat {S s payload rest outcome replies h} : S.pending s = [] →
    S.unread s = payload :: rest →
    Receives X engine R (S.host s) payload outcome replies h →
    StackStep S (.treat s) (S.treat s h payload outcome replies)
  | reply {S s text rest memory} : (S.traffic.net.peer s).up = true →
    S.pending s = text :: rest →
    StackStep S (.reply s memory) (S.reply C s text rest memory)

def stackSystem : System (Stack σ) StackOp where
  init S := ∃ host, S = .start n₀ vault₀ host
  step := StackStep X engine R C

/-- What is sent can be encoded, and no application posts with the login of a challenge. -/
def stackClear (S : Stack σ) : StackOp → Prop
  | .carry op => vaultTrafficClear C S.link op
  | .send s text login memory => trafficClear C S.traffic (.post s text login memory)
  | _ => True

end System

variable {X : RsmpExt} {engine : Bytes → σ → Int × σ} {R : SxlRegistry σ} {C : Site} {n₀ : Net}
variable {vault₀ : Side → Vault} {v v' : VaultTraffic}
variable {T T' : Traffic} {S S' : Stack σ} {s : Side}

/-! ## What a step of the connection does

The applications and the engines are not touched by the tasks of the connection. -/

theorem posted_post (text : Bytes) (login : Option Bytes) (memory : Bool) :
    (T.post C s text login memory).posted =
      Function.update T.posted s
        (T.posted s ++ bif T.takes C s login memory then [text] else []) := by
  rw [Traffic.post, Traffic.takes]
  cases cyberSendTo (sendStateOf (C.sId s.remote) (T.net.peer s) memory) login with
  | none =>
    rw [Option.isSome_none, cond_false, List.append_nil, Function.update_eq_self]
  | some l => rfl

@[simp] theorem received_post (text : Bytes) (login : Option Bytes) (memory : Bool) :
    (T.post C s text login memory).received = T.received := by
  rw [Traffic.post]
  split <;> rfl

@[simp] theorem net_post (text : Bytes) (login : Option Bytes) (memory : Bool) :
    (T.post C s text login memory).net = T.net := by
  rw [Traffic.post]
  split <;> rfl

theorem posted_grow (n : Net) : (T.grow s n).posted = T.posted := by
  rw [Traffic.grow]
  split <;> rfl

theorem received_grow (n : Net) : (T.grow s n).received = T.received := by
  rw [Traffic.grow]
  split <;> rfl

/-- A task posts nothing, and takes back nothing that the application was given. -/
theorem Traffic.apply_carries {op : TrafficOp} (hop : carries (.step op) = true)
    (h : T.apply C op = some T') :
    T'.posted = T.posted ∧ ∀ s, T.received s <+: T'.received s := by
  have hsame : ∀ {T' : Traffic}, T'.posted = T.posted → T'.received = T.received →
      T'.posted = T.posted ∧ ∀ s, T.received s <+: T'.received s := by
    intro T' hposted hreceived
    exact ⟨hposted, fun s => by rw [hreceived]⟩
  cases op with
  | process s i =>
    obtain ⟨n, -, rfl⟩ := Option.map_eq_some_iff.mp h
    exact hsame (posted_grow n) (received_grow n)
  | initiate s i =>
    obtain ⟨n, -, rfl⟩ := Option.map_eq_some_iff.mp h
    exact hsame (posted_grow n) (received_grow n)
  | send s i =>
    rw [Traffic.apply, Traffic.applyWith] at h
    split at h
    · split at h
      · cases h
        exact hsame rfl rfl
      · cases h
    · obtain ⟨n, -, rfl⟩ := Option.map_eq_some_iff.mp h
      exact hsame rfl rfl
  | receive s valid =>
    rw [Traffic.apply, Traffic.applyWith] at h
    split at h
    · split at h
      · cases h
        refine ⟨rfl, forall_side s ?_ ?_⟩
        · show _ <+: Function.update T.received s _ s
          rw [Function.update_self]
          exact List.prefix_append _ _
        · show _ <+: Function.update T.received s _ s.remote
          rw [update_remote]
      · cases h
    · obtain ⟨n, -, rfl⟩ := Option.map_eq_some_iff.mp h
      exact hsame rfl rfl
  | post s text login memory => cases hop
  | stop s =>
    cases h
    exact hsame rfl rfl

theorem VaultInv.carries {op : VaultOp TrafficOp} (hv : VaultInv C v) (hop : carries op = true)
    (h : v.apply C op = some v') :
    v'.traffic.posted = v.traffic.posted ∧
      ∀ s, v.traffic.received s <+: v'.traffic.received s := by
  cases op with
  | step op =>
    obtain ⟨hstep, -⟩ := VaultTraffic.step hv.traffic.exchanging.ok hv.noStale h
    exact Traffic.apply_carries hop hstep
  | cache t key =>
    obtain ⟨vault', -, rfl⟩ := Option.map_eq_some_iff.mp h
    exact ⟨rfl, fun s => List.prefix_refl _⟩

/-! ## What every run keeps

The balance of acknowledgements is that of `Lib/Dialogue.lean`, with what is in the queues and on
its way counted in; the order is that of `Gateway/Vaults.lean`. -/

/-- What a side has queued, has still to send, or was refused has paid what it treated, next to
what its application sent by itself. -/
def Stack.Accounted (X : RsmpExt) (S : Stack σ) (s : Side) : Prop :=
  ∀ mId, Dialogue.total (paid X mId) (S.traffic.posted s) +
      Dialogue.total (paid X mId) (S.pending s) + Dialogue.total (paid X mId) (S.refused s) =
    Dialogue.total (due mId ∘ Prod.snd) (S.treated s) + Dialogue.total (paid X mId) (S.sent s)

/-- What every state keeps: what a side treated is, in order, what it was given. -/
structure StackInv (X : RsmpExt) (C : Site) (S : Stack σ) : Prop where
  link : VaultInv C S.link
  ordered : ∀ s, (S.treated s).map Prod.fst <+: S.traffic.received s
  accounted : ∀ s, S.Accounted X s

theorem StackInv.traffic (hS : StackInv X C S) : TrafficInv C S.traffic := hS.link.traffic

theorem StackInv.received_eq (hS : StackInv X C S) (s : Side) :
    S.traffic.received s = (S.treated s).map Prod.fst ++ S.unread s := by
  have := List.prefix_iff_eq_append.mp (hS.ordered s)
  rw [List.length_map] at this
  exact this.symm

theorem StackInv.post (hS : StackInv X C S) (hup : (S.traffic.net.peer s).up = true) {text : Bytes}
    {login : Option Bytes} {memory : Bool}
    (hclear : trafficClear C S.traffic (.post s text login memory)) :
    VaultInv C ⟨S.traffic.post C s text login memory, S.vault⟩ where
  traffic := by
    apply hS.traffic.step hclear
    rw [Traffic.apply, Traffic.applyWith, if_pos hup]
  noStale := by
    dsimp only
    rw [net_post]
    exact hS.link.noStale

theorem StackInv.start {host : Side → σ} (h₀ : n₀.Idle) (hagree : n₀.StoresAgree C)
    (hactive : ∀ s, AllActive (n₀.peer s).db) (hstale : n₀.NoStale vault₀) :
    StackInv X C (.start n₀ vault₀ host) where
  link := ⟨.start h₀ hagree hactive, hstale⟩
  ordered _ := List.prefix_refl []
  accounted _ _ := rfl

theorem StackInv.step (hX : X.Lawful) {op : StackOp} (hS : StackInv X C S)
    (hclear : stackClear C S op) (h : StackStep X engine R C S op S') : StackInv X C S' := by
  cases h with
  | carry hop happly =>
    obtain ⟨hposted, hreceived⟩ := hS.link.carries hop happly
    refine ⟨hS.link.step hclear happly, ?_, ?_⟩
    · exact fun s => (hS.ordered s).trans (hreceived s)
    · intro s mId
      show Dialogue.total _ (Traffic.posted _ s) + _ + _ = _
      rw [hposted]
      exact hS.accounted s mId
  | @send s text login memory hup =>
    refine ⟨hS.post hup hclear, ?_, forall_side s ?_ ?_⟩
    · intro t
      show _ <+: (S.traffic.post C s text login memory).received t
      rw [received_post]
      exact hS.ordered t
    · intro mId
      have hs := hS.accounted s mId
      simp only [Stack.send, posted_post, Function.update_self, Dialogue.total_append]
      omega
    · intro mId
      simp only [Stack.send, posted_post, update_remote]
      exact hS.accounted s.remote mId
  | @treat s payload rest outcome replies h hpending hunread hreceives =>
    have hreceived := hS.received_eq s
    rw [hunread] at hreceived
    refine ⟨hS.link, forall_side s ?_ ?_, forall_side s ?_ ?_⟩
    · simp only [Stack.treat, Function.update_self, List.map_append, List.map_cons, List.map_nil]
      rw [hreceived, List.append_cons _ payload rest]
      exact List.prefix_append _ _
    · simp only [Stack.treat, update_remote]
      exact hS.ordered s.remote
    · intro mId
      have hs := hS.accounted s mId
      rw [hpending] at hs
      simp only [Stack.treat, Function.update_self, Dialogue.total_append, Dialogue.total_cons,
        Dialogue.total_nil, Function.comp_apply, hreceives.paid_eq hX] at hs ⊢
      omega
    · intro mId
      simp only [Stack.treat, update_remote]
      exact hS.accounted s.remote mId
  | @reply s text rest memory hup hpending =>
    refine ⟨hS.post hup trivial, ?_, forall_side s ?_ ?_⟩
    · intro t
      show _ <+: (S.traffic.post C s text none memory).received t
      rw [received_post]
      exact hS.ordered t
    · intro mId
      have hs := hS.accounted s mId
      rw [hpending] at hs
      -- the reply is either queued or refused
      cases htakes : S.traffic.takes C s none memory <;>
        simp only [Stack.reply, posted_post, htakes, cond_true, cond_false, Function.update_self,
          Dialogue.total_append, Dialogue.total_cons, Dialogue.total_nil] at hs ⊢ <;>
        omega
    · intro mId
      simp only [Stack.reply, posted_post, update_remote]
      exact hS.accounted s.remote mId

/-- Nothing new: no application sends, no challenge begins, and both sides stay. -/
def StackOp.quiet : StackOp → Bool
  | .carry (.step (.send ..)) => true
  | .carry (.step (.receive ..)) => true
  | .treat _ => true
  | .reply .. => true
  | _ => false

/-- The steps that only go on with what was sent. -/
def quietSystem (X : RsmpExt) (engine : Bytes → σ → Int × σ) (R : SxlRegistry σ) (C : Site)
    (n₀ : Net) (vault₀ : Side → Vault) : System (Stack σ) StackOp :=
  (stackSystem X engine R C n₀ vault₀).restrict fun S op => stackClear C S op ∧ op.quiet = true

/-- The payloads that a side has still to treat: given, or on their way. -/
def Stack.ahead (S : Stack σ) (s : Side) : List Bytes :=
  (S.traffic.posted s.remote).drop (S.treated s).length

/-! ### The weight

What is ahead of a side is what it was given and has not treated, then what is under way to it. A
reply counts where it is: still to be sent by one side, or ahead of the other. -/

/-- What is left to a side, with what it gives rise to. -/
def Stack.load (X : RsmpExt) (S : Stack σ) (s : Side) : Nat :=
  Dialogue.total (weight X) (S.ahead s) + Dialogue.total (weight X) (S.pending s)

def Stack.loads (X : RsmpExt) (S : Stack σ) : Nat := S.load X .a + S.load X .b

/-- Both sides stay, no lock is kept, and every payload is of the class `K`. -/
structure StackReady (X : RsmpExt) (C : Site) (K : Bytes → Prop) (S : Stack σ) : Prop where
  inv : StackInv X C S
  up : ∀ s, (S.traffic.net.peer s).up = true
  free : Unlocked S.vault
  posted : ∀ s, ∀ payload ∈ S.traffic.posted s, K payload
  pending : ∀ s, ∀ payload ∈ S.pending s, K payload

/-- A run that goes on with what was sent. -/
structure Goes (X : RsmpExt) (engine : Bytes → σ → Int × σ) (R : SxlRegistry σ) (C : Site)
    (n₀ : Net) (vault₀ : Side → Vault) (K : Bytes → Prop) (S S' : Stack σ) : Prop where
  reached : ((quietSystem X engine R C n₀ vault₀).startingAt S).Reachable S'
  ready : StackReady X C K S'
  sent : S'.sent = S.sent
  loads : S'.loads X ≤ S.loads X

variable {K : Bytes → Prop}

theorem StackInv.ahead_eq (hS : StackInv X C S) (hup : ∀ s, (S.traffic.net.peer s).up = true)
    (s : Side) : S.ahead s = S.unread s ++ S.traffic.underway s.remote := by
  have hconserved := hS.traffic.conserved hup s.remote
  rw [Side.remote_remote] at hconserved
  have hle : (S.treated s).length ≤ (S.traffic.received s).length := by
    rw [← List.length_map Prod.fst]
    exact (hS.ordered s).length_le
  rw [Stack.ahead, ← hconserved, List.drop_append_of_le_length hle]
  rfl

theorem Stack.loads_eq (S : Stack σ) (s : Side) : S.loads X = S.load X s + S.load X s.remote := by
  cases s with
  | a => rfl
  | b => exact Nat.add_comm _ _

theorem Goes.refl (hS : StackReady X C K S) : Goes X engine R C n₀ vault₀ K S S :=
  ⟨.init rfl, hS, rfl, Nat.le_refl _⟩

theorem Goes.trans {S'' : Stack σ} (h : Goes X engine R C n₀ vault₀ K S S')
    (h' : Goes X engine R C n₀ vault₀ K S' S'') : Goes X engine R C n₀ vault₀ K S S'' :=
  ⟨h.reached.trans h'.reached, h'.ready, h'.sent.trans h.sent, h'.loads.trans h.loads⟩

/-- One step that goes on. -/
theorem Goes.one {op : StackOp} (hS : StackReady X C K S') (hclear : stackClear C S op)
    (hquiet : op.quiet = true) (hstep : StackStep X engine R C S op S') (hsent : S'.sent = S.sent)
    (hloads : S'.loads X ≤ S.loads X) : Goes X engine R C n₀ vault₀ K S S' :=
  ⟨.next (.init rfl) op ⟨hstep, hclear, hquiet⟩, hS, hsent, hloads⟩

/-! ## Going on

A run is put together from pieces: the replies of a side are sent, a direction of the connection
is emptied, a payload is treated. Each piece leaves the weight as it is or lowers it. -/

/-- The next reply of a side. -/
theorem StackReady.reply (hX : X.Lawful) (hS : StackReady X C K S) {text : Bytes}
    {rest : List Bytes} (hpending : S.pending s = text :: rest) :
    Goes X engine R C n₀ vault₀ K S (S.reply C s text rest true) := by
  have hstep : StackStep X engine R C S (.reply s true) (S.reply C s text rest true) :=
    .reply (hS.up s) hpending
  have hK := hS.pending s
  rw [hpending] at hK
  obtain ⟨htext, hrest⟩ := List.forall_mem_cons.mp hK
  have hclear : stackClear C S (.reply s true) := trivial
  have hready : StackReady X C K (S.reply C s text rest true) := by
    refine ⟨hS.inv.step hX hclear hstep, ?_, hS.free, forall_side s ?_ ?_, forall_side s ?_ ?_⟩
    · intro t
      show ((S.traffic.post C s text none true).net.peer t).up = true
      rw [net_post]
      exact hS.up t
    · intro payload hmem
      simp only [Stack.reply, posted_post, Function.update_self, List.mem_append] at hmem
      rcases hmem with hmem | hmem
      · exact hS.posted s payload hmem
      · cases htakes : S.traffic.takes C s none true
        · rw [htakes] at hmem
          cases hmem
        · rw [htakes] at hmem
          obtain rfl := List.mem_singleton.mp hmem
          exact htext
    · intro payload hmem
      simp only [Stack.reply, posted_post, update_remote] at hmem
      exact hS.posted s.remote payload hmem
    · intro payload hmem
      simp only [Stack.reply, Function.update_self] at hmem
      exact hrest payload hmem
    · intro payload hmem
      simp only [Stack.reply, update_remote] at hmem
      exact hS.pending s.remote payload hmem
  refine .one hready hclear rfl hstep rfl ?_
  -- what was queued is ahead of the other side
  have hle : (S.treated s.remote).length ≤ (S.traffic.posted s).length := by
    have hconserved := congrArg List.length (hS.inv.traffic.conserved hS.up s)
    have hordered := (hS.inv.ordered s.remote).length_le
    rw [List.length_append] at hconserved
    rw [List.length_map] at hordered
    omega
  rw [Stack.loads_eq _ s, Stack.loads_eq S s]
  have hs : (S.reply C s text rest true).ahead s = S.ahead s := by
    simp only [Stack.ahead, Stack.reply, posted_post, update_remote]
  have hr : (S.reply C s text rest true).ahead s.remote =
      S.ahead s.remote ++ bif S.traffic.takes C s none true then [text] else [] := by
    simp only [Stack.ahead, Stack.reply, posted_post, Side.remote_remote, Function.update_self]
    rw [List.drop_append_of_le_length hle]
  have hp : (S.reply C s text rest true).pending s = rest := Function.update_self ..
  have hpr : (S.reply C s text rest true).pending s.remote = S.pending s.remote :=
    update_remote ..
  simp only [Stack.load, hs, hr, hp, hpr, hpending, Dialogue.total_append, Dialogue.total_cons]
  cases S.traffic.takes C s none true <;>
    simp only [cond_true, cond_false, Dialogue.total_cons, Dialogue.total_nil] <;>
    omega

/-- A side sends all its replies. -/
theorem StackReady.flush (hX : X.Lawful) {n : Nat} (hS : StackReady X C K S)
    (hn : (S.pending s).length = n) :
    ∃ S', Goes X engine R C n₀ vault₀ K S S' ∧ S'.pending s = [] ∧
      S'.pending s.remote = S.pending s.remote := by
  induction n generalizing S with
  | zero => exact ⟨S, .refl hS, List.length_eq_zero_iff.mp hn, rfl⟩
  | succ n ih =>
    obtain ⟨text, rest, hpending⟩ := List.exists_cons_of_length_eq_add_one hn
    have hgoes : Goes X engine R C n₀ vault₀ K S (S.reply C s text rest true) :=
      hS.reply hX hpending
    have hlen : ((S.reply C s text rest true).pending s).length = n := by
      rw [hpending] at hn
      rw [Stack.reply]
      simpa using hn
    obtain ⟨S', hrest, hnil, hother⟩ := ih hgoes.ready hlen
    refine ⟨S', hgoes.trans hrest, hnil, hother.trans ?_⟩
    exact update_remote ..

/-! ### The connection is emptied

The runs of `Gateway/Vaults.lean` that carry the payloads of one side, taken as runs of the
gateways: a step of a task is a step here, and leaves the loops as they are. -/

/-- The tasks of the connection go on. -/
theorem reachable_carried {U : System (Stack σ) StackOp} {ops : List (VaultOp TrafficOp)}
    (hU : ∀ op ∈ ops, ∀ (S : Stack σ) v, S.link.apply C op = some v →
      U.step S (.carry op) { S with traffic := v.traffic, vault := v.vault })
    (hS : U.Reachable S) (h : ops.foldlM (VaultTraffic.apply C) S.link = some v') :
    U.Reachable { S with traffic := v'.traffic, vault := v'.vault } := by
  induction ops generalizing S with
  | nil =>
    cases h
    exact hS
  | cons op ops ih =>
    obtain ⟨hop, hops⟩ := List.forall_mem_cons.mp hU
    obtain ⟨v₁, happly, h⟩ := Option.bind_eq_some_iff.mp h
    exact ih (S := { S with traffic := v₁.traffic, vault := v₁.vault }) hops
      (.next hS (.carry op) (hop S v₁ happly)) h

/-- A run of the tasks that carry the payloads of a side goes on with what was sent. -/
theorem CarryOp.reachable {ops : List TrafficOp} (hops : ∀ op ∈ ops, CarryOp s op)
    (h : (ops.map VaultOp.step).foldlM (VaultTraffic.apply C) S.link = some v') :
    ((quietSystem X engine R C n₀ vault₀).startingAt S).Reachable
      { S with traffic := v'.traffic, vault := v'.vault } := by
  refine reachable_carried ?_ (.init rfl) h
  intro op hop S₁ v₁ happly
  obtain ⟨op, hmem, rfl⟩ := List.mem_map.mp hop
  have hcarry := hops op hmem
  refine ⟨.carry ?_ happly, hcarry.clear, ?_⟩
  · cases hcarry <;> rfl
  · cases hcarry <;> rfl

theorem StackInv.quiet (hX : X.Lawful) (hS : StackInv X C S)
    (h : ((quietSystem X engine R C n₀ vault₀).startingAt S).Reachable S') : StackInv X C S' := by
  apply h.invariant
  · rintro _ rfl
    exact hS
  · rintro S₁ op S₂ hS₁ ⟨hstep, hclear, -⟩
    exact hS₁.step hX hclear hstep

/-- A turn lowers what is left. -/
theorem StackReady.treat (hX : X.Lawful) (hS : StackReady X C K S)
    (hturn : ∀ h payload, K payload → ∃ outcome replies h',
      Receives X engine R h payload outcome replies h' ∧ ∀ reply ∈ replies, K reply)
    (hpending : S.pending s = []) {payload : Bytes} {rest : List Bytes}
    (hunread : S.unread s = payload :: rest) :
    ∃ S', Goes X engine R C n₀ vault₀ K S S' ∧ S'.loads X < S.loads X := by
  have hahead := hS.inv.ahead_eq hS.up s
  rw [hunread] at hahead
  -- the payload was posted by the other side, so that it is one of those that are treated
  have hmem : payload ∈ S.traffic.posted s.remote := by
    refine List.mem_of_mem_drop (i := (S.treated s).length) ?_
    change payload ∈ S.ahead s
    rw [hahead]
    exact List.mem_cons_self
  obtain ⟨outcome, replies, h, hreceives, hreplies⟩ :=
    hturn (S.host s) payload (hS.posted s.remote payload hmem)
  have hclear : stackClear C S (.treat s) := trivial
  have hstep : StackStep X engine R C S (.treat s) (S.treat s h payload outcome replies) :=
    .treat hpending hunread hreceives
  have hready : StackReady X C K (S.treat s h payload outcome replies) := by
    refine ⟨hS.inv.step hX hclear hstep, hS.up, hS.free, hS.posted, forall_side s ?_ ?_⟩
    · intro reply hmem
      simp only [Stack.treat, Function.update_self] at hmem
      exact hreplies reply hmem
    · intro reply hmem
      simp only [Stack.treat, update_remote] at hmem
      exact hS.pending s.remote reply hmem
  -- the load of this side changes by the payload and its replies, that of the other not at all
  have hlt : (S.treat s h payload outcome replies).loads X < S.loads X := by
    have hweight := hreceives.weight_lt hX
    have hs : (S.treat s h payload outcome replies).ahead s =
        rest ++ S.traffic.underway s.remote := by
      simp only [Stack.ahead, Stack.treat, Function.update_self, List.length_append,
        List.length_singleton]
      rw [← List.tail_drop]
      change (S.ahead s).tail = _
      rw [hahead]
      rfl
    have hr : (S.treat s h payload outcome replies).ahead s.remote = S.ahead s.remote := by
      simp only [Stack.ahead, Stack.treat, update_remote]
    have hp : (S.treat s h payload outcome replies).pending s = replies := Function.update_self ..
    have hpr : (S.treat s h payload outcome replies).pending s.remote = S.pending s.remote :=
      update_remote ..
    rw [Stack.loads_eq _ s, Stack.loads_eq S s]
    simp only [Stack.load, hs, hr, hp, hpr, hahead, hpending, Dialogue.total_append,
      Dialogue.total_cons, Dialogue.total_nil]
    omega
  exact ⟨_, .one hready hclear rfl hstep rfl (Nat.le_of_lt hlt), hlt⟩

end RsmpGateway.Gateway
