import RsmpGateway.Lib.Fifo
import RsmpGateway.Lib.Text
import RsmpGateway.Sync.LdcMutex

/-!
# Message queues

`queue.c`: queues of messages whose entries come from one list of unused entries. Each queue
gives its messages in the order of their pushes, each of them once, unless a flush discards it;
its semaphore counts what it holds (`queue_run`). A message of length zero loses its buffer.

The links and the entries are followed on the heap: which list a node is in, what its entry
holds, and which entries are unused. An entry is recycled by a pull, and used again by the next
push. What the heap comes to is a family of queues of values (`Lib/Fifo.lean`).
-/

namespace RsmpGateway.Sync

open RsmpGateway.Lib

/-- `queue_msg_t`. The buffer has at least `length` bytes; `μ` are the places a pointer can
point to. -/
structure QueueMsg (μ : Type) where
  buf : Option Bytes
  length : Nat
  prio : UInt32
  flagDoEncrypt : Bool
  mark : Option μ
  attrib : Option μ
  deriving DecidableEq

/-- The queues in memory: what their entries hold, the list of unused entries (`none`), and the
list and the semaphore of each queue. -/
structure Queues (ν ι μ : Type) where
  links : Links ν
  msgs : ν → QueueMsg μ
  lists : Option ι → LdcMutex ν
  sem : ι → Nat

/-! ## Functions

Every function takes the lock of the queue first and holds it to its end, so that a call is one
step. -/

section Functions

variable {ν ι μ : Type} [DecidableEq ν] [DecidableEq ι] (D : LdcLib ν) (s : Queues ν ι μ)

/-- The links and one list are those that a function of `ldc-mutex.c` leaves. -/
def Queues.setList (i : Option ι) (L : Links ν) (list : LdcMutex ν) : Queues ν ι μ :=
  { s with links := L, lists := Function.update s.lists i list }

/-- `queue_msg_insert` -/
def queueMsgInsert (i : Option ι) (item : Option ν) : Option ν × Queues ν ι μ :=
  match item with
  | none => (none, s)
  | some item =>
    let (_, L, list) := ldcMutexInsertCmp D s.links (s.lists i) (some item) none
    (some item, s.setList i L list)

/-- `queue_msg_extract` -/
def queueMsgExtract (i : Option ι) : Option ν × Queues ν ι μ :=
  let (node, L, list) := ldcMutexExtract D s.links (s.lists i)
  (node, s.setList i L list)

/-- The buffer of a new entry. `none` when a clone cannot be allocated. -/
def queueMsgBuf (msg : QueueMsg μ) (clone allocated : Bool) : Option (Option Bytes) :=
  if msg.length = 0 then some none
  else
    match msg.buf with
    | none => some none
    | some buf =>
      if !clone then some (some buf)
      else if allocated then some (some (buf.take msg.length))
      else none

/-- `queue_msg_new`: `calloc` is the entry that is allocated where none is unused, `allocated`
tells whether a clone can be. -/
def queueMsgNew (msg : QueueMsg μ) (clone : Bool) (calloc : Option ν) (allocated : Bool) :
    Option ν × Queues ν ι μ :=
  let (unused, s) := queueMsgExtract D s none
  match unused.or calloc with
  | none => (none, s)
  | some item =>
    let s := { s with links := D.ldcInitialize s.links item }
    match queueMsgBuf msg clone allocated with
    | some buf =>
      (some item, { s with msgs := Function.update s.msgs item { msg with buf := buf } })
    | none => (none, s)

/-- `queue_msg_recycle`: the attribute stays. -/
def queueMsgRecycle (item : ν) : Queues ν ι μ :=
  let s := { s with
    links := D.ldcSuppress s.links item
    msgs := Function.update s.msgs item
      ⟨none, 0, 0, true, none, (s.msgs item).attrib⟩ }
  (queueMsgInsert D s none (some item)).2

/-- `__no` -/
def Queues.no (q : ι) : Nat := ldcMutexNo (s.lists (some q))

/-- `__pull`: `granted` tells whether the semaphore is, or the time is out. -/
def Queues.pull (q : ι) (granted : Bool) : Option (QueueMsg μ) × Queues ν ι μ :=
  if granted then
    let s := { s with sem := Function.update s.sem q (s.sem q - 1) }
    match queueMsgExtract D s (some q) with
    | (some item, s) => (some (s.msgs item), queueMsgRecycle D s item)
    | (none, s) => (none, s)
  else (none, s)

/-- `__push` -/
def Queues.push (q : ι) (msg : QueueMsg μ) (clone : Bool) (calloc : Option ν) (allocated : Bool) :
    Bool × Queues ν ι μ :=
  let (item, s) := queueMsgNew D s msg clone calloc allocated
  match queueMsgInsert D s (some q) item with
  | (some _, s) => (true, { s with sem := Function.update s.sem q (s.sem q + 1) })
  | (none, s) => (false, s)

/-- `__flush`: the entries are recycled. `none` when the fuel is out. -/
def Queues.flush (q : ι) (fuel : Nat) : Option (Nat × Queues ν ι μ) := do
  let (n, s, list) ← ldcMutexFlush D (s.lists (some q)) Queues.links
    (fun s L => { s with links := L }) (fun node s => queueMsgRecycle D s node) fuel s
  return (n, { s with
    lists := Function.update s.lists (some q) list
    sem := Function.update s.sem q 0 })

end Functions

/-! ## Runs

Any number of queues on one heap, which threads call in any order. -/

section Runs

variable {ν ι μ : Type} [DecidableEq ν] [DecidableEq ι] (D : LdcLib ν)

def Queues.root (s : Queues ν ι μ) (i : Option ι) : ν := (s.lists i).root

/-- A memory that holds no entry. -/
def Queues.Unlinked (s : Queues ν ι μ) (n : ν) : Prop :=
  ∀ i ns, s.links.Ring (s.root i) ns → n ∉ s.root i :: ns

/-- A push is given a message, and told whether to clone its buffer. -/
abbrev QueueEvent (ι μ : Type) := FifoEvent ι (QueueMsg μ × Bool) (QueueMsg μ)

/-- The calls on the queues, as whole steps, from their creation. The semaphore is a counter: it
is granted only when it is positive. -/
def queueSystem (ι μ : Type) [DecidableEq ι] : System (Queues ν ι μ) (QueueEvent ι μ) where
  init s :=
    (∀ i, s.links.Alone (s.root i) ∧ (s.lists i).no = 0) ∧ s.root.Injective ∧ ∀ q, s.sem q = 0
  step s e s' :=
    match e with
    | .push q (msg, clone) ok => ∃ calloc allocated, (∀ n, calloc = some n → s.Unlinked n) ∧
        s.push D q msg clone calloc allocated = (ok, s')
    | .pull q r => ∃ granted, (granted = true → 0 < s.sem q) ∧ s.pull D q granted = (r, s')
    | .flush q n => ∃ fuel, s.flush D q fuel = some (n, s')
    | .count q n => s.no q = n ∧ s' = s

/-- What a queue holds of a message: the bytes of a clone are those that the length counts. -/
def QueueMsg.own (m : QueueMsg μ × Bool) : QueueMsg μ :=
  { m.1 with buf := if m.2 then m.1.buf.map (List.take m.1.length) else m.1.buf }

/-- The same, without a buffer where the length is zero. -/
def QueueMsg.queued (m : QueueMsg μ × Bool) : QueueMsg μ :=
  { QueueMsg.own m with buf := if m.1.length = 0 then none else (QueueMsg.own m).buf }

/-- A queue holds `held`: the entries of its list, the oldest first, its semaphore and its
count. -/
structure Queues.Holds (s : Queues ν ι μ) (q : ι) (held : List (QueueMsg μ)) : Prop where
  entries : ∃ ns, s.links.Ring (s.root (some q)) ns ∧ ns.map s.msgs = held
  sem : s.sem q = held.length
  no : s.no q = held.length

end Runs

/-! ## Links

The list of each queue is a circular one, and the queues are apart from each other. -/

section Lists

variable {ν ι μ : Type} [DecidableEq ι] {D : LdcLib ν} (hD : D.Lawful) {L : Links ν}
  {roots : Option ι → ν} {nodes : Option ι → List ν} {i : Option ι} {n : ν}

include hD

/-- The first entry of a list is taken out. -/
theorem rings_suppress {ns : List ν} (h : L.Rings roots nodes) (hi : nodes i = n :: ns) :
    (D.ldcSuppress L n).Rings roots (Function.update nodes i ns) ∧ (D.ldcSuppress L n).Alone n ∧
      Links.Free roots (Function.update nodes i ns) n := by
  have hcut : L.Ring (roots i) ([] ++ n :: ns) := by
    have hring := h.ring i
    rwa [hi] at hring
  obtain ⟨hring, halone, hsame⟩ := hD.suppress hcut
  have hcut' : nodes i = [] ++ n :: ns := hi
  refine ⟨h.update hring hsame ?_, halone, h.free_of_cut hcut'⟩
  intro m hm
  left
  rw [hi]
  simp only [List.nil_append, List.mem_append, List.mem_cons] at hm ⊢
  tauto

/-- An entry that is in no list is put at the end of one. -/
theorem rings_insert (h : L.Rings roots nodes) (halone : L.Alone n)
    (hfree : Links.Free roots nodes n) :
    (D.ldcInsert L (roots i) n).Rings roots (Function.update nodes i (nodes i ++ [n])) := by
  obtain ⟨hring, hsame⟩ := hD.insert (h.ring i) halone (hfree i)
  apply h.update hring hsame
  intro m hm
  simp only [List.mem_append, List.mem_cons, List.not_mem_nil, or_false] at hm
  by_cases hmn : m = n
  · exact .inr (hmn ▸ hfree)
  · left
    rw [List.mem_cons]
    tauto

omit hD [DecidableEq ι] in
/-- The links of an entry that is in no list make no difference. -/
theorem rings_free {L' : Links ν} (h : L.Rings roots nodes) (hfree : Links.Free roots nodes n)
    (hsame : L.SameBut L' [n]) : L'.Rings roots nodes := by
  refine ⟨?_, h.apart⟩
  intro j
  apply (h.ring j).of_sameBut hsame
  intro m hm
  rw [List.mem_singleton.mp hm]
  exact hfree j

end Lists

/-! ## Entries

An entry is taken by a push, from the unused ones or from the allocator, and is one of the unused
again after the pull that takes it. -/

/-- The entries of each list, which no two lists share, and their numbers. -/
structure Queues.Has {ν ι μ : Type} (s : Queues ν ι μ) (nodes : Option ι → List ν) : Prop where
  rings : s.links.Rings s.root nodes
  no : ∀ i, (s.lists i).no = (nodes i).length

section Entries

variable {ν ι μ : Type} [DecidableEq ι] {D : LdcLib ν} {s : Queues ν ι μ}
  {nodes : Option ι → List ν} {i : Option ι} {n : ν}

/-! ### Lists that change

What a function of `ldc-mutex.c` leaves is written back to one list. The entries of the others are
those that they were, since the links that have changed are not theirs. -/

theorem setList_root (L : Links ν) (no : Nat) : (s.setList i L ⟨s.root i, no⟩).root = s.root := by
  funext j
  show (Function.update s.lists i ⟨s.root i, no⟩ j).root = s.root j
  by_cases hj : j = i
  · subst hj
    rw [Function.update_self]
  · rw [Function.update_of_ne hj]
    rfl

/-- One list changes, and its number with it. -/
theorem Queues.Has.setList {L : Links ν} {ns : List ν} {no : Nat} (h : s.Has nodes)
    (hno : no = ns.length) (hrings : L.Rings s.root (Function.update nodes i ns)) :
    (s.setList i L ⟨s.root i, no⟩).Has (Function.update nodes i ns) := by
  constructor
  · rwa [setList_root]
  · intro j
    show (Function.update s.lists i ⟨s.root i, no⟩ j).no = _
    by_cases hj : j = i
    · subst hj
      rw [Function.update_self, Function.update_self, hno]
    · rw [Function.update_of_ne hj, Function.update_of_ne hj]
      exact h.no j

/-- An entry goes to the end of a list. -/
theorem Queues.Has.insert (hD : D.Lawful) (h : s.Has nodes) (halone : s.links.Alone n)
    (hfree : Links.Free s.root nodes n) :
    (queueMsgInsert D s i (some n)).2.Has (Function.update nodes i (nodes i ++ [n])) := by
  refine h.setList ?_ (rings_insert hD h.rings halone hfree)
  rw [h.no i, List.length_append, List.length_singleton]

section Extract

variable (hD : D.Lawful) (h : s.Has nodes)

include hD h

theorem extract_nil (hi : nodes i = []) : queueMsgExtract D s i = (none, s) := by
  have halone : s.links.Alone (s.lists i).root := by
    have hring := h.rings.ring i
    rw [hi] at hring
    exact Links.ring_nil.mp hring
  rw [queueMsgExtract, ldcMutexExtract, if_pos (hD.isEmpty_alone halone)]
  simp [Queues.setList]

theorem extract_cons {ns : List ν} (hi : nodes i = n :: ns) :
    queueMsgExtract D s i =
      (some n, s.setList i (D.ldcSuppress s.links n) ⟨s.root i, ns.length⟩) := by
  have hring : s.links.Ring (s.lists i).root (n :: ns) := hi ▸ h.rings.ring i
  have hlinked := hD.isEmpty_linked hring List.mem_cons_self (List.cons_ne_nil n ns)
  have hnext : s.links.next (s.lists i).root = n := hring.next_root
  have hno : (s.lists i).no - 1 = ns.length := by
    rw [h.no i, hi, List.length_cons, Nat.add_sub_cancel]
  rw [queueMsgExtract, ldcMutexExtract, hlinked, if_neg Bool.false_ne_true, hnext, ← hno]
  rfl

end Extract

omit [DecidableEq ι] in
/-- What an entry that is in no list holds makes no difference. -/
theorem map_msgs [DecidableEq ν] {msgs : ν → QueueMsg μ} {roots : Option ι → ν} (m : QueueMsg μ)
    (hfree : Links.Free roots nodes n) (i : Option ι) :
    (nodes i).map (Function.update msgs n m) = (nodes i).map msgs := by
  apply List.map_congr_left
  intro k hk
  apply Function.update_of_ne
  rintro rfl
  exact hfree i (List.mem_cons_of_mem _ hk)

/-- An entry is recycled: it goes to the end of the unused ones. -/
theorem recycle_eq [DecidableEq ν] (D : LdcLib ν) (s : Queues ν ι μ) (n : ν) :
    queueMsgRecycle D s n =
      { s with
        links := D.ldcInsert (D.ldcSuppress s.links n) (s.root none) n
        msgs := Function.update s.msgs n ⟨none, 0, 0, true, none, (s.msgs n).attrib⟩
        lists := Function.update s.lists none ⟨s.root none, (s.lists none).no + 1⟩ } :=
  rfl

/-- The queues by what their entries hold, when one list changes. -/
theorem held_update {msgs : ν → QueueMsg μ} {t : ι → List (QueueMsg μ)} {q : ι} {ns : List ν}
    (h : ∀ p, (nodes (some p)).map msgs = t p) (p : ι) :
    (Function.update nodes (some q) ns (some p)).map msgs =
      Function.update t q (ns.map msgs) p := by
  by_cases hp : p = q
  · subst hp
    rw [Function.update_self, Function.update_self]
  · rw [Function.update_of_ne (by simpa using hp), Function.update_of_ne hp, h]

theorem sem_update {sem : ι → Nat} {t : ι → List (QueueMsg μ)} {q : ι} {k : Nat}
    {ms : List (QueueMsg μ)} (h : ∀ p, sem p = (t p).length) (hk : k = ms.length) (p : ι) :
    Function.update sem q k p = (Function.update t q ms p).length := by
  by_cases hp : p = q
  · subst hp
    rw [Function.update_self, Function.update_self, hk]
  · rw [Function.update_of_ne hp, Function.update_of_ne hp, h]

end Entries

/-! ## What the calls do

Each call is one of the queue of values of `Lib/Fifo.lean`: a push, a pull or a flush. -/

/-! ### Messages

Values instead of entries: `t` gives the messages of each queue. What an entry holds is forgotten
when it is recycled, so the entries that are unused hold nothing that counts. -/

/-- The queues hold these messages, and their semaphores count them. -/
structure Represents {ν ι μ : Type} (s : Queues ν ι μ) (t : ι → List (QueueMsg μ)) : Prop where
  has : ∃ nodes, s.Has nodes ∧ ∀ q, (nodes (some q)).map s.msgs = t q
  sem : ∀ q, s.sem q = (t q).length

section Calls

theorem Represents.holds {ν ι μ : Type} {s : Queues ν ι μ} {t : ι → List (QueueMsg μ)}
    (h : Represents s t) (q : ι) :
    s.Holds q (t q) := by
  obtain ⟨⟨nodes, hhas, hheld⟩, hsem⟩ := h
  refine ⟨⟨nodes (some q), hhas.rings.ring (some q), hheld q⟩, hsem q, ?_⟩
  show (s.lists (some q)).no = _
  rw [hhas.no, ← hheld, List.length_map]

variable {ν ι μ : Type} [DecidableEq ν] [DecidableEq ι] {D : LdcLib ν} {s : Queues ν ι μ}
  {nodes : Option ι → List ν} {n : ν}

theorem queueMsgBuf_eq {msg : QueueMsg μ} {clone allocated : Bool} {buf : Option Bytes}
    (h : queueMsgBuf msg clone allocated = some buf) :
    { msg with buf := buf } = QueueMsg.queued (msg, clone) := by
  rw [queueMsgBuf] at h
  split at h
  case isTrue hlength =>
    cases h
    simp [QueueMsg.queued, QueueMsg.own, hlength]
  case isFalse hlength =>
    split at h
    case h_1 hnone =>
      cases h
      simp [QueueMsg.queued, QueueMsg.own, hnone]
    case h_2 bytes hsome =>
      cases clone with
      | false =>
        cases h
        simp [QueueMsg.queued, QueueMsg.own, hsome, hlength]
      | true =>
        cases allocated with
        | false => cases h
        | true =>
          cases h
          simp [QueueMsg.queued, QueueMsg.own, hsome, hlength]

variable (hD : D.Lawful)

include hD

/-! ### A message that is new

`queue_msg_new` takes the entry before it looks for a buffer. If the clone cannot be allocated the
entry is in no list any more: it is lost to the unused ones, and the queues hold what they held. -/

omit [DecidableEq ν] in
/-- The entry of a new message is in no list, whether it was unused or is allocated. -/
theorem unused_or_calloc {calloc : Option ν} (h : s.Has nodes)
    (hcalloc : ∀ n, calloc = some n → Links.Free s.root nodes n) :
    ∃ s' nodes', (queueMsgExtract D s none).2 = s' ∧ s'.Has nodes' ∧ s'.root = s.root ∧
      (∀ q, nodes' (some q) = nodes (some q)) ∧ s'.msgs = s.msgs ∧ s'.sem = s.sem ∧
        ∀ n, (queueMsgExtract D s none).1.or calloc = some n → Links.Free s.root nodes' n := by
  cases hunused : nodes none with
  | nil =>
    rw [extract_nil hD h hunused]
    exact ⟨s, nodes, rfl, h, rfl, fun _ => rfl, rfl, rfl, hcalloc⟩
  | cons u us =>
    rw [extract_cons hD h hunused]
    obtain ⟨hrings, -, hfree⟩ := rings_suppress hD h.rings hunused
    refine ⟨_, Function.update nodes none us, rfl, h.setList rfl hrings, setList_root _ _, ?_, rfl,
      rfl, ?_⟩
    · intro q
      exact Function.update_of_ne (Option.some_ne_none q) us nodes
    · rintro m ⟨⟩
      exact hfree

/-- A new message is in no list yet, and its entry holds that message. -/
structure NewEntry (s : Queues ν ι μ) (t : ι → List (QueueMsg μ)) (n : ν) (m : QueueMsg μ)
    (nodes : Option ι → List ν) : Prop where
  has : s.Has nodes
  alone : s.links.Alone n
  free : Links.Free s.root nodes n
  held : ∀ q, (nodes (some q)).map s.msgs = t q
  msg : s.msgs n = m

theorem new_represents {t : ι → List (QueueMsg μ)} {msg : QueueMsg μ} {clone allocated : Bool}
    {calloc item : Option ν} {s' : Queues ν ι μ} (h : Represents s t)
    (hcalloc : ∀ n, calloc = some n → s.Unlinked n)
    (hnew : queueMsgNew D s msg clone calloc allocated = (item, s')) :
    s'.sem = s.sem ∧
      match item with
      | none => Represents s' t
      | some n => ∃ nodes, NewEntry s' t n (QueueMsg.queued (msg, clone)) nodes := by
  obtain ⟨⟨nodes, hhas, hheld⟩, hsem⟩ := h
  have hfree : ∀ n, calloc = some n → Links.Free s.root nodes n :=
    fun n hn i => hcalloc n hn i (nodes i) (hhas.rings.ring i)
  obtain ⟨s₁, nodes₁, hextract, hhas₁, hroot, hnodes, hmsgs, hsem₁, hitem⟩ :=
    unused_or_calloc hD hhas hfree
  have hheld₁ : ∀ q, (nodes₁ (some q)).map s₁.msgs = t q := by
    intro q
    rw [hnodes, hmsgs, hheld]
  rw [queueMsgNew] at hnew
  generalize queueMsgExtract D s none = r at *
  obtain ⟨unused, s₂⟩ := r
  obtain rfl : s₂ = s₁ := hextract
  simp only at hnew hitem
  cases hor : unused.or calloc with
  | none =>
    rw [hor] at hnew
    cases hnew
    exact ⟨hsem₁, ⟨nodes₁, hhas₁, hheld₁⟩, fun q => hsem₁ ▸ hsem q⟩
  | some n =>
    have hn : Links.Free s₂.root nodes₁ n := hroot ▸ hitem n hor
    obtain ⟨halone, hsame⟩ := hD.made_alone (L := s₂.links) (n := n)
    have hrings := rings_free hhas₁.rings hn hsame
    rw [hor] at hnew
    cases hbuf : queueMsgBuf msg clone allocated with
    | none =>
      simp only [hbuf] at hnew
      cases hnew
      exact ⟨hsem₁, ⟨nodes₁, ⟨hrings, hhas₁.no⟩, hheld₁⟩, fun q => hsem₁ ▸ hsem q⟩
    | some buf =>
      simp only [hbuf] at hnew
      cases hnew
      refine ⟨hsem₁, nodes₁, ⟨hrings, hhas₁.no⟩, halone, hn, ?_, ?_⟩
      · intro q
        rw [← hheld₁]
        exact map_msgs _ hn (some q)
      · exact (Function.update_self ..).trans (queueMsgBuf_eq hbuf)

/-- **A push.** -/
theorem push_represents {t : ι → List (QueueMsg μ)} {q : ι} {msg : QueueMsg μ}
    {clone allocated ok : Bool} {calloc : Option ν} {s' : Queues ν ι μ} (h : Represents s t)
    (hcalloc : ∀ n, calloc = some n → s.Unlinked n)
    (hpush : s.push D q msg clone calloc allocated = (ok, s')) :
    Represents s'
      (if ok then Function.update t q (t q ++ [QueueMsg.queued (msg, clone)]) else t) := by
  cases hnew : queueMsgNew D s msg clone calloc allocated with
  | mk item s₁ =>
    obtain ⟨hsem, hentry⟩ := new_represents hD h hcalloc hnew
    rw [Queues.push, hnew] at hpush
    cases item with
    | none =>
      cases hpush
      exact hentry
    | some n =>
      cases hpush
      obtain ⟨nodes, hhas, halone, hfree, hheld, hmsg⟩ := hentry
      have hinsert := hhas.insert hD (i := some q) halone hfree
      rw [if_pos rfl]
      refine ⟨⟨_, ⟨hinsert.rings, hinsert.no⟩, ?_⟩, ?_⟩
      · have hlast : (nodes (some q) ++ [n]).map s₁.msgs =
            t q ++ [QueueMsg.queued (msg, clone)] := by
          rw [List.map_append, hheld, List.map_singleton, hmsg]
        rw [← hlast]
        exact held_update hheld
      · apply sem_update (fun p => hsem ▸ h.sem p)
        rw [List.length_append, List.length_singleton, ← h.sem q, ← hsem]
        rfl

/-! ### Pulled and flushed

An entry that leaves its queue goes to the end of the unused ones. A flush does this for each
entry in turn, until its list is empty, and sets the semaphore to zero. -/

omit [DecidableEq ν] in
theorem rings_recycle {roots : Option ι → ν} {L : Links ν} (h : L.Rings roots nodes)
    (halone : L.Alone n) (hfree : Links.Free roots nodes n) :
    (D.ldcInsert (D.ldcSuppress L n) (roots none) n).Rings roots
      (Function.update nodes none (nodes none ++ [n])) := by
  obtain ⟨halone', hsame⟩ := hD.suppress_alone halone
  exact rings_insert hD (rings_free h hfree hsame) halone' hfree

theorem Queues.Has.recycle (h : s.Has nodes) (halone : s.links.Alone n)
    (hfree : Links.Free s.root nodes n) :
    (queueMsgRecycle D s n).Has (Function.update nodes none (nodes none ++ [n])) := by
  have hno : (s.lists none).no + 1 = (nodes none ++ [n]).length := by
    rw [h.no none, List.length_append, List.length_singleton]
  have hset := h.setList hno (rings_recycle hD h.rings halone hfree)
  exact ⟨hset.rings, hset.no⟩

/-- **A pull.** -/
theorem pull_represents {t : ι → List (QueueMsg μ)} {q : ι} {granted : Bool}
    {r : Option (QueueMsg μ)} {s' : Queues ν ι μ} (h : Represents s t)
    (hgranted : granted = true → 0 < s.sem q) (hpull : s.pull D q granted = (r, s')) :
    (granted = true → r = (t q).head?) ∧
      match r with
      | some m => ∃ rest, t q = m :: rest ∧ Represents s' (Function.update t q rest)
      | none => Represents s' t := by
  cases granted with
  | false =>
    cases hpull
    exact ⟨fun hfalse => absurd hfalse Bool.false_ne_true, h⟩
  | true =>
    obtain ⟨⟨nodes, hhas, hheld⟩, hsem⟩ := h
    have hpos := hgranted rfl
    rw [hsem q, ← hheld q, List.length_map] at hpos
    obtain ⟨n, ns, hns⟩ := List.exists_cons_of_length_pos hpos
    let s₁ : Queues ν ι μ := { s with sem := Function.update s.sem q (s.sem q - 1) }
    have hhas₁ : s₁.Has nodes := ⟨hhas.rings, hhas.no⟩
    have hextract := extract_cons hD hhas₁ hns
    obtain ⟨hrings, halone, hfree⟩ := rings_suppress hD hhas₁.rings hns
    let s₂ := s₁.setList (some q) (D.ldcSuppress s₁.links n) ⟨s₁.root (some q), ns.length⟩
    have hpulled : s.pull D q true = (some (s.msgs n), queueMsgRecycle D s₂ n) := by
      rw [Queues.pull, if_pos rfl]
      dsimp only
      rw [hextract]
      rfl
    rw [hpulled] at hpull
    cases hpull
    have hhas₂ : s₂.Has (Function.update nodes (some q) ns) := hhas₁.setList rfl hrings
    have hroot : s₂.root = s₁.root := setList_root _ _
    rw [← hroot] at hfree
    have hrecycled := hhas₂.recycle hD halone hfree
    have hheads : t q = s.msgs n :: ns.map s.msgs := by rw [← hheld q, hns, List.map_cons]
    refine ⟨fun _ => by rw [hheads]; rfl, ns.map s.msgs, hheads, ⟨_, hrecycled, ?_⟩, ?_⟩
    · intro p
      rw [Function.update_of_ne (Option.some_ne_none p), ← held_update hheld p]
      exact map_msgs _ hfree (some p)
    · apply sem_update hsem
      rw [hsem q, ← hheld q, hns, List.length_map, List.length_map, List.length_cons,
        Nat.add_sub_cancel]

/-- A queue that is being flushed: `ns` are left, the others are unused. -/
structure Flushing (s : Queues ν ι μ) (t : ι → List (QueueMsg μ)) (q : ι) (ns : List ν)
    (s' : Queues ν ι μ) (nodes : Option ι → List ν) : Prop where
  rings : s'.links.Rings s.root nodes
  left : nodes (some q) = ns
  held : ∀ p ≠ q, (nodes (some p)).map s'.msgs = t p
  lists : s'.lists = Function.update s.lists none ⟨s.root none, (nodes none).length⟩
  sem : s'.sem = s.sem

/-- The first entry that is left becomes unused. -/
theorem Flushing.step {t : ι → List (QueueMsg μ)} {q : ι} {ns : List ν} {s' : Queues ν ι μ}
    (h : Flushing s t q (n :: ns) s' nodes) :
    ∃ nodes', Flushing s t q ns
      (queueMsgRecycle D { s' with links := D.ldcSuppress s'.links n } n) nodes' := by
  obtain ⟨hrings, halone, hfree⟩ := rings_suppress hD h.rings h.left
  have hroot : s'.root none = s.root none := by
    rw [Queues.root, h.lists, Function.update_self]
  let nodes₁ := Function.update nodes (some q) ns
  refine ⟨Function.update nodes₁ none (nodes₁ none ++ [n]), ?_, ?_, ?_, ?_, h.sem⟩
  · have hrecycled := rings_recycle hD hrings halone hfree
    rw [← hroot] at hrecycled
    exact hrecycled
  · rw [Function.update_of_ne (Option.some_ne_none q)]
    exact Function.update_self ..
  · intro p hp
    have hother : nodes₁ (some p) = nodes (some p) :=
      Function.update_of_ne (by simpa using hp) ..
    rw [Function.update_of_ne (Option.some_ne_none p), ← h.held p hp, ← hother]
    exact map_msgs _ hfree (some p)
  · have hunused : nodes₁ none = nodes none := Function.update_of_ne (Option.some_ne_none q).symm ..
    rw [recycle_eq, Function.update_self, hunused, List.length_append, List.length_singleton]
    show Function.update s'.lists none ⟨s'.root none, (s'.lists none).no + 1⟩ = _
    rw [hroot, h.lists, Function.update_self, Function.update_idem]

/-- **A flush** empties its queue, and ends. -/
theorem flush_represents {t : ι → List (QueueMsg μ)} (h : Represents s t) (q : ι) :
    ∃ s', Represents s' (Function.update t q []) ∧ ∀ fuel,
      s.flush D q fuel = if (t q).length < fuel then some ((t q).length, s') else none := by
  obtain ⟨⟨nodes, hhas, hheld⟩, hsem⟩ := h
  have hlength : ∀ p, (nodes (some p)).length = (t p).length := by
    intro p
    rw [← hheld p, List.length_map]
  -- the loop recycles one entry after the other, and keeps all other queues
  have hstart : Flushing s t q (nodes (some q)) s nodes := by
    refine ⟨hhas.rings, rfl, fun p _ => hheld p, ?_, rfl⟩
    rw [← hhas.no none]
    exact (Function.update_eq_self none s.lists).symm
  obtain ⟨s₁, ⟨nodes₁, hend⟩, hloop⟩ := flushLoop_rule hD Queues.links
    (fun s L => { s with links := L }) (fun node s => queueMsgRecycle D s node)
    (s.lists (some q)).root (fun ns s' => ∃ nodes', Flushing s t q ns s' nodes')
    (fun ⟨_, hflush⟩ => hflush.left ▸ hflush.rings.ring (some q))
    (fun ⟨_, hflush⟩ => hflush.step hD) ⟨nodes, hstart⟩
  -- the number of the list and the semaphore are set to zero after the loop
  let list : LdcMutex ν := ⟨s.root (some q), 0⟩
  let s₂ : Queues ν ι μ := { s₁ with
    lists := Function.update s₁.lists (some q) list
    sem := Function.update s₁.sem q 0 }
  have hlists : s₂.lists = Function.update (Function.update s.lists none
      ⟨s.root none, (nodes₁ none).length⟩) (some q) list :=
    congrArg (Function.update · (some q) list) hend.lists
  have hroot : s₂.root = s.root := by
    funext i
    rw [Queues.root, hlists]
    rcases i with _ | p
    · rw [Function.update_of_ne (Option.some_ne_none q).symm, Function.update_self]
    · by_cases hp : p = q
      · rw [hp, Function.update_self]
      · rw [Function.update_of_ne (by simpa using hp), Function.update_of_ne (by simp)]
        rfl
  refine ⟨s₂, ⟨⟨nodes₁, ⟨?_, ?_⟩, ?_⟩, ?_⟩, ?_⟩
  · rw [hroot]
    exact hend.rings
  · intro i
    rw [hlists]
    rcases i with _ | p
    · rw [Function.update_of_ne (Option.some_ne_none q).symm, Function.update_self]
    · by_cases hp : p = q
      · rw [hp, Function.update_self, hend.left]
        rfl
      · rw [Function.update_of_ne (by simpa using hp), Function.update_of_ne (by simp), hhas.no,
          hlength, ← hend.held p hp, List.length_map]
  · intro p
    by_cases hp : p = q
    · rw [hp, hend.left, Function.update_self]
      rfl
    · rw [Function.update_of_ne hp]
      exact hend.held p hp
  · exact sem_update (fun p => hend.sem ▸ hsem p) rfl
  · intro fuel
    rw [Queues.flush, ldcMutexFlush, hloop, hlength, hhas.no, hlength]
    split
    · rfl
    · rfl

/-! ### Every run

The step lemma for all calls, and its run. The statement about a single pull reads the run at its
last step. -/

omit hD in
/-- At the creation the queues are empty. -/
theorem init_represents (h : (queueSystem D ι μ).init s) : Represents s fun _ => [] := by
  obtain ⟨hlists, hroots, hsem⟩ := h
  refine ⟨⟨fun _ => [], ⟨⟨?_, ?_⟩, ?_⟩, fun _ => rfl⟩, hsem⟩
  · exact fun i => Links.ring_nil.mpr (hlists i).1
  · intro i j hij n hi hj
    exact hij (hroots ((List.mem_singleton.mp hi).symm.trans (List.mem_singleton.mp hj)))
  · exact fun i => (hlists i).2

/-- The queues refine the abstract ones. -/
theorem step_represents {t : ι → List (QueueMsg μ)} {e : QueueEvent ι μ} {s' : Queues ν ι μ}
    (h : Represents s t) (hstep : (queueSystem D ι μ).step s e s') :
    ∃ t', (fifo QueueMsg.queued).step t e t' ∧ Represents s' t' := by
  cases e with
  | push q m ok =>
    obtain ⟨calloc, allocated, hcalloc, hpush⟩ := hstep
    exact ⟨_, rfl, push_represents hD h hcalloc hpush⟩
  | pull q r =>
    obtain ⟨granted, hgranted, hpull⟩ := hstep
    obtain ⟨-, hrep⟩ := pull_represents hD h hgranted hpull
    cases r with
    | none => exact ⟨t, rfl, hrep⟩
    | some m =>
      obtain ⟨rest, hheld, hrep⟩ := hrep
      exact ⟨_, ⟨rest, hheld, rfl⟩, hrep⟩
  | flush q n =>
    obtain ⟨fuel, hflush⟩ := hstep
    obtain ⟨s₁, hrep, hends⟩ := flush_represents hD h q
    rw [hends] at hflush
    split at hflush
    · cases hflush
      exact ⟨_, ⟨rfl, rfl⟩, hrep⟩
    · cases hflush
  | count q n =>
    obtain ⟨rfl, rfl⟩ := hstep
    exact ⟨t, ⟨(h.holds q).no, rfl⟩, h⟩

theorem run_represents {es : List (QueueEvent ι μ)} (hrun : (queueSystem D ι μ).Run es s) :
    ∃ t, (fifo QueueMsg.queued).Run es t ∧ Represents s t :=
  hrun.simulate (fun _ hs => ⟨_, fun _ => rfl, init_represents hs⟩)
    fun h hstep => step_represents hD h hstep

/-- **The queues.** After any calls on any number of them, each queue holds, in order, what it took
and has neither delivered nor discarded; its semaphore and its count tell how much that is, and
its flush ends. -/
theorem queue_run {es : List (QueueEvent ι μ)} (hrun : (queueSystem D ι μ).Run es s) (q : ι) :
    ∃ held, s.Holds q held ∧ Delivers QueueMsg.queued q es held ∧
      ∀ fuel, held.length < fuel → ∃ s', s.flush D q fuel = some (held.length, s') := by
  obtain ⟨t, hfifo, hrep⟩ := run_represents hD hrun
  obtain ⟨s', -, hends⟩ := flush_represents hD hrep q
  refine ⟨t q, hrep.holds q, fifo_delivers hfifo q, ?_⟩
  intro fuel hfuel
  exact ⟨s', by rw [hends, if_pos hfuel]⟩

/-- What a pull gives when it is granted wherever the semaphore is positive. -/
theorem pull_oldest {es : List (QueueEvent ι μ)} (hrun : (queueSystem D ι μ).Run es s) {q : ι}
    {held : List (QueueMsg μ)} (h : s.Holds q held) :
    (s.pull D q (0 < s.sem q)).1 = held.head? := by
  obtain ⟨t, -, hrep⟩ := run_represents hD hrun
  obtain ⟨⟨ns, hns, hmap⟩, hsem, -⟩ := h
  obtain ⟨⟨ms, hms, hmap'⟩, hsem', -⟩ := hrep.holds q
  obtain rfl := hns.unique hms
  obtain rfl : held = t q := hmap.symm.trans hmap'
  by_cases hpos : 0 < s.sem q
  · exact (pull_represents hD hrep (fun _ => hpos) rfl).1 (decide_eq_true hpos)
  · have hnil : t q = [] := by
      apply List.eq_nil_of_length_eq_zero
      rw [← hsem]
      omega
    rw [decide_eq_false hpos, hnil]
    rfl

end Calls

/-! ## A message of length zero

Its buffer is not copied, and the pull gives none. -/

section ZeroLength

/-- One queue at the address 1, the unused entries at 0, and no entry yet. -/
def noEntry : Queues (Fin 3) Unit Unit where
  links := ⟨id, id⟩
  msgs _ := ⟨none, 0, 0, false, none, none⟩
  lists i := if i.isSome then ⟨1, 0⟩ else ⟨0, 0⟩
  sem _ := 0

/-- A buffer of one byte that counts for none. -/
def zeroLength : QueueMsg Unit := ⟨some [7], 0, 0, false, none, none⟩

/-- It is pushed in an entry at 2. -/
def oneEntry : Queues (Fin 3) Unit Unit :=
  (noEntry.push (.ofLinks (Fin 3)) () zeroLength false (some 2) true).2

/-- It is pushed, and pulled. -/
def zeroLengthEvents : List (QueueEvent Unit Unit) :=
  [.push () (zeroLength, false) true, .pull () (oneEntry.pull (.ofLinks (Fin 3)) () true).1]

theorem noEntry_init : (queueSystem (.ofLinks (Fin 3)) Unit Unit).init noEntry := by
  refine ⟨?_, ?_, fun _ => rfl⟩
  · intro i
    cases i <;> exact ⟨⟨rfl, rfl⟩, rfl⟩
  · intro i j hij
    revert i j
    decide

theorem run_zeroLength :
    (queueSystem (.ofLinks (Fin 3)) Unit Unit).Run zeroLengthEvents
      (oneEntry.pull (.ofLinks (Fin 3)) () true).2 := by
  have hunlinked : noEntry.Unlinked 2 := by
    intro i ns hns
    have hnil : ns = [] := (Links.Ring.alone_iff hns).mp ⟨rfl, rfl⟩
    subst hnil
    clear hns
    revert i
    decide
  have hpush : (queueSystem (.ofLinks (Fin 3)) Unit Unit).step noEntry
      (.push () (zeroLength, false) true) oneEntry :=
    ⟨some 2, true, fun n hn => Option.some.inj hn ▸ hunlinked, rfl⟩
  have hpull : (queueSystem (.ofLinks (Fin 3)) Unit Unit).step oneEntry
      (.pull () (oneEntry.pull (.ofLinks (Fin 3)) () true).1)
      (oneEntry.pull (.ofLinks (Fin 3)) () true).2 :=
    ⟨true, fun _ => by decide, rfl⟩
  exact .snoc (.snoc (.nil noEntry_init) hpush) hpull

theorem queue_zeroLength :
    ∃ held, (oneEntry.pull (.ofLinks (Fin 3)) () true).2.Holds () held ∧
      Delivers QueueMsg.queued () zeroLengthEvents held ∧
        ∀ fuel, held.length < fuel → ∃ s',
          (oneEntry.pull (.ofLinks (Fin 3)) () true).2.flush (.ofLinks (Fin 3)) () fuel =
            some (held.length, s') :=
  queue_run (LdcLib.ofLinks_lawful (Fin 3)) run_zeroLength ()

/-- The message comes back without its buffer. -/
theorem not_delivers_own :
    ¬ ∀ es s, (queueSystem (.ofLinks (Fin 3)) Unit Unit).Run es s →
      ∃ held, s.Holds () held ∧ Delivers QueueMsg.own () es held := by
  intro h
  obtain ⟨held, -, fates, haccepted, hdelivered, -⟩ := h _ _ run_zeroLength
  have hgiven : delivered () zeroLengthEvents = [{ zeroLength with buf := none }] := by decide
  have htaken : accepted QueueMsg.own () zeroLengthEvents = [zeroLength] := by decide
  rw [hgiven] at hdelivered
  rw [htaken] at haccepted
  have hmem : { zeroLength with buf := none } ∈ fates.map Prod.fst := by
    have hin : { zeroLength with buf := none } ∈ (fates.filter Prod.snd).map Prod.fst :=
      hdelivered ▸ List.mem_singleton_self _
    exact List.map_subset Prod.fst (List.filter_subset_self ..) hin
  have hown : { zeroLength with buf := none } ∈ [zeroLength] :=
    haccepted ▸ List.mem_append_left held hmem
  exact absurd hown (by decide)

end ZeroLength

end RsmpGateway.Sync
