import Mathlib.Data.Fintype.Card
import RsmpGateway.Lib.Ring
import RsmpGateway.Lib.System

/-!
# Lists that count their nodes

`ldc-mutex.c`: a circular list with the number of its nodes. The number stays right as long as no
node is extracted by its key (`counted_run`). The lookups of a node by its key do not give their
comparison function its arguments in the same order (`lookupsAgree_iff`).

The lists themselves are those of `lstdblcyc`, of which is assumed what its calls are documented
to do (`LdcLib.Lawful`). A comparison function may be any, also one that is no order: it is given
an entry and a key, and the two are not of one type.
-/

namespace RsmpGateway.Sync

open RsmpGateway.Lib

/-! ## `lstdblcyc`

The library of lists is not under the sources. What is assumed of it is said by `Lawful`, and met
by the links of `Lib/Ring.lean`. -/

/-- What is called of `lstdblcyc`. `ldcForeach` goes over a list of nodes. -/
structure LdcLib (ν : Type) where
  ldcInitialize : Links ν → ν → Links ν
  ldcIsEmpty : Links ν → ν → Bool
  ldcInsert : Links ν → ν → ν → Links ν
  ldcInsertCompar : Links ν → ν → ν → (ν → ν → Int) → Links ν
  ldcSuppress : Links ν → ν → Links ν
  ldcForeach : Links ν → ν → List ν

/-- What is assumed of it: an insertion links one node, at the tail when nothing is compared;
a suppression unlinks the node and leaves it alone. -/
structure LdcLib.Lawful {ν : Type} (D : LdcLib ν) : Prop where
  made_alone : ∀ {L n}, (D.ldcInitialize L n).Alone n ∧ L.SameBut (D.ldcInitialize L n) [n]
  isEmpty_alone : ∀ {L : Links ν} {n}, L.Alone n → D.ldcIsEmpty L n = true
  isEmpty_linked : ∀ {L : Links ν} {root ns n}, L.Ring root ns → n ∈ root :: ns → ns ≠ [] →
    D.ldcIsEmpty L n = false
  insert : ∀ {L : Links ν} {root ns item}, L.Ring root ns → L.Alone item → item ∉ root :: ns →
    (D.ldcInsert L root item).Ring root (ns ++ [item]) ∧
      L.SameBut (D.ldcInsert L root item) (item :: root :: ns)
  insertCompar : ∀ {L : Links ν} {root ns item} cmp, L.Ring root ns → L.Alone item →
    item ∉ root :: ns → ∃ as bs, ns = as ++ bs ∧
      (D.ldcInsertCompar L root item cmp).Ring root (as ++ item :: bs) ∧
        L.SameBut (D.ldcInsertCompar L root item cmp) (item :: root :: ns)
  suppress : ∀ {L : Links ν} {root as n bs}, L.Ring root (as ++ n :: bs) →
    (D.ldcSuppress L n).Ring root (as ++ bs) ∧ (D.ldcSuppress L n).Alone n ∧
      L.SameBut (D.ldcSuppress L n) (root :: (as ++ n :: bs))
  suppress_alone : ∀ {L : Links ν} {n}, L.Alone n →
    (D.ldcSuppress L n).Alone n ∧ L.SameBut (D.ldcSuppress L n) [n]
  foreach : ∀ {L : Links ν} {root ns}, L.Ring root ns → D.ldcForeach L root = ns

/-! ## Functions

In the order of `ldc-mutex.c`, each under the lock of the list. -/

/-- `ldc_mutex_t`, without its lock, which is recursive. A memory has fewer than `2^64` nodes. -/
structure LdcMutex (ν : Type) where
  root : ν
  no : Nat

/-- A `void const *`, as a comparison function is given two of them. -/
inductive Pointer (ν κ : Type)
  | entry (n : ν)
  | key (k : κ)

/-- `ldc_mutex_entry_cmp_key_t`, which is documented for an entry and a key. -/
abbrev CmpKey (ν κ : Type) := Pointer ν κ → Pointer ν κ → Int

section Functions

variable {ν κ σ : Type} (D : LdcLib ν) (L : Links ν) (list : LdcMutex ν)

/-- `ldc_mutex_insert_cmp` -/
def ldcMutexInsertCmp (item : Option ν) (cmp : Option (ν → ν → Int)) :
    Option ν × Links ν × LdcMutex ν :=
  match item with
  | none => (none, L, list)
  | some item =>
    let L :=
      match cmp with
      | some cmp => D.ldcInsertCompar L list.root item cmp
      | none => D.ldcInsert L list.root item
    (some item, L, { list with no := list.no + 1 })

/-- `ldc_mutex_find`: the key comes first. -/
def ldcMutexFind (cmpKey : CmpKey ν κ) (key : κ) : Option ν :=
  (D.ldcForeach L list.root).find? fun node => cmpKey (.key key) (.entry node) = 0

/-- The loop of `ldc_mutex_search`. -/
def ldcMutexSearched (cmpKey : CmpKey ν κ) (key : κ) : Option ν :=
  (D.ldcForeach L list.root).find? fun node => cmpKey (.entry node) (.key key) = 0

/-- `ldc_mutex_suppress` -/
def ldcMutexSuppress (item : ν) : Links ν × LdcMutex ν :=
  (D.ldcSuppress L item, { list with no := list.no - 1 })

/-- The node that `ldc_mutex_search` finds is taken out. -/
def ldcMutexTake (found : Option ν) : Links ν × LdcMutex ν :=
  match found with
  | some item => (D.ldcSuppress L item, { list with no := list.no - 1 })
  | none => (L, list)

/-- `ldc_mutex_search`: the node found is taken out before `update` is called with it. -/
def ldcMutexSearch (cmpKey : CmpKey ν κ) (key : κ) (update : Option ν → Option ν)
    (cmp : Option (ν → ν → Int)) : Option ν × Links ν × LdcMutex ν :=
  let found := ldcMutexSearched D L list cmpKey key
  let (L, list) := ldcMutexTake D L list found
  match update found with
  | some item =>
    if D.ldcIsEmpty L item then ldcMutexInsertCmp D L list (some item) cmp
    else (some item, L, list)
  | none => (none, L, list)

/-- `ldc_mutex_extract` -/
def ldcMutexExtract : Option ν × Links ν × LdcMutex ν :=
  if D.ldcIsEmpty L list.root then (none, L, list)
  else
    let item := L.next list.root
    (some item, D.ldcSuppress L item, { list with no := list.no - 1 })

/-- `ldc_mutex_extract_by_key`: the number of nodes is left as it is. -/
def ldcMutexExtractByKey (cmp : CmpKey ν κ) (key : κ) : Option ν × Links ν × LdcMutex ν :=
  match ldcMutexFind D L list cmp key with
  | some item => (some item, D.ldcSuppress L item, list)
  | none => (none, L, list)

/-- The loop of `ldc_mutex_flush`, in a state that has the links. `none` when the fuel is out. -/
def flushLoop (links : σ → Links ν) (setLinks : σ → Links ν → σ) (cb : ν → σ → σ) (root : ν) :
    Nat → σ → Option σ
  | 0, _ => none
  | fuel + 1, s =>
    if D.ldcIsEmpty (links s) root then some s
    else
      let node := (links s).next root
      flushLoop links setLinks cb root fuel (cb node (setLinks s (D.ldcSuppress (links s) node)))

/-- `ldc_mutex_flush` -/
def ldcMutexFlush (links : σ → Links ν) (setLinks : σ → Links ν → σ) (cb : ν → σ → σ) (fuel : Nat)
    (s : σ) : Option (Nat × σ × LdcMutex ν) := do
  let s ← flushLoop D links setLinks cb list.root fuel s
  return (list.no, s, { list with no := 0 })

/-- `ldc_mutex_no` -/
def ldcMutexNo : Nat := list.no

/-- `ldc_mutex_initialize` -/
def ldcMutexInitialize (root : ν) : Links ν × LdcMutex ν := (D.ldcInitialize L root, ⟨root, 0⟩)

end Functions

/-! ## Runs

The calls of a program on one list. A node that is inserted is in no list. -/

/-- A list in its memory. -/
structure LdcState (ν : Type) where
  links : Links ν
  list : LdcMutex ν

/-- The calls that change a list. -/
inductive LdcOp (ν κ : Type)
  | insert (item : Option ν) (cmp : Option (ν → ν → Int))
  | search (cmpKey : CmpKey ν κ) (key : κ) (update : Option ν → Option ν)
      (cmp : Option (ν → ν → Int))
  | extract
  | extractByKey (cmp : CmpKey ν κ) (key : κ)
  | suppress (item : ν)
  | flush (cb : ν → Links ν → Links ν)

section Runs

variable {ν κ : Type} (D : LdcLib ν)

/-- The nodes of the list. -/
def LdcState.Has (s : LdcState ν) (ns : List ν) : Prop := s.links.Ring s.list.root ns

/-- **The counter equals the number of nodes.** -/
def Counted (s : LdcState ν) : Prop := ∃ ns, s.Has ns ∧ s.list.no = ns.length

/-- A node, as `update` can return one: alone, or in this list or another one. -/
def IsNode (L : Links ν) (root n : ν) : Prop :=
  n ≠ root ∧ (L.Alone n ∨ ∃ r ns, L.Ring r ns ∧ n ∈ ns)

/-- The links when `ldc_mutex_search` calls `update`. -/
def searchLinks (s : LdcState ν) (cmpKey : CmpKey ν κ) (key : κ) : Links ν :=
  (ldcMutexTake D s.links s.list (ldcMutexSearched D s.links s.list cmpKey key)).1

/-- The callback frees the node, or puts it in another list. -/
def KeepsOff (cb : ν → Links ν → Links ν) (root : ν) : Prop :=
  ∀ {L : Links ν} {ns n}, L.Ring root ns → n ∉ root :: ns → (cb n L).Ring root ns

/-- What the caller sees to: an item to insert is alone, an item to suppress is in the list,
`update` returns a node, and the callback of a flush keeps off the list. -/
def LdcOp.Valid (s : LdcState ν) : LdcOp ν κ → Prop
  | .insert item _ => ∀ n, item = some n → n ≠ s.list.root ∧ s.links.Alone n
  | .search cmpKey key update _ => ∀ n,
    update (ldcMutexSearched D s.links s.list cmpKey key) = some n →
      IsNode (searchLinks D s cmpKey key) s.list.root n
  | .extract => True
  | .extractByKey _ _ => True
  | .suppress item => ∃ ns, s.Has ns ∧ item ∈ ns
  | .flush cb => KeepsOff cb s.list.root

/-- The list after a call. -/
def LdcOp.Runs (s : LdcState ν) : LdcOp ν κ → LdcState ν → Prop
  | .insert item cmp, s' =>
    ∃ r, ldcMutexInsertCmp D s.links s.list item cmp = (r, s'.links, s'.list)
  | .search cmpKey key update cmp, s' =>
    ∃ r, ldcMutexSearch D s.links s.list cmpKey key update cmp = (r, s'.links, s'.list)
  | .extract, s' => ∃ r, ldcMutexExtract D s.links s.list = (r, s'.links, s'.list)
  | .extractByKey cmp key, s' =>
    ∃ r, ldcMutexExtractByKey D s.links s.list cmp key = (r, s'.links, s'.list)
  | .suppress item, s' => ldcMutexSuppress D s.links s.list item = (s'.links, s'.list)
  | .flush cb, s' =>
    ∃ fuel r,
      ldcMutexFlush D s.list id (fun _ L => L) cb fuel s.links = some (r, s'.links, s'.list)

/-- The calls on a list, from its initialisation. -/
def ldcSystem (D : LdcLib ν) (κ : Type) : System (LdcState ν) (LdcOp ν κ) where
  init s := ∃ L root, ldcMutexInitialize D L root = (s.links, s.list)
  step s op s' := op.Valid D s ∧ op.Runs D s s'

/-- The condition on a call: no node is extracted by its key. -/
def LdcOp.ExtractsNone (s : LdcState ν) : LdcOp ν κ → Prop
  | .extractByKey cmp key => ldcMutexFind D s.links s.list cmp key = none
  | _ => True

/-- The runs whose calls meet it. -/
def countingSystem (D : LdcLib ν) (κ : Type) : System (LdcState ν) (LdcOp ν κ) :=
  (ldcSystem D κ).restrict (LdcOp.ExtractsNone D)

end Runs

/-! ## What the functions do to a list

One lemma for each function, on the nodes of the list. -/

section Specs

variable {ν κ σ : Type} {D : LdcLib ν} (hD : D.Lawful) {L : Links ν} {list : LdcMutex ν}
  {ns : List ν}

include hD

/-! ### Nodes in and out

`ldcForeach` stops at the first node for which its callback returns a value: this is how the
lookups are written. The functions that take a node out find it first, and suppress it. -/

theorem foreach_find? {p : ν → Bool} {n : ν} (h : L.Ring list.root ns)
    (hfind : (D.ldcForeach L list.root).find? p = some n) : n ∈ ns := by
  rw [hD.foreach h] at hfind
  exact List.mem_of_find?_eq_some hfind

/-- A node that is taken out. -/
theorem suppress_mem {n : ν} (h : L.Ring list.root ns) (hn : n ∈ ns) :
    ∃ ns', (D.ldcSuppress L n).Ring list.root ns' ∧ ns.length = ns'.length + 1 ∧
      (D.ldcSuppress L n).Alone n := by
  obtain ⟨as, bs, rfl⟩ := List.append_of_mem hn
  obtain ⟨hring, halone, -⟩ := hD.suppress h
  refine ⟨as ++ bs, hring, ?_, halone⟩
  simp only [List.length_append, List.length_cons]
  omega

theorem insertCmp_alone {item : ν} (h : L.Ring list.root ns) (hitem : L.Alone item)
    (hne : item ≠ list.root) (cmp : Option (ν → ν → Int)) :
    ∃ L' ns', ldcMutexInsertCmp D L list (some item) cmp =
        (some item, L', { list with no := list.no + 1 }) ∧
      L'.Ring list.root ns' ∧ ns'.length = ns.length + 1 := by
  have hout : item ∉ list.root :: ns := by
    intro hmem
    rcases List.mem_cons.mp hmem with heq | hmem
    · exact hne heq
    · exact h.not_alone hmem hitem.1
  cases cmp with
  | none => exact ⟨_, _, rfl, (hD.insert h hitem hout).1, List.length_append⟩
  | some cmp =>
    obtain ⟨as, bs, rfl, hring, -⟩ := hD.insertCompar cmp h hitem hout
    refine ⟨_, _, rfl, hring, ?_⟩
    simp only [List.length_append, List.length_cons]
    omega

/-- **The loop of a flush**: what holds of the nodes that are left, and is kept when the first of
them is taken out, holds of none of them in the end. -/
theorem flushLoop_rule (links : σ → Links ν) (setLinks : σ → Links ν → σ) (cb : ν → σ → σ)
    (root : ν) (P : List ν → σ → Prop) (hring : ∀ {ns s}, P ns s → (links s).Ring root ns)
    (hstep : ∀ {n ns s}, P (n :: ns) s →
      P ns (cb n (setLinks s (D.ldcSuppress (links s) n)))) {ns : List ν} {s : σ} (h : P ns s) :
    ∃ s', P [] s' ∧ ∀ fuel, flushLoop D links setLinks cb root fuel s =
      if ns.length < fuel then some s' else none := by
  induction ns generalizing s with
  | nil =>
    refine ⟨s, h, ?_⟩
    intro fuel
    cases fuel with
    | zero => rfl
    | succ fuel =>
      have hempty := hD.isEmpty_alone (Links.ring_nil.mp (hring h))
      rw [flushLoop, if_pos hempty, if_pos (by simp)]
  | cons n ns ih =>
    obtain ⟨s', hs', hloop⟩ := ih (hstep h)
    refine ⟨s', hs', ?_⟩
    intro fuel
    cases fuel with
    | zero => rfl
    | succ fuel =>
      have hempty := hD.isEmpty_linked (hring h) List.mem_cons_self (List.cons_ne_nil n ns)
      have hnext : (links s).next root = n := (hring h).next_root
      rw [flushLoop, if_neg (by rw [hempty]; exact Bool.false_ne_true), hnext]
      simp only [hloop, List.length_cons, Nat.add_lt_add_iff_right]

end Specs

/-! ## The counter

The number of the list against its nodes. `ldc_mutex_extract_by_key` takes a node out and leaves
the number. -/

section Counter

variable {ν κ : Type} {D : LdcLib ν} (hD : D.Lawful) {s s' : LdcState ν}

include hD

/-! ### The search

`ldc_mutex_search` takes the node that it finds out and counts one less, calls `update`, and
counts one more for the node that it returns, when this one is in no list. -/

theorem take_counted {found : Option ν} {ns : List ν} (hns : s.Has ns)
    (hno : s.list.no = ns.length) (hfound : ∀ n, found = some n → n ∈ ns) :
    ∃ ns', (ldcMutexTake D s.links s.list found).1.Ring s.list.root ns' ∧
      (ldcMutexTake D s.links s.list found).2 = ⟨s.list.root, ns'.length⟩ := by
  cases found with
  | none => exact ⟨ns, hns, by rw [← hno]; rfl⟩
  | some item =>
    obtain ⟨ns', hring, hlen, -⟩ := suppress_mem hD hns (hfound item rfl)
    refine ⟨ns', hring, ?_⟩
    have hminus : s.list.no - 1 = ns'.length := by omega
    show (⟨s.list.root, s.list.no - 1⟩ : LdcMutex ν) = _
    rw [hminus]

/-- A search counts the node that it takes out, and the one that it puts in. -/
theorem search_counted {cmpKey : CmpKey ν κ} {key : κ} {update : Option ν → Option ν}
    {cmp : Option (ν → ν → Int)} (hs : Counted s)
    (hvalid : (LdcOp.search cmpKey key update cmp).Valid D s)
    (hrun : (LdcOp.search cmpKey key update cmp).Runs D s s') : Counted s' := by
  obtain ⟨ns, hns, hno⟩ := hs
  obtain ⟨links', list'⟩ := s'
  obtain ⟨r, hrun⟩ := hrun
  have hfound : ∀ n, ldcMutexSearched D s.links s.list cmpKey key = some n → n ∈ ns :=
    fun n => foreach_find? hD hns
  obtain ⟨ns₁, hring, hlist⟩ := take_counted hD hns hno hfound
  simp only [LdcOp.Valid, searchLinks] at hvalid
  rw [ldcMutexSearch] at hrun
  generalize ldcMutexTake D s.links s.list (ldcMutexSearched D s.links s.list cmpKey key) = taken
    at *
  obtain ⟨L, list⟩ := taken
  dsimp only at hring hlist hvalid hrun
  subst hlist
  cases hupdate : update (ldcMutexSearched D s.links s.list cmpKey key) with
  | none =>
    rw [hupdate] at hrun
    cases hrun
    exact ⟨ns₁, hring, rfl⟩
  | some item =>
    rw [hupdate] at hrun
    dsimp only at hrun
    obtain ⟨hne, halone | ⟨r', ms, hms, hmem⟩⟩ := hvalid item hupdate
    · -- a node that is in no list is put into this one
      rw [if_pos (hD.isEmpty_alone halone)] at hrun
      have hmid : L.Ring (LdcMutex.mk s.list.root ns₁.length).root ns₁ := hring
      obtain ⟨L', ns₂, hinsert, hring', hlen⟩ := insertCmp_alone hD hmid halone hne cmp
      rw [hinsert] at hrun
      cases hrun
      exact ⟨ns₂, hring', hlen.symm⟩
    · have hlinked := hD.isEmpty_linked hms (List.mem_cons_of_mem r' hmem)
        (List.ne_nil_of_mem hmem)
      rw [hlinked] at hrun
      cases hrun
      exact ⟨ns₁, hring, rfl⟩

/-! ### The flush, and all calls

The callback of a flush is given each node once it is out of the list, and may free it or put it
in another list. -/

/-- A flush empties the list, and ends. -/
theorem flush_empties {cb : ν → Links ν → Links ν} {ns : List ν}
    (hvalid : KeepsOff cb s.list.root) (hns : s.Has ns) :
    ∃ L, L.Ring s.list.root [] ∧ ∀ fuel,
      flushLoop D id (fun _ L => L) cb s.list.root fuel s.links =
        if ns.length < fuel then some L else none := by
  apply flushLoop_rule hD _ _ _ _ fun ns (L : Links ν) => L.Ring s.list.root ns
  · exact fun h => h
  · intro n ns L h
    have hcut : L.Ring s.list.root ([] ++ n :: ns) := h
    have hout : n ∉ s.list.root :: ns := by
      have hnodup := h.nodup
      rw [List.nodup_cons, List.nodup_cons] at hnodup
      grind
    exact hvalid (hD.suppress hcut).1 hout
  · exact hns

/-- What each call does to the counter: it stays right, unless a node is extracted by its key. -/
theorem step_counted_iff {op : LdcOp ν κ} (hs : Counted s) (hvalid : op.Valid D s)
    (hrun : op.Runs D s s') : Counted s' ↔ op.ExtractsNone D s := by
  obtain ⟨links', list'⟩ := s'
  cases op with
  | insert item cmp =>
    refine iff_of_true ?_ trivial
    obtain ⟨ns, hns, hno⟩ := hs
    obtain ⟨r, hrun⟩ := hrun
    cases item with
    | none =>
      cases hrun
      exact ⟨ns, hns, hno⟩
    | some item =>
      obtain ⟨hne, halone⟩ := hvalid item rfl
      obtain ⟨L', ns', hinsert, hring, hlen⟩ := insertCmp_alone hD hns halone hne cmp
      rw [hinsert] at hrun
      cases hrun
      exact ⟨ns', hring, by simp only; omega⟩
  | search cmpKey key update cmp => exact iff_of_true (search_counted hD hs hvalid hrun) trivial
  | extract =>
    refine iff_of_true ?_ trivial
    obtain ⟨ns, hns, hno⟩ := hs
    obtain ⟨r, hrun⟩ := hrun
    cases ns with
    | nil =>
      rw [ldcMutexExtract, if_pos (hD.isEmpty_alone (Links.ring_nil.mp hns))] at hrun
      cases hrun
      exact ⟨[], hns, hno⟩
    | cons n ns =>
      have hlinked := hD.isEmpty_linked hns List.mem_cons_self (List.cons_ne_nil n ns)
      have hnext : s.links.next s.list.root = n := hns.next_root
      rw [ldcMutexExtract, hlinked, hnext] at hrun
      cases hrun
      have hring : s.links.Ring s.list.root ([] ++ n :: ns) := hns
      exact ⟨ns, (hD.suppress hring).1, by simp only [List.length_cons] at hno ⊢; omega⟩
  | extractByKey cmp key =>
    obtain ⟨ns, hns, hno⟩ := hs
    obtain ⟨r, hrun⟩ := hrun
    rw [ldcMutexExtractByKey] at hrun
    cases hfind : ldcMutexFind D s.links s.list cmp key with
    | none =>
      rw [hfind] at hrun
      cases hrun
      exact iff_of_true ⟨ns, hns, hno⟩ hfind
    | some item =>
      rw [hfind] at hrun
      cases hrun
      refine iff_of_false ?_ (by rw [LdcOp.ExtractsNone, hfind]; exact nofun)
      rintro ⟨ms, hms, hno'⟩
      have hstill : s.list.no = ms.length := hno'
      -- the node is out, and is still counted
      obtain ⟨ns', hring, hlen, -⟩ := suppress_mem hD hns (foreach_find? hD hns hfind)
      have heq : ms = ns' := Links.Ring.unique hms hring
      subst heq
      omega
  | suppress item =>
    refine iff_of_true ?_ trivial
    obtain ⟨ns, hns, hno⟩ := hs
    obtain ⟨ms, hms, hmem⟩ := hvalid
    obtain rfl := hns.unique hms
    obtain ⟨ns', hring, hlen, -⟩ := suppress_mem hD hns hmem
    cases hrun
    exact ⟨ns', hring, by simp only; omega⟩
  | flush cb =>
    refine iff_of_true ?_ trivial
    obtain ⟨ns, hns, hno⟩ := hs
    obtain ⟨fuel, r, hrun⟩ := hrun
    obtain ⟨L, hL, hloop⟩ := flush_empties hD hvalid hns
    rw [ldcMutexFlush, hloop] at hrun
    split at hrun
    · cases hrun
      exact ⟨[], hL, rfl⟩
    · cases hrun

/-- **The counter along a run.** It equals the number of nodes as long as no node is extracted by
its key, and the first such extraction makes it wrong. -/
theorem counted_run (κ : Type) :
    (∀ s, (countingSystem D κ).Reachable s → Counted s) ∧
      ∀ s (op : LdcOp ν κ) s', (countingSystem D κ).Reachable s →
        (ldcSystem D κ).step s op s' → (Counted s' ↔ op.ExtractsNone D s) := by
  have hcounted : ∀ s, (countingSystem D κ).Reachable s → Counted s := by
    intro s hs
    apply hs.invariant
    · rintro s ⟨L, root, hinit⟩
      obtain ⟨links, list⟩ := s
      cases hinit
      exact ⟨[], Links.ring_nil.mpr hD.made_alone.1, rfl⟩
    · rintro s op s' hs ⟨⟨hvalid, hrun⟩, hok⟩
      exact (step_counted_iff hD hs hvalid hrun).mpr hok
  refine ⟨hcounted, ?_⟩
  rintro s op s' hs ⟨hvalid, hrun⟩
  exact step_counted_iff hD (hcounted s hs) hvalid hrun

end Counter

/-! ### Links in memory

The library, on a finite number of addresses. -/

/-- `lstdblcyc`, on finitely many addresses. -/
def LdcLib.ofLinks (ν : Type) [Fintype ν] [DecidableEq ν] : LdcLib ν :=
  let nodes (L : Links ν) (root : ν) : List ν := L.walk root (Fintype.card ν) (L.next root)
  { ldcInitialize := fun L n =>
      ⟨Function.update L.next n n, Function.update L.prev n n⟩
    ldcIsEmpty := fun L n => L.next n = n
    ldcInsert := fun L root item => L.insertBefore root item
    ldcInsertCompar := fun L root item cmp =>
      L.insertBefore (((nodes L root).dropWhile fun n => 0 ≤ cmp item n).headD root) item
    ldcSuppress := Links.unlink
    ldcForeach := nodes }

theorem insertBefore_subset {ν : Type} {L : Links ν} {root pos : ν} {ns : List ν}
    (h : L.Ring root ns) (hpos : pos ∈ root :: ns) (item : ν) :
    [L.prev pos, pos, item] ⊆ item :: root :: ns := by
  have hprev := h.prev_mem hpos
  intro n hn
  simp only [List.mem_cons, List.not_mem_nil, or_false] at hn hpos hprev ⊢
  grind

theorem LdcLib.ofLinks_lawful (ν : Type) [Fintype ν] [DecidableEq ν] :
    (LdcLib.ofLinks ν).Lawful where
  made_alone := by
    intro L n
    refine ⟨⟨?_, ?_⟩, ?_⟩
    · exact Function.update_self ..
    · exact Function.update_self ..
    · intro m hm
      have hne : m ≠ n := by simpa using hm
      exact ⟨Function.update_of_ne hne .., Function.update_of_ne hne ..⟩
  isEmpty_alone := fun h => decide_eq_true h.1
  isEmpty_linked := by
    intro L root ns n h hn hne
    apply decide_eq_false
    rcases List.mem_cons.mp hn with rfl | hn
    · intro halone
      cases ns with
      | nil => exact hne rfl
      | cons m ns =>
        have hm : n = m := halone.symm.trans h.next_root
        exact (List.nodup_cons.mp h.nodup).1 (hm ▸ List.mem_cons_self)
    · exact h.not_alone hn
  insert := by
    intro L root ns item h _ hitem
    have hcut : L.Ring root (ns ++ []) := by rwa [List.append_nil]
    refine ⟨hcut.insertBefore (by rwa [List.append_nil]), ?_⟩
    exact (L.insertBefore_sameBut root item).mono (insertBefore_subset h List.mem_cons_self item)
  insertCompar := by
    intro L root ns item cmp h _ hitem
    have hnodes : L.walk root (Fintype.card ν) (L.next root) = ns :=
      h.walk_eq (Nat.le_of_succ_le h.nodup.length_le_card)
    -- the node is inserted before the first one that it is less than
    have hcut : ns = ns.takeWhile (fun n => 0 ≤ cmp item n) ++
        ns.dropWhile fun n => 0 ≤ cmp item n := List.takeWhile_append_dropWhile.symm
    have hinsert : (LdcLib.ofLinks ν).ldcInsertCompar L root item cmp =
        L.insertBefore ((ns.dropWhile fun n => 0 ≤ cmp item n).headD root) item := by
      rw [← hnodes]
      rfl
    rw [hinsert]
    refine ⟨_, _, hcut, ?_, ?_⟩
    · rw [hcut] at h hitem
      exact h.insertBefore hitem
    · have hpos : (ns.dropWhile fun n => 0 ≤ cmp item n).headD root ∈ root :: ns := by
        cases hdrop : ns.dropWhile fun n => 0 ≤ cmp item n with
        | nil => exact List.mem_cons_self
        | cons n bs =>
          have hmem : n ∈ ns.dropWhile fun n => 0 ≤ cmp item n := hdrop ▸ List.mem_cons_self
          exact List.mem_cons_of_mem root ((List.dropWhile_sublist _).mem hmem)
      exact (L.insertBefore_sameBut _ item).mono (insertBefore_subset h hpos item)
  suppress := by
    intro L root as n bs h
    refine ⟨h.unlink, L.unlink_alone n, (L.unlink_sameBut n).mono ?_⟩
    have hn : n ∈ root :: (as ++ n :: bs) := by simp
    intro m hm
    rcases List.mem_cons.mp hm with rfl | hm
    · exact h.prev_mem hn
    · rcases List.mem_cons.mp hm with rfl | hm
      · exact h.next_mem hn
      · exact List.mem_singleton.mp hm ▸ hn
  suppress_alone := by
    intro L n h
    refine ⟨L.unlink_alone n, (L.unlink_sameBut n).mono ?_⟩
    rw [h.1, h.2]
    simp
  foreach := fun h => h.walk_eq (Nat.le_of_succ_le h.nodup.length_le_card)

/-! ### One node

The smallest list on which the number is wrong. -/

/-- A list at the address 0, where there are two addresses. -/
def noNode : LdcState (Fin 2) :=
  let r := ldcMutexInitialize (.ofLinks (Fin 2)) ⟨id, id⟩ 0
  ⟨r.1, r.2⟩

/-- The list with the node at 1. -/
def oneNode : LdcState (Fin 2) :=
  let r := ldcMutexInsertCmp (.ofLinks (Fin 2)) noNode.links noNode.list (some 1) none
  ⟨r.2.1, r.2.2⟩

theorem reachable_oneNode : (countingSystem (.ofLinks (Fin 2)) Unit).Reachable oneNode := by
  have hmade : (countingSystem (.ofLinks (Fin 2)) Unit).Reachable noNode := .init ⟨_, _, rfl⟩
  refine hmade.next (.insert (some 1) none) ⟨⟨?_, some 1, rfl⟩, trivial⟩
  rintro n ⟨⟩
  exact ⟨by decide, by decide, by decide⟩

theorem counted_oneNode : Counted oneNode :=
  (counted_run (LdcLib.ofLinks_lawful (Fin 2)) Unit).1 oneNode reachable_oneNode

/-- The node is extracted by its key: the list is empty, and counts one node. -/
theorem not_counted_extracted :
    ¬ ∀ s, (ldcSystem (.ofLinks (Fin 2)) Unit).Reachable s → Counted s := by
  intro h
  let r := ldcMutexExtractByKey (.ofLinks (Fin 2)) oneNode.links oneNode.list (fun _ _ => 0) ()
  have hreach : (ldcSystem (.ofLinks (Fin 2)) Unit).Reachable ⟨r.2.1, r.2.2⟩ :=
    reachable_oneNode.of_restrict.next (.extractByKey (fun _ _ => 0) ()) ⟨trivial, r.1, rfl⟩
  obtain ⟨ns, hns, hno⟩ := h _ hreach
  have hnil : ns = [] := (Links.Ring.alone_iff hns).mp ⟨by decide, by decide⟩
  subst hnil
  exact absurd hno (by decide)

/-! ## The lookups

The three lookups call the comparison with an entry and a key, in one order or in the other. -/

section Lookups

variable {ν κ : Type}

/-- The first node that the comparison function declares equal to the key. -/
def firstEqual (cmpKey : CmpKey ν κ) (key : κ) (ns : List ν) : Option ν :=
  ns.find? fun node => cmpKey (.entry node) (.key key) = 0

/-- **The three lookups select that node.** What `ldc_mutex_search` selects is what it calls
`update` with. -/
structure LookupsAgree (D : LdcLib ν) (L : Links ν) (list : LdcMutex ν) (cmpKey : CmpKey ν κ)
    (key : κ) (ns : List ν) : Prop where
  find : ldcMutexFind D L list cmpKey key = firstEqual cmpKey key ns
  search : ldcMutexSearched D L list cmpKey key = firstEqual cmpKey key ns
  extract : (ldcMutexExtractByKey D L list cmpKey key).1 = firstEqual cmpKey key ns

/-- The first node that is declared equal with the arguments in one order or in the other is so
in both. -/
def SameFirst (cmpKey : CmpKey ν κ) (key : κ) (ns : List ν) : Prop :=
  ∀ as n bs, ns = as ++ n :: bs →
    (∀ a ∈ as, cmpKey (.entry a) (.key key) ≠ 0 ∧ cmpKey (.key key) (.entry a) ≠ 0) →
      (cmpKey (.entry n) (.key key) = 0 ↔ cmpKey (.key key) (.entry n) = 0)

theorem find?_eq_iff {α : Type} {p q : α → Bool} {l : List α} :
    l.find? p = l.find? q ↔ ∀ as a bs, l = as ++ a :: bs →
      (∀ b ∈ as, p b = false ∧ q b = false) → p a = q a := by
  induction l with
  | nil => simp
  | cons c l ih =>
    constructor
    · intro h as a bs hl has
      cases as with
      | nil =>
        cases hl
        cases hp : p c with
        | true =>
          rw [List.find?_cons_of_pos hp] at h
          exact (List.find?_some h.symm).symm
        | false =>
          by_contra hq
          rw [List.find?_cons_of_neg (by simp [hp]),
            List.find?_cons_of_pos (by simpa using Ne.symm hq)] at h
          exact absurd (List.find?_some h) (by simp [hp])
      | cons b as =>
        cases hl
        obtain ⟨hp, hq⟩ := has c List.mem_cons_self
        rw [List.find?_cons_of_neg (by simp [hp]), List.find?_cons_of_neg (by simp [hq])] at h
        exact ih.mp h as a bs rfl fun b hb => has b (List.mem_cons_of_mem c hb)
    · intro h
      have hc : p c = q c := h [] c l rfl (by simp)
      have hrest : p c = false → l.find? p = l.find? q := by
        intro hp
        refine ih.mpr fun as a bs hl has => h (c :: as) a bs (by rw [hl]; rfl) ?_
        intro b hb
        rcases List.mem_cons.mp hb with rfl | hb
        · exact ⟨hp, hc.symm.trans hp⟩
        · exact has b hb
      cases hp : p c with
      | true => rw [List.find?_cons_of_pos hp, List.find?_cons_of_pos (hc.symm.trans hp)]
      | false =>
        rw [List.find?_cons_of_neg (by simp [hp]), List.find?_cons_of_neg (by simp [← hc, hp])]
        exact hrest hp

/-- The lookups agree exactly where the order of the arguments makes no difference to the first node
that is declared equal. -/
theorem lookupsAgree_iff {D : LdcLib ν} (hD : D.Lawful) {L : Links ν} {list : LdcMutex ν}
    {ns : List ν} (h : L.Ring list.root ns) (cmpKey : CmpKey ν κ) (key : κ) :
    LookupsAgree D L list cmpKey key ns ↔ SameFirst cmpKey key ns := by
  have hfind : ldcMutexFind D L list cmpKey key =
      ns.find? fun node => cmpKey (.key key) (.entry node) = 0 := by
    rw [ldcMutexFind, hD.foreach h]
  have hsearch : ldcMutexSearched D L list cmpKey key = firstEqual cmpKey key ns := by
    rw [ldcMutexSearched, hD.foreach h, firstEqual]
  have hextract : (ldcMutexExtractByKey D L list cmpKey key).1 =
      ldcMutexFind D L list cmpKey key := by
    rw [ldcMutexExtractByKey]
    cases ldcMutexFind D L list cmpKey key <;> rfl
  have hagree : LookupsAgree D L list cmpKey key ns ↔
      (ns.find? fun node => cmpKey (.entry node) (.key key) = 0) =
        ns.find? fun node => cmpKey (.key key) (.entry node) = 0 := by
    constructor
    · intro hagree
      exact hagree.find.symm.trans hfind
    · intro heq
      exact ⟨hfind.trans heq.symm, hsearch, hextract.trans (hfind.trans heq.symm)⟩
  rw [hagree, find?_eq_iff, SameFirst]
  simp only [decide_eq_false_iff_not, decide_eq_decide, ne_eq]

end Lookups

/-- A comparison that tells an entry from a key: the node at 1 is equal to the key. -/
def entryIsOne : CmpKey (Fin 2) Unit
  | .entry n, .key _ => if n = 1 then 0 else 1
  | _, _ => 1

/-- A list of the nodes at 1, 2 and 3. -/
def threeNodes : LdcState (Fin 4) :=
  let insert := fun (s : LdcState (Fin 4)) (n : Fin 4) =>
    let r := ldcMutexInsertCmp (.ofLinks (Fin 4)) s.links s.list (some n) none
    (⟨r.2.1, r.2.2⟩ : LdcState (Fin 4))
  let made := ldcMutexInitialize (.ofLinks (Fin 4)) ⟨id, id⟩ 0
  [1, 2, 3].foldl insert ⟨made.1, made.2⟩

theorem ring_threeNodes : threeNodes.links.Ring threeNodes.list.root [1, 2, 3] where
  nodup := by decide
  joined := .cons_cons ⟨by decide, by decide⟩ (.cons_cons ⟨by decide, by decide⟩
    (.cons_cons ⟨by decide, by decide⟩ (.cons_cons ⟨by decide, by decide⟩ (.singleton _))))

/-- The last two nodes have one key. -/
def keyOf : Pointer (Fin 4) Int → Int
  | .entry n => if n = 1 then 5 else 7
  | .key k => k

/-- A comparison that takes an entry for its key, whichever comes first. -/
def byKey : CmpKey (Fin 4) Int := fun a b => keyOf a - keyOf b

/-- What is equal in both orders is found by all of them: here the node at 2. -/
theorem lookupsAgree_threeNodes :
    LookupsAgree (.ofLinks (Fin 4)) threeNodes.links threeNodes.list byKey 7 [1, 2, 3] := by
  refine (lookupsAgree_iff (LdcLib.ofLinks_lawful (Fin 4)) ring_threeNodes byKey 7).mpr ?_
  intro _ n _ _ _
  rw [byKey, byKey, Int.sub_eq_zero, Int.sub_eq_zero, eq_comm]

/-- The search finds the node, and the two other lookups give no node. -/
theorem not_lookupsAgree_entryIsOne :
    ¬ ∀ cmpKey : CmpKey (Fin 2) Unit,
      LookupsAgree (.ofLinks (Fin 2)) oneNode.links oneNode.list cmpKey () [1] := by
  intro h
  exact absurd (h entryIsOne).find (by decide)

end RsmpGateway.Sync
