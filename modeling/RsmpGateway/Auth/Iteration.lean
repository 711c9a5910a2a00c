import RsmpGateway.Auth.ChainSteps

/-!
# Iteration over the logins

`auth_get_first` answers the last entry of a list, and `auth_get_next_from_auth` goes on from there,
over the head of the list.

* `Holds.step` is the step lemma of a run of the store, `reachable_holds` the run lemma.
* `visitsLogins` says what the iteration visits, in any store that is reached: the entries of the
  list, each of them once before it comes back to the first one, and nothing else.
* The last part compares the heap with the functional store of `Auth/Store.lean`. The tree of the
  invariant, without addresses and in the order of the chains, is such a store, and the two
  functions answer what those of the functional model answer.
-/

namespace RsmpGateway.Auth

open RsmpGateway.Lib RsmpGateway.Sync Links

namespace AuthMem

/-! ## Runs

From the empty store, any calls in any order. An address that is freed may be given again by
`calloc`. -/

/-- The calls that change the store. -/
inductive Op (ν : Type)
  | new (key : AuthKey)
  | searchByKey (key : AuthKey)
  | deleteByKey (key : AuthKey)
  | free (it : ν)

section Runs

variable {ν : Type} [DecidableEq ν] (D : LdcLib (Chain ν))

/-- Only an entry is freed. -/
def Op.Valid (m : AuthMem ν) : Op ν → Prop
  | .free it => ∃ login toSId, m.heap it = some (.auth login toSId)
  | _ => True

def Op.apply (calloc : Calloc ν) (m : AuthMem ν) : Op ν → AuthMem ν
  | .new key => m.authNew D calloc key
  | .searchByKey key => m.authSearchByKey D calloc key
  | .deleteByKey key => m.authDeleteByKey D key
  | .free it => m.authFree D it

/-- The calls on the store, from an empty one. -/
def memSystem : System (AuthMem ν) (Op ν) where
  init m := m.links.Alone .authDbsRoot ∧ ∀ a, m.heap a = none
  step m op m' := op.Valid m ∧ ∃ calloc : Calloc ν, calloc.Fresh ∧ op.apply D calloc m = m'

/-- The iteration visits the entries whose `to_sId` is the list, each of them once before it
comes back to the first one. -/
def VisitsLogins (m : AuthMem ν) (dbId sId : Option Bytes) (s : ν) : Prop :=
  ∃ its : List ν, (∀ it, it ∈ its ↔ m.IsLogin s it) ∧
    GoesRound (m.visit D dbId sId) (its.map .authChain)

end Runs

section Iteration

variable {ν : Type} {D : LdcLib (Chain ν)} (hD : D.Lawful) {m : AuthMem ν} {t : Tree ν}

theorem Holds.empty (hroot : m.links.Alone .authDbsRoot) (hheap : ∀ a, m.heap a = none) :
    m.Holds ⟨[], fun _ => [], fun _ => []⟩ := by
  constructor
  · exact ring_nil.mpr hroot
  all_goals simp [IsDb, IsSIds, IsLogin, hheap]

include hD

theorem Holds.step [DecidableEq ν] (h : m.Holds t) {op : Op ν} {m' : AuthMem ν}
    (hstep : (memSystem D).step m op m') : ∃ t', m'.Holds t' := by
  obtain ⟨hvalid, calloc, hcalloc, rfl⟩ := hstep
  cases op with
  | new key => exact h.authNew hD hcalloc key
  | searchByKey key => exact h.authSearchByKey hD hcalloc key
  | deleteByKey key => exact h.authDeleteByKey hD key
  | free it =>
    obtain ⟨login, toSId, hit⟩ := hvalid
    exact h.authFree hD hit

theorem reachable_holds [DecidableEq ν] (hm : (memSystem D).Reachable m) : ∃ t, m.Holds t := by
  refine hm.invariant (P := fun m => ∃ t, m.Holds t) ?_ ?_
  · rintro m ⟨hroot, hheap⟩
    exact ⟨_, .empty hroot hheap⟩
  · rintro m op m' ⟨t, h⟩ hstep
    exact h.step hD hstep

omit hD

/-! ### The first and the next one

`auth_get_first` follows `prev` from the head of the list, and so answers its last entry; the
next one is found over `next`, and past the head is the first entry of the list. -/

/-- The last structure of a list. -/
theorem prev_root_map {root : Chain ν} {as : List ν} {mk : ν → Chain ν}
    (h : m.links.Ring root (as.map mk)) (hne : as ≠ []) :
    ∃ a ∈ as, m.links.prev root = mk a := by
  refine ⟨as.getLast hne, List.getLast_mem hne, ?_⟩
  rw [h.prev_root, List.getLast_cons (by simpa using hne), List.getLast_map]

include hD

theorem isEmpty_map {root : Chain ν} {as : List ν} {mk : ν → Chain ν}
    (h : m.links.Ring root (as.map mk)) : D.ldcIsEmpty m.links root = true ↔ as = [] := by
  constructor
  · intro hempty
    by_contra hne
    rw [hD.isEmpty_linked h List.mem_cons_self (by simpa using hne)] at hempty
    cases hempty
  · rintro rfl
    exact hD.isEmpty_alone (ring_nil.mp h)

/-- `auth_get_first` answers the last entry of a list. -/
theorem authGetFirst_some (h : m.Holds t) {dbId sId : Option Bytes} {c : Chain ν}
    (hfirst : m.authGetFirst D dbId sId = some c) :
    ∃ db s, m.IsSIds db s ∧ t.logins s ≠ [] ∧ c = m.links.prev (.sIdLogins s) := by
  rw [authGetFirst] at hfirst
  split at hfirst
  · cases hfirst
  · next hdbs =>
    obtain ⟨db, hdb, hfirst⟩ := Option.bind_eq_some_iff.mp hfirst
    have hisDb : m.IsDb db := by
      cases dbId with
      | some dbId => exact ⟨dbId, (authDbFind_iff hD h).mp hdb⟩
      | none =>
        obtain ⟨a, ha, hprev⟩ := prev_root_map h.dbs (mt (isEmpty_map hD h.dbs).mpr hdbs)
        rw [Option.elim_none, hprev] at hdb
        cases hdb
        exact h.mem_dbs.mp ha
    split at hfirst
    · cases hfirst
    · next hsIds =>
      obtain ⟨s, hs, hfirst⟩ := Option.bind_eq_some_iff.mp hfirst
      have hring := h.sIds hisDb
      have hisSIds : m.IsSIds db s := by
        cases sId with
        | some sId => exact ⟨sId, (authSIdFind_iff hD h hisDb).mp hs⟩
        | none =>
          obtain ⟨a, ha, hprev⟩ := prev_root_map hring (mt (isEmpty_map hD hring).mpr hsIds)
          rw [Option.elim_none, hprev] at hs
          cases hs
          exact h.mem_sIds.mp ha
      split at hfirst
      · cases hfirst
      · next hlogins =>
        cases hfirst
        exact ⟨db, s, hisSIds, mt (isEmpty_map hD (h.logins hisSIds)).mpr hlogins, rfl⟩

theorem authGetFirst_key (h : m.Holds t) {db s : ν} {dbId sId : Bytes}
    (hdb : m.heap db = some (.db dbId)) (hs : m.heap s = some (.sIds sId (some db)))
    (hne : t.logins s ≠ []) :
    m.authGetFirst D (some dbId) (some sId) = some (m.links.prev (.sIdLogins s)) := by
  have hdbs : t.dbs ≠ [] := List.ne_nil_of_mem (h.mem_dbs.mpr ⟨dbId, hdb⟩)
  have hsIds : t.sIds db ≠ [] := List.ne_nil_of_mem (h.mem_sIds.mpr ⟨sId, hs⟩)
  have hisDb : m.IsDb db := ⟨dbId, hdb⟩
  rw [authGetFirst, if_neg (mt (isEmpty_map hD h.dbs).mp hdbs), Option.elim_some,
    (authDbFind_iff hD h).mpr hdb, Option.bind_some,
    if_neg (mt (isEmpty_map hD (h.sIds hisDb)).mp hsIds), Option.elim_some,
    (authSIdFind_iff hD h hisDb).mpr hs, Option.bind_some,
    if_neg (mt (isEmpty_map hD (h.logins ⟨sId, hs⟩)).mp hne)]

omit hD in
/-- From the last entry of a list on, the iteration goes round the list. -/
theorem goesRound_logins [DecidableEq ν] (h : m.Holds t) {db s : ν} (hs : m.IsSIds db s)
    (hne : t.logins s ≠ []) {dbId sId : Option Bytes}
    (hfirst : m.authGetFirst D dbId sId = some (m.links.prev (.sIdLogins s))) :
    GoesRound (m.visit D dbId sId) ((t.logins s).map .authChain) := by
  apply (h.logins hs).goesRound (by simpa using hne) hfirst
  · intro k n hn hvisit
    obtain ⟨it, hit, rfl⟩ := List.mem_map.mp hn
    obtain ⟨login, hheap⟩ := h.mem_logins.mp hit
    rw [visit, hvisit, Option.bind_some, Chain.authByChain, Option.bind_some, authGetNextFromAuth,
      hheap]
    rfl
  · intro k hvisit
    rw [visit, hvisit]
    rfl

/-- **The iteration over the logins of an `sId`**: `auth_get_first` and, from there on,
`auth_get_next_from_auth` visit the entries of the list and nothing else, whatever the key
leaves out. -/
theorem visitsLogins [DecidableEq ν] (hm : (memSystem D).Reachable m) :
    (∀ db s dbId sId it, m.heap db = some (.db dbId) → m.heap s = some (.sIds sId (some db)) →
      m.IsLogin s it → m.VisitsLogins D (some dbId) (some sId) s) ∧
      ∀ dbId sId c, m.authGetFirst D dbId sId = some c → ∃ s, m.VisitsLogins D dbId sId s := by
  obtain ⟨t, h⟩ := reachable_holds hD hm
  constructor
  · intro db s dbId sId it hdb hs hit
    have hne : t.logins s ≠ [] := List.ne_nil_of_mem (h.mem_logins.mpr hit)
    refine ⟨t.logins s, fun _ => h.mem_logins, ?_⟩
    exact goesRound_logins h ⟨sId, hs⟩ hne (authGetFirst_key hD h hdb hs hne)
  · intro dbId sId c hfirst
    obtain ⟨db, s, hs, hne, rfl⟩ := authGetFirst_some hD h hfirst
    exact ⟨s, t.logins s, fun _ => h.mem_logins, goesRound_logins h hs hne hfirst⟩

end Iteration

/-! ## The logins of the functional model

The tree of the invariant, without addresses and in the order of the chains, is a store of the
functional model. `auth_get_first` and `auth_get_next_from_auth` answer what its functions
answer. -/

section Functional

variable {ν : Type} {m : AuthMem ν} {t : Tree ν} {d : AuthDbs}

/-- The entries of a list have the logins of the functional model, in its order. -/
def Represents (m : AuthMem ν) (t : Tree ν) (d : AuthDbs) : Prop :=
  ∀ db s dbId sId, m.heap db = some (.db dbId) → m.heap s = some (.sIds sId (some db)) →
    (t.logins s).map (fun it => (m.heap it).map Block.key) =
      (d.logins dbId sId).map fun it => some it.login

/-- What the structure at an address is looked up by. -/
def name (m : AuthMem ν) (a : ν) : Bytes := ((m.heap a).map Block.key).getD []

/-- Structures of one list have different names. -/
theorem Holds.nodup_name (h : m.Holds t) {as : List ν} {mk : ν → Chain ν} {root : Chain ν}
    {B : Bytes → Block ν} (hring : m.links.Ring root (as.map mk)) (hplaced : ∀ k, (B k).Placed)
    (hkey : ∀ k, (B k).key = k) (has : ∀ a ∈ as, ∃ k, m.heap a = some (B k)) :
    (as.map m.name).Nodup := by
  have hnodup : as.Nodup := (List.nodup_cons.mp hring.nodup).2.of_map
  refine hnodup.map_on fun a ha b hb hab => ?_
  obtain ⟨k, hk⟩ := has a ha
  obtain ⟨k', hk'⟩ := has b hb
  rw [name, name, hk, hk', Option.map_some, Option.map_some, Option.getD_some, Option.getD_some,
    hkey, hkey] at hab
  rw [← hab] at hk'
  exact h.unique hk hk' (hplaced k)

/-- The entries of a list, in the functional model. What they hold is left out. -/
def Holds.authLogins (h : m.Holds t) {db s : ν} (hs : m.IsSIds db s) :
    KeyedList Bytes AuthItem AuthItem.login where
  items := (t.logins s).map fun it =>
    ⟨m.name it, AuthDbs.authNewBody ⟨0, 0⟩ [] none false [] false, .empty⟩
  nodup := by
    rw [List.map_map]
    exact h.nodup_name (B := fun k => .auth k (some s)) (h.logins hs) (fun _ => rfl)
      (fun _ => rfl) fun it hit => h.mem_logins.mp hit

/-- The lists of a database. -/
def Holds.authSIds (h : m.Holds t) {db : ν} (hdb : m.IsDb db) :
    KeyedList Bytes AuthSIds AuthSIds.sId where
  items := (t.sIds db).attach.map fun ⟨s, hs⟩ => ⟨m.name s, h.authLogins (h.mem_sIds.mp hs)⟩
  nodup := by
    rw [List.map_map]
    have hnodup := h.nodup_name (B := fun k => .sIds k (some db)) (h.sIds hdb) (fun _ => rfl)
      (fun _ => rfl) fun s hs => h.mem_sIds.mp hs
    rwa [← List.attach_map_subtype_val (t.sIds db), List.map_map] at hnodup

/-- The databases. -/
def Holds.authDbs (h : m.Holds t) : AuthDbs where
  items := t.dbs.attach.map fun ⟨db, hdb⟩ => ⟨m.name db, h.authSIds (h.mem_dbs.mp hdb)⟩
  nodup := by
    rw [List.map_map]
    have hnodup := h.nodup_name (B := .db) h.dbs (fun _ => trivial) (fun _ => rfl)
      fun db hdb => h.mem_dbs.mp hdb
    rwa [← List.attach_map_subtype_val t.dbs, List.map_map] at hnodup

/-- What is in memory has a functional store. -/
theorem Holds.represents (h : m.Holds t) : Represents m t h.authDbs := by
  intro db s dbId sId hdb hs
  have hisDb : m.IsDb db := ⟨dbId, hdb⟩
  have hisSIds : m.IsSIds db s := ⟨sId, hs⟩
  have hdbName : m.name db = dbId := by
    rw [name, hdb]
    rfl
  have hsName : m.name s = sId := by
    rw [name, hs]
    rfl
  have hfind : h.authDbs.find dbId = some ⟨m.name db, h.authSIds hisDb⟩ :=
    KeyedList.find_eq_some.mpr
      ⟨List.mem_map.mpr ⟨⟨db, h.mem_dbs.mpr hisDb⟩, List.mem_attach .., rfl⟩, hdbName⟩
  have hfind' : (h.authSIds hisDb).find sId = some ⟨m.name s, h.authLogins hisSIds⟩ :=
    KeyedList.find_eq_some.mpr
      ⟨List.mem_map.mpr ⟨⟨s, h.mem_sIds.mpr hisSIds⟩, List.mem_attach .., rfl⟩, hsName⟩
  have hlogins : h.authDbs.logins dbId sId = (h.authLogins hisSIds).items := by
    rw [AuthDbs.logins, AuthDbs.sIds?, hfind, Option.bind_some, hfind']
    rfl
  rw [hlogins]
  refine (List.map_congr_left fun it hit => ?_).trans List.map_map.symm
  obtain ⟨login, hlogin⟩ := h.mem_logins.mp hit
  rw [Function.comp_apply, name, hlogin]
  rfl

/-- `auth_get_first` answers the login that the functional model answers. -/
theorem authGetFirst_represents {D : LdcLib (Chain ν)} (hD : D.Lawful) (h : m.Holds t)
    (hd : Represents m t d) {db s : ν} {dbId sId : Bytes} (hdb : m.heap db = some (.db dbId))
    (hs : m.heap s = some (.sIds sId (some db))) (hne : t.logins s ≠ []) :
    ((m.authGetFirst D (some dbId) (some sId)).bind Chain.authByChain).map
        (fun it => (m.heap it).map Block.key) =
      (d.authGetFirst (some dbId) (some sId)).map fun r => some r.2.login := by
  have hnames := congrArg List.getLast? (hd db s dbId sId hdb hs)
  rw [List.getLast?_map, List.getLast?_map, List.getLast?_eq_some_getLast hne] at hnames
  have hprev : m.links.prev (.sIdLogins s) = .authChain ((t.logins s).getLast hne) := by
    rw [(h.logins ⟨sId, hs⟩).prev_root, List.getLast_cons (by simpa using hne), List.getLast_map]
  rw [authGetFirst_key hD h hdb hs hne, hprev, AuthDbs.authGetFirst_eq, Option.map_map]
  exact hnames

variable [DecidableEq ν] {db s it : ν} {key : AuthKey}

/-! ### The next login

The two models are compared at an entry: its place in the chain is the place of its login in the
list. -/

/-- `auth_get_next_from_auth` answers the login that the functional model answers. -/
theorem authGetNextFromAuth_represents (h : m.Holds t) (hd : Represents m t d)
    (hdb : m.heap db = some (.db key.dbId)) (hs : m.heap s = some (.sIds key.sId (some db)))
    (hit : m.heap it = some (.auth key.login (some s))) :
    ((m.authGetNextFromAuth it).bind Chain.authByChain).map
        (fun it => (m.heap it).map Block.key) =
      (d.authGetNextFromAuth key).map fun it => some it.login := by
  have hring := h.logins ⟨key.sId, hs⟩
  have hnext : m.authGetNextFromAuth it = m.links.after (.sIdLogins s) (.authChain it) := by
    rw [authGetNextFromAuth, hit]
    rfl
  obtain ⟨as, bs, hsplit⟩ := List.append_of_mem (h.mem_logins.mpr ⟨key.login, hit⟩)
  have hnames := hd db s key.dbId key.sId hdb hs
  rw [hsplit, List.map_append, List.map_cons, hit] at hnames
  obtain ⟨as', rest, hlogins, has, hrest⟩ := List.append_eq_map_iff.mp hnames
  obtain ⟨it', bs', rfl, hlogin, hbs⟩ := List.map_eq_cons_iff.mp hrest
  have hkey : it'.login = key.login := Option.some.inj hlogin
  -- the login of the entry is not that of one before it
  have hdrop : (as' ++ it' :: bs').dropWhile (fun x => x.login ≠ key.login) = it' :: bs' := by
    have hnodup : ((d.logins key.dbId key.sId).map AuthItem.login).Nodup := by
      rw [AuthDbs.logins]
      cases d.sIds? key.dbId key.sId with
      | none => exact List.nodup_nil
      | some si => exact si.logins.nodup
    rw [hlogins, List.map_append, List.map_cons, List.nodup_append, hkey] at hnodup
    have has' : ∀ x ∈ as', x.login ≠ key.login := fun x hx =>
      hnodup.2.2 _ (List.mem_map_of_mem hx) _ List.mem_cons_self
    rw [List.dropWhile_append_of_pos (by simpa using has'),
      List.dropWhile_cons_of_neg (by simpa using hkey)]
  rw [hnext, AuthDbs.authGetNextFromAuth, hlogins, hdrop]
  rw [hsplit, List.map_append, List.map_cons] at hring
  cases bs with
  | cons b bs =>
    obtain ⟨b', bs', rfl, hb, -⟩ := List.map_eq_cons_iff.mp hbs
    rw [List.map_cons] at hring
    rw [hring.after_at]
    exact congrArg some hb.symm
  | nil =>
    obtain rfl := List.map_eq_nil_iff.mp hbs
    cases as with
    | nil =>
      obtain rfl := List.map_eq_nil_iff.mp has
      have halone : m.links.Ring (.sIdLogins s) [.authChain it] := hring
      rw [halone.after_alone]
      rfl
    | cons a as =>
      obtain ⟨a', as', rfl, ha, -⟩ := List.map_eq_cons_iff.mp has
      have hlast : m.links.Ring (.sIdLogins s)
          (.authChain a :: (as.map Chain.authChain ++ [.authChain it])) := hring
      rw [hlast.after_last]
      dsimp only
      rw [if_neg (by simp)]
      exact congrArg some ha.symm

end Functional

/-! ## Two logins

The store on four addresses: a database, a list and two entries. -/

/-- The first address that is free. -/
def firstFree : Calloc (Fin 4) := fun heap => (List.finRange 4).find? fun a => heap a = none

theorem firstFree_fresh : firstFree.Fresh := by
  intro heap a h
  rw [firstFree] at h
  have hfree := List.find?_some h
  exact of_decide_eq_true hfree

/-- Nothing on the heap. -/
def noAuth : AuthMem (Fin 4) := ⟨⟨id, id⟩, fun _ => none⟩

/-- Two logins of one `sId`. -/
def twoLogins : AuthMem (Fin 4) :=
  (noAuth.authNew (.ofLinks _) firstFree ⟨[1], [2], [3]⟩).authNew (.ofLinks _) firstFree
    ⟨[1], [4], [3]⟩

theorem reachable_twoLogins : (memSystem (.ofLinks (Chain (Fin 4)))).Reachable twoLogins := by
  have hinit : (memSystem (.ofLinks (Chain (Fin 4)))).Reachable noAuth :=
    .init ⟨⟨rfl, rfl⟩, fun _ => rfl⟩
  have hone := hinit.next (.new ⟨[1], [2], [3]⟩) ⟨trivial, firstFree, firstFree_fresh, rfl⟩
  exact hone.next (.new ⟨[1], [4], [3]⟩) ⟨trivial, firstFree, firstFree_fresh, rfl⟩

theorem visitsLogins_two :
    twoLogins.VisitsLogins (.ofLinks (Chain (Fin 4))) (some [1]) (some [3]) 2 :=
  (visitsLogins (LdcLib.ofLinks_lawful _) reachable_twoLogins).1 1 2 [1] [3] 0 (by decide)
    (by decide) ⟨[2], by decide⟩

end AuthMem

end RsmpGateway.Auth
