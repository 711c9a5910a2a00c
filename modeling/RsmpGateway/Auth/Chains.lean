import Mathlib.Tactic.DeriveFintype
import RsmpGateway.Auth.Store
import RsmpGateway.Sync.LdcMutex

/-!
# The store in memory

The databases, the lists of a database and the entries of a list are structures on the heap, chained
in circular lists. The functions of `auth-basic.c` are translated here as they are, on addresses: a
chain is a field of a structure, the structure is found again from its chain, and an entry points
back to its list. The circular lists are those of `Lib/Ring.lean`.

`Holds` says that the heap is a tree: who is chained where, that an entry points back to its list,
and that no two entries of a list have one key. Under it a lookup goes over the chain of a list and
finds the one structure with the key (`authFind_iff`). What the other functions keep of it is the
subject of `Auth/ChainSteps.lean`.
-/

namespace RsmpGateway.Auth

open RsmpGateway.Lib RsmpGateway.Sync Links

/-! ## Structures

The type of a structure tells what it can be; which structure is at an address, and which chains
lead to it, is part of the state. -/

/-- An `sDblChain`: `_auth_dbs_root`, or a field of the structure at an address. -/
inductive Chain (ν : Type)
  | authDbsRoot
  | dbChain (db : ν)
  | dbSIds (db : ν)
  | sIdChain (s : ν)
  | sIdLogins (s : ν)
  | authChain (it : ν)
  deriving DecidableEq, Fintype

/-- `auth_db_t`, `auth_sIds_t` and `__auth_t`, without their chains. -/
inductive Block (ν : Type)
  | db (dbId : Bytes)
  | sIds (sId : Bytes) (toDbId : Option ν)
  | auth (login : Bytes) (toSId : Option ν)
  deriving DecidableEq

/-- What a structure is looked up by. -/
def Block.key {ν : Type} : Block ν → Bytes
  | .db dbId => dbId
  | .sIds sId _ => sId
  | .auth login _ => login

/-- `to_dbId` or `to_sId` is set. -/
def Block.setParent {ν : Type} (p : ν) : Block ν → Block ν
  | .db dbId => .db dbId
  | .sIds sId _ => .sIds sId (some p)
  | .auth login _ => .auth login (some p)

/-- The structure is in a list. -/
def Block.Placed {ν : Type} : Block ν → Prop
  | .db _ => True
  | .sIds _ toDbId => toDbId.isSome
  | .auth _ toSId => toSId.isSome

namespace Chain

variable {ν : Type}

/-- `auth_db_by_chain`, on the chain of a database. -/
def dbByChain : Chain ν → Option ν
  | .dbChain db => some db
  | _ => none

/-- `sIds_by_chain`, on the chain of a list. -/
def sIdsByChain : Chain ν → Option ν
  | .sIdChain s => some s
  | _ => none

/-- `__auth_by_chain`, on the chain of an entry. -/
def authByChain : Chain ν → Option ν
  | .authChain it => some it
  | _ => none

end Chain

/-- The chains, and the structures on the heap. -/
structure AuthMem (ν : Type) where
  links : Links (Chain ν)
  heap : ν → Option (Block ν)

/-- `calloc`: an address, when there is one. -/
abbrev Calloc (ν : Type) := (ν → Option (Block ν)) → Option ν

/-- The address is that of no structure. -/
def Calloc.Fresh {ν : Type} (calloc : Calloc ν) : Prop :=
  ∀ {heap a}, calloc heap = some a → heap a = none

/-- The databases, the lists of each and the entries of each list, in order. -/
structure Tree (ν : Type) where
  dbs : List ν
  sIds : ν → List ν
  logins : ν → List ν

/-! ## Functions

In the order of the source: lookups, iteration, insertion, deletion. A function that allocates is
given the address that `calloc` returns, or none. -/

namespace AuthMem

section Functions

variable {ν : Type} (D : LdcLib (Chain ν)) (calloc : Calloc ν) (m : AuthMem ν)

/-- `auth_find` -/
def authFind (root : Chain ν) (cmp : Chain ν → Option ν) : Option ν :=
  if D.ldcIsEmpty m.links root then none else (D.ldcForeach m.links root).findSome? cmp

/-- What `auth_db_cmp`, `auth_sId_cmp` and `auth_login_cmp` do. -/
def cmpKey (byChain : Chain ν → Option ν) (key : Bytes) (node : Chain ν) : Option ν :=
  (byChain node).filter fun item => (m.heap item).map Block.key = some key

/-- `auth_db_find` -/
def authDbFind (dbId : Bytes) : Option ν :=
  m.authFind D .authDbsRoot (m.cmpKey Chain.dbByChain dbId)

/-- `auth_sId_find` in the list of a database. -/
def authSIdFind (db : ν) (sId : Bytes) : Option ν :=
  m.authFind D (.dbSIds db) (m.cmpKey Chain.sIdsByChain sId)

/-- `auth_login_find` in the list of an `sId`. -/
def authLoginFind (s : ν) (login : Bytes) : Option ν :=
  m.authFind D (.sIdLogins s) (m.cmpKey Chain.authByChain login)

/-- `auth_find_by_key` -/
def authFindByKey (key : AuthKey) : Option ν := do
  let db ← m.authDbFind D key.dbId
  let s ← m.authSIdFind D db key.sId
  m.authLoginFind D s key.login

/-- `auth_get_first`: an entry is given by its chain. -/
def authGetFirst (dbId sId : Option Bytes) : Option (Chain ν) :=
  if D.ldcIsEmpty m.links .authDbsRoot then none
  else
    (dbId.elim (m.links.prev .authDbsRoot).dbByChain (m.authDbFind D)).bind fun db =>
      if D.ldcIsEmpty m.links (.dbSIds db) then none
      else
        (sId.elim (m.links.prev (.dbSIds db)).sIdsByChain (m.authSIdFind D db)).bind fun s =>
          if D.ldcIsEmpty m.links (.sIdLogins s) then none
          else some (m.links.prev (.sIdLogins s))

variable [DecidableEq ν]

/-- `auth_get_next_from_auth` -/
def authGetNextFromAuth (it : ν) : Option (Chain ν) :=
  match m.heap it with
  | some (.auth _ (some s)) =>
    if m.links.next (.authChain it) ≠ .sIdLogins s then some (m.links.next (.authChain it))
    else if m.links.next (.sIdLogins s) ≠ .authChain it then some (m.links.next (.sIdLogins s))
    else none
  | _ => none

/-- From `auth_get_first` on, one `auth_get_next_from_auth` after the other. -/
def visit (dbId sId : Option Bytes) : Nat → Option (Chain ν)
  | 0 => m.authGetFirst D dbId sId
  | k + 1 => ((visit dbId sId k).bind Chain.authByChain).bind m.authGetNextFromAuth

/-- `auth_db_new` -/
def authDbNew (dbId : Bytes) : Option (ν × AuthMem ν) :=
  (calloc m.heap).map fun db =>
    (db,
      { links := D.ldcInitialize (D.ldcInitialize m.links (.dbChain db)) (.dbSIds db)
        heap := Function.update m.heap db (some (.db dbId)) })

/-- `auth_db_search` -/
def authDbSearch (dbId : Bytes) : Option ν × AuthMem ν :=
  match m.authDbFind D dbId with
  | some db => (some db, m)
  | none =>
    match m.authDbNew D calloc dbId with
    | some (db, m) =>
      (some db, { m with links := D.ldcInsert m.links .authDbsRoot (.dbChain db) })
    | none => (none, m)

/-- `auth_sId_new` -/
def authSIdNew (sId : Bytes) : Option (ν × AuthMem ν) :=
  (calloc m.heap).map fun s =>
    (s,
      { links := D.ldcInitialize (D.ldcInitialize m.links (.sIdChain s)) (.sIdLogins s)
        heap := Function.update m.heap s (some (.sIds sId none)) })

/-- `item->to_dbId = …` or `item->to_sId = …` -/
def setParent (item p : ν) : AuthMem ν :=
  { m with heap := Function.update m.heap item ((m.heap item).map (Block.setParent p)) }

/-- `auth_sId_search` in the list of a database. -/
def authSIdSearch (db : ν) (sId : Bytes) : Option ν × AuthMem ν :=
  match m.authSIdFind D db sId with
  | some s => (some s, m)
  | none =>
    match m.authSIdNew D calloc sId with
    | some (s, m) =>
      let m := { m with links := D.ldcInsert m.links (.dbSIds db) (.sIdChain s) }
      (some s, m.setParent s db)
    | none => (none, m)

/-- `__auth_new` -/
def authNewItem (login : Bytes) : Option (ν × AuthMem ν) :=
  (calloc m.heap).map fun it =>
    (it,
      { links := D.ldcInitialize m.links (.authChain it)
        heap := Function.update m.heap it (some (.auth login none)) })

/-- `auth_login_insert` -/
def authLoginInsert (s it : ν) : AuthMem ν :=
  let m := { m with links := D.ldcInsert m.links (.sIdLogins s) (.authChain it) }
  m.setParent it s

/-- `auth_insert`, of an item with this key. -/
def authInsert (key : AuthKey) (it : ν) : AuthMem ν :=
  match m.authDbSearch D calloc key.dbId with
  | (none, m) => m
  | (some db, m) =>
    match m.authSIdSearch D calloc db key.sId with
    | (none, m) => m
    | (some s, m) =>
      match m.authLoginFind D s key.login with
      | none => m.authLoginInsert D s it
      | some _ => m

/-- `auth_new` -/
def authNew (key : AuthKey) : AuthMem ν :=
  match m.authNewItem D calloc key.login with
  | some (it, m) => m.authInsert D calloc key it
  | none => m

/-- What `auth_search_by_key` and `auth_insert_by_key` do: a new entry when there is none. -/
def authSearchByKey (key : AuthKey) : AuthMem ν :=
  if AuthDbs.keyIsSet key then
    match m.authDbSearch D calloc key.dbId with
    | (none, m) => m
    | (some db, m) =>
      match m.authSIdSearch D calloc db key.sId with
      | (none, m) => m
      | (some s, m) =>
        match m.authLoginFind D s key.login with
        | none => m.authNew D calloc key
        | some _ => m
  else m

/-- `auth_free` -/
def authFree (it : ν) : AuthMem ν where
  links :=
    if D.ldcIsEmpty m.links (.authChain it) then m.links
    else D.ldcSuppress m.links (.authChain it)
  heap := Function.update m.heap it none

/-- `auth_delete_by_key` -/
def authDeleteByKey (key : AuthKey) : AuthMem ν :=
  match m.authFindByKey D key with
  | some it => m.authFree D it
  | none => m

end Functions

/-! ## Who is chained where

The invariant has one clause for each level of the tree. The lookups follow from it: they go over
the chain of a list and find the one structure with the key. -/

section Holds

variable {ν : Type} (m : AuthMem ν)

def IsDb (db : ν) : Prop := ∃ dbId, m.heap db = some (.db dbId)

/-- `to_dbId` is the database. -/
def IsSIds (db s : ν) : Prop := ∃ sId, m.heap s = some (.sIds sId (some db))

/-- `to_sId` is the list. -/
def IsLogin (s it : ν) : Prop := ∃ login, m.heap it = some (.auth login (some s))

/-- The structures are chained as the tree has them, and no others. -/
structure Holds (t : Tree ν) : Prop where
  dbs : m.links.Ring .authDbsRoot (t.dbs.map .dbChain)
  mem_dbs : ∀ {db}, db ∈ t.dbs ↔ m.IsDb db
  sIds : ∀ {db}, m.IsDb db → m.links.Ring (.dbSIds db) ((t.sIds db).map .sIdChain)
  mem_sIds : ∀ {db s}, s ∈ t.sIds db ↔ m.IsSIds db s
  isDb : ∀ {db s}, m.IsSIds db s → m.IsDb db
  logins : ∀ {db s}, m.IsSIds db s → m.links.Ring (.sIdLogins s) ((t.logins s).map .authChain)
  mem_logins : ∀ {s it}, it ∈ t.logins s ↔ m.IsLogin s it
  isSIds : ∀ {s it}, m.IsLogin s it → ∃ db, m.IsSIds db s
  alone : ∀ {it login}, m.heap it = some (.auth login none) → m.links.Alone (.authChain it)
  unique : ∀ {a a' b}, m.heap a = some b → m.heap a' = some b → b.Placed → a = a'

end Holds

section Lookups

variable {ν : Type} {D : LdcLib (Chain ν)} (hD : D.Lawful) {m : AuthMem ν} {t : Tree ν}

include hD

/-- A lookup goes over the structures of a list. -/
theorem authFind_eq {root : Chain ν} {as : List ν} {mk : ν → Chain ν}
    {byChain : Chain ν → Option ν} (h : m.links.Ring root (as.map mk))
    (hmk : ∀ a, byChain (mk a) = some a) (key : Bytes) :
    m.authFind D root (m.cmpKey byChain key) =
      as.find? fun a => (m.heap a).map Block.key = some key := by
  have hcmp : ∀ a, m.cmpKey byChain key (mk a) =
      if (m.heap a).map Block.key = some key then some a else none := by
    intro a
    rw [cmpKey, hmk, Option.filter_some]
    simp only [decide_eq_true_eq]
  cases as with
  | nil => rw [authFind, if_pos (hD.isEmpty_alone (ring_nil.mp h)), List.find?_nil]
  | cons a as =>
    have hempty := hD.isEmpty_linked h List.mem_cons_self (by simp)
    rw [authFind, hempty, hD.foreach h, if_neg Bool.false_ne_true]
    generalize a :: as = as
    induction as with
    | nil => rfl
    | cons a as ih =>
      rw [List.map_cons, List.findSome?_cons, hcmp, List.find?_cons, ih]
      by_cases hkey : (m.heap a).map Block.key = some key <;> simp [hkey]

omit hD in
theorem find?_unique {as : List ν} {p : ν → Bool} {a : ν}
    (huniq : ∀ a ∈ as, ∀ a' ∈ as, p a → p a' → a = a') :
    as.find? p = some a ↔ a ∈ as ∧ p a := by
  constructor
  · intro h
    exact ⟨List.mem_of_find?_eq_some h, List.find?_some h⟩
  · rintro ⟨ha, hpa⟩
    cases h : as.find? p with
    | none => exact absurd hpa (List.find?_eq_none.mp h a ha)
    | some a' =>
      rw [huniq a' (List.mem_of_find?_eq_some h) a ha (List.find?_some h) hpa]

/-- **The lookups** find the structure with the key. -/
theorem authFind_iff (h : m.Holds t) {root : Chain ν} {as : List ν} {mk : ν → Chain ν}
    {byChain : Chain ν → Option ν} {B : Bytes → Block ν} (hring : m.links.Ring root (as.map mk))
    (hmk : ∀ a, byChain (mk a) = some a) (hmem : ∀ a, a ∈ as ↔ ∃ k, m.heap a = some (B k))
    (hkey : ∀ k, (B k).key = k) (hplaced : ∀ k, (B k).Placed) {key : Bytes} {a : ν} :
    m.authFind D root (m.cmpKey byChain key) = some a ↔ m.heap a = some (B key) := by
  have hblock : ∀ {a}, a ∈ as → (m.heap a).map Block.key = some key →
      m.heap a = some (B key) := by
    intro a ha hk
    obtain ⟨k, hheap⟩ := (hmem a).mp ha
    rw [hheap, Option.map_some, hkey] at hk
    rw [hheap, Option.some.inj hk]
  rw [authFind_eq hD hring hmk, find?_unique]
  · constructor
    · rintro ⟨ha, hk⟩
      exact hblock ha (of_decide_eq_true hk)
    · intro ha
      refine ⟨(hmem a).mpr ⟨key, ha⟩, decide_eq_true ?_⟩
      rw [ha, Option.map_some, hkey]
  · intro a ha a' ha' hk hk'
    exact h.unique (hblock ha (of_decide_eq_true hk)) (hblock ha' (of_decide_eq_true hk'))
      (hplaced key)

theorem authDbFind_iff (h : m.Holds t) {dbId : Bytes} {db : ν} :
    m.authDbFind D dbId = some db ↔ m.heap db = some (.db dbId) :=
  authFind_iff hD h h.dbs (fun _ => rfl) (fun _ => h.mem_dbs) (fun _ => rfl) fun _ => trivial

theorem authSIdFind_iff (h : m.Holds t) {sId : Bytes} {db s : ν} (hdb : m.IsDb db) :
    m.authSIdFind D db sId = some s ↔ m.heap s = some (.sIds sId (some db)) :=
  authFind_iff hD h (B := fun k => .sIds k (some db)) (h.sIds hdb) (fun _ => rfl)
    (fun _ => h.mem_sIds) (fun _ => rfl) fun _ => rfl

theorem authLoginFind_iff (h : m.Holds t) {login : Bytes} {db s it : ν} (hs : m.IsSIds db s) :
    m.authLoginFind D s login = some it ↔ m.heap it = some (.auth login (some s)) :=
  authFind_iff hD h (B := fun k => .auth k (some s)) (h.logins hs) (fun _ => rfl)
    (fun _ => h.mem_logins) (fun _ => rfl) fun _ => rfl

end Lookups

end AuthMem

end RsmpGateway.Auth
