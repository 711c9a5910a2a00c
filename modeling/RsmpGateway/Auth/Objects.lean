import RsmpGateway.Auth.Store
import RsmpGateway.Lib.Memory
import RsmpGateway.Lib.System

/-!
# The store as a heap of objects

The functions of `auth-basic.c` return pointers, so that two calls may be asked for one and the
same entry. Here each structure has an identity: the number with which it was allocated. Memory
is given by `AuthMemory`, which says for each kind of structure whether `calloc` grants it.

The functions of the source are translated once more, on this heap. They differ from those of
`Auth/Store.lean` in what they return, and in what an allocation that fails leaves: a list that
was created for an entry stays when the entry is refused.

The heap gives a finite map from keys to identities (`AuthHeap.map`), which is what the functions
are about. What they do to it is in `Auth/Identity.lean`; the lemmas of this module are about one
list that is looked up or changed.
-/

namespace RsmpGateway.Auth.Identity

open RsmpGateway.Lib

/-! ## Objects

An item that is in no list still exists: `auth_new` may return one. -/

/-- `__auth_t`, at an address. The login and the `sId` of the key are those it is looked up by. -/
structure HeapItem where
  id : Nat
  key : AuthKey
  auth : AuthEntry

/-- `auth_sIds_t` -/
structure SIdsList where
  sId : Bytes
  logins : List HeapItem

/-- `auth_db_t` -/
structure DbList where
  dbId : Bytes
  sIds : KeyedList Bytes SIdsList SIdsList.sId

/-- The lists, with the items that are in none of them. Addresses from `next` on are free. -/
structure AuthHeap where
  dbs : KeyedList Bytes DbList DbList.dbId
  loose : List HeapItem
  next : Nat

/-- `auth_key_t` as a caller gives it, with `none` for `NULL`. -/
structure KeyArg where
  dbId : Option Bytes
  login : Option Bytes
  sId : Option Bytes

/-- The key, where no part is `NULL`. -/
def KeyArg.key? (k : KeyArg) : Option AuthKey := do
  let dbId ← k.dbId
  let login ← k.login
  let sId ← k.sId
  return ⟨dbId, login, sId⟩

/-- The key, where no part is `NULL` or empty. -/
def KeyArg.set? (k : KeyArg) : Option AuthKey := k.key?.filter AuthDbs.keyIsSet

/-- Whether a call gets a database, a list of logins, an entry and its passwords from `calloc` and
`malloc`. -/
structure AuthMemory where
  db : Bool
  sIds : Bool
  item : Bool
  pwd : Bool
  newPwd : Bool

/-- What `auth_new` is given for an entry. -/
structure AuthBody where
  pwd : AuthPwd
  ts : Option HoroDate
  active : Bool
  newPwd : AuthPwd
  newPwdPending : Bool

/-- No password. -/
def AuthBody.none : AuthBody := ⟨[], .none, false, [], false⟩

/-- The entry built of it. -/
def AuthBody.entry (m : AuthMemory) (now : HoroDate) (body : AuthBody) : AuthEntry :=
  AuthDbs.authNewBody now (if m.pwd then body.pwd else []) body.ts body.active
    (if m.newPwd then body.newPwd else []) body.newPwdPending

namespace AuthHeap

def empty : AuthHeap := ⟨.empty, [], 0⟩

/-- The list of logins under `dbId` and `sId`. -/
def sIds? (s : AuthHeap) (dbId sId : Bytes) : Option SIdsList :=
  (s.dbs.find dbId).bind fun db => db.sIds.find sId

/-- The items of this list. -/
def logins (s : AuthHeap) (dbId sId : Bytes) : List HeapItem :=
  ((s.sIds? dbId sId).map SIdsList.logins).getD []

/-- The items of all lists. -/
def stored (s : AuthHeap) : List HeapItem :=
  s.dbs.items.flatMap fun db => db.sIds.items.flatMap SIdsList.logins

/-- The item at an address, unless it was freed. -/
def item? (s : AuthHeap) (id : Nat) : Option HeapItem :=
  (s.loose ++ s.stored).find? fun it => it.id = id

/-- The first item under a key. -/
def find (s : AuthHeap) (key : AuthKey) : Option HeapItem :=
  (s.logins key.dbId key.sId).find? fun it => it.key.login = key.login

/-- Change a list of logins. -/
def changeLogins (s : AuthHeap) (dbId sId : Bytes) (f : List HeapItem → List HeapItem) :
    AuthHeap :=
  { s with
    dbs := s.dbs.modify dbId
      (fun db => { db with
        sIds := db.sIds.modify sId (fun si => { si with logins := f si.logins }) fun _ => rfl })
      fun _ => rfl }

/-- The item takes the place of the one under its login, which is freed. -/
def place (s : AuthHeap) (dbId : Bytes) (it : HeapItem) : AuthHeap :=
  s.changeLogins dbId it.key.sId fun l =>
    (l.eraseP fun old => old.key.login = it.key.login) ++ [it]

end AuthHeap

open AuthHeap

/-! ## Functions

In the order of the source. A key may lack parts, which are null pointers there. -/

variable (m : AuthMemory) (now : HoroDate) (s : AuthHeap)

/-- `auth_db_search`: the database is created where there is none. -/
def authDbSearch (dbId : Bytes) : Option AuthHeap :=
  if (s.dbs.find dbId).isSome || m.db then
    some { s with dbs := s.dbs.upsert dbId ⟨dbId, .empty⟩ id rfl fun _ => rfl }
  else none

/-- `auth_sId_search`, in a database. -/
def authSIdSearch (dbId sId : Bytes) : Option AuthHeap :=
  if (s.sIds? dbId sId).isSome || m.sIds then
    some { s with
      dbs := s.dbs.modify dbId
        (fun db => { db with
          sIds := db.sIds.upsert sId ⟨sId, []⟩ id rfl fun _ => rfl }) fun _ => rfl }
  else none

/-- The two searches, and whether there is a list in the end. -/
def searchLists (dbId sId : Bytes) : AuthHeap × Bool :=
  match authDbSearch m s dbId with
  | none => (s, false)
  | some s =>
    match authSIdSearch m s dbId sId with
    | none => (s, false)
    | some s => (s, true)

/-- `auth_insert`: `false` for `NULL`. -/
def authInsert (dbId : Bytes) (it : HeapItem) : AuthHeap × Bool :=
  match searchLists m s dbId it.key.sId with
  | (s, false) => (s, false)
  | (s, true) =>
    match s.find ⟨dbId, it.key.login, it.key.sId⟩ with
    | some _ => (s, false)
    | none => (s.changeLogins dbId it.key.sId (· ++ [it]), true)

/-- `__auth_new`: an item that is in no list. -/
def authItemNew (key : AuthKey) (auth : AuthEntry) : AuthHeap × Option Nat :=
  if m.item then
    ({ s with loose := ⟨s.next, key, auth⟩ :: s.loose, next := s.next + 1 }, some s.next)
  else (s, none)

/-- `auth_new` -/
def authNew (key : KeyArg) (body : AuthBody) : Run (AuthHeap × Option Nat) :=
  if key.login.getD [] = [] ∨ key.sId.getD [] = [] then .error .abort
  else
    match key.key? with
    | none => .error .read -- `strdup` of no database
    | some key =>
      if m.item then
        let it : HeapItem := ⟨s.next, key, body.entry m now⟩
        match authInsert m { s with next := s.next + 1 } key.dbId it with
        | (s, true) => .ok (s, some it.id)
        | (s, false) => .ok ({ s with loose := it :: s.loose }, some it.id)
      else .ok (s, none)

/-- The body of the next two functions, which differ in what they return of an entry that is there.
The key has no part that is `NULL` or empty. -/
def authByKey (found : HeapItem → Option Nat) (key : KeyArg) : Run (AuthHeap × Option Nat) :=
  match key.set? with
  | none => .ok (s, none)
  | some k =>
    match searchLists m s k.dbId k.sId with
    | (s, false) => .ok (s, none)
    | (s, true) =>
      match s.find k with
      | none => authNew m now s key .none
      | some it => .ok (s, found it)

/-- `auth_insert_by_key` -/
def authInsertByKey (key : KeyArg) : Run (AuthHeap × Option Nat) :=
  authByKey m now s (fun _ => none) key

/-- `auth_search_by_key` -/
def authSearchByKey (key : KeyArg) : Run (AuthHeap × Option Nat) :=
  authByKey m now s (fun it => some it.id) key

/-- `auth_find_by_key` -/
def authFindByKey (key : KeyArg) : Option Nat := (key.key?.bind s.find).map HeapItem.id

/-- `auth_delete_by_key`: the item found is unchained and freed. -/
def authDeleteByKey (key : KeyArg) : AuthHeap :=
  match key.key? with
  | none => s
  | some k =>
    match s.find k with
    | none => s
    | some _ => s.changeLogins k.dbId k.sId fun l => l.eraseP fun it => it.key.login = k.login

/-- `auth_insert_or_update`: the item found is freed, then the other one is chained. -/
def authInsertOrUpdate (dbId : Bytes) (item : Nat) : Run (AuthHeap × Option Nat) :=
  match authDbSearch m s dbId with
  | none => .ok (s, none)
  | some s =>
    match s.item? item with
    | none => .error .read
    | some it =>
      match authSIdSearch m s dbId it.key.sId with
      | none => .ok (s, none)
      | some s =>
        if s.loose.any fun it => it.id = item then
          .ok ({ s.place dbId it with loose := s.loose.filter fun it => it.id ≠ item },
            some item)
        -- an item of a list: it is freed there, or it chains this list to another
        else .error .write

/-! ## Runs

A call names the memory that it is granted, and entries by their identities. -/

/-- A call of one of the functions. -/
inductive StoreOp
  | itemNew (key : AuthKey) (auth : AuthEntry)
  | new (key : KeyArg) (body : AuthBody)
  | insertByKey (key : KeyArg)
  | searchByKey (key : KeyArg)
  | insertOrUpdate (dbId : Bytes) (item : Nat)
  | deleteByKey (key : KeyArg)
  | findByKey (key : KeyArg)

/-- A call with the memory it gets and the time it is made. -/
structure StoreCall where
  memory : AuthMemory
  now : HoroDate
  op : StoreOp

/-- The store after a call, and the address that it returns. -/
def StoreCall.run (s : AuthHeap) (c : StoreCall) : Run (AuthHeap × Option Nat) :=
  match c.op with
  | .itemNew key auth => .ok (authItemNew c.memory s key auth)
  | .new key body => authNew c.memory c.now s key body
  | .insertByKey key => authInsertByKey c.memory c.now s key
  | .searchByKey key => authSearchByKey c.memory c.now s key
  | .insertOrUpdate dbId item => authInsertOrUpdate c.memory s dbId item
  | .deleteByKey key => .ok (authDeleteByKey s key, none)
  | .findByKey key => .ok (s, authFindByKey s key)

/-- Calls one after the other, from an empty store. -/
def storeSystem : System AuthHeap StoreCall where
  init s := s = .empty
  step s c s' := ∃ r, c.run s = .ok (s', r)

/-! ## Lists

Searching a list, or creating it, leaves the items of every list as they are. -/

variable {m now s} {s' : AuthHeap} {dbId sId : Bytes}

namespace AuthHeap

theorem logins_eq (s : AuthHeap) (dbId sId : Bytes) :
    s.logins dbId sId = ((((s.dbs.find dbId).bind fun db => db.sIds.find sId).map
      SIdsList.logins).getD []) := rfl

theorem logins_changeLogins (h : (s.sIds? dbId sId).isSome) (f : List HeapItem → List HeapItem)
    (dbId' sId' : Bytes) :
    (s.changeLogins dbId sId f).logins dbId' sId' =
      if dbId' = dbId ∧ sId' = sId then f (s.logins dbId sId) else s.logins dbId' sId' := by
  obtain ⟨si, hsi⟩ := Option.isSome_iff_exists.mp h
  obtain ⟨db, hdb, hfind⟩ := Option.bind_eq_some_iff.mp hsi
  simp only [logins_eq, changeLogins, KeyedList.find_modify]
  by_cases hd : dbId' = dbId
  · subst hd
    simp only [if_true, hdb, Option.map_some, Option.bind_some, KeyedList.find_modify]
    by_cases hs : sId' = sId
    · subst hs
      simp [hfind]
    · simp [hs]
  · simp [hd]

/-- Nothing but lists without items differs. -/
structure SameItems (s s' : AuthHeap) : Prop where
  logins : ∀ dbId sId, s'.logins dbId sId = s.logins dbId sId
  loose : s'.loose = s.loose
  next : s'.next = s.next

theorem SameItems.refl (s : AuthHeap) : SameItems s s := ⟨fun _ _ => rfl, rfl, rfl⟩

theorem SameItems.trans {s₁ s₂ s₃ : AuthHeap} (h : SameItems s₁ s₂) (h' : SameItems s₂ s₃) :
    SameItems s₁ s₃ where
  logins dbId sId := (h'.logins dbId sId).trans (h.logins dbId sId)
  loose := h'.loose.trans h.loose
  next := h'.next.trans h.next

theorem SameItems.find (h : SameItems s s') (key : AuthKey) : s'.find key = s.find key := by
  rw [AuthHeap.find, h.logins]
  rfl

end AuthHeap

/-! ### The two searches

A search adds an empty list where there is none, if there is memory. No item is touched, so that
what was found under a key is found there. -/

/-- A database is found or created. -/
theorem authDbSearch_spec (h : authDbSearch m s dbId = some s') :
    SameItems s s' ∧ (s'.dbs.find dbId).isSome ∧ ∀ sId, s'.sIds? dbId sId = s.sIds? dbId sId := by
  rw [authDbSearch] at h
  split at h
  · cases h
    refine ⟨⟨?_, rfl, rfl⟩, ?_, ?_⟩
    · intro dbId' sId'
      simp only [logins_eq, KeyedList.find_upsert]
      by_cases hd : dbId' = dbId
      · subst hd
        cases hdb : s.dbs.find dbId' <;> simp
      · simp [hd]
    · rw [KeyedList.find_upsert, if_pos rfl]
      rfl
    · intro sId
      simp only [sIds?, KeyedList.find_upsert]
      cases hdb : s.dbs.find dbId <;> simp
  · cases h

/-- A list is found or created. -/
theorem authSIdSearch_spec (hdb : (s.dbs.find dbId).isSome)
    (h : authSIdSearch m s dbId sId = some s') :
    SameItems s s' ∧ (s'.sIds? dbId sId).isSome := by
  obtain ⟨db, hdb⟩ := Option.isSome_iff_exists.mp hdb
  rw [authSIdSearch] at h
  split at h
  · cases h
    refine ⟨⟨?_, rfl, rfl⟩, ?_⟩
    · intro dbId' sId'
      simp only [logins_eq, KeyedList.find_modify]
      by_cases hd : dbId' = dbId
      · subst hd
        simp only [if_true, hdb, Option.map_some, Option.bind_some, KeyedList.find_upsert]
        by_cases hs : sId' = sId
        · subst hs
          cases db.sIds.find sId' <;> simp
        · simp [hs]
      · simp [hd]
    · simp [sIds?, KeyedList.find_modify, hdb, KeyedList.find_upsert]
  · cases h

/-- Memory for what is missing on the way to a list. -/
def Reached (m : AuthMemory) (s : AuthHeap) (dbId sId : Bytes) : Bool :=
  ((s.dbs.find dbId).isSome || m.db) && ((s.sIds? dbId sId).isSome || m.sIds)

/-- **Both searches**: the items stay, and the list is there when memory is. -/
theorem searchLists_spec (m : AuthMemory) (s : AuthHeap) (dbId sId : Bytes) :
    SameItems s (searchLists m s dbId sId).1 ∧ (searchLists m s dbId sId).2 = Reached m s dbId sId ∧
      ((searchLists m s dbId sId).2 = true →
        ((searchLists m s dbId sId).1.sIds? dbId sId).isSome) := by
  rw [searchLists, Reached]
  cases hdb : authDbSearch m s dbId with
  | none =>
    refine ⟨.refl s, ?_, fun h => absurd h Bool.false_ne_true⟩
    rw [authDbSearch] at hdb
    split at hdb
    · cases hdb
    · next hno => rw [eq_false_of_ne_true hno, Bool.false_and]
  | some s₁ =>
    obtain ⟨hsame, hsome, hsIds⟩ := authDbSearch_spec hdb
    have hyes : ((s.dbs.find dbId).isSome || m.db) = true := by
      rw [authDbSearch] at hdb
      split at hdb
      · assumption
      · cases hdb
    rw [hyes, Bool.true_and, ← hsIds]
    dsimp only
    cases hlist : authSIdSearch m s₁ dbId sId with
    | none =>
      refine ⟨hsame, ?_, fun h => absurd h Bool.false_ne_true⟩
      rw [authSIdSearch] at hlist
      split at hlist
      · cases hlist
      · next hno => rw [eq_false_of_ne_true hno]
    | some s₂ =>
      obtain ⟨hsame', hsome'⟩ := authSIdSearch_spec hsome hlist
      refine ⟨hsame.trans hsame', ?_, fun _ => hsome'⟩
      rw [authSIdSearch] at hlist
      split at hlist
      · next hyes' => rw [hyes']
      · cases hlist

/-! ## The finite map

The invariant `StoreInv` says that identities are not used twice, and that an item is where its
key says. -/

/-- The addresses by key. -/
abbrev AuthMap := AuthKey → Option Nat

/-- The map that a store is. -/
def AuthHeap.map (s : AuthHeap) : AuthMap := fun key => (s.find key).map HeapItem.id

theorem find?_eraseP {l : List HeapItem} (hnodup : (l.map (·.key.login)).Nodup) (a b : Bytes) :
    (l.eraseP fun it => it.key.login = a).find? (fun it => it.key.login = b) =
      if b = a then none else l.find? fun it => it.key.login = b := by
  induction l with
  | nil => simp
  | cons it l ih =>
    rw [List.map_cons, List.nodup_cons] at hnodup
    by_cases hit : it.key.login = a
    · -- the item that is erased, and no other of its login comes after it
      rw [List.eraseP_cons_of_pos (by simpa using hit)]
      by_cases hb : b = a
      · subst hb
        rw [if_pos rfl, List.find?_eq_none]
        intro it' hit' heq
        have hlogin : it'.key.login = it.key.login := (of_decide_eq_true heq).trans hit.symm
        exact hnodup.1 (hlogin ▸ List.mem_map_of_mem hit')
      · have hne : ¬ it.key.login = b := fun h => hb (h.symm.trans hit)
        rw [if_neg hb, List.find?_cons_of_neg (by simpa using hne)]
    · rw [List.eraseP_cons_of_neg (by simpa using hit)]
      by_cases hb : it.key.login = b
      · have hne : ¬ b = a := fun h => hit (hb.trans h)
        rw [List.find?_cons_of_pos (by simpa using hb), List.find?_cons_of_pos (by simpa using hb),
          if_neg hne]
      · rw [List.find?_cons_of_neg (by simpa using hb), List.find?_cons_of_neg (by simpa using hb),
          ih hnodup.2]

/-! ### The invariant

An address is used once, below the next free one. It is what makes the store a map in both
directions: one address for a key, and one key for an address. -/

/-- At most one item for each login of a list, and addresses that tell the entries apart: from those
of other keys, from the items that are in no list, and from the free ones. -/
structure StoreInv (s : AuthHeap) : Prop where
  logins_nodup : ∀ dbId sId, ((s.logins dbId sId).map (·.key.login)).Nodup
  injective : ∀ {key key' id}, s.map key = some id → s.map key' = some id → key = key'
  apart : ∀ it ∈ s.loose, ∀ key, s.map key ≠ some it.id
  below : ∀ {key id}, s.map key = some id → id < s.next
  below_loose : ∀ it ∈ s.loose, it.id < s.next

theorem StoreInv.empty : StoreInv .empty where
  logins_nodup _ _ := List.nodup_nil
  injective h := by cases h
  apart _ h := by cases h
  below h := by cases h
  below_loose _ h := by cases h

theorem AuthHeap.SameItems.map (h : SameItems s s') : s'.map = s.map := by
  funext key
  rw [AuthHeap.map, h.find]
  rfl

theorem StoreInv.same (hs : StoreInv s) (h : SameItems s s') : StoreInv s' where
  logins_nodup dbId sId := by
    rw [h.logins]
    exact hs.logins_nodup dbId sId
  injective := by
    rw [h.map]
    exact hs.injective
  apart := by
    rw [h.map, h.loose]
    exact hs.apart
  below := by
    rw [h.map, h.next]
    exact hs.below
  below_loose := by
    rw [h.loose, h.next]
    exact hs.below_loose

/-- A key gets an address that no other has, or none. -/
theorem StoreInv.update (hs : StoreInv s)
    (hnodup : ∀ dbId sId, ((s'.logins dbId sId).map (·.key.login)).Nodup) {key : AuthKey}
    {v : Option Nat} (hmap : s'.map = Function.update s.map key v)
    (hv : ∀ id, v = some id → (∀ key, s.map key ≠ some id) ∧ id < s'.next ∧
      ∀ it ∈ s'.loose, it.id ≠ id)
    (hloose : ∀ it ∈ s'.loose, it ∈ s.loose) (hnext : s.next ≤ s'.next) : StoreInv s' := by
  -- an address is the new one, or was there
  have hcases : ∀ {k id}, s'.map k = some id → (k = key ∧ v = some id) ∨ s.map k = some id := by
    intro k id h
    rw [hmap] at h
    by_cases hk : k = key
    · subst hk
      rw [Function.update_self] at h
      exact .inl ⟨rfl, h⟩
    · rw [Function.update_of_ne hk] at h
      exact .inr h
  constructor
  · exact hnodup
  · intro k k' id h h'
    rcases hcases h with ⟨rfl, hnew⟩ | hold
    · rcases hcases h' with ⟨rfl, -⟩ | hold'
      · rfl
      · exact absurd hold' ((hv id hnew).1 k')
    · rcases hcases h' with ⟨rfl, hnew⟩ | hold'
      · exact absurd hold ((hv id hnew).1 k)
      · exact hs.injective hold hold'
  · intro it hit k h
    rcases hcases h with ⟨-, hnew⟩ | hold
    · exact (hv _ hnew).2.2 it hit rfl
    · exact hs.apart it (hloose it hit) k hold
  · intro k id h
    rcases hcases h with ⟨-, hnew⟩ | hold
    · exact (hv id hnew).2.1
    · exact (hs.below hold).trans_le hnext
  · intro it hit
    exact (hs.below_loose it (hloose it hit)).trans_le hnext

/-! ## Changes of a list

An item is put in a list or erased from it; what becomes of the map is an update at one key. -/

/-- What is found under one key only differs. -/
theorem map_of_find {key : AuthKey} {v : Option HeapItem}
    (h : ∀ key', s'.find key' = if key' = key then v else s.find key') :
    s'.map = Function.update s.map key (v.map HeapItem.id) := by
  funext key'
  rw [AuthHeap.map, h]
  by_cases hkey : key' = key
  · rw [if_pos hkey, hkey, Function.update_self]
  · rw [if_neg hkey, Function.update_of_ne hkey]
    rfl

/-- The list of a key without the item of the key. -/
theorem find_erased (hs : StoreInv s) {key : AuthKey} (hlist : (s.sIds? key.dbId key.sId).isSome)
    (key' : AuthKey) :
    (s.changeLogins key.dbId key.sId fun l => l.eraseP fun it => it.key.login = key.login).find
      key' = if key' = key then none else s.find key' := by
  rw [AuthHeap.find, logins_changeLogins hlist]
  by_cases hplace : key'.dbId = key.dbId ∧ key'.sId = key.sId
  · rw [if_pos hplace, find?_eraseP (hs.logins_nodup _ _)]
    by_cases hlogin : key'.login = key.login
    · obtain rfl : key' = key := AuthDbs.authKey_eq_iff.mpr ⟨hplace.1, hplace.2, hlogin⟩
      simp
    · have hne : key' ≠ key := fun h => hlogin (congrArg AuthKey.login h)
      rw [if_neg hlogin, if_neg hne, AuthHeap.find, hplace.1, hplace.2]
  · have hne : key' ≠ key := by
      intro h
      rw [h] at hplace
      exact hplace ⟨rfl, rfl⟩
    rw [if_neg hplace, if_neg hne]
    rfl

theorem nodup_erased (hs : StoreInv s) {key : AuthKey} (hlist : (s.sIds? key.dbId key.sId).isSome)
    (dbId sId : Bytes) :
    (((s.changeLogins key.dbId key.sId fun l =>
      l.eraseP fun it => it.key.login = key.login).logins dbId sId).map (·.key.login)).Nodup := by
  rw [logins_changeLogins hlist]
  split
  · exact (hs.logins_nodup _ _).sublist (List.eraseP_sublist.map _)
  · exact hs.logins_nodup _ _

/-! ### An item that is entered

The insertion of a new item and the exchange of one for another end alike: the item stands last
in its list, and no other item of the list has its login. -/

/-- An item stands at the end of its list, alone under its login; the other lists are the same. -/
def Placed (s s' : AuthHeap) (dbId : Bytes) (it : HeapItem) : Prop :=
  ∀ dbId' sId', s'.logins dbId' sId' =
    if dbId' = dbId ∧ sId' = it.key.sId then
      ((s.logins dbId it.key.sId).eraseP fun old => old.key.login = it.key.login) ++ [it]
    else s.logins dbId' sId'

theorem Placed.find (hs : StoreInv s) {it : HeapItem} (h : Placed s s' dbId it) (key' : AuthKey) :
    s'.find key' =
      if key' = ⟨dbId, it.key.login, it.key.sId⟩ then some it else s.find key' := by
  rw [AuthHeap.find, h]
  by_cases hplace : key'.dbId = dbId ∧ key'.sId = it.key.sId
  · rw [if_pos hplace, List.find?_append, find?_eraseP (hs.logins_nodup _ _)]
    by_cases hlogin : key'.login = it.key.login
    · obtain rfl : key' = ⟨dbId, it.key.login, it.key.sId⟩ :=
        AuthDbs.authKey_eq_iff.mpr ⟨hplace.1, hplace.2, hlogin⟩
      simp
    · have hne : key' ≠ ⟨dbId, it.key.login, it.key.sId⟩ := fun h => hlogin (by rw [h])
      have hnot : ¬ it.key.login = key'.login := fun h => hlogin h.symm
      rw [if_neg hlogin, if_neg hne, AuthHeap.find, hplace.1, hplace.2]
      simp [hnot]
  · have hne : key' ≠ ⟨dbId, it.key.login, it.key.sId⟩ := by
      intro h
      rw [h] at hplace
      exact hplace ⟨rfl, rfl⟩
    rw [if_neg hplace, if_neg hne]
    rfl

theorem Placed.map (hs : StoreInv s) {it : HeapItem} (h : Placed s s' dbId it) :
    s'.map = Function.update s.map ⟨dbId, it.key.login, it.key.sId⟩ (some it.id) :=
  map_of_find (h.find hs)

theorem Placed.nodup (hs : StoreInv s) {it : HeapItem} (h : Placed s s' dbId it)
    (dbId' sId' : Bytes) : ((s'.logins dbId' sId').map (·.key.login)).Nodup := by
  rw [h]
  split
  · rw [List.map_append, List.nodup_append]
    refine ⟨(hs.logins_nodup _ _).sublist (List.eraseP_sublist.map _), List.nodup_singleton _, ?_⟩
    rintro login hlogin _ hnew rfl
    obtain ⟨old, hold, rfl⟩ := List.mem_map.mp hlogin
    have hnone := find?_eraseP (hs.logins_nodup dbId it.key.sId) it.key.login it.key.login
    rw [if_pos rfl, List.find?_eq_none] at hnone
    have hsame : old.key.login = it.key.login := by simpa using hnew
    exact hnone old hold (decide_eq_true hsame)
  · exact hs.logins_nodup _ _

/-- An item of its own address is entered. -/
theorem Placed.inv (hs : StoreInv s) {it : HeapItem} (h : Placed s s' dbId it)
    (hfresh : ∀ key, s.map key ≠ some it.id) (hbelow : it.id < s'.next)
    (happart : ∀ old ∈ s'.loose, old.id ≠ it.id) (hloose : ∀ old ∈ s'.loose, old ∈ s.loose)
    (hnext : s.next ≤ s'.next) : StoreInv s' := by
  refine hs.update (h.nodup hs) (h.map hs) ?_ hloose hnext
  intro id hid
  obtain rfl := Option.some.inj hid
  exact ⟨hfresh, hbelow, happart⟩

end RsmpGateway.Auth.Identity
