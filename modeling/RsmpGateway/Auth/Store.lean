import Mathlib.Tactic.Tauto
import Mathlib.Data.List.Nodup
import RsmpGateway.Lib.KeyedList
import RsmpGateway.Lib.Text

/-!
# The authentication store

Two databases, `to` and `from`; in a database, a list of entries for each `sId`; in such a list,
one entry for each login. New items go to the end of their list. An entry carries no copy of its
key: its key is its place in the store.

This is the functional model, on which the coder and the connections are built. The lists are
keyed lists (`Lib/KeyedList.lean`), so that no two entries have one key, whatever is done to the
store. The same functions are also given with their locks (`Auth/Locks.lean`), with the identity
of each structure (`Auth/Objects.lean`) and on addresses (`Auth/Chains.lean`); each of these is
compared with the store of this module.
-/

namespace RsmpGateway.Auth

open RsmpGateway.Lib

/-! ## Entries

An entry has its passwords, its times, whether it is active, and the secrets that are cached on
it. -/

/-- `HoroDate` -/
structure HoroDate where
  sec : Int
  nsec : Int
  deriving Repr, DecidableEq

/-- `auth_pwd_t`: the bytes of a password, none when there is no password. -/
abbrev AuthPwd := Bytes

/-- `auth_key_t` -/
structure AuthKey where
  dbId : Bytes
  login : Bytes
  sId : Bytes
  deriving Repr, DecidableEq

/-- `_auth_to_dbId` -/
def authToDbId : Bytes := ascii "to"

/-- `_auth_from_dbId` -/
def authFromDbId : Bytes := ascii "from"

/-- `auth_t`, without its key. -/
structure AuthEntry where
  active : Bool
  pwd : AuthPwd
  timestamp : HoroDate
  newPwdPending : Bool
  newPwd : AuthPwd
  deriving Repr, DecidableEq

/-- `__auth_secret_t`: a derived key and the cipher it is for. -/
structure AuthSecret where
  ref : Bytes
  secret : Bytes
  deriving Repr, DecidableEq

/-- `__auth_t`: an entry of a list of logins, with the secrets cached on it. -/
structure AuthItem where
  login : Bytes
  auth : AuthEntry
  secrets : KeyedList Bytes AuthSecret AuthSecret.ref

/-- `auth_sIds_t` -/
structure AuthSIds where
  sId : Bytes
  logins : KeyedList Bytes AuthItem AuthItem.login

/-- `auth_db_t` -/
structure AuthDb where
  dbId : Bytes
  sIds : KeyedList Bytes AuthSIds AuthSIds.sId

/-- `_auth_dbs` -/
abbrev AuthDbs := KeyedList Bytes AuthDb AuthDb.dbId

namespace AuthDbs

/-- The list of logins under `dbId` and `sId`, when it exists. -/
def sIds? (s : AuthDbs) (dbId sId : Bytes) : Option AuthSIds :=
  (s.find dbId).bind fun db => db.sIds.find sId

/-- `auth_find_by_key` -/
def authFindByKey (s : AuthDbs) (key : AuthKey) : Option AuthItem :=
  (s.sIds? key.dbId key.sId).bind fun si => si.logins.find key.login

/-- The logins under `dbId` and `sId`, in order. -/
def logins (s : AuthDbs) (dbId sId : Bytes) : List AuthItem :=
  ((s.sIds? dbId sId).map fun si => si.logins.items).getD []

/-- The entries of a database, in the order of `auth_foreach`. -/
def dbEntries (db : AuthDb) : List (AuthKey × AuthItem) :=
  db.sIds.items.flatMap fun si =>
    si.logins.items.map fun it => (⟨db.dbId, it.login, si.sId⟩, it)

/-- `auth_foreach(NULL, NULL, ...)`: all entries, in order. -/
def entries (s : AuthDbs) : List (AuthKey × AuthItem) := s.items.flatMap dbEntries

/-- `auth_get_first`, named so in the source: the last item of the list chosen, the
last database or the last `sId` where the key leaves them out. -/
def authGetFirst (s : AuthDbs) (dbId sId : Option Bytes) : Option (AuthKey × AuthItem) := do
  let db ← dbId.elim s.last s.find
  let si ← sId.elim db.sIds.last db.sIds.find
  let it ← si.logins.last
  return (⟨db.dbId, it.login, si.sId⟩, it)

/-- `auth_get_next_from_auth`: the item after `key` in its list, the first one after
the last, none when the entry is alone. -/
def authGetNextFromAuth (s : AuthDbs) (key : AuthKey) : Option AuthItem :=
  let ls := s.logins key.dbId key.sId
  match ls.dropWhile fun it => it.login ≠ key.login with
  | _ :: next :: _ => some next
  | [_] => if ls.length = 1 then none else ls.head?
  | [] => none

/-! ## Operations

A lookup gives the contents of an entry, and a change is made by a key. `auth_search_by_key`
creates what it does not find. -/

/-- Change the entry under `key`, if there is one. -/
def modify (s : AuthDbs) (key : AuthKey) (f : AuthItem → AuthItem)
    (hf : ∀ it, (f it).login = it.login) : AuthDbs :=
  KeyedList.modify s key.dbId
    (fun db => { db with
      sIds := db.sIds.modify key.sId
        (fun si => { si with logins := si.logins.modify key.login f hf }) fun _ => rfl })
    fun _ => rfl

/-- Change the public part of an entry. -/
def modifyAuth (s : AuthDbs) (key : AuthKey) (f : AuthEntry → AuthEntry) : AuthDbs :=
  s.modify key (fun it => { it with auth := f it.auth }) fun _ => rfl

/-- `auth_db_search`, `auth_sId_search` and `auth_login_insert`: the lists on the way
to `key` are created when missing, and `item` is inserted when there is no entry under
`key`; then `f` applies to the entry. -/
def upsert (s : AuthDbs) (key : AuthKey) (auth : AuthEntry) (f : AuthItem → AuthItem)
    (hf : ∀ it, (f it).login = it.login) : AuthDbs :=
  KeyedList.upsert s key.dbId ⟨key.dbId, .empty⟩
    (fun db => { db with
      sIds := db.sIds.upsert key.sId ⟨key.sId, .empty⟩
        (fun si => { si with
          logins := si.logins.upsert key.login ⟨key.login, auth, .empty⟩ f rfl hf })
        rfl fun _ => rfl })
    rfl fun _ => rfl

/-- The entry that `auth_new` builds: no password makes it inactive, no new password
makes it not pending. `now` stands for `setHorodate`. -/
def authNewBody (now : HoroDate) (pwd : AuthPwd) (ts : Option HoroDate) (active : Bool)
    (newPwd : AuthPwd) (newPwdPending : Bool) : AuthEntry where
  active := if pwd.isEmpty then false else active
  pwd := pwd
  timestamp := ts.getD now
  newPwdPending := if newPwd.isEmpty then false else newPwdPending
  newPwd := newPwd

/-- `auth_new`: nothing is inserted when the key is taken. -/
def authNew (now : HoroDate) (s : AuthDbs) (key : AuthKey) (pwd : AuthPwd)
    (ts : Option HoroDate) (active : Bool) (newPwd : AuthPwd) (newPwdPending : Bool) : AuthDbs :=
  s.upsert key (authNewBody now pwd ts active newPwd newPwdPending) id fun _ => rfl

/-- The test of `auth_search_by_key` and `auth_insert_by_key` on the key. -/
def keyIsSet (key : AuthKey) : Bool := key.dbId ≠ [] && key.login ≠ [] && key.sId ≠ []

/-- `auth_search_by_key`, and the effect of `auth_insert_by_key`: the entry under
`key`, created without password when there is none. -/
def authSearchByKey (now : HoroDate) (s : AuthDbs) (key : AuthKey) : AuthDbs :=
  if keyIsSet key then s.authNew now key [] none false [] false else s

/-- `auth_delete_by_key`: the lists on the way to the entry stay, even empty. -/
def authDeleteByKey (s : AuthDbs) (key : AuthKey) : AuthDbs :=
  KeyedList.modify s key.dbId
    (fun db => { db with
      sIds := db.sIds.modify key.sId
        (fun si => { si with logins := si.logins.remove key.login }) fun _ => rfl })
    fun _ => rfl

/-! ## What `auth_find_by_key` answers afterwards

Each operation is known by the lookups after it, and nothing further up unfolds one. -/

@[simp] theorem authFindByKey_empty (key : AuthKey) :
    authFindByKey (.empty : AuthDbs) key = none := rfl

theorem authFindByKey_eq (s : AuthDbs) (key : AuthKey) :
    s.authFindByKey key =
      ((s.find key.dbId).bind fun db => db.sIds.find key.sId).bind fun si =>
        si.logins.find key.login := rfl

theorem authKey_eq_iff {k k' : AuthKey} :
    k' = k ↔ k'.dbId = k.dbId ∧ k'.sId = k.sId ∧ k'.login = k.login := by
  cases k; cases k'
  simp only [AuthKey.mk.injEq]
  tauto

theorem authFindByKey_modify (s : AuthDbs) (key : AuthKey) (f : AuthItem → AuthItem)
    (hf : ∀ it, (f it).login = it.login) (key' : AuthKey) :
    (s.modify key f hf).authFindByKey key' =
      if key' = key then (s.authFindByKey key).map f else s.authFindByKey key' := by
  simp only [authFindByKey_eq, modify, KeyedList.find_modify, authKey_eq_iff]
  by_cases hdb : key'.dbId = key.dbId
  · rw [if_pos hdb, hdb]
    cases hs : s.find key.dbId with
    | none => simp
    | some db =>
      simp only [Option.map_some, Option.bind_some, KeyedList.find_modify]
      by_cases hsId : key'.sId = key.sId
      · rw [if_pos hsId, hsId]
        cases hd : db.sIds.find key.sId with
        | none => simp
        | some si => simp [KeyedList.find_modify]
      · simp [hsId]
  · simp [hdb]

theorem authFindByKey_modifyAuth (s : AuthDbs) (key : AuthKey) (f : AuthEntry → AuthEntry)
    (key' : AuthKey) :
    (s.modifyAuth key f).authFindByKey key' =
      if key' = key then (s.authFindByKey key).map fun it => { it with auth := f it.auth }
      else s.authFindByKey key' :=
  authFindByKey_modify ..

theorem authFindByKey_upsert (s : AuthDbs) (key : AuthKey) (auth : AuthEntry)
    (f : AuthItem → AuthItem) (hf : ∀ it, (f it).login = it.login) (key' : AuthKey) :
    (s.upsert key auth f hf).authFindByKey key' =
      if key' = key then some (f ((s.authFindByKey key).getD ⟨key.login, auth, .empty⟩))
      else s.authFindByKey key' := by
  simp only [authFindByKey_eq, upsert, KeyedList.find_upsert, authKey_eq_iff]
  by_cases hdb : key'.dbId = key.dbId
  · rw [if_pos hdb, hdb]
    simp only [Option.bind_some, KeyedList.find_upsert]
    by_cases hsId : key'.sId = key.sId
    · rw [if_pos hsId, hsId]
      simp only [Option.bind_some, KeyedList.find_upsert]
      cases hs : s.find key.dbId with
      | none => simp
      | some db => cases hd : db.sIds.find key.sId <;> simp [hd]
    · cases hs : s.find key.dbId <;> simp [hsId]
  · simp [hdb]

theorem authFindByKey_authNew (now : HoroDate) (s : AuthDbs) (key : AuthKey) (pwd : AuthPwd)
    (ts : Option HoroDate) (active : Bool) (newPwd : AuthPwd) (newPwdPending : Bool)
    (key' : AuthKey) :
    (s.authNew now key pwd ts active newPwd newPwdPending).authFindByKey key' =
      if key' = key then
        some ((s.authFindByKey key).getD
          ⟨key.login, authNewBody now pwd ts active newPwd newPwdPending, .empty⟩)
      else s.authFindByKey key' :=
  authFindByKey_upsert ..

theorem authFindByKey_authSearchByKey (now : HoroDate) (s : AuthDbs) {key : AuthKey}
    (hkey : keyIsSet key = true) (key' : AuthKey) :
    (s.authSearchByKey now key).authFindByKey key' =
      if key' = key then
        some ((s.authFindByKey key).getD
          ⟨key.login, authNewBody now [] none false [] false, .empty⟩)
      else s.authFindByKey key' := by
  rw [authSearchByKey, if_pos hkey]
  exact authFindByKey_authNew ..

theorem authFindByKey_authDeleteByKey (s : AuthDbs) (key key' : AuthKey) :
    (s.authDeleteByKey key).authFindByKey key' =
      if key' = key then none else s.authFindByKey key' := by
  simp only [authFindByKey_eq, authDeleteByKey, KeyedList.find_modify, authKey_eq_iff]
  by_cases hdb : key'.dbId = key.dbId
  · rw [if_pos hdb, hdb]
    cases hs : s.find key.dbId with
    | none => simp
    | some db =>
      simp only [Option.map_some, Option.bind_some, KeyedList.find_modify]
      by_cases hsId : key'.sId = key.sId
      · rw [if_pos hsId, hsId]
        cases hd : db.sIds.find key.sId with
        | none => simp
        | some si => simp [KeyedList.find_remove]
      · simp [hsId]
  · simp [hdb]

/-! ## Entries and lists of logins

The iterations go over the entries of the whole store, or over the logins of one list. -/

/-- The entries are what `auth_find_by_key` finds. -/
theorem mem_entries {s : AuthDbs} {key : AuthKey} {it : AuthItem} :
    (key, it) ∈ s.entries ↔ s.authFindByKey key = some it := by
  simp only [entries, dbEntries, List.mem_flatMap, List.mem_map, Prod.mk.injEq, authFindByKey_eq,
    Option.bind_eq_some_iff, KeyedList.find_eq_some]
  constructor
  · rintro ⟨db, hdb, si, hsi, it', hit, rfl, rfl⟩
    exact ⟨si, ⟨db, ⟨hdb, rfl⟩, hsi, rfl⟩, hit, rfl⟩
  · rintro ⟨si, ⟨db, ⟨hdb, hkdb⟩, hsi, hksi⟩, hit, hkit⟩
    refine ⟨db, hdb, si, hsi, it, hit, ?_, rfl⟩
    cases key
    simp_all

/-- Two entries have different keys. -/
theorem nodup_keys_entries (s : AuthDbs) : (s.entries.map (·.1)).Nodup := by
  have hpair : ∀ {κ α : Type} [DecidableEq κ] {key : α → κ} (xs : KeyedList κ α key),
      xs.items.Pairwise fun a b => key a ≠ key b :=
    fun xs => List.pairwise_map.mp xs.nodup
  simp only [entries, dbEntries, List.map_flatMap, List.map_map]
  refine List.nodup_flatMap.mpr ⟨fun db _ => List.nodup_flatMap.mpr ⟨fun si _ => ?_, ?_⟩, ?_⟩
  · refine List.pairwise_map.mpr ((hpair si.logins).imp ?_)
    intro a b hab h
    simp only [Function.comp_apply, AuthKey.mk.injEq] at h
    exact hab h.2.1
  · apply (hpair db.sIds).imp
    intro a b hab k ha hb
    obtain ⟨_, -, rfl⟩ := List.mem_map.mp ha
    obtain ⟨_, -, hb⟩ := List.mem_map.mp hb
    simp only [Function.comp_apply, AuthKey.mk.injEq] at hb
    exact hab hb.2.2.symm
  · apply (hpair s).imp
    intro a b hab k ha hb
    obtain ⟨_, -, ha⟩ := List.mem_flatMap.mp ha
    obtain ⟨_, -, rfl⟩ := List.mem_map.mp ha
    obtain ⟨_, -, hb⟩ := List.mem_flatMap.mp hb
    obtain ⟨_, -, hb⟩ := List.mem_map.mp hb
    simp only [Function.comp_apply, AuthKey.mk.injEq] at hb
    exact hab hb.1.symm

theorem find?_entries (s : AuthDbs) (key : AuthKey) :
    (s.entries.find? fun e => e.1 = key) = (s.authFindByKey key).map fun it => (key, it) := by
  cases h : s.entries.find? fun e => e.1 = key with
  | some e =>
    obtain ⟨k, it⟩ := e
    have hk : k = key := by simpa using List.find?_some h
    subst hk
    rw [mem_entries.mp (List.mem_of_find?_eq_some h), Option.map_some]
  | none =>
    cases hf : s.authFindByKey key with
    | none => rfl
    | some it => simpa using List.find?_eq_none.mp h _ (mem_entries.mpr hf)

theorem mem_logins {s : AuthDbs} {dbId sId : Bytes} {it : AuthItem} :
    it ∈ s.logins dbId sId ↔ s.authFindByKey ⟨dbId, it.login, sId⟩ = some it := by
  simp only [logins, authFindByKey]
  cases s.sIds? dbId sId with
  | none => simp
  | some si => simp [KeyedList.find_eq_some]

theorem logins_modify (s : AuthDbs) (key : AuthKey) (f : AuthItem → AuthItem)
    (hf : ∀ it, (f it).login = it.login) (dbId sId : Bytes) :
    (s.modify key f hf).logins dbId sId =
      if dbId = key.dbId ∧ sId = key.sId then
        (s.logins dbId sId).map fun it => if it.login = key.login then f it else it
      else s.logins dbId sId := by
  simp only [logins, sIds?, modify, KeyedList.find_modify]
  by_cases hdb : dbId = key.dbId
  · subst hdb
    rw [if_pos rfl]
    cases hs : s.find key.dbId with
    | none => simp
    | some db =>
      simp only [Option.map_some, Option.bind_some, KeyedList.find_modify]
      by_cases hsId : sId = key.sId
      · subst hsId
        cases hd : db.sIds.find key.sId with
        | none => simp
        | some si => simp [KeyedList.modify]
      · simp [hsId]
  · simp [hdb]

theorem authGetFirst_eq (s : AuthDbs) (dbId sId : Bytes) :
    s.authGetFirst (some dbId) (some sId) =
      (s.logins dbId sId).getLast?.map fun it => (⟨dbId, it.login, sId⟩, it) := by
  simp only [authGetFirst, logins, sIds?, Option.elim_some]
  cases hs : s.find dbId with
  | none => rfl
  | some db =>
    obtain rfl := KeyedList.key_of_find hs
    cases hd : db.sIds.find sId with
    | none => simp [hd]
    | some si =>
      obtain rfl := KeyedList.key_of_find hd
      simp only [KeyedList.last, Option.bind_eq_bind, Option.bind_some, hd, Option.map_some,
        Option.getD_some]
      cases si.logins.items.getLast? <;> rfl

end AuthDbs

end RsmpGateway.Auth
