import RsmpGateway.Auth.Identity
import RsmpGateway.Auth.Persist
import RsmpGateway.Lib.Locks

/-!
# The locks of the store

The list of databases, each database, each list of logins and each entry have a lock, which several
readers or one writer may hold. The functions of `auth-basic.c` are given here with the locks that
they take and release, over the store of `Auth/Store.lean`.

* A function is a computation of `LockM`: it reads and changes the store, takes and releases locks,
  and blocks where it asks for a lock that it cannot have. One thread runs; a lock that it holds
  already is one that it waits for in vain.
* `AuthOp` has the calls, `AuthOp.run` what each does, and `AuthOp.Releases` the condition under
  which a call gives every lock back. It speaks of the arguments and of the store before the call.

That the condition is exact is shown in `Auth/Balance.lean` for what only reads or inserts, and in
`Auth/Discipline.lean` for the rest (`locks_run`).
-/

namespace RsmpGateway.Auth.Locks

open RsmpGateway.Lib LockM Identity

/-- The locks. An entry that is in no list has one too. -/
inductive AuthLock
  | dbs
  | db (dbId : Bytes)
  | sIds (dbId sId : Bytes)
  | auth (key : AuthKey)
  | loose
  deriving DecidableEq

abbrev AuthM : Type → Type := LockM AuthLock AuthDbs

/-- An `auth_t *`: `NULL`, an entry of the store, or one that is in no list. -/
inductive AuthPtr
  | null
  | entry (key : AuthKey)
  | loose (it : AuthItem)

namespace AuthPtr

/-- `&auth->lock` -/
def lock? : AuthPtr → Option AuthLock
  | null => none
  | entry key => some (.auth key)
  | loose _ => some .loose

def item? (s : AuthDbs) : AuthPtr → Option AuthItem
  | null => none
  | entry key => s.authFindByKey key
  | loose it => some it

end AuthPtr

/-! ## The lists

What the functions do to the store, without the locks. -/

/-- A database is chained. -/
def insertDb (dbId : Bytes) (s : AuthDbs) : AuthDbs :=
  KeyedList.upsert s dbId ⟨dbId, .empty⟩ id rfl fun _ => rfl

/-- A list of logins is chained in a database. -/
def insertSIds (dbId sId : Bytes) (s : AuthDbs) : AuthDbs :=
  KeyedList.modify s dbId
    (fun db => { db with sIds := db.sIds.upsert sId ⟨sId, .empty⟩ id rfl fun _ => rfl })
    fun _ => rfl

theorem login_id (it : AuthItem) : (id it).login = it.login := rfl

/-- An entry is chained in a list of logins. -/
def insertLogin (dbId sId : Bytes) (it : AuthItem) (s : AuthDbs) : AuthDbs :=
  KeyedList.modify s dbId
    (fun db => { db with
      sIds := db.sIds.modify sId
        (fun si => { si with logins := si.logins.upsert it.login it id rfl login_id })
        fun _ => rfl })
    fun _ => rfl

/-! ## Lookups

A pointer that is returned is the path to its structure, or none; the lock that protects it is
released before the caller has it. -/

section Functions

variable (m : AuthMemory) (now : HoroDate)

/-- `auth_find`: what is found is known by its key. -/
def authFind (lock : Option AuthLock) (key : Option Bytes) (cmp : AuthDbs → Bytes → Bool) :
    AuthM (Option Bytes) :=
  match key with
  | none => pure none
  | some key => do
    readIf lock
    let item ← look fun s => if cmp s key then some key else none
    releaseIf lock
    pure item

/-- `auth_db_find` -/
def authDbFind (lock : Option AuthLock) (dbId : Option Bytes) : AuthM (Option Bytes) :=
  authFind lock dbId fun s dbId => (s.find dbId).isSome

/-- `auth_sId_find`, in a database. -/
def authSIdFind (lock : Option AuthLock) (dbId : Bytes) (sId : Option Bytes) :
    AuthM (Option Bytes) :=
  authFind lock sId fun s sId => (s.sIds? dbId sId).isSome

/-- `auth_login_find`, in a list of logins. -/
def authLoginFind (lock : Option AuthLock) (dbId sId : Bytes) (login : Option Bytes) :
    AuthM (Option Bytes) :=
  authFind lock login fun s login => (s.authFindByKey ⟨dbId, login, sId⟩).isSome

/-- `auth_db_search` -/
def authDbSearch (dbId : Bytes) : AuthM (Option Bytes) := do
  match ← authDbFind (some .dbs) (some dbId) with
  | some db => pure (some db)
  | none =>
    if m.db then
      write .dbs
      work (insertDb dbId)
      release .dbs
      pure (some dbId)
    else pure none

/-- `auth_sId_search`, in a database. -/
def authSIdSearch (dbId sId : Bytes) : AuthM (Option Bytes) := do
  match ← authSIdFind (some (.db dbId)) dbId (some sId) with
  | some sId => pure (some sId)
  | none =>
    if m.sIds then
      write (.db dbId)
      work (insertSIds dbId sId)
      release (.db dbId)
      pure (some sId)
    else pure none

/-- What `auth_find_by_key` does while it has the lock of the databases. -/
def authFindUnder (key : KeyArg) : AuthM AuthPtr := do
  match ← authDbFind none key.dbId with
  | none => pure .null
  | some db =>
    match ← authSIdFind (some (.db db)) db key.sId with
    | none => pure .null
    | some sId =>
      match ← authLoginFind (some (.sIds db sId)) db sId key.login with
      | none => pure .null
      | some login => pure (.entry ⟨db, login, sId⟩)

/-- `auth_find_by_key` -/
def authFindByKey (key : Option KeyArg) : AuthM AuthPtr :=
  match key with
  | none => pure .null
  | some key => do
    read .dbs
    let item ← authFindUnder key
    release .dbs
    pure item

/-! ### The first entry -/

/-- The database that `auth_get_first` chooses, where there is one. -/
def firstDb (key : KeyArg) : AuthM (Option Bytes) := do
  let last ← look fun s => s.last.map AuthDb.dbId
  if last.isNone then pure none
  else
    match key.dbId with
    | some dbId => authDbFind (some .dbs) (some dbId)
    | none => pure last

/-- The list that it chooses in the database. -/
def firstSIds (db : Bytes) (key : KeyArg) : AuthM (Option Bytes) := do
  let last ← look fun s => ((s.find db).bind fun db => db.sIds.last).map AuthSIds.sId
  if last.isNone then pure none
  else
    match key.sId with
    | some sId => authSIdFind (some (.db db)) db (some sId)
    | none => pure last

/-- `auth_get_first` -/
def authGetFirst (key : KeyArg) : AuthM AuthPtr := do
  match ← firstDb key with
  | none => pure .null
  | some db =>
    match ← firstSIds db key with
    | none => pure .null
    | some sId =>
      look fun s => (s.logins db sId).getLast?.elim .null fun it => .entry ⟨db, it.login, sId⟩

/-! ## Insertion

Each level is searched for, and created when it is not found. -/

/-- `auth_login_insert` -/
def authLoginInsert (lock : Option AuthLock) (dbId sId : Bytes) (it : AuthItem) : AuthM Unit := do
  writeIf lock
  work (insertLogin dbId sId it)
  releaseIf lock

/-- `auth_insert`: `false` for `NULL`. -/
def authInsert (dbId sId : Bytes) (it : AuthItem) : AuthM Bool := do
  match ← authDbSearch m dbId with
  | none => pure false
  | some db =>
    match ← authSIdSearch m db sId with
    | none => pure false
    | some sId =>
      match ← authLoginFind (some (.sIds db sId)) db sId (some it.login) with
      | none =>
        authLoginInsert (some (.sIds db sId)) db sId it
        pure true
      | some _ => pure false

/-- `auth_new` -/
def authNew (key : KeyArg) (body : AuthBody) : AuthM AuthPtr :=
  if key.login.getD [] = [] ∨ key.sId.getD [] = [] then abort
  else
    match key.key? with
    | none => abort -- `strdup` of no database
    | some key =>
      if m.item then do
        let it : AuthItem := ⟨key.login, body.entry m now, .empty⟩
        if ← authInsert m key.dbId key.sId it then pure (.entry key) else pure (.loose it)
      else pure .null

/-- The body of the next two functions, which differ in what they return of an entry that is
there. -/
def authByKey (found : AuthKey → AuthPtr) (key : KeyArg) : AuthM AuthPtr :=
  match key.set? with
  | none => pure .null
  | some k => do
    match ← authDbSearch m k.dbId with
    | none => pure .null
    | some db =>
      match ← authSIdSearch m db k.sId with
      | none => pure .null
      | some sId =>
        match ← authLoginFind (some (.sIds db sId)) db sId (some k.login) with
        | none => authNew m now key .none
        | some _ => pure (found k)

/-- `auth_insert_by_key` -/
def authInsertByKey (key : KeyArg) : AuthM AuthPtr := authByKey m now (fun _ => .null) key

/-- `auth_search_by_key` -/
def authSearchByKey (key : KeyArg) : AuthM AuthPtr := authByKey m now .entry key

/-! ## Deletion

The lock of an entry is destroyed with it, while it is held. -/

/-- `__auth_free`: the lock of the entry is taken, and not released. -/
def authItemFree (lock : Option AuthLock) (item : AuthPtr) : AuthM Unit := do
  writeIf lock
  match item with
  | .null => pure ()
  | .entry key =>
    write (.auth key)
    work fun s => s.authDeleteByKey key
  | .loose _ => write .loose
  releaseIf lock

/-- `auth_free`: an entry that is in no list has no `to_sId`. -/
def authFree (auth : AuthPtr) : AuthM Unit :=
  match auth with
  | .null => pure ()
  | .entry key => authItemFree (some (.sIds key.dbId key.sId)) (.entry key)
  | .loose it => authItemFree none (.loose it)

/-- `auth_delete_by_key` -/
def authDeleteByKey (key : Option KeyArg) : AuthM Unit := do
  match ← authFindByKey key with
  | .null => pure ()
  | item => authFree item

/-- What `auth_insert_or_update` does while it has the lock of the list of logins. -/
def authUpdateUnder (dbId sId : Bytes) (it : AuthItem) (found : Option Bytes) : AuthM Unit := do
  found.elim (pure ()) fun login => authItemFree none (.entry ⟨dbId, login, sId⟩)
  authLoginInsert none dbId sId it

/-- `auth_insert_or_update`, of an item that is in no list. -/
def authInsertOrUpdate (dbId sId : Bytes) (it : AuthItem) : AuthM AuthPtr := do
  match ← authDbSearch m dbId with
  | none => pure .null
  | some db =>
    match ← authSIdSearch m db sId with
    | none => pure .null
    | some sId =>
      let found ← authLoginFind (some (.sIds db sId)) db sId (some it.login)
      write (.sIds db sId)
      authUpdateUnder db sId it found
      release (.sIds db sId)
      pure (.entry ⟨db, it.login, sId⟩)

/-- `auth_logins_purge` -/
def authLoginsPurge (dbId sId : Bytes) (its : List AuthItem) : AuthM Unit :=
  its.forM fun it => authFree (.entry ⟨dbId, it.login, sId⟩)

/-- `auth_sId_free` -/
def authSIdFree (dbId : Bytes) (si : AuthSIds) : AuthM Unit := do
  write (.sIds dbId si.sId)
  authLoginsPurge dbId si.sId si.logins.items
  release (.sIds dbId si.sId)

/-- `auth_db_free` -/
def authDbFree (db : AuthDb) : AuthM Unit := do
  work fun s => s.remove db.dbId
  db.sIds.items.forM (authSIdFree db.dbId)

/-- `auth_db_purge` -/
def authDbPurge : AuthM Unit := do
  write .dbs
  let dbs ← look fun s => s.items
  dbs.forM authDbFree
  release .dbs

/-! ## All entries

`auth_foreach` and what is made of it, one function for each level. -/

variable (fct : AuthKey → AuthItem → Bool)

/-- `auth_foreach_login`: what is called takes no lock. -/
def authForeachLogin (dbId sId : Bytes) : AuthM Nat := do
  read (.sIds dbId sId)
  let ret ← look fun s =>
    ((s.logins dbId sId).takeWhile fun it => fct ⟨dbId, it.login, sId⟩ it).length
  release (.sIds dbId sId)
  pure ret

/-- What `auth_foreach_sId` does while it has the lock of the database, which it takes again to
find a list. -/
def authForeachSIdUnder (dbId : Bytes) (psId : Option Bytes) : AuthM Nat :=
  match psId with
  | some psId => do
    match ← authSIdFind (some (.db dbId)) dbId (some psId) with
    | some sId => authForeachLogin fct dbId sId
    | none => pure 0
  | none => do
    let sIds ← look fun s => ((s.find dbId).map fun db => db.sIds.items).getD []
    foreachNode sIds fun si => authForeachLogin fct dbId si.sId

/-- `auth_foreach_sId` -/
def authForeachSId (dbId : Bytes) (psId : Option Bytes) : AuthM Nat := do
  read (.db dbId)
  let ret ← authForeachSIdUnder fct dbId psId
  release (.db dbId)
  pure ret

/-- What `auth_foreach` does while it has the lock of the databases. -/
def authForeachUnder (dbId sId : Option Bytes) : AuthM Nat :=
  match dbId with
  | some dbId => do
    match ← authDbFind none (some dbId) with
    | some db => authForeachSId fct db sId
    | none => pure 0
  | none => do
    let dbs ← look fun s => s.items
    foreachNode dbs fun db => authForeachSId fct db.dbId sId

/-- `auth_foreach` -/
def authForeach (dbId sId : Option Bytes) : AuthM Nat := do
  read .dbs
  let ret ← authForeachUnder fct dbId sId
  release .dbs
  pure ret

/-- `auth_db_serialize`: `auth_write` answers 1. -/
def authDbSerialize : AuthM Nat := authForeach (fun _ _ => true) none none

/-! ## The file

The lines of the file play a part only as far as they are accepted, and where they lead to a key. -/

/-- `fname && *fname != '\0'` -/
def isNamed (fname : Option Bytes) : Bool := fname.getD [] ≠ []

/-- What `auth_serialize_to_file` does while it has the lock of the databases. -/
def authSerializeUnder (fname : Option Bytes) (opens : Bool) : AuthM Unit :=
  if isNamed fname && opens then discard authDbSerialize else pure ()

/-- `auth_serialize_to_file`, and whether the file opens. -/
def authSerializeToFile (fname : Option Bytes) (opens : Bool) : AuthM Int := do
  write .dbs
  authSerializeUnder fname opens
  release .dbs
  pure (-1)

/-- What comes of opening, measuring and mapping a file. -/
inductive FileMap
  | closed
  | unmeasured
  | unmapped
  | mapped (file : Bytes)

variable (X : PersistExt) (pageSize : Nat) (draws : Nat → AuthPwd × AuthPwd)
  (checkDb : Bytes → Bool)

/-- What a line gives to `auth_search_by_key` for: its password and its timestamp. -/
def lineAccepted (line : Bytes) : Option (AuthPwd × HoroDate) :=
  let argv := X.decodeparam line
  if argv.length < 7 then none
  else if ¬ checkDb (argv.getD 1 []) then none
  else
    let ts := columnTimestamp X (argv.getD 6 [])
    if ts.sec < 0 ∨ ts.nsec < 0 then none
    else (authPwdDecode (argv.getD 4 [])).map fun pwd => (pwd, ts)

/-- A line of the file: whether it counts. -/
def unserializeLine (n : Nat) (line : Bytes) : AuthM Nat :=
  match lineAccepted X checkDb line with
  | none => pure 0
  | some (pwd, ts) => do
    let key := lineKey X line
    match ← authSearchByKey m now ⟨some key.dbId, some key.login, some key.sId⟩ with
    | .null => pure 0
    | _ =>
      work fun s => s.modifyAuth key
        (assignLine (draws n).1 (draws n).2 (X.decodeparam line) pwd ts)
      pure 1

/-- The lines of the file. -/
def unserializeLines (lines : List Bytes) : AuthM Nat :=
  foreachNode lines.zipIdx fun l => unserializeLine m now X draws checkDb (l.2 + 1) l.1

/-- What `auth_unserialize_from_file` does while it has the lock of the databases. -/
def authUnserializeUnder (fname : Option Bytes) (file : FileMap) : AuthM Int :=
  if isNamed fname then
    match file with
    | .closed => pure (-1)
    | .unmeasured => abort -- `strtok_r` goes on from nowhere
    | .unmapped => pure (-1)
    | .mapped file =>
      if file.length % pageSize = 0 ∧ (0 : UInt8) ∉ file then abort
      else do
        let ret ← unserializeLines m now X draws checkDb (strtok (· == 0x0A) (cstr file))
        pure (ret : Int)
  else pure (-1)

/-- `auth_unserialize_from_file` -/
def authUnserializeFromFile (fname : Option Bytes) (file : FileMap) : AuthM Int := do
  write .dbs
  let ret ← authUnserializeUnder m now X pageSize draws checkDb fname file
  release .dbs
  pure ret

/-! ## Secrets

The secrets of an entry are a list under the lock of the entry. -/

/-- `auth_secret_get`: a secret is known by its entry and its name. -/
def authSecretGet (auth : AuthPtr) (ref : Option Bytes) : AuthM (Option (AuthPtr × Bytes)) :=
  match auth.lock?, ref with
  | some lock, some ref => do
    read lock
    let item ← look fun s =>
      ((auth.item? s).bind fun it => it.secrets.find ref).map fun _ => (auth, ref)
    release lock
    pure item
  | _, _ => pure none

/-- `auth_secret_find_by_key` -/
def authSecretFindByKey (key : Option KeyArg) (ref : Option Bytes) :
    AuthM (Option (AuthPtr × Bytes)) :=
  match key, ref with
  | some key, some ref => do
    let auth ← authFindByKey (some key)
    authSecretGet auth (some ref)
  | _, _ => pure none

/-- Change the secrets of an entry of the store. -/
def changeSecrets (auth : AuthPtr) (f : AuthItem → AuthItem) (hf : ∀ it, (f it).login = it.login)
    (s : AuthDbs) : AuthDbs :=
  match auth with
  | .entry key => s.modify key f hf
  | _ => s

theorem login_removeSecret (ref : Bytes) (it : AuthItem) :
    ({ it with secrets := it.secrets.remove ref } : AuthItem).login = it.login :=
  rfl

/-- `auth_secret_delete_by_key`: the lock of the entry is taken, and not released. -/
def authSecretDeleteByKey (key : Option KeyArg) (ref : Option Bytes) : AuthM Bool := do
  match ← authSecretFindByKey key ref with
  | none => pure false
  | some (auth, ref) =>
    writeIf auth.lock?
    work (changeSecrets auth (fun it => { it with secrets := it.secrets.remove ref })
      (login_removeSecret ref))
    pure true

/-- The secrets of an entry after `__auth_secret_add_or_update`. -/
def addSecret (ref : Bytes) (secret : Option Bytes) (it : AuthItem) :
    KeyedList Bytes AuthSecret AuthSecret.ref :=
  if (it.secrets.find ref).isSome && secret.isNone then it.secrets
  else
    it.secrets.upsert ref ⟨ref, secret.getD []⟩ (fun s => { s with secret := secret.getD [] }) rfl
      fun _ => rfl

/-- `auth_secret_add_or_update`: the lock of the entry is written when its secret is looked up. -/
def authSecretAddOrUpdate (auth : AuthPtr) (ref secret : Option Bytes) : AuthM Bool :=
  match auth.lock?, ref with
  | some lock, some ref => do
    write lock
    let _ ← authSecretGet auth (some ref)
    work (changeSecrets auth (fun it => { it with secrets := addSecret ref secret it })
      fun _ => rfl)
    release lock
    pure true
  | _, _ => pure false

/-- `auth_secret_add_or_update_by_key` -/
def authSecretAddOrUpdateByKey (key : Option KeyArg) (ref secret : Option Bytes) : AuthM Bool :=
  match key with
  | none => pure false
  | some key => do
    let auth ← authFindByKey (some key)
    authSecretAddOrUpdate auth ref secret

end Functions

/-! ## The condition

What a call has to find in the store, or not to find, in order to release its locks. -/

/-- The entry that a key finds. -/
def found (s : AuthDbs) (key : KeyArg) : AuthPtr :=
  (key.key?.filter fun key => (s.authFindByKey key).isSome).elim .null .entry

/-- The secret that a key and a name find. -/
def foundSecret (s : AuthDbs) (key : Option KeyArg) (ref : Option Bytes) :
    Option (AuthPtr × Bytes) :=
  key.bind fun key => ref.bind fun ref =>
    (((found s key).item? s).bind fun it => it.secrets.find ref).map fun _ => (found s key, ref)

/-- A line that `auth_search_by_key` is called for with a key that is set. -/
def Searches (X : PersistExt) (checkDb : Bytes → Bool) (line : Bytes) : Prop :=
  (lineAccepted X checkDb line).isSome ∧ AuthDbs.keyIsSet (lineKey X line) = true

/-- The text of a file that is read to its end, and has a line with a key to search for. -/
def FileSearches (X : PersistExt) (pageSize : Nat) (checkDb : Bytes → Bool)
    (fname : Option Bytes) (file : FileMap) : Prop :=
  isNamed fname = true ∧ ∃ text, file = .mapped text ∧
    ¬ (text.length % pageSize = 0 ∧ (0 : UInt8) ∉ text) ∧
      ∃ line ∈ strtok (· == 0x0A) (cstr text), Searches X checkDb line

/-! ## Runs

Any calls in any order, and those whose calls all meet the condition. -/

/-- The calls on the store. -/
inductive AuthOp
  | findByKey (key : Option KeyArg)
  | getFirst (key : KeyArg)
  | new (m : AuthMemory) (now : HoroDate) (key : KeyArg) (body : AuthBody)
  | insertByKey (m : AuthMemory) (now : HoroDate) (key : KeyArg)
  | searchByKey (m : AuthMemory) (now : HoroDate) (key : KeyArg)
  | insertOrUpdate (m : AuthMemory) (dbId sId : Bytes) (it : AuthItem)
  | free (auth : AuthPtr)
  | deleteByKey (key : Option KeyArg)
  | foreach (fct : AuthKey → AuthItem → Bool) (dbId sId : Option Bytes)
  | serialize
  | serializeToFile (fname : Option Bytes) (opens : Bool)
  | unserializeFromFile (m : AuthMemory) (now : HoroDate) (draws : Nat → AuthPwd × AuthPwd)
      (checkDb : Bytes → Bool) (fname : Option Bytes) (file : FileMap)
  | secretGet (auth : AuthPtr) (ref : Option Bytes)
  | secretFindByKey (key : Option KeyArg) (ref : Option Bytes)
  | secretDeleteByKey (key : Option KeyArg) (ref : Option Bytes)
  | secretAddOrUpdate (auth : AuthPtr) (ref secret : Option Bytes)
  | secretAddOrUpdateByKey (key : Option KeyArg) (ref secret : Option Bytes)
  | purge

section Runs

variable (X : PersistExt) (pageSize : Nat)

def AuthOp.run : AuthOp → AuthM Unit
  | .findByKey key => discard (authFindByKey key)
  | .getFirst key => discard (authGetFirst key)
  | .new m now key body => discard (authNew m now key body)
  | .insertByKey m now key => discard (authInsertByKey m now key)
  | .searchByKey m now key => discard (authSearchByKey m now key)
  | .insertOrUpdate m dbId sId it => discard (authInsertOrUpdate m dbId sId it)
  | .free auth => authFree auth
  | .deleteByKey key => authDeleteByKey key
  | .foreach fct dbId sId => discard (authForeach fct dbId sId)
  | .serialize => discard authDbSerialize
  | .serializeToFile fname opens => discard (authSerializeToFile fname opens)
  | .unserializeFromFile m now draws checkDb fname file =>
    discard (authUnserializeFromFile m now X pageSize draws checkDb fname file)
  | .secretGet auth ref => discard (authSecretGet auth ref)
  | .secretFindByKey key ref => discard (authSecretFindByKey key ref)
  | .secretDeleteByKey key ref => discard (authSecretDeleteByKey key ref)
  | .secretAddOrUpdate auth ref secret => discard (authSecretAddOrUpdate auth ref secret)
  | .secretAddOrUpdateByKey key ref secret => discard (authSecretAddOrUpdateByKey key ref secret)
  | .purge => authDbPurge

/-- What a call is given when it releases every lock, and takes none that it has written: no entry
to free or to replace, no secret to delete, no entry to add a secret to, no file that opens or that
has a key to search for, and no login to purge. -/
def AuthOp.Releases (s : AuthDbs) : AuthOp → Prop
  | .insertOrUpdate _ dbId sId it => s.authFindByKey ⟨dbId, it.login, sId⟩ = none
  | .free auth => auth.lock? = none
  | .deleteByKey key => (key.elim .null (found s)).lock? = none
  | .serializeToFile fname opens => (isNamed fname && opens) = false
  | .unserializeFromFile _ _ _ checkDb fname file => ¬ FileSearches X pageSize checkDb fname file
  | .secretDeleteByKey key ref => foundSecret s key ref = none
  | .secretAddOrUpdate auth ref _ => auth.lock? = none ∨ ref = none
  | .secretAddOrUpdateByKey key ref _ => (key.elim .null (found s)).lock? = none ∨ ref = none
  | .purge => ∀ db ∈ s.items, ∀ si ∈ db.sIds.items, si.logins.items = []
  | _ => True

/-- The calls on the store, one after the other, from an empty one. -/
def lockSystem : System (Locked AuthLock AuthDbs) AuthOp where
  init l := l = ⟨.empty, allFree⟩
  step l op l' := op.run X pageSize l = .ok ((), l')

/-- The runs whose calls meet the condition. -/
def releasingSystem : System (Locked AuthLock AuthDbs) AuthOp :=
  (lockSystem X pageSize).restrict fun l op => op.Releases X pageSize l.state

end Runs

end RsmpGateway.Auth.Locks
