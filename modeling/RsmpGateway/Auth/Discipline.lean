import RsmpGateway.Auth.Balance

/-!
# Which calls release their locks

`locks_run` settles which calls keep to the discipline: they take no lock that they hold, and give
back what they took. Those that do not, with what each leaves behind:

* an entry that is freed leaves its own lock written, wherever `__auth_free` is called from;
* a secret that is deleted leaves the lock of its entry written;
* a file is written and read under the lock of the databases, which the functions called take again;
* a secret is added under the lock of its entry, which the lookup of the secret takes again;
* the store is purged with the lock of a list, which the deletion of its logins takes again.

Each function is run under its condition, where it ends with every lock free, and without it, where
it blocks or ends with a lock that is held.
-/

namespace RsmpGateway.Auth.Locks

open RsmpGateway.Lib LockM Identity

/-! ## What is left of the store

A function that goes on after an insertion works on the store that the insertion left. What it
finds there is decided by what it has put there. -/

section Store

variable {s : AuthDbs} {dbId sId : Bytes} {now : HoroDate} {key : KeyArg} {k : AuthKey}

theorem insertLogin_self {it old : AuthItem}
    (h : s.authFindByKey ⟨dbId, it.login, sId⟩ = some old) : insertLogin dbId sId it s = s := by
  refine KeyedList.modify_self _ fun db hdb => ?_
  have hsIds : db.sIds.modify sId (fun si => { si with
      logins := si.logins.upsert it.login it id rfl fun _ => rfl }) (fun _ => rfl) = db.sIds := by
    refine KeyedList.modify_self _ fun si hsi => ?_
    have hold : si.logins.find it.login = some old := by
      rw [AuthDbs.authFindByKey_eq, hdb, Option.bind_some, hsi] at h
      exact h
    rw [KeyedList.upsert_self _ hold]
  rw [hsIds]

/-- The lists on the way to an entry, and the entry. -/
theorem insertLogin_eq (auth : AuthEntry) :
    insertLogin k.dbId k.sId ⟨k.login, auth, .empty⟩
        (insertSIds k.dbId k.sId (insertDb k.dbId s)) = s.upsert k auth id fun _ => rfl := by
  rw [insertLogin, insertSIds, insertDb, KeyedList.modify_upsert, KeyedList.modify_upsert]
  simp only [KeyedList.modify_upsert]
  rfl

theorem authDbSearch_store :
    authDbSearch fullMemory dbId ⟨s, allFree⟩ = .ok (some dbId, ⟨insertDb dbId s, allFree⟩) := by
  simp [authDbSearch_run, fullMemory]

theorem authSIdSearch_store :
    authSIdSearch fullMemory dbId sId ⟨s, allFree⟩ =
      .ok (some sId, ⟨insertSIds dbId sId s, allFree⟩) := by
  simp [authSIdSearch_run, fullMemory]

theorem authLoginInsert_store {it : AuthItem} :
    authLoginInsert (some (.sIds dbId sId)) dbId sId it ⟨s, allFree⟩ =
      .ok ((), ⟨insertLogin dbId sId it s, allFree⟩) := by
  rw [authLoginInsert, writeIf, Option.elim_some, bind_ok (run_write rfl), bind_ok (run_work _)]
  exact run_release_writer rfl

theorem authInsert_store {it : AuthItem}
    (hnone : s.authFindByKey ⟨dbId, it.login, sId⟩ = none) :
    authInsert fullMemory dbId sId it ⟨s, allFree⟩ =
      .ok (true, ⟨insertLogin dbId sId it (insertSIds dbId sId (insertDb dbId s)), allFree⟩) := by
  have hnone' : (insertSIds dbId sId (insertDb dbId s)).authFindByKey ⟨dbId, it.login, sId⟩ =
      none := by
    rw [authFindByKey_insertSIds, authFindByKey_insertDb, hnone]
  rw [authInsert, bind_ok authDbSearch_store]
  dsimp only
  rw [bind_ok authSIdSearch_store]
  dsimp only
  rw [authLoginFind, bind_ok (authFind_iff allRead_allFree (b := false) (by rw [hnone']; rfl)),
    if_neg Bool.false_ne_true]
  dsimp only
  rw [bind_ok authLoginInsert_store]
  rfl

theorem key_of_set (hkey : key.set? = some k) :
    key.key? = some k ∧ k.login ≠ [] ∧ k.sId ≠ [] ∧ AuthDbs.keyIsSet k = true := by
  obtain ⟨hkey?, hset⟩ := Option.filter_eq_some_iff.mp hkey
  have hparts := hset
  simp only [AuthDbs.keyIsSet, Bool.and_eq_true, decide_eq_true_eq] at hparts
  exact ⟨hkey?, hparts.1.2, hparts.2, hset⟩

/-- `auth_new` of a free key, with memory. -/
theorem authNew_store (hkey : key.set? = some k) (hnone : s.authFindByKey k = none)
    (body : AuthBody) :
    authNew fullMemory now key body ⟨s, allFree⟩ =
      .ok (.entry k, ⟨s.authNew now k body.pwd body.ts body.active body.newPwd
        body.newPwdPending, allFree⟩) := by
  obtain ⟨hkey?, hlogin, hsId, -⟩ := key_of_set hkey
  have hkey' := key?_eq_some.mp hkey?
  have hset : ¬ (key.login.getD [] = [] ∨ key.sId.getD [] = []) := by
    rw [hkey']
    exact not_or.mpr ⟨hlogin, hsId⟩
  have hinsert : authInsert fullMemory k.dbId k.sId ⟨k.login, body.entry fullMemory now, .empty⟩
      ⟨s, allFree⟩ = _ := authInsert_store hnone
  rw [insertLogin_eq] at hinsert
  rw [authNew, if_neg hset, hkey?]
  exact bind_ok hinsert

/-- The lists are searched for once more, and are there. -/
theorem insertSIds_again :
    insertSIds dbId sId (insertDb dbId (insertSIds dbId sId (insertDb dbId s))) =
      insertSIds dbId sId (insertDb dbId s) := by
  obtain ⟨db, hdb⟩ : ∃ db, (insertSIds dbId sId (insertDb dbId s)).find dbId = some db := by
    rw [insertSIds, insertDb, KeyedList.find_modify, if_pos rfl, KeyedList.find_upsert, if_pos rfl]
    exact ⟨_, rfl⟩
  obtain ⟨si, hsi⟩ : ∃ si, (insertSIds dbId sId (insertDb dbId s)).sIds? dbId sId = some si := by
    rw [AuthDbs.sIds?, insertSIds, insertDb, KeyedList.find_modify, if_pos rfl,
      KeyedList.find_upsert, if_pos rfl, Option.map_some, Option.bind_some,
      KeyedList.find_upsert, if_pos rfl]
    exact ⟨_, rfl⟩
  rw [insertDb_self hdb, insertSIds_self hsi]

/-- `auth_search_by_key`, with memory. -/
theorem authSearchByKey_store (hkey : key.set? = some k) :
    authSearchByKey fullMemory now key ⟨s, allFree⟩ =
      .ok (.entry k, ⟨s.authSearchByKey now k, allFree⟩) := by
  obtain ⟨-, -, -, hset⟩ := key_of_set hkey
  rw [authSearchByKey, authByKey, hkey]
  dsimp only
  rw [bind_ok authDbSearch_store]
  dsimp only
  rw [bind_ok authSIdSearch_store]
  dsimp only
  rw [AuthDbs.authSearchByKey, if_pos hset, authLoginFind]
  have hfind : (insertSIds k.dbId k.sId (insertDb k.dbId s)).authFindByKey k =
      s.authFindByKey k := by
    rw [authFindByKey_insertSIds, authFindByKey_insertDb]
  cases hs : s.authFindByKey k with
  | none =>
    rw [hs] at hfind
    have hnew : authNew fullMemory now key .none _ = _ := authNew_store hkey hfind .none
    rw [AuthDbs.authNew, ← insertLogin_eq, insertSIds_again, insertLogin_eq] at hnew
    rw [bind_ok (authFind_iff allRead_allFree (b := false) (by rw [hfind]; rfl)),
      if_neg Bool.false_ne_true]
    exact hnew
  | some it =>
    rw [hs] at hfind
    rw [bind_ok (authFind_iff allRead_allFree (b := true) (by rw [hfind]; rfl)), if_pos rfl,
      AuthDbs.authNew, ← insertLogin_eq, insertLogin_self hfind]
    rfl

end Store

/-! ## Entries that are freed

`__auth_free` takes the lock of the entry and never releases it; a caller that then asks for it
is blocked. A call that frees no entry is in order. -/

section Deletion

variable {m : AuthMemory} {s : AuthDbs}

theorem authFree_store (key : AuthKey) : ∃ H',
    authFree (.entry key) ⟨s, allFree⟩ = .ok ((), ⟨s.authDeleteByKey key, H'⟩) ∧
      H' (.auth key) = .writer := by
  have hne : AuthLock.auth key ≠ .sIds key.dbId key.sId := nofun
  have hwritten : withWriter (withWriter allFree (AuthLock.sIds key.dbId key.sId)) (.auth key)
      (.sIds key.dbId key.sId) = .writer := by
    rw [withWriter_of_ne hne.symm, withWriter_self]
  have hrun : authFree (.entry key) ⟨s, allFree⟩ = .ok ((), ⟨s.authDeleteByKey key,
      Function.update (withWriter (withWriter allFree (AuthLock.sIds key.dbId key.sId))
        (.auth key)) (.sIds key.dbId key.sId) .free⟩) := by
    rw [authFree, authItemFree, writeIf, Option.elim_some, bind_ok (run_write rfl)]
    dsimp only
    rw [bind_ok (run_write (withWriter_of_ne hne)), bind_ok (run_work _)]
    exact run_release_written hwritten
  refine ⟨_, hrun, ?_⟩
  rw [Function.update_of_ne hne, withWriter_self]

/-- The lock of an entry that is freed stays written. -/
theorem authFree_run {auth : AuthPtr} {lock : AuthLock} (h : auth.lock? = some lock) :
    ∃ s' H', authFree auth ⟨s, allFree⟩ = .ok ((), ⟨s', H'⟩) ∧ H' lock = .writer := by
  cases auth with
  | null => cases h
  | loose it =>
    cases h
    exact ⟨s, _, rfl, rfl⟩
  | entry key =>
    cases h
    exact ⟨_, authFree_store key⟩

/-- `auth_delete_by_key` leaves the store without the entry, if there is one. -/
theorem authDeleteByKey_store {key : KeyArg} {k : AuthKey} (hkey : key.key? = some k) :
    ∃ H', authDeleteByKey (some key) ⟨s, allFree⟩ = .ok ((), ⟨s.authDeleteByKey k, H'⟩) := by
  rw [authDeleteByKey, bind_ok (authFindByKey_run allRead_allFree), Option.elim_some, found, hkey,
    Option.filter_some]
  cases hs : s.authFindByKey k with
  | some it =>
    obtain ⟨H', hrun, -⟩ := authFree_store (s := s) k
    exact ⟨H', hrun⟩
  | none =>
    have hself : s.authDeleteByKey k = s := by
      refine KeyedList.modify_self _ fun db hdb => ?_
      have hsIds : db.sIds.modify k.sId (fun si => { si with
          logins := si.logins.remove k.login }) (fun _ => rfl) = db.sIds := by
        refine KeyedList.modify_self _ fun si hsi => ?_
        rw [AuthDbs.authFindByKey_eq, hdb, Option.bind_some, hsi] at hs
        rw [KeyedList.remove_self hs]
      rw [hsIds]
    rw [hself]
    exact ⟨allFree, rfl⟩

theorem not_disciplined_authFree {auth : AuthPtr} {lock : AuthLock} (h : auth.lock? = some lock) :
    ¬ Disciplined (authFree auth) ⟨s, allFree⟩ := by
  obtain ⟨s', H', hrun, hH'⟩ := authFree_run (s := s) h
  apply not_disciplined_of_held (k := lock) hrun
  show H' lock ≠ .free
  rw [hH']
  exact nofun

theorem authFree_iff {auth : AuthPtr} :
    Disciplined (authFree auth) ⟨s, allFree⟩ ↔ auth.lock? = none := by
  constructor
  · intro hd
    cases hlock : auth.lock? with
    | none => rfl
    | some lock => exact absurd hd (not_disciplined_authFree hlock)
  · intro hlock
    cases auth with
    | null => rfl
    | entry key => cases hlock
    | loose it => cases hlock

theorem authDeleteByKey_iff {key : Option KeyArg} :
    Disciplined (authDeleteByKey key) ⟨s, allFree⟩ ↔ (key.elim .null (found s)).lock? = none := by
  rw [Disciplined, authDeleteByKey, bind_ok (authFindByKey_run allRead_allFree), ← authFree_iff]
  cases key.elim .null (found s) <;> rfl

/-! ### An item that takes the place of another

`auth_insert_or_update` frees the entry of the key and puts the item in its place. The lock of an
entry that is freed is written and kept, so that the call is disciplined exactly when there was
none. -/

/-- An item is freed under a lock that is held. -/
theorem authItemFree_run {key : AuthKey} {H : AuthLock → Holder} (h : H (.auth key) = .free) :
    authItemFree none (.entry key) ⟨s, H⟩ =
      .ok ((), ⟨s.authDeleteByKey key, withWriter H (.auth key)⟩) := by
  rw [authItemFree]
  show (write (AuthLock.auth key) >>= fun _ => work _ >>= fun _ => releaseIf none) ⟨s, H⟩ = _
  rw [bind_ok (run_write h), bind_ok (run_work _)]
  rfl

/-- The list of logins after `auth_insert_or_update` has it written. -/
theorem authUpdateUnder_none {dbId sId : Bytes} {it : AuthItem} {H : AuthLock → Holder} :
    authUpdateUnder dbId sId it none ⟨s, H⟩ = .ok ((), ⟨insertLogin dbId sId it s, H⟩) := rfl

theorem authUpdateUnder_some {dbId sId login : Bytes} {it : AuthItem} {H : AuthLock → Holder}
    (h : H (.auth ⟨dbId, login, sId⟩) = .free) :
    authUpdateUnder dbId sId it (some login) ⟨s, H⟩ =
      .ok ((), ⟨insertLogin dbId sId it (s.authDeleteByKey ⟨dbId, login, sId⟩),
        withWriter H (.auth ⟨dbId, login, sId⟩)⟩) := by
  rw [authUpdateUnder, Option.elim_some, bind_ok (authItemFree_run h)]
  rfl

theorem authInsertOrUpdate_free {dbId sId : Bytes} {it : AuthItem}
    (h : s.authFindByKey ⟨dbId, it.login, sId⟩ = none) :
    Disciplined (authInsertOrUpdate m dbId sId it) ⟨s, allFree⟩ := by
  rw [authInsertOrUpdate]
  have hdb := authDbSearch_run m s dbId
  split at hdb
  · rw [Disciplined, bind_ok hdb]
    have hs := authSIdSearch_run m (insertDb dbId s) dbId sId
    dsimp only
    split at hs
    · rw [bind_ok hs]
      dsimp only
      -- the lists that are created have no entry
      have hnone : (insertSIds dbId sId (insertDb dbId s)).authFindByKey ⟨dbId, it.login, sId⟩ =
          none := by
        rw [authFindByKey_insertSIds, authFindByKey_insertDb, h]
      rw [authLoginFind, bind_ok (authFind_iff allRead_allFree (b := false) (by rw [hnone]; rfl)),
        bind_ok (run_write rfl), if_neg Bool.false_ne_true, bind_ok authUpdateUnder_none,
        bind_ok (run_release_writer rfl)]
      rfl
    · rw [bind_ok hs]
      rfl
  · rw [Disciplined, bind_ok hdb]
    rfl

theorem authInsertOrUpdate_taken {dbId sId : Bytes} {it old : AuthItem}
    (h : s.authFindByKey ⟨dbId, it.login, sId⟩ = some old) :
    ¬ Disciplined (authInsertOrUpdate m dbId sId it) ⟨s, allFree⟩ := by
  obtain ⟨si, hsi, -⟩ := Option.bind_eq_some_iff.mp h
  obtain ⟨db, hdb, -⟩ := Option.bind_eq_some_iff.mp hsi
  have hsearch := authDbSearch_run m s dbId
  rw [hdb, Option.isSome_some, Bool.true_or, if_pos rfl, insertDb_self hdb] at hsearch
  have hsearch' := authSIdSearch_run m s dbId sId
  rw [hsi, Option.isSome_some, Bool.true_or, if_pos rfl, insertSIds_self hsi] at hsearch'
  have hne : AuthLock.auth ⟨dbId, it.login, sId⟩ ≠ .sIds dbId sId := nofun
  have hwritten : withWriter (withWriter allFree (AuthLock.sIds dbId sId))
      (.auth ⟨dbId, it.login, sId⟩) (.sIds dbId sId) = .writer := by
    rw [withWriter_of_ne hne.symm, withWriter_self]
  have hrun : authInsertOrUpdate m dbId sId it ⟨s, allFree⟩ = .ok (.entry ⟨dbId, it.login, sId⟩,
      ⟨insertLogin dbId sId it (s.authDeleteByKey ⟨dbId, it.login, sId⟩),
        Function.update (withWriter (withWriter allFree (AuthLock.sIds dbId sId))
          (.auth ⟨dbId, it.login, sId⟩)) (.sIds dbId sId) .free⟩) := by
    rw [authInsertOrUpdate, bind_ok hsearch]
    dsimp only
    rw [bind_ok hsearch']
    dsimp only
    rw [authLoginFind, bind_ok (authFind_iff allRead_allFree (b := true) (by rw [h]; rfl)),
      bind_ok (run_write rfl), if_pos rfl, bind_ok (authUpdateUnder_some (withWriter_of_ne hne)),
      bind_ok (run_release_written hwritten)]
    rfl
  refine not_disciplined_of_held (k := .auth ⟨dbId, it.login, sId⟩) hrun ?_
  dsimp only
  rw [Function.update_of_ne hne, withWriter_self]
  exact nofun

theorem authInsertOrUpdate_iff {dbId sId : Bytes} {it : AuthItem} :
    Disciplined (authInsertOrUpdate m dbId sId it) ⟨s, allFree⟩ ↔
      s.authFindByKey ⟨dbId, it.login, sId⟩ = none := by
  cases h : s.authFindByKey ⟨dbId, it.login, sId⟩ with
  | none => exact iff_of_true (authInsertOrUpdate_free h) rfl
  | some old => exact iff_of_false (authInsertOrUpdate_taken h) nofun

/-! ## The file

Saving and loading hold the lock of the databases, for reading and for writing. A function that
they call asks for it again as soon as there is a line to treat. -/

/-- The lock of the databases, while it is written. -/
theorem read_dbs_blocked :
    (LockM.read AuthLock.dbs : AuthM Unit) ⟨s, withWriter allFree .dbs⟩ =
      .error (.blocked .dbs) := run_read_blocked withWriter_self

theorem authForeach_blocked {fct : AuthKey → AuthItem → Bool} {dbId sId : Option Bytes} :
    authForeach fct dbId sId ⟨s, withWriter allFree .dbs⟩ = .error (.blocked .dbs) :=
  bind_error read_dbs_blocked

variable {X : PersistExt} {pageSize : Nat} {draws : Nat → AuthPwd × AuthPwd}
  {checkDb : Bytes → Bool} {now : HoroDate}

theorem authSerializeToFile_iff {fname : Option Bytes} {opens : Bool} :
    Disciplined (authSerializeToFile fname opens) ⟨s, allFree⟩ ↔
      (isNamed fname && opens) = false := by
  cases hopens : isNamed fname && opens with
  | false =>
    have hunder : Balanced (withWriter allFree .dbs) (authSerializeUnder fname opens) := by
      rw [authSerializeUnder, hopens]
      exact .pure ()
    have hfile : Balanced allFree (authSerializeToFile fname opens) :=
      .writing rfl hunder fun _ => .pure _
    exact iff_of_true (hfile.disciplined s) rfl
  | true =>
    have hunder : authSerializeUnder fname opens ⟨s, withWriter allFree .dbs⟩ =
        .error (.blocked .dbs) := by
      rw [authSerializeUnder, hopens, if_pos rfl, run_discard,
        authDbSerialize, authForeach_blocked]
      rfl
    refine iff_of_false (not_disciplined_of_blocked (k := .dbs) ?_) nofun
    rw [authSerializeToFile, bind_ok (run_write rfl), bind_error hunder]

/-! ### Lines of a file

A line that is ignored asks for no lock. The first line that has a key to search asks for the
lock of the databases, which the load holds. -/

theorem unserializeLine_ignored {n : Nat} {line : Bytes} {l : Locked AuthLock AuthDbs}
    (h : ¬ Searches X checkDb line) :
    unserializeLine m now X draws checkDb n line l = .ok (0, l) := by
  rw [unserializeLine]
  cases haccepted : lineAccepted X checkDb line with
  | none => rfl
  | some r =>
    have hset : AuthDbs.keyIsSet (lineKey X line) = false := by
      cases hkey : AuthDbs.keyIsSet (lineKey X line) with
      | false => rfl
      | true => exact absurd ⟨by rw [haccepted]; rfl, hkey⟩ h
    have hset? : KeyArg.set? ⟨some (lineKey X line).dbId, some (lineKey X line).login,
        some (lineKey X line).sId⟩ = none := by
      simp [KeyArg.set?, KeyArg.key?, hset]
    have hsearch : authSearchByKey m now ⟨some (lineKey X line).dbId, some (lineKey X line).login,
        some (lineKey X line).sId⟩ l = .ok (.null, l) := by
      rw [authSearchByKey, authByKey, hset?]
      rfl
    exact bind_ok hsearch

theorem unserializeLine_blocked {n : Nat} {line : Bytes} (h : Searches X checkDb line) :
    unserializeLine m now X draws checkDb n line ⟨s, withWriter allFree .dbs⟩ =
      .error (.blocked .dbs) := by
  obtain ⟨haccepted, hset⟩ := h
  obtain ⟨r, hr⟩ := Option.isSome_iff_exists.mp haccepted
  have hset? : KeyArg.set? ⟨some (lineKey X line).dbId, some (lineKey X line).login,
      some (lineKey X line).sId⟩ = some (lineKey X line) := by
    simp [KeyArg.set?, KeyArg.key?, hset]
  have hsearch : authSearchByKey m now ⟨some (lineKey X line).dbId, some (lineKey X line).login,
      some (lineKey X line).sId⟩ ⟨s, withWriter allFree .dbs⟩ = .error (.blocked .dbs) := by
    have hfind : authDbFind (some .dbs) (some (lineKey X line).dbId)
        ⟨s, withWriter allFree .dbs⟩ = .error (.blocked .dbs) :=
      bind_error (read_dbs_blocked (s := s))
    rw [authSearchByKey, authByKey, hset?]
    exact bind_error (bind_error hfind)
  rw [unserializeLine, hr]
  exact bind_error hsearch

/-- The lines of a file are read up to the first one that has a key to search for. -/
theorem unserializeLines_ignored {lines : List Bytes} {l : Locked AuthLock AuthDbs}
    (h : ∀ line ∈ lines, ¬ Searches X checkDb line) :
    unserializeLines m now X draws checkDb lines l = .ok (0, l) := by
  have hline : ∀ x ∈ lines.zipIdx, unserializeLine m now X draws checkDb (x.2 + 1) x.1 l =
      .ok (0, l) := fun x hx => unserializeLine_ignored (h x.1 (List.fst_mem_of_mem_zipIdx hx))
  rw [unserializeLines, run_foreachNode hline]
  simp

theorem unserializeLines_blocked {lines : List Bytes}
    (h : ∃ line ∈ lines, Searches X checkDb line) :
    unserializeLines m now X draws checkDb lines ⟨s, withWriter allFree .dbs⟩ =
      .error (.blocked .dbs) := by
  apply run_foreachNode_error
  · rintro ⟨line, n⟩ -
    by_cases hline : Searches X checkDb line
    · exact .inr (unserializeLine_blocked hline)
    · exact .inl ⟨0, unserializeLine_ignored hline⟩
  · obtain ⟨line, hline, hsearches⟩ := h
    obtain ⟨n, hn⟩ := List.mem_iff_getElem?.mp hline
    exact ⟨(line, n), List.mk_mem_zipIdx_iff_getElem?.mpr hn, unserializeLine_blocked hsearches⟩

theorem authUnserializeFromFile_iff {fname : Option Bytes} {file : FileMap} :
    Disciplined (authUnserializeFromFile m now X pageSize draws checkDb fname file)
        ⟨s, allFree⟩ ↔ ¬ FileSearches X pageSize checkDb fname file := by
  by_cases h : FileSearches X pageSize checkDb fname file
  · obtain ⟨hnamed, text, rfl, hends, hlines⟩ := id h
    have hunder : authUnserializeUnder m now X pageSize draws checkDb fname (.mapped text)
        ⟨s, withWriter allFree .dbs⟩ = .error (.blocked .dbs) := by
      rw [authUnserializeUnder, if_pos hnamed, if_neg hends]
      exact bind_error (unserializeLines_blocked hlines)
    refine iff_of_false (not_disciplined_of_blocked (k := .dbs) ?_) (not_not.mpr h)
    rw [authUnserializeFromFile, bind_ok (run_write rfl), bind_error hunder]
  · refine iff_of_true ?_ h
    have hunder : Balanced (withWriter allFree .dbs)
        (authUnserializeUnder m now X pageSize draws checkDb fname file) := by
      rw [authUnserializeUnder.eq_def]
      split
      · next hnamed =>
        cases file with
        | closed => exact .pure _
        | unmeasured => exact .abort
        | unmapped => exact .pure _
        | mapped text =>
          dsimp only
          split
          · exact .abort
          · next hends =>
            have hlines : ∀ line ∈ strtok (· == 0x0A) (cstr text), ¬ Searches X checkDb line := by
              intro line hline hsearches
              exact h ⟨hnamed, text, rfl, hends, line, hline, hsearches⟩
            have hrun : Balanced (withWriter allFree .dbs) (unserializeLines m now X draws checkDb
                (strtok (· == 0x0A) (cstr text))) :=
              ⟨fun _ => .of_ok (unserializeLines_ignored hlines) rfl⟩
            exact hrun.bind fun _ => .pure _
      · exact .pure _
    have hfile : Balanced allFree
        (authUnserializeFromFile m now X pageSize draws checkDb fname file) :=
      .writing rfl hunder fun _ => .pure _
    exact hfile.disciplined s

/-! ## Secrets

A lookup of a secret is balanced. A deletion keeps the lock when there was a secret to delete,
and an addition asks for a lock that it holds. -/

theorem authSecretGet_run {H : AuthLock → Holder} (h : AllRead H) {auth : AuthPtr}
    {lock : AuthLock} (hlock : auth.lock? = some lock) (ref : Bytes) :
    authSecretGet auth (some ref) ⟨s, H⟩ =
      .ok (((auth.item? s).bind fun it => it.secrets.find ref).map fun _ => (auth, ref),
        ⟨s, H⟩) := by
  rw [authSecretGet.eq_def, hlock]
  dsimp only
  rw [bind_ok (run_read (h lock)), bind_ok (run_look _), bind_ok (run_release_reader (h lock))]
  rfl

theorem authSecretGet_balanced {H : AuthLock → Holder} (h : AllRead H) (auth : AuthPtr)
    (ref : Option Bytes) : Balanced H (authSecretGet auth ref) := by
  rw [authSecretGet.eq_def]
  split
  · exact .reading (h _) (.look _) fun _ => .pure _
  · exact .pure _

theorem authSecretFindByKey_run {H : AuthLock → Holder} (h : AllRead H) {key : Option KeyArg}
    {ref : Option Bytes} :
    authSecretFindByKey key ref ⟨s, H⟩ = .ok (foundSecret s key ref, ⟨s, H⟩) := by
  cases key with
  | none => rfl
  | some key =>
    cases ref with
    | none => rfl
    | some ref =>
      rw [authSecretFindByKey, bind_ok (authFindByKey_run h), Option.elim_some, foundSecret]
      cases hlock : (found s key).lock? with
      | none =>
        have hnull : found s key = .null := by
          cases hfound : found s key with
          | null => rfl
          | entry k => rw [hfound] at hlock; cases hlock
          | loose it => rw [hfound] at hlock; cases hlock
        simp only [Option.bind_some, hnull]
        rfl
      | some lock => exact authSecretGet_run h hlock ref

theorem authSecretDeleteByKey_iff {key : Option KeyArg} {ref : Option Bytes} :
    Disciplined (authSecretDeleteByKey key ref) ⟨s, allFree⟩ ↔ foundSecret s key ref = none := by
  cases h : foundSecret s key ref with
  | none =>
    refine iff_of_true ?_ rfl
    rw [Disciplined, authSecretDeleteByKey, bind_ok (authSecretFindByKey_run allRead_allFree), h]
    rfl
  | some r =>
    obtain ⟨auth, ref'⟩ := r
    have hlock : ∃ lock, auth.lock? = some lock := by
      obtain ⟨k, -, hk⟩ := Option.bind_eq_some_iff.mp h
      obtain ⟨r, -, hr⟩ := Option.bind_eq_some_iff.mp hk
      obtain ⟨secret, hsecret, heq⟩ := Option.map_eq_some_iff.mp hr
      obtain ⟨it, hit, -⟩ := Option.bind_eq_some_iff.mp hsecret
      cases heq
      cases hfound : found s k with
      | null => rw [hfound] at hit; cases hit
      | entry k => exact ⟨_, rfl⟩
      | loose it => exact ⟨_, rfl⟩
    obtain ⟨lock, hlock⟩ := hlock
    have hrun : authSecretDeleteByKey key ref ⟨s, allFree⟩ = .ok (true,
        ⟨changeSecrets auth (fun it => { it with secrets := it.secrets.remove ref' })
          (fun _ => rfl) s,
          withWriter allFree lock⟩) := by
      rw [authSecretDeleteByKey, bind_ok (authSecretFindByKey_run allRead_allFree), h]
      dsimp only
      rw [hlock, writeIf, Option.elim_some, bind_ok (run_write rfl), bind_ok (run_work _)]
      rfl
    refine iff_of_false (not_disciplined_of_held (k := lock) hrun ?_) (Option.some_ne_none _)
    dsimp only
    rw [withWriter_self]
    intro hfree
    cases hfree

variable (s) in
theorem authSecretAddOrUpdate_iff {auth : AuthPtr} {ref : Option Bytes} (secret : Option Bytes) :
    Disciplined (authSecretAddOrUpdate auth ref secret) ⟨s, allFree⟩ ↔
      auth.lock? = none ∨ ref = none := by
  rw [authSecretAddOrUpdate.eq_def]
  cases hlock : auth.lock? with
  | none => exact iff_of_true rfl (.inl rfl)
  | some lock =>
    cases ref with
    | none => exact iff_of_true rfl (.inr rfl)
    | some ref =>
      have hget : authSecretGet auth (some ref) ⟨s, withWriter allFree lock⟩ =
          .error (.blocked lock) := by
        rw [authSecretGet.eq_def, hlock]
        exact bind_error (run_read_blocked withWriter_self)
      refine iff_of_false (not_disciplined_of_blocked (k := lock) ?_) nofun
      dsimp only
      rw [bind_ok (run_write rfl), bind_error hget]

theorem authSecretAddOrUpdateByKey_iff {key : Option KeyArg} {ref secret : Option Bytes} :
    Disciplined (authSecretAddOrUpdateByKey key ref secret) ⟨s, allFree⟩ ↔
      (key.elim .null (found s)).lock? = none ∨ ref = none := by
  cases key with
  | none => exact iff_of_true rfl (.inl rfl)
  | some key =>
    rw [← authSecretAddOrUpdate_iff s secret, Disciplined,
      authSecretAddOrUpdateByKey, bind_ok (authFindByKey_run allRead_allFree), Disciplined]

/-! ## The purge

A list without logins is freed without a lock being asked for twice. -/

section Purge

variable {H : AuthLock → Holder}

/-- A list of logins is purged when it is empty: its lock is written already. -/
theorem authSIdFree_ends {dbId : Bytes} {si : AuthSIds} (h : H (.sIds dbId si.sId) = .free)
    (hnil : si.logins.items = []) : Ends H (authSIdFree dbId si) := by
  intro s
  refine ⟨(), s, ?_⟩
  rw [authSIdFree, hnil, bind_ok (run_write h)]
  exact run_release_writer h

theorem authSIdFree_blocks {dbId : Bytes} {si : AuthSIds} (h : H (.sIds dbId si.sId) = .free)
    (hne : si.logins.items ≠ []) : Blocks H (authSIdFree dbId si) := by
  intro s
  refine ⟨.sIds dbId si.sId, ?_⟩
  obtain ⟨it, its, hits⟩ := List.exists_cons_of_ne_nil hne
  have hwrite : (write (AuthLock.sIds dbId si.sId) : AuthM Unit)
      ⟨s, withWriter H (.sIds dbId si.sId)⟩ = .error (.blocked (.sIds dbId si.sId)) := by
    apply run_write_blocked
    rw [withWriter_self]
    exact nofun
  have hfree : authFree (.entry ⟨dbId, it.login, si.sId⟩) ⟨s, withWriter H (.sIds dbId si.sId)⟩ =
      .error (.blocked (.sIds dbId si.sId)) := bind_error hwrite
  rw [authSIdFree, hits, bind_ok (run_write h)]
  exact bind_error (bind_error hfree)

theorem authDbFree_cases (db : AuthDb) (h : ∀ sId, H (.sIds db.dbId sId) = .free) :
    ((∀ si ∈ db.sIds.items, si.logins.items = []) ∧ Ends H (authDbFree db)) ∨
      ((∃ si ∈ db.sIds.items, si.logins.items ≠ []) ∧ Blocks H (authDbFree db)) := by
  by_cases hnil : ∀ si ∈ db.sIds.items, si.logins.items = []
  · refine .inl ⟨hnil, fun s => ?_⟩
    exact Ends.forM (fun si hsi => authSIdFree_ends (h si.sId) (hnil si hsi)) _
  · push Not at hnil
    refine .inr ⟨hnil, fun s => ?_⟩
    refine Blocks.forM (fun si _ => ?_) ?_ _
    · by_cases hsi : si.logins.items = []
      · exact .inl (authSIdFree_ends (h si.sId) hsi)
      · exact .inr (authSIdFree_blocks (h si.sId) hsi)
    · obtain ⟨si, hmem, hsi⟩ := hnil
      have : Nonempty AuthDbs := ⟨.empty⟩
      exact ⟨si, hmem, (authSIdFree_blocks (h si.sId) hsi).not_ends⟩

theorem authDbPurge_iff :
    Disciplined authDbPurge ⟨s, allFree⟩ ↔
      ∀ db ∈ s.items, ∀ si ∈ db.sIds.items, si.logins.items = [] := by
  have hcases := fun db => authDbFree_cases (H := withWriter allFree .dbs) db fun _ => rfl
  rw [Disciplined, authDbPurge, bind_ok (run_write rfl), bind_ok (run_look _)]
  by_cases hnil : ∀ db ∈ s.items, ∀ si ∈ db.sIds.items, si.logins.items = []
  · refine iff_of_true ?_ hnil
    have hends : Ends (withWriter allFree .dbs) (s.items.forM authDbFree) := by
      refine .forM fun db hdb => ?_
      rcases hcases db with ⟨-, hends⟩ | ⟨⟨si, hsi, hne⟩, -⟩
      · exact hends
      · exact absurd (hnil db hdb si hsi) hne
    obtain ⟨a, s', hrun⟩ := hends s
    rw [bind_ok hrun, run_release_writer rfl]
  · refine iff_of_false ?_ hnil
    push Not at hnil
    have hblocks : Blocks (withWriter allFree .dbs) (s.items.forM authDbFree) := by
      refine .forM (fun db _ => ?_) ?_
      · rcases hcases db with ⟨-, hends⟩ | ⟨-, hblocks⟩
        · exact .inl hends
        · exact .inr hblocks
      · obtain ⟨db, hdb, si, hsi, hne⟩ := hnil
        have : Nonempty AuthDbs := ⟨.empty⟩
        rcases hcases db with ⟨hall, -⟩ | ⟨-, hblocks⟩
        · exact absurd (hall si hsi) hne
        · exact ⟨db, hdb, hblocks.not_ends⟩
    obtain ⟨k, hk⟩ := hblocks s
    rw [bind_error hk]
    exact id

end Purge

end Deletion

/-! ## The discipline

The cases of `AuthOp.Releases`, each with its lemma. -/

/-- Which calls are disciplined when nobody holds a lock. -/
theorem disciplined_iff {X : PersistExt} {pageSize : Nat} {s : AuthDbs} (op : AuthOp) :
    Disciplined (op.run X pageSize) ⟨s, allFree⟩ ↔ op.Releases X pageSize s := by
  have hbalanced : ∀ {α : Type} {c : AuthM α}, Balanced allFree c →
      (Disciplined (discard c) ⟨s, allFree⟩ ↔ True) := fun h =>
    iff_of_true (disciplined_discard.mpr (h.disciplined s)) trivial
  cases op with
  | findByKey key => exact hbalanced (authFindByKey_balanced allRead_allFree key)
  | getFirst key => exact hbalanced (authGetFirst_balanced allRead_allFree key)
  | new m now key body => exact hbalanced (authNew_balanced key body)
  | insertByKey m now key => exact hbalanced (authByKey_balanced _ key)
  | searchByKey m now key => exact hbalanced (authByKey_balanced _ key)
  | insertOrUpdate m dbId sId it => exact disciplined_discard.trans authInsertOrUpdate_iff
  | free auth => exact authFree_iff
  | deleteByKey key => exact authDeleteByKey_iff
  | foreach fct dbId sId => exact hbalanced (authForeach_balanced allRead_allFree dbId sId)
  | serialize => exact hbalanced (authForeach_balanced allRead_allFree none none)
  | serializeToFile fname opens => exact disciplined_discard.trans authSerializeToFile_iff
  | unserializeFromFile m now draws checkDb fname file =>
    exact disciplined_discard.trans authUnserializeFromFile_iff
  | secretGet auth ref => exact hbalanced (authSecretGet_balanced allRead_allFree auth ref)
  | secretFindByKey key ref =>
    exact hbalanced ⟨fun _ => .of_ok (authSecretFindByKey_run allRead_allFree) rfl⟩
  | secretDeleteByKey key ref => exact disciplined_discard.trans authSecretDeleteByKey_iff
  | secretAddOrUpdate auth ref secret =>
    exact disciplined_discard.trans (authSecretAddOrUpdate_iff s secret)
  | secretAddOrUpdateByKey key ref secret =>
    exact disciplined_discard.trans authSecretAddOrUpdateByKey_iff
  | purge => exact authDbPurge_iff

/-- **The locks along a run.** As long as the calls meet the condition nobody holds a lock between
them, and then a call is disciplined exactly when it meets the condition. -/
theorem locks_run (X : PersistExt) (pageSize : Nat) :
    (∀ l, (releasingSystem X pageSize).Reachable l → l.holders = allFree) ∧
      ∀ l (op : AuthOp), (releasingSystem X pageSize).Reachable l →
        (Disciplined (op.run X pageSize) l ↔ op.Releases X pageSize l.state) := by
  have hfree : ∀ l, (releasingSystem X pageSize).Reachable l → l.holders = allFree := by
    intro l hl
    refine hl.invariant (P := fun l => l.holders = allFree) ?_ ?_
    · rintro l rfl
      rfl
    · rintro ⟨s, H⟩ op l' (rfl : H = allFree) ⟨hrun, hreleases⟩
      have hd := (disciplined_iff op).mpr hreleases
      rwa [Disciplined, show op.run X pageSize ⟨s, allFree⟩ = .ok ((), l') from hrun] at hd
  refine ⟨hfree, ?_⟩
  rintro ⟨s, H⟩ op hl
  obtain rfl : H = allFree := hfree _ hl
  exact disciplined_iff op

/-! ### A store with two entries

A save of an empty store keeps to the discipline, and one of a store with an entry does not. -/

/-- The store that a call leaves. -/
def storeAfter (X : PersistExt) (pageSize : Nat) (s : AuthDbs) (op : AuthOp) : AuthDbs :=
  (op.run X pageSize ⟨s, allFree⟩).toOption.elim s fun r => r.2.state

/-- A call that meets its condition, and does not stop the process, leaves its store with every
lock free. -/
theorem reachable_storeAfter {X : PersistExt} {pageSize : Nat} {s : AuthDbs} {op : AuthOp}
    (hs : (releasingSystem X pageSize).Reachable ⟨s, allFree⟩) (h : op.Releases X pageSize s)
    (hends : (op.run X pageSize ⟨s, allFree⟩).isOk = true) :
    (releasingSystem X pageSize).Reachable ⟨storeAfter X pageSize s op, allFree⟩ := by
  have hd := (disciplined_iff op).mpr h
  refine hs.step (e := op) ⟨?_, h⟩
  show op.run X pageSize ⟨s, allFree⟩ = _
  rw [storeAfter]
  cases hrun : op.run X pageSize ⟨s, allFree⟩ with
  | error stop =>
    rw [hrun] at hends
    cases hends
  | ok r =>
    obtain ⟨⟨⟩, s', H⟩ := r
    rw [Disciplined, hrun] at hd
    obtain rfl : H = allFree := hd
    rfl

/-- Nothing is decoded. -/
def noPersist : PersistExt := ⟨fun _ => [], fun _ => [], fun _ => ⟨0, 0⟩⟩

/-- Another login of the same list. -/
def secondArg : KeyArg := ⟨some sampleKey.dbId, some (ascii "log-002"), some sampleKey.sId⟩

/-- The first entry is new. -/
def oneEntry : AuthDbs :=
  storeAfter noPersist 1 .empty (.new fullMemory ⟨1457012463, 0⟩ sampleArg .none)

/-- So is the second one. -/
def twoEntries : AuthDbs :=
  storeAfter noPersist 1 oneEntry (.new fullMemory ⟨1457012464, 0⟩ secondArg .none)

theorem twoEntries_reachable : (releasingSystem noPersist 1).Reachable ⟨twoEntries, allFree⟩ := by
  have hone : (releasingSystem noPersist 1).Reachable ⟨oneEntry, allFree⟩ :=
    reachable_storeAfter (.init rfl) trivial rfl
  exact reachable_storeAfter hone trivial rfl

/-- A secret that the second entry does not have is looked for through the locks of the databases,
of a database and of a list, one inside the other, then under that of the entry. -/
theorem locks_twoEntries :
    Disciplined (AuthOp.run noPersist 1 (.secretDeleteByKey (some secondArg)
      (some (ascii "AES256CTR")))) ⟨twoEntries, allFree⟩ :=
  ((locks_run noPersist 1).2 _ _ twoEntries_reachable).mpr rfl

/-- A file that opens is written under the lock of the databases, which `auth_foreach` reads. -/
theorem not_disciplined_serializeToFile : ¬ ∀ (X : PersistExt) (pageSize : Nat) l (op : AuthOp),
    (lockSystem X pageSize).Reachable l → Disciplined (op.run X pageSize) l := by
  intro h
  have hd := h noPersist 1 ⟨.empty, allFree⟩ (.serializeToFile (some [0x66]) true) (.init rfl)
  exact absurd ((disciplined_iff _).mp hd) nofun

end RsmpGateway.Auth.Locks
