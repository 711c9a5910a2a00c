import RsmpGateway.Auth.Locks

/-!
# Lookups and insertions give their locks back

A computation is balanced when it leaves the locks as they were, whatever the store. A lookup takes
the locks of the lists one inside the other, for reading, and releases them on every way out; an
insertion takes the lock of a list for writing when the lookup has released it. So both are
balanced, from any state of the locks in which nothing is written (lookups) or held (insertions).
-/

namespace RsmpGateway.Auth.Locks

open RsmpGateway.Lib LockM Identity

/-! ## Lookups read, and release

The locks are taken from the outside in, and released in the order that the functions return. -/

section Lookups

variable {m : AuthMemory} {now : HoroDate} {s : AuthDbs} {H : AuthLock → Holder}

/-- No lock is written. -/
def AllRead (H : AuthLock → Holder) : Prop := ∀ k, CanRead H k

theorem AllRead.withReader (h : AllRead H) (k : AuthLock) : AllRead (withReader H k) :=
  fun k' => (h k').withReader (h k)

theorem authFind_run (h : AllRead H) (lock : Option AuthLock) (key : Option Bytes)
    (cmp : AuthDbs → Bytes → Bool) :
    authFind lock key cmp ⟨s, H⟩ = .ok (key.filter (cmp s), ⟨s, H⟩) := by
  cases key with
  | none => rfl
  | some key =>
    have hitem : (if cmp s key then some key else none) = (some key).filter (cmp s) := by
      rw [Option.filter_some]
    rw [authFind, bind_ok (run_readIf h), bind_ok (run_look _), bind_ok (run_releaseIf_reader h),
      ← hitem, run_pure]

theorem authDbFind_run (h : AllRead H) (lock : Option AuthLock) (dbId : Option Bytes) :
    authDbFind lock dbId ⟨s, H⟩ = .ok (dbId.filter fun dbId => (s.find dbId).isSome, ⟨s, H⟩) :=
  authFind_run h ..

theorem authSIdFind_run (h : AllRead H) (lock : Option AuthLock) (dbId : Bytes)
    (sId : Option Bytes) :
    authSIdFind lock dbId sId ⟨s, H⟩ =
      .ok (sId.filter fun sId => (s.sIds? dbId sId).isSome, ⟨s, H⟩) :=
  authFind_run h ..

theorem authLoginFind_run (h : AllRead H) (lock : Option AuthLock) (dbId sId : Bytes)
    (login : Option Bytes) :
    authLoginFind lock dbId sId login ⟨s, H⟩ =
      .ok (login.filter fun login => (s.authFindByKey ⟨dbId, login, sId⟩).isSome, ⟨s, H⟩) :=
  authFind_run h ..

/-- What is found under its key. -/
theorem authFind_iff (h : AllRead H) {lock : Option AuthLock} {key : Bytes}
    {cmp : AuthDbs → Bytes → Bool} {b : Bool} (hb : cmp s key = b) :
    authFind lock (some key) cmp ⟨s, H⟩ = .ok (if b then some key else none, ⟨s, H⟩) := by
  rw [authFind_run h, Option.filter_some, hb]

theorem found_null {key : KeyArg} (h : ∀ k, key.key? = some k → s.authFindByKey k = none) :
    found s key = .null := by
  rw [found]
  cases hk : key.key? with
  | none => rfl
  | some k => rw [Option.filter_some, h k hk]; rfl

theorem key?_eq_some {key : KeyArg} {k : AuthKey} :
    key.key? = some k ↔ key = ⟨some k.dbId, some k.login, some k.sId⟩ := by
  obtain ⟨dbId, login, sId⟩ := key
  obtain ⟨dbId', login', sId'⟩ := k
  cases dbId <;> cases login <;> cases sId <;> simp [KeyArg.key?]

theorem authFindUnder_run (h : AllRead H) (key : KeyArg) :
    authFindUnder key ⟨s, H⟩ = .ok (found s key, ⟨s, H⟩) := by
  obtain ⟨dbId, login, sId⟩ := key
  rw [authFindUnder]
  cases dbId with
  | none => rfl
  | some dbId =>
    cases hdb : s.find dbId with
    | none =>
      rw [authDbFind, bind_ok (authFind_iff h (b := false) (by rw [hdb]; rfl)), found_null]
      · rfl
      · intro k hk
        cases key?_eq_some.mp hk
        rw [AuthDbs.authFindByKey, AuthDbs.sIds?, hdb]
        rfl
    | some db =>
      rw [authDbFind, bind_ok (authFind_iff h (b := true) (by rw [hdb]; rfl))]
      cases sId with
      | none => cases login <;> rfl
      | some sId =>
        cases hsIds : s.sIds? dbId sId with
        | none =>
          rw [if_pos rfl]
          dsimp only
          rw [authSIdFind, bind_ok (authFind_iff h (b := false) (by rw [hsIds]; rfl)), found_null]
          · rfl
          · intro k hk
            cases key?_eq_some.mp hk
            rw [AuthDbs.authFindByKey, hsIds]
            rfl
        | some si =>
          rw [if_pos rfl]
          dsimp only
          rw [authSIdFind, bind_ok (authFind_iff h (b := true) (by rw [hsIds]; rfl)), if_pos rfl]
          dsimp only
          rw [bind_ok (authLoginFind_run h ..)]
          cases login with
          | none => rfl
          | some login =>
            rw [found, KeyArg.key?]
            simp only [Option.bind_eq_bind, Option.bind_some, Option.pure_def, Option.filter_some]
            cases (s.authFindByKey ⟨dbId, login, sId⟩).isSome <;> rfl

theorem authFindByKey_run {key : Option KeyArg} (h : AllRead H) :
    authFindByKey key ⟨s, H⟩ = .ok (key.elim .null (found s), ⟨s, H⟩) := by
  cases key with
  | none => rfl
  | some key =>
    rw [authFindByKey, bind_ok (run_read (h _)), bind_ok (authFindUnder_run (h.withReader _) key),
      bind_ok (run_release_reader (h _)), run_pure]
    rfl

theorem allRead_allFree : AllRead allFree := fun _ => canRead_allFree

/-! ### They are balanced

What a lookup finds is known by now, so that the discipline is a matter of the run alone. -/

theorem authDbFind_balanced (h : AllRead H) (lock : Option AuthLock) (dbId : Option Bytes) :
    Balanced H (authDbFind lock dbId) := ⟨fun _ => .of_ok (authDbFind_run h ..) rfl⟩

theorem authSIdFind_balanced (h : AllRead H) (lock : Option AuthLock) (dbId : Bytes)
    (sId : Option Bytes) : Balanced H (authSIdFind lock dbId sId) :=
  ⟨fun _ => .of_ok (authSIdFind_run h ..) rfl⟩

theorem authLoginFind_balanced (h : AllRead H) (lock : Option AuthLock) (dbId sId : Bytes)
    (login : Option Bytes) : Balanced H (authLoginFind lock dbId sId login) :=
  ⟨fun _ => .of_ok (authLoginFind_run h ..) rfl⟩

theorem authFindByKey_balanced (h : AllRead H) (key : Option KeyArg) :
    Balanced H (authFindByKey key) := ⟨fun _ => .of_ok (authFindByKey_run h) rfl⟩

theorem authGetFirst_balanced (h : AllRead H) (key : KeyArg) : Balanced H (authGetFirst key) := by
  have hdb : Balanced H (firstDb key) := by
    refine Balanced.bind (.look _) fun last => ?_
    split
    · exact .pure _
    · split
      · exact authDbFind_balanced h ..
      · exact .pure _
  have hsIds : ∀ db, Balanced H (firstSIds db key) := by
    refine fun db => Balanced.bind (.look _) fun last => ?_
    split
    · exact .pure _
    · split
      · exact authSIdFind_balanced h ..
      · exact .pure _
  refine hdb.bind fun db => ?_
  cases db with
  | none => exact .pure _
  | some db =>
    refine (hsIds db).bind fun sId => ?_
    cases sId with
    | none => exact .pure _
    | some sId => exact .look _

/-! ## All entries are read

`auth_foreach` holds the three locks that lead to an entry while it looks at it. By induction on
the lists, one lemma for each level. -/

variable {fct : AuthKey → AuthItem → Bool}

theorem authForeachLogin_balanced (h : AllRead H) (dbId sId : Bytes) :
    Balanced H (authForeachLogin fct dbId sId) :=
  .reading (h _) (.look _) fun _ => .pure _

theorem authForeachSId_balanced (h : AllRead H) (dbId : Bytes) (psId : Option Bytes) :
    Balanced H (authForeachSId fct dbId psId) := by
  have hin := h.withReader (.db dbId)
  refine .reading (h _) ?_ fun _ => .pure _
  cases psId with
  | none =>
    refine Balanced.bind (.look _) fun sIds => .foreachNode fun si _ => ?_
    exact authForeachLogin_balanced hin ..
  | some psId =>
    refine (authSIdFind_balanced hin ..).bind fun sId => ?_
    cases sId with
    | none => exact .pure _
    | some sId => exact authForeachLogin_balanced hin ..

theorem authForeach_balanced (h : AllRead H) (dbId sId : Option Bytes) :
    Balanced H (authForeach fct dbId sId) := by
  have hin := h.withReader .dbs
  refine .reading (h _) ?_ fun _ => .pure _
  cases dbId with
  | none =>
    refine Balanced.bind (.look _) fun dbs => .foreachNode fun db _ => ?_
    exact authForeachSId_balanced hin ..
  | some dbId =>
    refine (authDbFind_balanced hin ..).bind fun db => ?_
    cases db with
    | none => exact .pure _
    | some db => exact authForeachSId_balanced hin ..

end Lookups

/-! ## The lists grow

A search that finds nothing inserts. It is run from a state in which no lock is held, since it
takes the lock for writing. -/

section Insertion

variable {m : AuthMemory} {now : HoroDate}

theorem authDbSearch_balanced (dbId : Bytes) : Balanced allFree (authDbSearch m dbId) := by
  refine (authDbFind_balanced allRead_allFree ..).bind fun db => ?_
  cases db with
  | some db => exact .pure _
  | none =>
    dsimp only
    split
    · exact .writing (k := AuthLock.dbs) (H := allFree) rfl (.work _) fun _ => .pure _
    · exact .pure _

theorem authSIdSearch_balanced (dbId sId : Bytes) :
    Balanced allFree (authSIdSearch m dbId sId) := by
  refine (authSIdFind_balanced allRead_allFree ..).bind fun sId' => ?_
  cases sId' with
  | some sId' => exact .pure _
  | none =>
    dsimp only
    split
    · exact .writing (k := AuthLock.db dbId) (H := allFree) rfl (.work _) fun _ => .pure _
    · exact .pure _

theorem authInsert_balanced (dbId sId : Bytes) (it : AuthItem) :
    Balanced allFree (authInsert m dbId sId it) := by
  refine (authDbSearch_balanced dbId).bind fun db => ?_
  cases db with
  | none => exact .pure _
  | some db =>
    refine (authSIdSearch_balanced db sId).bind fun sId => ?_
    cases sId with
    | none => exact .pure _
    | some sId =>
      refine (authLoginFind_balanced allRead_allFree ..).bind fun login => ?_
      cases login with
      | some login => exact .pure _
      | none =>
        have hinsert : Balanced allFree (authLoginInsert (some (.sIds db sId)) db sId it) :=
          .writing_last (k := AuthLock.sIds db sId) (H := allFree) rfl (.work _)
        exact hinsert.bind fun _ => .pure _

theorem authNew_balanced (key : KeyArg) (body : AuthBody) :
    Balanced allFree (authNew m now key body) := by
  rw [authNew]
  split
  · exact .abort
  · cases key.key? with
    | none => exact .abort
    | some k =>
      dsimp only
      split
      · refine (authInsert_balanced ..).bind fun inserted => ?_
        cases inserted <;> exact .pure _
      · exact .pure _

theorem authByKey_balanced (found : AuthKey → AuthPtr) (key : KeyArg) :
    Balanced allFree (authByKey m now found key) := by
  rw [authByKey]
  cases key.set? with
  | none => exact .pure _
  | some k =>
    refine (authDbSearch_balanced k.dbId).bind fun db => ?_
    cases db with
    | none => exact .pure _
    | some db =>
      refine (authSIdSearch_balanced db k.sId).bind fun sId => ?_
      cases sId with
      | none => exact .pure _
      | some sId =>
        refine (authLoginFind_balanced allRead_allFree ..).bind fun login => ?_
        cases login with
        | none => exact authNew_balanced key .none
        | some _ => exact .pure _

end Insertion

section Searches

variable {m : AuthMemory} {s : AuthDbs} {dbId sId : Bytes}

/-! ## What the searches find

The functions that go on with a list need to know which one the search has come back with: the
one that was there, or an empty one that is there now. -/

theorem insertDb_self {db : AuthDb} (h : s.find dbId = some db) : insertDb dbId s = s :=
  KeyedList.upsert_self _ h

theorem insertSIds_self {si : AuthSIds} (h : s.sIds? dbId sId = some si) :
    insertSIds dbId sId s = s := by
  refine KeyedList.modify_self _ fun db hdb => ?_
  have hsi : db.sIds.find sId = some si := by
    rw [AuthDbs.sIds?, hdb] at h
    exact h
  rw [KeyedList.upsert_self _ hsi]

theorem authFindByKey_insertDb (key : AuthKey) :
    (insertDb dbId s).authFindByKey key = s.authFindByKey key := by
  rw [AuthDbs.authFindByKey_eq, AuthDbs.authFindByKey_eq, insertDb, KeyedList.find_upsert]
  split
  · next hk =>
    rw [hk]
    cases hdb : s.find dbId <;> simp
  · rfl

theorem authFindByKey_insertSIds (key : AuthKey) :
    (insertSIds dbId sId s).authFindByKey key = s.authFindByKey key := by
  rw [AuthDbs.authFindByKey_eq, AuthDbs.authFindByKey_eq, insertSIds, KeyedList.find_modify]
  split
  · next hk =>
    rw [hk]
    cases hdb : s.find dbId with
    | none => rfl
    | some db =>
      rw [Option.map_some, Option.bind_some, Option.bind_some, KeyedList.find_upsert]
      split
      · next hsId =>
        rw [hsId]
        cases hsi : db.sIds.find sId <;> simp
      · rfl
  · rfl

variable (m s dbId) in
/-- `auth_db_search` comes back with the database, or without memory for one. -/
theorem authDbSearch_run :
    authDbSearch m dbId ⟨s, allFree⟩ =
      if (s.find dbId).isSome || m.db then .ok (some dbId, ⟨insertDb dbId s, allFree⟩)
      else .ok (none, ⟨s, allFree⟩) := by
  cases hdb : s.find dbId with
  | some db =>
    rw [authDbSearch, authDbFind,
      bind_ok (authFind_iff allRead_allFree (b := true) (by rw [hdb]; rfl)), insertDb_self hdb]
    rfl
  | none =>
    rw [authDbSearch, authDbFind,
      bind_ok (authFind_iff allRead_allFree (b := false) (by rw [hdb]; rfl))]
    cases hm : m.db with
    | false => rfl
    | true =>
      rw [if_neg Bool.false_ne_true]
      dsimp only
      rw [if_pos rfl, bind_ok (run_write rfl), bind_ok (run_work _),
        bind_ok (run_release_writer rfl)]
      rfl

variable (m s dbId sId) in
theorem authSIdSearch_run :
    authSIdSearch m dbId sId ⟨s, allFree⟩ =
      if (s.sIds? dbId sId).isSome || m.sIds then
        .ok (some sId, ⟨insertSIds dbId sId s, allFree⟩)
      else .ok (none, ⟨s, allFree⟩) := by
  cases hsi : s.sIds? dbId sId with
  | some si =>
    rw [authSIdSearch, authSIdFind,
      bind_ok (authFind_iff allRead_allFree (b := true) (by rw [hsi]; rfl)), insertSIds_self hsi]
    rfl
  | none =>
    rw [authSIdSearch, authSIdFind,
      bind_ok (authFind_iff allRead_allFree (b := false) (by rw [hsi]; rfl))]
    cases hm : m.sIds with
    | false => rfl
    | true =>
      rw [if_neg Bool.false_ne_true]
      dsimp only
      rw [if_pos rfl, bind_ok (run_write rfl), bind_ok (run_work _),
        bind_ok (run_release_writer rfl)]
      rfl

end Searches

end RsmpGateway.Auth.Locks
