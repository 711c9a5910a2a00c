import RsmpGateway.Auth.Secret

/-!
# The entry of a message

Every message that is encrypted or decrypted is so with an entry of the store and a key.

* `coder_auth_get` finds the entry. For a message that is written it is the entry of the given
  login or, without a login, the first one of the database `to`; for one that is read, the entry
  of the database `from` whose login and id the element carries. An entry that is not active is
  not given.
* `coder_secret_get` gives the key of the cipher: the secret cached on the entry, or one that is
  derived from its password then and cached. A secret that was cached before the password changed
  is given all the same.
-/

namespace RsmpGateway.Coder

open RsmpGateway.Lib RsmpGateway.Crypt RsmpGateway.Auth

/-- The entry that `coder_auth_get` comes to, active or not. -/
def coderAuthFind (db : AuthDbs) (login : Option Bytes) (sIdRemote : Bytes)
    (action : CoderAction) : Option (AuthKey × AuthEntry) :=
  match action, login with
  | .decrypt, none => none
  | .decrypt, some login =>
    (db.authFindByKey ⟨authFromDbId, login, sIdRemote⟩).map fun it =>
      (⟨authFromDbId, login, sIdRemote⟩, it.auth)
  | .encrypt, some login =>
    (db.authFindByKey ⟨authToDbId, login, sIdRemote⟩).map fun it =>
      (⟨authToDbId, login, sIdRemote⟩, it.auth)
  | .encrypt, none =>
    (db.authGetFirst (some authToDbId) (some sIdRemote)).map fun e => (e.1, e.2.auth)

/-- `coder_auth_get` -/
def coderAuthGet (db : AuthDbs) (login : Option Bytes) (sIdRemote : Bytes)
    (action : CoderAction) : Option (AuthKey × AuthEntry) :=
  (coderAuthFind db login sIdRemote action).filter fun e => e.2.active

theorem coderAuthGet_decrypt {db : AuthDbs} {login sIdRemote : Bytes} {r : AuthKey × AuthEntry}
    (h : coderAuthGet db (some login) sIdRemote .decrypt = some r) :
    ∃ it, db.authFindByKey ⟨authFromDbId, login, sIdRemote⟩ = some it ∧ it.auth.active = true ∧
      r = (⟨authFromDbId, login, sIdRemote⟩, it.auth) := by
  obtain ⟨hfind, hactive⟩ := Option.filter_eq_some_iff.mp h
  obtain ⟨it, hit, rfl⟩ := Option.map_eq_some_iff.mp hfind
  exact ⟨it, hit, hactive, rfl⟩

theorem coderAuthGet_encrypt {db : AuthDbs} {login : Option Bytes} {sIdRemote : Bytes}
    {key : AuthKey} {auth : AuthEntry}
    (h : coderAuthGet db login sIdRemote .encrypt = some (key, auth)) :
    ∃ it, key = ⟨authToDbId, key.login, sIdRemote⟩ ∧ db.authFindByKey key = some it ∧
      it.auth = auth := by
  obtain ⟨hfind, -⟩ := Option.filter_eq_some_iff.mp h
  cases login with
  | some login =>
    obtain ⟨it, hit, hr⟩ := Option.map_eq_some_iff.mp hfind
    cases hr
    exact ⟨it, rfl, hit, rfl⟩
  | none =>
    obtain ⟨⟨k, it⟩, hit, hr⟩ := Option.map_eq_some_iff.mp hfind
    cases hr
    rw [AuthDbs.authGetFirst_eq] at hit
    obtain ⟨_, hlast, hr⟩ := Option.map_eq_some_iff.mp hit
    cases hr
    exact ⟨it, rfl, AuthDbs.mem_logins.mp (List.mem_of_getLast? hlast), rfl⟩

/-! ## Secrets

Caching changes no login, no password and no order of the entries, so that the entry that is
found for the next message is the same; and the secret that is found the next time is the one
cached. -/

/-- An operation that leaves what entries say leaves what is found. -/
theorem coderAuthFind_modify (db : AuthDbs) (key : AuthKey) (f : AuthItem → AuthItem)
    (hf : ∀ it, (f it).login = it.login) (hauth : ∀ it, (f it).auth = it.auth)
    (login : Option Bytes) (sIdRemote : Bytes) (action : CoderAction) :
    coderAuthFind (db.modify key f hf) login sIdRemote action =
      coderAuthFind db login sIdRemote action := by
  have hfind : ∀ k, ((db.modify key f hf).authFindByKey k).map AuthItem.auth =
      (db.authFindByKey k).map AuthItem.auth := by
    intro k
    rw [AuthDbs.authFindByKey_modify]
    split
    · next hk =>
      subst hk
      rw [Option.map_map]
      congr 1
      exact funext hauth
    · rfl
  have hmap : ∀ (db : AuthDbs) (k : AuthKey), (db.authFindByKey k).map (fun it => (k, it.auth)) =
      ((db.authFindByKey k).map AuthItem.auth).map (k, ·) := by
    intro db k
    rw [Option.map_map]
    rfl
  cases action with
  | decrypt =>
    cases login with
    | none => rfl
    | some login => simp only [coderAuthFind, hmap, hfind]
  | encrypt =>
    cases login with
    | some login => simp only [coderAuthFind, hmap, hfind]
    | none =>
      simp only [coderAuthFind, AuthDbs.authGetFirst_eq, AuthDbs.logins_modify]
      split
      · rw [List.getLast?_map]
        cases (db.logins authToDbId sIdRemote).getLast? with
        | none => rfl
        | some it =>
          simp only [Option.map_some]
          split
          · rw [hf, hauth]
          · rfl
      · rfl

/-- What `coder_secret_get` caches changes no entry, and is what it finds the next time. -/
theorem coderSecretGet_again (pbkdf2 : Pbkdf2) (sIdLocal : Bytes) (cipher : Cipher) (db : AuthDbs)
    (key : AuthKey) (action : CoderAction) :
    (∀ login sIdRemote action',
      coderAuthFind (db.coderSecretGet pbkdf2 sIdLocal cipher key action).2 login sIdRemote
        action' = coderAuthFind db login sIdRemote action') ∧
    ((db.coderSecretGet pbkdf2 sIdLocal cipher key action).2.coderSecretGet pbkdf2 sIdLocal cipher
        key action).1 = (db.coderSecretGet pbkdf2 sIdLocal cipher key action).1 := by
  cases hit : db.authFindByKey key with
  | none =>
    have hget : db.coderSecretGet pbkdf2 sIdLocal cipher key action = (none, db) := by
      simp only [AuthDbs.coderSecretGet, hit]
    rw [hget]
    exact ⟨fun _ _ _ => rfl, congrArg Prod.fst hget⟩
  | some it =>
    cases hcached : it.authSecretGet cipher.lib with
    | some secret =>
      have hget : db.coderSecretGet pbkdf2 sIdLocal cipher key action = (some secret, db) := by
        simp only [AuthDbs.coderSecretGet, hit, hcached]
      rw [hget]
      exact ⟨fun _ _ _ => rfl, congrArg Prod.fst hget⟩
    | none =>
      cases hderived : derivedSecret pbkdf2 sIdLocal cipher key action it.auth.pwd with
      | none =>
        have hget : db.coderSecretGet pbkdf2 sIdLocal cipher key action = (none, db) := by
          simp only [AuthDbs.coderSecretGet, hit, hcached, hderived]
        rw [hget]
        exact ⟨fun _ _ _ => rfl, congrArg Prod.fst hget⟩
      | some secret =>
        -- derived and cached on the entry, where the next call finds it
        have hlogin : ∀ it : AuthItem,
            (it.authSecretAddOrUpdate cipher.lib secret).login = it.login := fun _ => rfl
        have hget : db.coderSecretGet pbkdf2 sIdLocal cipher key action = (some secret,
            db.modify key (fun it => it.authSecretAddOrUpdate cipher.lib secret) hlogin) := by
          simp only [AuthDbs.coderSecretGet, hit, hcached, hderived]
        have hagain : (AuthDbs.modify db key
            (fun it => it.authSecretAddOrUpdate cipher.lib secret) hlogin).authFindByKey key =
            some (it.authSecretAddOrUpdate cipher.lib secret) := by
          rw [AuthDbs.authFindByKey_modify, if_pos rfl, hit]
          rfl
        rw [hget]
        constructor
        · intro login sIdRemote action'
          apply coderAuthFind_modify
          exact fun _ => rfl
        · dsimp only
          rw [AuthDbs.coderSecretGet, hagain]
          simp only [authSecretGet_addOrUpdate, if_pos]

theorem coderAuthGet_coderSecretGet (pbkdf2 : Pbkdf2) (sIdLocal : Bytes) (cipher : Cipher)
    (db : AuthDbs) (key : AuthKey) (action : CoderAction) (login : Option Bytes)
    (sIdRemote : Bytes) (action' : CoderAction) :
    coderAuthGet (db.coderSecretGet pbkdf2 sIdLocal cipher key action).2 login sIdRemote action' =
      coderAuthGet db login sIdRemote action' := by
  rw [coderAuthGet, (coderSecretGet_again ..).1]
  rfl

/-- The entry has the secret for the cipher, cached or not. -/
structure HasSecret (pbkdf2 : Pbkdf2) (sIdLocal : Bytes) (cipher : Cipher) (db : AuthDbs)
    (key : AuthKey) (action : CoderAction) (secret : Bytes) : Prop where
  derived : ∀ it, db.authFindByKey key = some it →
    derivedSecret pbkdf2 sIdLocal cipher key action it.auth.pwd = some secret
  cached : ∀ it, db.authFindByKey key = some it →
    ∀ s, it.authSecretGet cipher.lib = some s → s = secret

theorem HasSecret.get {pbkdf2 : Pbkdf2} {sIdLocal : Bytes} {cipher : Cipher} {db : AuthDbs}
    {key : AuthKey} {action : CoderAction} {secret : Bytes} {it : AuthItem}
    (h : HasSecret pbkdf2 sIdLocal cipher db key action secret)
    (hit : db.authFindByKey key = some it) :
    ∃ db', db.coderSecretGet pbkdf2 sIdLocal cipher key action = (some secret, db') ∧
      HasSecret pbkdf2 sIdLocal cipher db' key action secret ∧
      ∀ login sIdRemote action,
        coderAuthFind db' login sIdRemote action = coderAuthFind db login sIdRemote action := by
  rw [AuthDbs.coderSecretGet, hit]
  dsimp only
  cases hget : it.authSecretGet cipher.lib with
  | some s =>
    rw [h.cached it hit s hget]
    exact ⟨db, rfl, h, fun _ _ _ => rfl⟩
  | none =>
    rw [h.derived it hit]
    have hlogin : ∀ it : AuthItem, (it.authSecretAddOrUpdate cipher.lib secret).login = it.login :=
      fun _ => rfl
    have hfind : ∀ it', (AuthDbs.modify db key
        (fun it => it.authSecretAddOrUpdate cipher.lib secret) hlogin).authFindByKey key =
        some it' → it' = it.authSecretAddOrUpdate cipher.lib secret := by
      intro it' hit'
      rw [AuthDbs.authFindByKey_modify, if_pos rfl, hit] at hit'
      exact (Option.some.inj hit').symm
    refine ⟨_, rfl, ⟨?_, ?_⟩, ?_⟩
    · intro it' hit'
      rw [hfind it' hit']
      exact h.derived it hit
    · intro it' hit' s hs
      rw [hfind it' hit'] at hs
      rw [authSecretGet_addOrUpdate, if_pos rfl] at hs
      exact (Option.some.inj hs).symm
    · intro login sIdRemote action
      apply coderAuthFind_modify
      exact fun _ => rfl

end RsmpGateway.Coder
