import RsmpGateway.Auth.Objects

/-!
# The entries of the store as objects

What the functions of `auth-basic.c` return is the address of an entry, and callers keep it. A run
that creates entries under free keys only, and gives `auth_insert_or_update` items that are in no
list, does on addresses what it would on a finite map (`store_refines_map`): a call gives what the
call on the map gives, and an address that was given stays that of its key until the entry is
deleted or replaced.

* `Matches` is what a single call has to do, and each function of the source is shown to do it.
* `auth_new` of a key that is taken returns an item that no list has; the allowed runs exclude it.
* The last part relates the objects to the entries of the functional model, which has their contents
  and no addresses.
-/

namespace RsmpGateway.Auth.Identity

open RsmpGateway.Lib AuthHeap

variable {m : AuthMemory} {now : HoroDate} {s s' : AuthHeap} {dbId sId : Bytes}

/-! ## What the functions do to the map

`StoreOp.spec` is the operation on the map. Each function is shown to match it, for any heap that
has the invariant and any memory. -/

/-- A key gets an address, where there is one. -/
def enter (M : AuthMap) (key : AuthKey) : Option Nat → AuthMap × Option Nat
  | none => (M, none)
  | some id => (Function.update M key (some id), some id)

/-- The key that a call is about. -/
def StoreOp.key? (s : AuthHeap) : StoreOp → Option AuthKey
  | .itemNew _ _ => none
  | .new key _ | .deleteByKey key | .findByKey key => key.key?
  | .insertByKey key | .searchByKey key => key.set?
  | .insertOrUpdate dbId item => (s.item? item).map fun it => ⟨dbId, it.key.login, it.key.sId⟩

/-- The address of the item that a call would enter, where it gets the memory. -/
def StoreCall.new? (s : AuthHeap) (c : StoreCall) (key : AuthKey) : Option Nat :=
  match c.op with
  | .insertOrUpdate _ item => if Reached c.memory s key.dbId key.sId then some item else none
  | _ => if Reached c.memory s key.dbId key.sId && c.memory.item then some s.next else none

/-- The calls on a finite map. -/
def StoreOp.spec (M : AuthMap) (key : AuthKey) (new : Option Nat) : StoreOp → AuthMap × Option Nat
  | .itemNew _ _ => (M, none)
  | .new _ _ | .insertOrUpdate _ _ => enter M key new
  | .insertByKey _ => if (M key).isSome then (M, none) else enter M key new
  | .searchByKey _ => if (M key).isSome then (M, M key) else enter M key new
  | .deleteByKey _ => (Function.update M key none, none)
  | .findByKey _ => (M, M key)

/-- `__auth_new` gives an item that is in no list. -/
def StoreOp.Returns : StoreOp → Prop
  | .itemNew _ _ => False
  | _ => True

/-- A call keeps the invariant, and does to the map what it says. -/
structure Matches (s s' : AuthHeap) (r : Option Nat) (c : StoreCall) : Prop where
  inv : StoreInv s'
  map : ∀ key, c.op.key? s = some key → (s'.map, r) = c.op.spec s.map key (c.new? s key)
  none : c.op.key? s = none → s'.map = s.map ∧ (c.op.Returns → r = none)

/-! ### One key

A call is about one key, if any. It is enough to show what the call does there: an address is
entered, taken out or looked up, and all other keys are left (`spec_of_ne`). -/

/-- An item of a free key goes to its list. -/
theorem authInsert_spec {it : HeapItem} (hfree : s.find ⟨dbId, it.key.login, it.key.sId⟩ = none)
    (hreached : Reached m s dbId it.key.sId = true) :
    ∃ s', authInsert m s dbId it = (s', true) ∧ Placed s s' dbId it ∧ s'.loose = s.loose ∧
      s'.next = s.next := by
  obtain ⟨hsame, hfound, hlist⟩ := searchLists_spec m s dbId it.key.sId
  rw [hreached] at hfound
  rw [authInsert]
  rcases hsearch : searchLists m s dbId it.key.sId with ⟨s₁, found⟩
  rw [hsearch] at hsame hfound hlist
  dsimp only at hsame hfound hlist
  subst hfound
  rw [← hsame.find] at hfree
  dsimp only
  rw [hfree]
  refine ⟨_, rfl, ?_, hsame.loose, hsame.next⟩
  intro dbId' sId'
  rw [logins_changeLogins (hlist rfl), hsame.logins, hsame.logins]
  split
  · rw [hsame.find, AuthHeap.find, List.find?_eq_none] at hfree
    rw [List.eraseP_of_forall_not hfree]
  · rfl

theorem Matches.of_key {c : StoreCall} {k : AuthKey} {r : Option Nat} (hkey : c.op.key? s = some k)
    (hinv : StoreInv s') (hmap : (s'.map, r) = c.op.spec s.map k (c.new? s k)) :
    Matches s s' r c where
  inv := hinv
  map k' hk' := by
    obtain rfl : k = k' := Option.some.inj (hkey.symm.trans hk')
    exact hmap
  none hnone := absurd (hkey.symm.trans hnone) (Option.some_ne_none k)

theorem Matches.of_none {c : StoreCall} {r : Option Nat} (hkey : c.op.key? s = Option.none)
    (hinv : StoreInv s') (hmap : s'.map = s.map) (hr : c.op.Returns → r = Option.none) :
    Matches s s' r c where
  inv := hinv
  map k hk := absurd (hkey.symm.trans hk) (Option.some_ne_none k).symm
  none _ := ⟨hmap, hr⟩

/-! ### Entries that are made

`auth_new` makes the item first, and then inserts it in the list of its key, which is made when
there is none. The caller gets the address either way: where the key is taken, or there is no
memory for the list, it is that of an item in no list, which no search finds. Hence the condition
on this call. -/

/-- What `auth_new` of a free key returns. -/
theorem authNew_cases {key : KeyArg} {k : AuthKey} (hkey : key.key? = some k) {body : AuthBody}
    (hfree : s.find k = none) (hreached : m.item = true → Reached m s k.dbId k.sId = true)
    {r : Option Nat} (h : authNew m now s key body = .ok (s', r)) :
    (m.item = false ∧ s' = s ∧ r = none) ∨
      (m.item = true ∧ r = some s.next ∧ Placed s s' k.dbId ⟨s.next, k, body.entry m now⟩ ∧
        s'.loose = s.loose ∧ s'.next = s.next + 1) := by
  rw [authNew] at h
  split at h
  · cases h
  · rw [hkey] at h
    dsimp only at h
    split at h
    · next hitem =>
      obtain ⟨s₁, hinsert, hplaced, hloose, hnext⟩ := @authInsert_spec m
        { s with next := s.next + 1 } k.dbId ⟨s.next, k, body.entry m now⟩ hfree (hreached hitem)
      rw [hinsert] at h
      cases h
      exact .inr ⟨hitem, rfl, hplaced, hloose, hnext⟩
    · next hitem =>
      cases h
      exact .inl ⟨eq_false_of_ne_true hitem, rfl, rfl⟩

/-- A free key is entered, where there is memory. -/
theorem authNew_spec (hs : StoreInv s) {key : KeyArg} {k : AuthKey} (hkey : key.key? = some k)
    {body : AuthBody} (hfree : s.find k = none)
    (hreached : m.item = true → Reached m s k.dbId k.sId = true) {r : Option Nat}
    (h : authNew m now s key body = .ok (s', r)) :
    StoreInv s' ∧ (s'.map, r) = enter s.map k
      (if Reached m s k.dbId k.sId && m.item then some s.next else none) := by
  rcases authNew_cases hkey hfree hreached h with ⟨hitem, rfl, rfl⟩ |
    ⟨hitem, rfl, hplaced, hloose, hnext⟩
  · rw [hitem, Bool.and_false]
    exact ⟨hs, rfl⟩
  · rw [hreached hitem, hitem]
    constructor
    · apply hplaced.inv hs
      · intro key' hfound
        exact absurd (hs.below hfound) (lt_irrefl _)
      · rw [hnext]
        exact Nat.lt_succ_self _
      · intro old hold
        rw [hloose] at hold
        exact (hs.below_loose old hold).ne
      · rw [hloose]
        exact fun _ => id
      · omega
    · rw [hplaced.map hs]
      rfl

theorem reached_of_list (h : (s.sIds? dbId sId).isSome) : Reached m s dbId sId = true := by
  obtain ⟨si, hsi⟩ := Option.isSome_iff_exists.mp h
  obtain ⟨db, hdb, -⟩ := Option.bind_eq_some_iff.mp hsi
  rw [Reached, h, hdb]
  rfl

theorem list_of_find {key : AuthKey} {it : HeapItem} (h : s.find key = some it) :
    (s.sIds? key.dbId key.sId).isSome := by
  cases hlist : s.sIds? key.dbId key.sId with
  | none =>
    rw [AuthHeap.find, logins, hlist] at h
    cases h
  | some si => rfl

theorem set?_eq_some {key : KeyArg} {k : AuthKey} (h : key.set? = some k) : key.key? = some k :=
  (Option.filter_eq_some_iff.mp h).1

/-- A key that is missing is entered, where there is memory; one that is there stays as it is. -/
theorem authByKey_spec (hs : StoreInv s) {found : HeapItem → Option Nat} {key : KeyArg}
    {k : AuthKey} (hkey : key.set? = some k) {r : Option Nat}
    (h : authByKey m now s found key = .ok (s', r)) :
    StoreInv s' ∧ (s'.map, r) =
      match s.find k with
      | some it => (s.map, found it)
      | none => enter s.map k
        (if Reached m s k.dbId k.sId && m.item then some s.next else none) := by
  obtain ⟨hsame, hfound, hlist⟩ := searchLists_spec m s k.dbId k.sId
  rw [authByKey, hkey] at h
  dsimp only at h
  rcases hsearch : searchLists m s k.dbId k.sId with ⟨s₁, listed⟩
  rw [hsearch] at hsame hfound hlist h
  dsimp only at hsame hfound hlist
  have hs₁ := hs.same hsame
  rw [← hsame.find, ← hsame.map]
  cases listed with
  | false =>
    -- no list for the key, and no entry
    cases h
    have hfree : s'.find k = none := by
      cases hfind : s'.find k with
      | none => rfl
      | some it =>
        rw [hsame.find] at hfind
        rw [reached_of_list (list_of_find hfind)] at hfound
        cases hfound
    rw [hfree, ← hfound]
    exact ⟨hs₁, rfl⟩
  | true =>
    have hreached : Reached m s₁ k.dbId k.sId = true := reached_of_list (hlist rfl)
    dsimp only at h
    cases hfind : s₁.find k with
    | some it =>
      rw [hfind] at h
      cases h
      exact ⟨hs₁, rfl⟩
    | none =>
      rw [hfind] at h
      have hnew := authNew_spec hs₁ (set?_eq_some hkey) hfind (fun _ => hreached) h
      rw [hreached, hsame.next] at hnew
      rw [← hfound]
      exact hnew

/-! ### Entries that go

A deletion takes the entry of the key out of its list. `auth_insert_or_update` does so too, and
then puts another item in its place: for the map this is one change of one key. -/

theorem authDeleteByKey_spec (hs : StoreInv s) {key : KeyArg} {k : AuthKey}
    (hkey : key.key? = some k) :
    StoreInv (authDeleteByKey s key) ∧
      (authDeleteByKey s key).map = Function.update s.map k none := by
  rw [authDeleteByKey, hkey]
  dsimp only
  cases hfind : s.find k with
  | none =>
    have hmap : s.map k = none := by rw [AuthHeap.map, hfind]; rfl
    refine ⟨hs, ?_⟩
    rw [← hmap, Function.update_eq_self]
  | some it =>
    have hlist := list_of_find hfind
    have hmap := map_of_find (find_erased hs hlist)
    refine ⟨?_, hmap⟩
    refine hs.update (nodup_erased hs hlist) hmap ?_ (fun _ => id) le_rfl
    intro id hnone
    cases hnone

/-- An item that is in no list is entered, in the place of the one of its key. -/
theorem authInsertOrUpdate_spec (hs : StoreInv s) {item : Nat} {it : HeapItem}
    (hit : s.loose.find? (fun it => it.id = item) = some it) {r : Option Nat}
    (h : authInsertOrUpdate m s dbId item = .ok (s', r)) :
    StoreInv s' ∧ (s'.map, r) = enter s.map ⟨dbId, it.key.login, it.key.sId⟩
      (if Reached m s dbId it.key.sId then some item else none) := by
  have hid : it.id = item := by simpa using List.find?_some hit
  have hmem : it ∈ s.loose := List.mem_of_find?_eq_some hit
  obtain ⟨hsame, hreached, hlist⟩ := searchLists_spec m s dbId it.key.sId
  rw [searchLists] at hsame hreached hlist
  rw [authInsertOrUpdate] at h
  cases hdb : authDbSearch m s dbId with
  | none =>
    rw [hdb] at h hreached
    cases h
    rw [← hreached]
    exact ⟨hs, rfl⟩
  | some s₁ =>
    have hitem : s₁.item? item = some it := by
      rw [item?, List.find?_append, (authDbSearch_spec hdb).1.loose, hit]
      rfl
    rw [hdb] at h hsame hreached hlist
    dsimp only at h hsame hreached hlist
    rw [hitem] at h
    dsimp only at h
    cases hsId : authSIdSearch m s₁ dbId it.key.sId with
    | none =>
      rw [hsId] at h hsame hreached
      cases h
      rw [← hreached, hsame.map]
      exact ⟨hs.same hsame, rfl⟩
    | some s₂ =>
      rw [hsId] at h hsame hreached hlist
      have hs₂ := hs.same hsame
      have hloose : s₂.loose.any (fun it => it.id = item) = true := by
        rw [hsame.loose, List.any_eq_true]
        exact ⟨it, hmem, decide_eq_true hid⟩
      dsimp only at h
      rw [if_pos hloose] at h
      cases h
      have hsome : (s₂.sIds? dbId it.key.sId).isSome := hlist rfl
      -- the item takes the place of the one of its login, at the end of the list
      have hplaced : Placed s₂ { s₂.place dbId it with
          loose := s₂.loose.filter fun it => it.id ≠ item } dbId it := by
        have hplace := logins_changeLogins hsome fun l =>
          (l.eraseP fun old => old.key.login = it.key.login) ++ [it]
        exact hplace
      rw [← hreached, if_pos rfl, hplaced.map hs₂, hsame.map, hid]
      refine ⟨?_, rfl⟩
      have hmem₂ : it ∈ s₂.loose := by
        rw [hsame.loose]
        exact hmem
      apply hplaced.inv hs₂
      · exact hs₂.apart it hmem₂
      · exact hs₂.below_loose it hmem₂
      · intro old hold
        have hne := (List.mem_filter.mp hold).2
        rw [hid]
        exact of_decide_eq_true hne
      · exact fun old hold => (List.mem_filter.mp hold).1
      · exact le_rfl

theorem authItemNew_spec (hs : StoreInv s) (key : AuthKey) (auth : AuthEntry) :
    StoreInv (authItemNew m s key auth).1 ∧ (authItemNew m s key auth).1.map = s.map := by
  rw [authItemNew]
  split
  · refine ⟨?_, rfl⟩
    constructor
    · exact hs.logins_nodup
    · exact hs.injective
    · intro it hit key' hfound
      rcases List.mem_cons.mp hit with rfl | hit
      · exact absurd (hs.below hfound) (lt_irrefl _)
      · exact hs.apart it hit key' hfound
    · intro key' id hfound
      exact (hs.below hfound).trans (Nat.lt_succ_self _)
    · intro it hit
      rcases List.mem_cons.mp hit with rfl | hit
      · exact Nat.lt_succ_self _
      · exact (hs.below_loose it hit).trans (Nat.lt_succ_self _)
  · exact ⟨hs, rfl⟩

/-! ## Runs that create no orphan

The invariant is kept by the allowed calls, and the map of a run is that of its calls. -/

/-- A key that `auth_new` is given is free, and there is memory for its list when there is for the
entry; an item that `auth_insert_or_update` is given is in no list. -/
def StoreCall.Allowed (s : AuthHeap) (c : StoreCall) : Prop :=
  match c.op with
  | .new key _ => ∀ k, key.key? = some k → s.find k = none ∧
      (c.memory.item = true → Reached c.memory s k.dbId k.sId = true)
  | .insertOrUpdate _ item => ∃ it ∈ s.loose, it.id = item
  | _ => True

/-- **One call.** -/
theorem run_matches (hs : StoreInv s) {c : StoreCall} (hallowed : c.Allowed s) {r : Option Nat}
    (h : c.run s = .ok (s', r)) : Matches s s' r c := by
  obtain ⟨m, now, op⟩ := c
  cases op with
  | itemNew key auth =>
    obtain ⟨hinv, hmap⟩ := @authItemNew_spec m s hs key auth
    have hs' : (authItemNew m s key auth).1 = s' := congrArg Prod.fst (Except.ok.inj h)
    rw [hs'] at hinv hmap
    exact .of_none rfl hinv hmap nofun
  | new key body =>
    -- without a key the functions do nothing, or stop
    cases hkey : key.key? with
    | none =>
      have hstop : authNew m now s key body = .ok (s', r) := h
      rw [authNew, hkey] at hstop
      split at hstop
      · cases hstop
      · cases hstop
    | some k =>
      obtain ⟨hfree, hreached⟩ := hallowed k hkey
      obtain ⟨hinv, hmap⟩ := authNew_spec hs hkey hfree hreached h
      exact .of_key hkey hinv hmap
  | insertByKey key =>
    cases hkey : key.set? with
    | none =>
      have hrun : authInsertByKey m now s key = .ok (s', r) := h
      rw [authInsertByKey, authByKey, hkey] at hrun
      cases hrun
      exact .of_none hkey hs rfl fun _ => rfl
    | some k =>
      obtain ⟨hinv, hmap⟩ := authByKey_spec hs hkey h
      refine .of_key hkey hinv ?_
      rw [hmap, StoreOp.spec, AuthHeap.map]
      cases s.find k <;> rfl
  | searchByKey key =>
    cases hkey : key.set? with
    | none =>
      have hrun : authSearchByKey m now s key = .ok (s', r) := h
      rw [authSearchByKey, authByKey, hkey] at hrun
      cases hrun
      exact .of_none hkey hs rfl fun _ => rfl
    | some k =>
      obtain ⟨hinv, hmap⟩ := authByKey_spec hs hkey h
      refine .of_key hkey hinv ?_
      rw [hmap, StoreOp.spec, AuthHeap.map]
      cases s.find k <;> rfl
  | insertOrUpdate dbId item =>
    obtain ⟨old, hold, hid⟩ := hallowed
    obtain ⟨it, hit⟩ : ∃ it, s.loose.find? (fun it => it.id = item) = some it := by
      rw [← Option.isSome_iff_exists, List.find?_isSome]
      exact ⟨old, hold, decide_eq_true hid⟩
    have hitem : s.item? item = some it := by
      rw [item?, List.find?_append, hit]
      rfl
    obtain ⟨hinv, hmap⟩ := authInsertOrUpdate_spec hs hit h
    refine @Matches.of_key s s' _ ⟨dbId, it.key.login, it.key.sId⟩ r ?_ hinv hmap
    rw [StoreOp.key?, hitem]
    rfl
  | deleteByKey key =>
    have hrun := Except.ok.inj h
    cases hkey : key.key? with
    | none =>
      rw [authDeleteByKey, hkey] at hrun
      cases hrun
      exact .of_none hkey hs rfl fun _ => rfl
    | some k =>
      obtain ⟨hinv, hmap⟩ := authDeleteByKey_spec hs hkey
      cases hrun
      refine .of_key hkey hinv ?_
      rw [hmap]
      rfl
  | findByKey key =>
    have hrun := Except.ok.inj h
    cases hrun
    cases hkey : key.key? with
    | none =>
      refine .of_none hkey hs rfl fun _ => ?_
      rw [authFindByKey, hkey]
      rfl
    | some k =>
      refine .of_key hkey hs ?_
      rw [authFindByKey, hkey]
      rfl

/-- The runs whose calls are all allowed. -/
def allowedStoreSystem : System AuthHeap StoreCall := storeSystem.restrict fun s c => c.Allowed s

theorem storeInv_of_reachable (h : allowedStoreSystem.Reachable s) : StoreInv s := by
  apply h.invariant
  · rintro _ rfl
    exact .empty
  · rintro s c s' hs ⟨⟨r, hrun⟩, hallowed⟩
    exact (run_matches hs hallowed hrun).inv

/-! ### Entries that are spared

A caller keeps an address across other calls. It stays good as long as no call deletes or replaces
the entry of its key: the address is then what every search for the key returns. -/

/-- The entry under a key is neither deleted nor replaced by a call. -/
def StoreOp.Spares (s : AuthHeap) (key : AuthKey) (op : StoreOp) : Prop :=
  match op with
  | .deleteByKey _ | .insertOrUpdate _ _ => op.key? s ≠ some key
  | _ => True

/-- The runs from a state that spare the entry under a key. -/
def sparingSystem (s : AuthHeap) (key : AuthKey) : System AuthHeap StoreCall :=
  (allowedStoreSystem.startingAt s).restrict fun s c => c.op.Spares s key

theorem enter_of_ne (M : AuthMap) {k key : AuthKey} (h : key ≠ k) (new : Option Nat) :
    (enter M k new).1 key = M key := by
  cases new with
  | none => rfl
  | some id => exact Function.update_of_ne h _ _

/-- A call changes the map at its key only. -/
theorem spec_of_ne (M : AuthMap) {k key : AuthKey} (h : key ≠ k) (new : Option Nat) (op : StoreOp) :
    (op.spec M k new).1 key = M key := by
  cases op with
  | itemNew _ _ => rfl
  | new _ _ => exact enter_of_ne M h new
  | insertByKey _ =>
    rw [StoreOp.spec]
    split
    · rfl
    · exact enter_of_ne M h new
  | searchByKey _ =>
    rw [StoreOp.spec]
    split
    · rfl
    · exact enter_of_ne M h new
  | insertOrUpdate _ _ => exact enter_of_ne M h new
  | deleteByKey _ => exact Function.update_of_ne h _ _
  | findByKey _ => rfl

/-- A call that spares an entry leaves it under its key. -/
theorem map_of_spares (hs : StoreInv s) {c : StoreCall} (hallowed : c.Allowed s) {r : Option Nat}
    (h : c.run s = .ok (s', r)) {key : AuthKey} {id : Nat} (hspares : c.op.Spares s key)
    (hid : s.map key = some id) : s'.map key = some id := by
  have hmatches := run_matches hs hallowed h
  cases hkey : c.op.key? s with
  | none => rw [(hmatches.none hkey).1, hid]
  | some k =>
    have hmap : s'.map = (c.op.spec s.map k (c.new? s k)).1 :=
      congrArg Prod.fst (hmatches.map k hkey)
    by_cases hk : key = k
    · subst hk
      obtain ⟨m, now, op⟩ := c
      rw [hmap]
      cases op with
      | itemNew _ _ => exact hid
      | new _ _ =>
        -- a key that is taken is not given to `auth_new`
        have hfree : s.map key = none := by rw [AuthHeap.map, (hallowed key hkey).1]; rfl
        rw [hfree] at hid
        cases hid
      | insertByKey _ =>
        rw [StoreOp.spec, hid]
        exact hid
      | searchByKey _ =>
        rw [StoreOp.spec, hid]
        exact hid
      | insertOrUpdate _ _ => exact absurd hkey hspares
      | deleteByKey _ => exact absurd hkey hspares
      | findByKey _ => exact hid
    · rw [hmap, spec_of_ne s.map hk, hid]

/-- **A run that spares an entry.** -/
theorem map_of_sparing (hs : StoreInv s) {key : AuthKey} {id : Nat} (hid : s.map key = some id)
    (h : (sparingSystem s key).Reachable s') : StoreInv s' ∧ s'.map key = some id := by
  refine h.invariant (P := fun s' => StoreInv s' ∧ s'.map key = some id) ?_ ?_
  · rintro _ rfl
    exact ⟨hs, hid⟩
  · rintro s₁ c s₂ ⟨hs₁, hid₁⟩ ⟨⟨⟨r, hrun⟩, hallowed⟩, hspares⟩
    exact ⟨(run_matches hs₁ hallowed hrun).inv, map_of_spares hs₁ hallowed hrun hspares hid₁⟩

/-- An address that a call on a map returns is that of its key. -/
theorem spec_returned {M : AuthMap} {key : AuthKey} {new : Option Nat} {op : StoreOp} {id : Nat}
    (h : (op.spec M key new).2 = some id) : (op.spec M key new).1 key = some id := by
  have henter : ∀ {id}, (enter M key new).2 = some id → (enter M key new).1 key = some id := by
    intro id h
    cases new with
    | none => cases h
    | some new =>
      rw [← h]
      exact Function.update_self key _ _
  cases op with
  | itemNew _ _ => cases h
  | new _ _ => exact henter h
  | insertByKey _ =>
    rw [StoreOp.spec] at h ⊢
    split at h
    · cases h
    · next hnone =>
      rw [if_neg hnone]
      exact henter h
  | searchByKey _ =>
    rw [StoreOp.spec] at h ⊢
    split at h
    · next hsome =>
      rw [if_pos hsome]
      exact h
    · next hnone =>
      rw [if_neg hnone]
      exact henter h
  | insertOrUpdate _ _ => exact henter h
  | deleteByKey _ => cases h
  | findByKey _ => exact h

/-- **The store is a finite map**, along every run of allowed calls: a key has one entry, and no
entry two keys; a call does to the addresses what it does to a map; and the address that a call
returns is found under its key as long as the entry is neither deleted nor replaced. -/
theorem store_refines_map (h : allowedStoreSystem.Reachable s) :
    (∀ key : AuthKey, (s.logins key.dbId key.sId).countP (fun it => it.key.login = key.login) ≤ 1) ∧
    (∀ key key' id, s.map key = some id → s.map key' = some id → key = key') ∧
    ∀ c s' r, StoreCall.Allowed s c → c.run s = .ok (s', r) →
      (∀ key, c.op.key? s = some key → (s'.map, r) = c.op.spec s.map key (c.new? s key)) ∧
      (c.op.key? s = none → s'.map = s.map ∧ (c.op.Returns → r = none)) ∧
      ∀ id, r = some id → c.op.Returns → ∃ key, c.op.key? s = some key ∧
        ∀ s'', (sparingSystem s' key).Reachable s'' → s''.map key = some id := by
  have hs := storeInv_of_reachable h
  refine ⟨?_, ?_, ?_⟩
  · intro key
    have hcount := List.nodup_iff_count_le_one.mp (hs.logins_nodup key.dbId key.sId) key.login
    rw [List.count_eq_countP, List.countP_map] at hcount
    apply hcount.trans_eq'
    apply List.countP_congr
    intro it _
    simp
  · intro key key' id
    exact hs.injective
  · intro c s' r hallowed hrun
    have hmatches := run_matches hs hallowed hrun
    refine ⟨hmatches.map, hmatches.none, ?_⟩
    intro id hr hreturns
    cases hkey : c.op.key? s with
    | none =>
      rw [(hmatches.none hkey).2 hreturns] at hr
      cases hr
    | some key =>
      have hspec := hmatches.map key hkey
      have hid : s'.map key = some id := by
        have hfst : s'.map = (c.op.spec s.map key (c.new? s key)).1 := congrArg Prod.fst hspec
        have hsnd : r = (c.op.spec s.map key (c.new? s key)).2 := congrArg Prod.snd hspec
        rw [hfst]
        apply spec_returned
        rw [← hsnd, hr]
      exact ⟨key, rfl, fun s'' hs'' => (map_of_sparing hmatches.inv hid hs'').2⟩

/-! ### A key that is taken

The second `auth_new` of a key returns an item that no lookup finds. -/

/-- Memory for all that a call asks for. -/
def fullMemory : AuthMemory := ⟨true, true, true, true, true⟩

def sampleKey : AuthKey := ⟨authToDbId, ascii "log-001", ascii "sId-1"⟩

def sampleArg : KeyArg := ⟨some sampleKey.dbId, some sampleKey.login, some sampleKey.sId⟩

/-- `auth_new` without password. -/
def newCall : StoreCall := ⟨fullMemory, ⟨0, 0⟩, .new sampleArg .none⟩

/-- The store after the first call. -/
def oneStore : AuthHeap :=
  match newCall.run .empty with
  | .ok (s, _) => s
  | .error _ => .empty

theorem newCall_first : newCall.run .empty = .ok (oneStore, some 0) := rfl

theorem oneStore_reachable : allowedStoreSystem.Reachable oneStore := by
  have hinit : allowedStoreSystem.init .empty := rfl
  refine .step (.init hinit) (e := newCall) ⟨⟨_, newCall_first⟩, ?_⟩
  intro k hk
  cases hk
  exact ⟨rfl, fun _ => rfl⟩

/-- The entry is found as long as it is spared. -/
theorem oneStore_found : ∃ key, StoreOp.key? oneStore (.findByKey sampleArg) = some key ∧
    ∀ s'', (sparingSystem oneStore key).Reachable s'' → s''.map key = some 0 :=
  ((store_refines_map oneStore_reachable).2.2 ⟨fullMemory, ⟨0, 0⟩, .findByKey sampleArg⟩ oneStore
    (some 0) trivial rfl).2.2 0 rfl trivial

/-- The second call returns an entry that no list has: another one is found. -/
theorem not_found_second : storeSystem.Reachable oneStore ∧
    ∃ s', newCall.run oneStore = .ok (s', some 1) ∧ authFindByKey s' sampleArg = some 0 ∧
      ∀ it ∈ s'.stored, it.id ≠ 1 := by
  refine ⟨.of_restrict oneStore_reachable, _, rfl, rfl, ?_⟩
  intro it hit
  obtain rfl := List.mem_singleton.mp hit
  exact zero_ne_one

/-! ## The entries of the functional model

Identities are forgotten. The contents of an entry are looked up through its identity. -/

/-- The same entries under the same keys. -/
def Represents (s : AuthHeap) (d : AuthDbs) : Prop :=
  ∀ key, (s.find key).map HeapItem.auth = (d.authFindByKey key).map AuthItem.auth

theorem Represents.same {d : AuthDbs} (h : Represents s d) (hsame : SameItems s s') :
    Represents s' d := by
  intro key
  rw [hsame.find]
  exact h key

theorem Represents.find_none {d : AuthDbs} (h : Represents s d) {key : AuthKey}
    (hfree : s.find key = none) : d.authFindByKey key = none := by
  have hkey := h key
  rw [hfree] at hkey
  exact Option.map_eq_none_iff.mp hkey.symm

/-- `auth_new` of a free key, with memory. -/
theorem authNew_represents (hs : StoreInv s) {d : AuthDbs} (hd : Represents s d) {key : KeyArg}
    {k : AuthKey} (hkey : key.key? = some k) {body : AuthBody} (hfree : s.find k = none)
    {r : Option Nat} (h : authNew fullMemory now s key body = .ok (s', r)) :
    Represents s'
      (d.authNew now k body.pwd body.ts body.active body.newPwd body.newPwdPending) := by
  have hreached : Reached fullMemory s k.dbId k.sId = true := by simp [Reached, fullMemory]
  rcases authNew_cases hkey hfree (fun _ => hreached) h with ⟨hitem, -, -⟩ | ⟨-, -, hplaced, -, -⟩
  · cases hitem
  · intro key'
    rw [hplaced.find hs, AuthDbs.authFindByKey_authNew, hd.find_none hfree]
    dsimp only
    by_cases hk : key' = k
    · rw [if_pos hk, if_pos hk]
      rfl
    · rw [if_neg hk, if_neg hk]
      exact hd key'

/-- `auth_search_by_key`, with memory. -/
theorem authSearchByKey_represents (hs : StoreInv s) {d : AuthDbs} (hd : Represents s d)
    {key : KeyArg} {k : AuthKey} (hkey : key.set? = some k) {r : Option Nat}
    (h : authSearchByKey fullMemory now s key = .ok (s', r)) :
    Represents s' (d.authSearchByKey now k) := by
  obtain ⟨hsame, hfound, -⟩ := searchLists_spec fullMemory s k.dbId k.sId
  have hset : AuthDbs.keyIsSet k = true := (Option.filter_eq_some_iff.mp hkey).2
  rw [authSearchByKey, authByKey, hkey] at h
  dsimp only at h
  rcases hsearch : searchLists fullMemory s k.dbId k.sId with ⟨s₁, found⟩
  rw [hsearch] at hsame hfound h
  dsimp only at hsame hfound
  obtain rfl : found = true := by
    rw [hfound]
    simp [Reached, fullMemory]
  dsimp only at h
  have hs₁ := hs.same hsame
  have hd₁ := hd.same hsame
  rw [AuthDbs.authSearchByKey, if_pos hset]
  cases hfind : s₁.find k with
  | none =>
    rw [hfind] at h
    have hnew := authNew_represents hs₁ hd₁ (set?_eq_some hkey) hfind h
    exact hnew
  | some it =>
    rw [hfind] at h
    cases h
    intro key'
    rw [AuthDbs.authFindByKey_authNew, hd₁ key']
    split
    · next hk =>
      have hitem := hd₁ k
      rw [hfind] at hitem
      obtain ⟨it', hit', -⟩ := Option.map_eq_some_iff.mp hitem.symm
      rw [hk, hit']
      rfl
    · rfl

/-- `auth_delete_by_key` -/
theorem authDeleteByKey_represents (hs : StoreInv s) {d : AuthDbs} (hd : Represents s d)
    {key : KeyArg} {k : AuthKey} (hkey : key.key? = some k) :
    Represents (authDeleteByKey s key) (d.authDeleteByKey k) := by
  intro key'
  rw [authDeleteByKey, hkey, AuthDbs.authFindByKey_authDeleteByKey]
  dsimp only
  cases hfind : s.find k with
  | none =>
    dsimp only
    rw [hd key']
    split
    · next hk => rw [hk, hd.find_none hfind]
    · rfl
  | some it =>
    dsimp only
    rw [find_erased hs (list_of_find hfind)]
    split
    · rfl
    · exact hd key'

end RsmpGateway.Auth.Identity
