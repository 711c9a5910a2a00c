import RsmpGateway.Auth.Persist
import RsmpGateway.Lib.System

/-!
# Saves and loads over whole runs

The store as a state machine (`storeSystem`), whose steps are the operations that the program
performs on it, and two results over its runs:

* **Round trip** (`load_save_iff`): what a load of a saved store gives back.
* **Saves** (`saves_iff`): what the file holds after each save of a run, and what a load gives
  after the last one.

Both are about saves whose commands to the shell leave the file alone. Of one that gives the shell
another command, nothing can be said but this: there are shells with which the result is wrong.
-/

namespace RsmpGateway.Auth

open RsmpGateway.Lib

/-! ## The store as a state machine

The operations are those of the program, with any keys and any passwords. -/

/-- The operations on the store, with the time, the random draws and the files they
read from outside. -/
inductive StoreOp
  | authNew (now : HoroDate) (key : AuthKey) (pwd : AuthPwd) (ts : Option HoroDate)
      (active : Bool) (newPwd : AuthPwd) (newPwdPending : Bool)
  | authSearchByKey (now : HoroDate) (key : AuthKey)
  | authDeleteByKey (key : AuthKey)
  | authDbPwdChange (now : HoroDate) (auto : AuthPwd) (key : AuthKey) (buf : Bytes)
  | authGetNewPwdB64 (rand : Nat → Nat) (key : AuthKey)
  | authSetPwdB64 (now : HoroDate) (key : AuthKey) (input : Bytes)
  | authSwitchToNewPwd (now : HoroDate) (key : AuthKey)
  | authForgetNewPwd (key : AuthKey)
  | authUnserializeFromFile (pageSize : Nat) (now : HoroDate) (draws : Nat → AuthPwd × AuthPwd)
      (checkDb : Bytes → Bool) (file : Bytes)

/-- Run an operation of `auth.c` on the entry under `key`; `none` when the process
stops. Without entry, there is nothing to call the operation on. -/
def onEntry (s : AuthDbs) (key : AuthKey) (op : AuthEntry → AuthRes AuthEntry) : Option AuthDbs :=
  match s.authFindByKey key with
  | none => some s
  | some it =>
    match op it.auth with
    | .ok auth => some (s.modifyAuth key fun _ => auth)
    | .err => some s
    | .abort => none

variable (X : PersistExt)

def applyOp (s : AuthDbs) : StoreOp → Option AuthDbs
  | .authNew now key pwd ts active newPwd pending =>
    some (s.authNew now key pwd ts active newPwd pending)
  | .authSearchByKey now key => some (s.authSearchByKey now key)
  | .authDeleteByKey key => some (s.authDeleteByKey key)
  | .authDbPwdChange now auto key buf =>
    some (s.modifyAuth key fun auth => authDbPwdChange now auto auth buf)
  | .authGetNewPwdB64 rand key =>
    onEntry s key fun auth =>
      match authGetNewPwdB64 rand auth with
      | .ok (auth, _) => .ok auth
      | .err => .err
      | .abort => .abort
  | .authSetPwdB64 now key input => onEntry s key fun auth => authSetPwdB64 now auth input
  | .authSwitchToNewPwd now key => onEntry s key (authSwitchToNewPwd now)
  | .authForgetNewPwd key => onEntry s key authForgetNewPwd
  | .authUnserializeFromFile pageSize now draws checkDb file =>
    (authUnserializeFromFile X pageSize now draws checkDb s file).map (·.2)

/-- The operation only creates entries under keys that can be written. -/
def OpValid : StoreOp → Prop
  | .authNew _ key .. => ValidKey key
  | .authSearchByKey _ key => ValidKey key
  | .authUnserializeFromFile _ _ _ _ file =>
    ∀ line ∈ strtok (· == 0x0A) (cstr file), ValidKey (lineKey X line)
  | _ => True

/-- The runs of the store, from the empty one, over identifiers and logins that are not
empty and hold neither `;` nor a newline. -/
def storeSystem : System AuthDbs StoreOp where
  init s := s = .empty
  step s op s' := OpValid X op ∧ applyOp X s op = some s'

/-! ## Keys stay valid

A key that can be written has no separator in it. The operations check what they insert. -/

/-- The keys of a store can be written. -/
structure KeysValid (s : AuthDbs) : Prop where
  valid : ∀ {key it}, s.authFindByKey key = some it → ValidKey key

theorem KeysValid.modifyAuth {s : AuthDbs} (hs : KeysValid s) (key : AuthKey)
    (f : AuthEntry → AuthEntry) : KeysValid (s.modifyAuth key f) := by
  constructor
  intro key' it hit
  rw [AuthDbs.authFindByKey_modifyAuth] at hit
  split at hit
  · next hk =>
    subst hk
    obtain ⟨it', hit', -⟩ := Option.map_eq_some_iff.mp hit
    exact hs.valid hit'
  · exact hs.valid hit

theorem KeysValid.authNew {s : AuthDbs} (hs : KeysValid s) {key : AuthKey} (hkey : ValidKey key)
    (now : HoroDate) (pwd : AuthPwd) (ts : Option HoroDate) (active : Bool) (newPwd : AuthPwd)
    (newPwdPending : Bool) :
    KeysValid (s.authNew now key pwd ts active newPwd newPwdPending) := by
  constructor
  intro key' it hit
  rw [AuthDbs.authFindByKey_authNew] at hit
  split at hit
  · next hk => exact hk ▸ hkey
  · exact hs.valid hit

theorem KeysValid.authSearchByKey {s : AuthDbs} (hs : KeysValid s) {key : AuthKey}
    (hkey : ValidKey key) (now : HoroDate) : KeysValid (s.authSearchByKey now key) := by
  unfold AuthDbs.authSearchByKey
  split
  · exact hs.authNew hkey ..
  · exact hs

theorem KeysValid.onEntry {s s' : AuthDbs} (hs : KeysValid s) {key : AuthKey}
    {op : AuthEntry → AuthRes AuthEntry} (h : onEntry s key op = some s') : KeysValid s' := by
  rw [RsmpGateway.Auth.onEntry] at h
  split at h
  · cases h; exact hs
  · split at h
    · cases h; exact hs.modifyAuth ..
    · cases h; exact hs
    · cases h

theorem KeysValid.loadLines {now : HoroDate} {draws : Nat → AuthPwd × AuthPwd}
    {checkDb : Bytes → Bool} {ls : List Bytes} (hls : ∀ l ∈ ls, ValidKey (lineKey X l)) :
    ∀ {n : Nat} {s : AuthDbs}, KeysValid s →
      KeysValid (loadLines X now draws checkDb n s ls).2 := by
  induction ls with
  | nil => intro n s hs; exact hs
  | cons l ls ih =>
    intro n s hs
    have ih := @ih fun l' hl' => hls l' (by simp [hl'])
    rw [RsmpGateway.Auth.loadLines]
    split
    · exact ih hs
    · next s' hline =>
      apply ih
      -- the only entry that the line can create is under its key
      obtain ⟨-, pwd, ts, -, rfl⟩ := unserializeLine_some hline
      exact (hs.authSearchByKey (hls l (by simp)) now).modifyAuth ..

/-- **The keys of every reachable store can be written.** -/
theorem keysValid_of_reachable {s : AuthDbs} (h : (storeSystem X).Reachable s) : KeysValid s := by
  apply h.invariant
  · rintro _ rfl
    constructor
    intro key it hit
    cases hit
  · intro s op s' hs ⟨hvalid, happly⟩
    cases op with
    | authNew now key pwd ts active newPwd pending =>
      cases happly; exact hs.authNew hvalid ..
    | authSearchByKey now key => cases happly; exact hs.authSearchByKey hvalid now
    | authDeleteByKey key =>
      cases happly
      constructor
      intro key' it hit
      rw [AuthDbs.authFindByKey_authDeleteByKey] at hit
      split at hit
      · cases hit
      · exact hs.valid hit
    | authDbPwdChange now auto key buf => cases happly; exact hs.modifyAuth ..
    | authGetNewPwdB64 rand key => rw [applyOp] at happly; exact hs.onEntry happly
    | authSetPwdB64 now key input => rw [applyOp] at happly; exact hs.onEntry happly
    | authSwitchToNewPwd now key => rw [applyOp] at happly; exact hs.onEntry happly
    | authForgetNewPwd key => rw [applyOp] at happly; exact hs.onEntry happly
    | authUnserializeFromFile pageSize now draws checkDb file =>
      obtain ⟨r, hload, rfl⟩ := Option.map_eq_some_iff.mp happly
      rw [authUnserializeFromFile] at hload
      split at hload
      · cases hload; exact hs
      · split at hload
        · cases hload
        · cases hload; exact KeysValid.loadLines X hvalid hs

/-! ## Round trip

What a line keeps of an entry is its key, its passwords and its times to the second. -/

/-- An entry as the file can hold it: the timestamp to the second. -/
def persisted (auth : AuthEntry) : AuthEntry :=
  { auth with timestamp := ⟨auth.timestamp.sec, 0⟩ }

/-- The same entries under the same keys, with the same flags and passwords and the
same timestamps to the second. -/
def SameEntries (s s' : AuthDbs) : Prop :=
  ∀ key, (s.authFindByKey key).map (persisted ·.auth) =
    (s'.authFindByKey key).map (persisted ·.auth)

/-- The entries that survive a save and a load: active, with a password of 8 bytes or
more set since 1970, and either pending on a new password of 8 bytes or more, or without
new password. -/
structure Persistable (auth : AuthEntry) : Prop where
  active : auth.active = true
  pwd : authPwdLenMin ≤ auth.pwd.length
  timestamp : 0 ≤ auth.timestamp.sec
  newPwd : if auth.newPwdPending then authPwdLenMin ≤ auth.newPwd.length else auth.newPwd = []

variable {X}

/-! ### One line

A line is written of an entry and read back into one. It is loaded as active, whatever its flag
says; a password of less than 8 bytes is not read back; and the time is cut to the second. -/

theorem columnTimestamp_authStrHorodate {ts : HoroDate} (hdate : X.DateLaw ts)
    (hsec : 0 ≤ ts.sec) :
    (columnTimestamp X (X.authStrHorodate ts)).sec = ts.sec ∧
      0 ≤ (columnTimestamp X (X.authStrHorodate ts)).nsec := by
  rw [columnTimestamp, if_pos (hdate.length hsec)]
  exact hdate.read hsec

/-- A line gives its entry back exactly when the entry is persistable. -/
theorem reload_iff {auth : AuthEntry} (hdate : X.DateLaw auth.timestamp) :
    (reload X auth).map persisted = some (persisted auth) ↔ Persistable auth := by
  unfold reload
  constructor
  · intro h
    dsimp only at h
    split at h
    · cases h
    · next hts =>
      split at h
      · cases h
      · next hpwd =>
        simp only [Option.map_some, Option.some.injEq, persisted, AuthEntry.mk.injEq,
          HoroDate.mk.injEq] at h
        obtain ⟨hactive, -, ⟨hsec, -⟩, hpending, hnew⟩ := h
        refine ⟨hactive.symm, Nat.le_of_not_lt hpwd, by omega, ?_⟩
        rw [hpending] at hnew
        cases hp : auth.newPwdPending with
        | false => simpa [hp] using hnew.symm
        | true => simpa [hp] using hpending
  · intro ⟨hactive, hpwd, hsec, hnew⟩
    obtain ⟨hread, hnsec⟩ := columnTimestamp_authStrHorodate hdate hsec
    cases hp : auth.newPwdPending with
    | false =>
      have hnil : auth.newPwd = [] := by simpa [hp] using hnew
      simp [hsec, hnsec, Nat.not_lt_of_le hpwd, persisted, hread, hactive, hp, hnil]
    | true =>
      have hlen : authPwdLenMin ≤ auth.newPwd.length := by simpa [hp] using hnew
      simp [hsec, hnsec, Nat.not_lt_of_le hpwd, persisted, hread, hactive, hp, hlen]

/-! ### A whole store

Saved to a file that is empty, so that nothing longer is left behind its end, and loaded into a
store that is empty. Where a command of the log is not harmless, a shell can be given that
empties the file. -/

variable (X) in
/-- Saved to an empty file and loaded into an empty store, the entries are the same. -/
def ComesBack (sh : Shell) (dates : Nat → Bytes) (pageSize : Nat) (now : HoroDate)
    (draws : Nat → AuthPwd × AuthPwd) (checkDb : Bytes → Bool) (s : AuthDbs) : Prop :=
  ∃ ret s', authUnserializeFromFile X pageSize now draws checkDb .empty
    (authSerializeToFile X sh dates [] s).2 = some (ret, s') ∧ SameEntries s s'

/-- A store that is not saved quietly has an entry, and a shell may lose it. -/
theorem not_comesBack_of_noisy {checkDb : Bytes → Bool} {pageSize : Nat} {now : HoroDate}
    {draws : Nat → AuthPwd × AuthPwd} {dates : Nat → Bytes} {s : AuthDbs}
    (hnoisy : ¬ Quiet X dates s) :
    ¬ ComesBack X emptyingShell dates pageSize now draws checkDb s := by
  rintro ⟨ret, s', hload, hsame⟩
  obtain ⟨ret', hempty⟩ := @authUnserializeFromFile_of_hole X checkDb pageSize
    now draws .empty _ (head?_authSerializeToFile hnoisy [])
  rw [hempty] at hload
  cases hload
  cases hes : s.entries with
  | nil =>
    apply hnoisy
    rw [Quiet, hes]
    intro command h
    cases h
  | cons e es =>
    have hkey := hsame e.1
    have hfind : s.authFindByKey e.1 = some e.2 := by
      apply AuthDbs.mem_entries.mp
      rw [hes]
      exact List.mem_cons_self
    rw [hfind, AuthDbs.authFindByKey_empty] at hkey
    cases hkey

/-- **Round trip.** For every reachable store, in databases that the reader knows, loading what was
quietly saved into an empty store gives the same entries exactly when every entry is persistable
and the file does not fill its last page. Where the save is not quiet, a shell may lose them. -/
theorem load_save_iff (hX : X.Lawful) {checkDb : Bytes → Bool} {pageSize : Nat} {now : HoroDate}
    {draws : Nat → AuthPwd × AuthPwd} {dates : Nat → Bytes} {s : AuthDbs}
    (hs : (storeSystem X).Reachable s) (hcheck : ∀ e ∈ s.entries, checkDb e.1.dbId = true)
    (hdate : ∀ e ∈ s.entries, X.DateLaw e.2.auth.timestamp) :
    (Quiet X dates s → ∀ sh : Shell, sh.Lawful →
      (ComesBack X sh dates pageSize now draws checkDb s ↔
        (∀ e ∈ s.entries, Persistable e.2.auth) ∧
          (s.entries = [] ∨ (authDbSerialize X s).length % pageSize ≠ 0))) ∧
    (¬ Quiet X dates s → ∃ sh : Shell, sh.Lawful ∧
      ¬ ComesBack X sh dates pageSize now draws checkDb s) := by
  constructor
  · intro hquiet sh hsh
    have hkeys : KeysValid s := keysValid_of_reachable X hs
    have hwritable : ∀ e ∈ s.entries, Writable X checkDb e :=
      fun e he => ⟨hkeys.valid (AuthDbs.mem_entries.mp he), hcheck e he, hdate e he⟩
    have hload := authUnserializeFromFile_authDbSerialize hX pageSize now draws hwritable
    -- the old file is empty, so that the text is all of it
    have hfile : (authSerializeToFile X sh dates [] s).2 = authDbSerialize X s := by
      rw [authSerializeToFile_of_quiet hsh hquiet, overwrite_eq_iff]
      exact Nat.zero_le _
    rw [ComesBack, hfile]
    split at hload
    · next hpage =>
      simp [hload, hpage.1, hpage.2]
    · next hpage =>
      obtain ⟨ret, s', hs', hfind⟩ := hload
      have hpage : s.entries = [] ∨ (authDbSerialize X s).length % pageSize ≠ 0 := by tauto
      -- entry by entry: an entry comes back when its line gives it back
      have hsame : SameEntries s s' ↔ ∀ e ∈ s.entries, Persistable e.2.auth := by
        constructor
        · intro h e he
          have hkey := h e.1
          rw [hfind, AuthDbs.mem_entries.mp he] at hkey
          apply (reload_iff (hdate e he)).mp
          simpa [Option.map_map, Function.comp_def] using hkey.symm
        · intro h key
          rw [hfind]
          cases hit : s.authFindByKey key with
          | none => rfl
          | some it =>
            have he : (key, it) ∈ s.entries := AuthDbs.mem_entries.mpr hit
            have := (reload_iff (hdate _ he)).mpr (h _ he)
            simpa [Option.map_map, Function.comp_def] using this.symm
      simp [hs', hsame, hpage]
  · -- with another command there is a shell that empties the file
    intro hnoisy
    exact ⟨emptyingShell, emptyingShell_lawful, not_comesBack_of_noisy hnoisy⟩

/-! ### One entry -/

/-- Outside functions for the entries of one second, 2016-03-03T13:41:03Z. -/
def oneDateExt : PersistExt where
  decodeparam := List.splitOn 0x3B
  authStrHorodate _ := ascii "2016-03-03T13:41:03Z"
  str2GmtHorodate _ := ⟨1457012463, 0⟩

theorem oneDateExt_lawful : oneDateExt.Lawful where
  decodeparam_intercalate := by
    intro fs hne hfs
    apply List.splitOn_intercalate
    · intro f hf hc
      exact ((hfs f hf).2 _ hc).1 rfl
    · exact hne

theorem oneDateExt_dateLaw : oneDateExt.DateLaw ⟨1457012463, 0⟩ where
  isField := ⟨by decide, by simp [oneDateExt, ascii]⟩
  length := fun _ => by decide
  read := fun _ => by decide

/-- The entry `log-001` of `sId-2` in the database `to`. -/
def oneKey : AuthKey := ⟨ascii "to", ascii "log-001", ascii "sId-2"⟩

/-- A store with this entry only. -/
def oneEntry (active : Bool) : AuthDbs :=
  AuthDbs.authNew ⟨1457012463, 0⟩ .empty oneKey (ascii "password") none active [] false

theorem oneEntry_reachable (active : Bool) :
    (storeSystem oneDateExt).Reachable (oneEntry active) := by
  have hkey : ValidKey oneKey :=
    ⟨⟨by decide, by simp [oneKey, ascii]⟩, ⟨by decide, by simp [oneKey, ascii]⟩,
      ⟨by decide, by simp [oneKey, ascii]⟩⟩
  have hinit : (storeSystem oneDateExt).Reachable .empty := .init rfl
  have hstep : (storeSystem oneDateExt).step .empty
      (.authNew ⟨1457012463, 0⟩ oneKey (ascii "password") none active [] false)
      (oneEntry active) := ⟨hkey, rfl⟩
  exact .step hinit hstep

theorem entries_oneEntry (active : Bool) : (oneEntry active).entries =
    [(oneKey, ⟨oneKey.login, ⟨active, ascii "password", ⟨1457012463, 0⟩, false, []⟩, .empty⟩)] :=
  rfl

/-- The date in the log, at each line. -/
def logDates : Nat → Bytes := fun _ => ascii "2016-03-03 14:41:03"

/-- The login of this entry has no quote. -/
theorem quiet_oneEntry (active : Bool) : Quiet oneDateExt logDates (oneEntry active) := by
  apply quiet_of_unquoted
  · intro no
    show (0x27 : UInt8) ∉ ascii "2016-03-03 14:41:03"
    decide
  · rw [entries_oneEntry]
    intro e he
    obtain rfl := List.mem_singleton.mp he
    cases active <;> exact ⟨by decide, by decide, by decide, by decide⟩
  · rw [Uncut, entries_oneEntry]
    intro e he
    obtain rfl := List.mem_singleton.mp he
    cases active <;> decide

/-- An active entry with a password of 8 bytes comes back. -/
theorem load_save_active : ComesBack oneDateExt emptyingShell logDates 4096 ⟨0, 0⟩
    (fun _ => ([], [])) authCheckDb (oneEntry true) := by
  have hcheck : ∀ e ∈ (oneEntry true).entries, authCheckDb e.1.dbId = true := by
    rw [entries_oneEntry]
    decide
  have hdate : ∀ e ∈ (oneEntry true).entries, oneDateExt.DateLaw e.2.auth.timestamp := by
    simpa [entries_oneEntry] using oneDateExt_dateLaw
  refine ((load_save_iff oneDateExt_lawful (oneEntry_reachable true) hcheck hdate).1
    (quiet_oneEntry true) emptyingShell emptyingShell_lawful).mpr ⟨?_, .inr ?_⟩
  · rw [entries_oneEntry]
    intro e he
    rw [List.mem_singleton.mp he]
    exact ⟨rfl, by decide, by decide, rfl⟩
  · decide

/-- An inactive entry comes back active. -/
theorem load_save_inactive :
    (storeSystem oneDateExt).Reachable (oneEntry false) ∧
      ¬ ComesBack oneDateExt emptyingShell logDates 4096 ⟨0, 0⟩ (fun _ => ([], [])) authCheckDb
        (oneEntry false) := by
  refine ⟨oneEntry_reachable false, ?_⟩
  rintro ⟨ret, s', hload, hsame⟩
  have hfile : (authSerializeToFile oneDateExt emptyingShell logDates [] (oneEntry false)).2 =
      authDbSerialize oneDateExt (oneEntry false) := by
    rw [authSerializeToFile_of_quiet emptyingShell_lawful (quiet_oneEntry false), overwrite_eq_iff]
    exact Nat.zero_le _
  rw [hfile] at hload
  have hloaded : (authUnserializeFromFile oneDateExt 4096 ⟨0, 0⟩ (fun _ => ([], [])) authCheckDb
      .empty (authDbSerialize oneDateExt (oneEntry false))).map
        (fun r => (r.2.authFindByKey oneKey).map fun it : AuthItem => it.auth.active)
      = some (some true) := by
    decide
  have hsaved : ((oneEntry false).authFindByKey oneKey).map (fun it : AuthItem => it.auth.active)
      = some false := by
    decide
  have hkey := congrArg (Option.map AuthEntry.active) (hsame oneKey)
  simp only [Option.map_map, Function.comp_def, persisted] at hkey
  rw [hload, Option.map_some, Option.some.injEq] at hloaded
  rw [hsaved, hloaded] at hkey
  cases hkey

/-! ## Saves

A save truncates the file or does not, according to what it held; the file is the text of the
store after each save. -/

/-- A save: the store, and the dates that its lines have in the log. -/
structure Save where
  store : AuthDbs
  dates : Nat → Bytes

/-- The text of the store. -/
def Save.text (X : PersistExt) (v : Save) : Bytes := authDbSerialize X v.store

/-- The commands of the save do nothing to the file. -/
def Save.Quiet (X : PersistExt) (v : Save) : Prop := RsmpGateway.Auth.Quiet X v.dates v.store

/-- What the file holds after each save of a run, one store after the other. -/
def saves (X : PersistExt) (sh : Shell) (old : Bytes) : List Save → List Bytes
  | [] => []
  | v :: vs =>
    let file := (authSerializeToFile X sh v.dates old v.store).2
    file :: saves X sh file vs

/-! ### One save after the other

A file that is opened for reading and writing keeps what is longer than the new text. Whether a
save leaves exactly its own text depends on the lengths of the two alone. -/

theorem saves_eq_overwrites {sh : Shell} (hsh : sh.Lawful) {vs : List Save}
    (hquiet : ∀ v ∈ vs, v.Quiet X) (old : Bytes) :
    saves X sh old vs = overwrites old (vs.map (Save.text X)) := by
  induction vs generalizing old with
  | nil => rfl
  | cons v vs ih =>
    have hfile := authSerializeToFile_of_quiet hsh (hquiet v (by simp)) old
    rw [saves, List.map_cons, overwrites, hfile, ih fun v hv => hquiet v (by simp [hv])]
    rfl

/-- What a load of a saved store finds comes from an entry of this store. -/
theorem find_of_load (hX : X.Lawful) {checkDb : Bytes → Bool} {pageSize : Nat} {now : HoroDate}
    {draws : Nat → AuthPwd × AuthPwd} {s : AuthDbs} (hs : ∀ e ∈ s.entries, Writable X checkDb e)
    {ret : Int} {s' : AuthDbs}
    (hload : authUnserializeFromFile X pageSize now draws checkDb .empty (authDbSerialize X s)
      = some (ret, s')) {key : AuthKey} {it' : AuthItem} (hit' : s'.authFindByKey key = some it') :
    ∃ it, s.authFindByKey key = some it ∧ it'.auth.pwd = it.auth.pwd ∧
      (it'.auth.newPwd = [] ∨ it'.auth.newPwd = it.auth.newPwd) := by
  have hspec := authUnserializeFromFile_authDbSerialize hX pageSize now draws hs
  split at hspec
  · rw [hspec] at hload; cases hload
  · obtain ⟨ret', s'', hload', hfind⟩ := hspec
    rw [hload'] at hload
    cases hload
    rw [hfind] at hit'
    obtain ⟨it, hit, hmap⟩ := Option.bind_eq_some_iff.mp hit'
    obtain ⟨auth, hreload, rfl⟩ := Option.map_eq_some_iff.mp hmap
    refine ⟨it, hit, ?_⟩
    unfold reload at hreload
    dsimp only at hreload
    split at hreload
    · cases hreload
    · split at hreload
      · cases hreload
      · cases hreload
        refine ⟨rfl, ?_⟩
        dsimp only
        split
        · exact .inr rfl
        · exact .inl rfl

/-- **Saves.** A quiet save replaces the content of the file exactly when the file was not longer.
Over a run, each save replaces the content exactly when none is shorter than what the file holds,
and then a load after the run only finds entries of the last store saved, with their passwords. A
save that is not quiet never replaces it with some shell. -/
theorem saves_iff :
    (∀ sh : Shell, sh.Lawful → ∀ old (v : Save), v.Quiet X →
      ((authSerializeToFile X sh v.dates old v.store).2 = v.text X ↔
        old.length ≤ (v.text X).length)) ∧
    (∀ sh : Shell, sh.Lawful → ∀ old (vs : List Save), (∀ v ∈ vs, v.Quiet X) →
      (saves X sh old vs = vs.map (Save.text X) ↔ NeverShorter old (vs.map (Save.text X)))) ∧
    (∀ sh : Shell, sh.Lawful → ∀ old vs v, (∀ v' ∈ vs ++ [v], v'.Quiet X) →
      NeverShorter old ((vs ++ [v]).map (Save.text X)) →
      X.Lawful → ∀ checkDb, (∀ e ∈ v.store.entries, Writable X checkDb e) →
      ∀ file ∈ (saves X sh old (vs ++ [v])).getLast?, ∀ pageSize now draws ret s',
      authUnserializeFromFile X pageSize now draws checkDb .empty file = some (ret, s') →
      ∀ key it', s'.authFindByKey key = some it' →
        ∃ it, v.store.authFindByKey key = some it ∧ it'.auth.pwd = it.auth.pwd ∧
          (it'.auth.newPwd = [] ∨ it'.auth.newPwd = it.auth.newPwd)) ∧
    (∀ v : Save, ¬ v.Quiet X → ∃ sh : Shell, sh.Lawful ∧ ∀ old,
      (authSerializeToFile X sh v.dates old v.store).2 ≠ v.text X) := by
  refine ⟨?_, ?_, ?_, ?_⟩
  · intro sh hsh old v hquiet
    rw [authSerializeToFile_of_quiet hsh hquiet]
    exact overwrite_eq_iff
  · intro sh hsh old vs hquiet
    rw [saves_eq_overwrites hsh hquiet, overwrites_eq_iff]
  · intro sh hsh old vs v hquiet hshort hX checkDb hs file hfile pageSize now draws ret s' hload
      key it' hit'
    rw [saves_eq_overwrites hsh hquiet, overwrites_eq_iff.mpr hshort, List.map_append,
      List.map_singleton, List.getLast?_concat] at hfile
    cases hfile
    exact find_of_load hX hs hload hit'
  · intro v hnoisy
    refine ⟨emptyingShell, emptyingShell_lawful, fun old hfile => ?_⟩
    have hhole := head?_authSerializeToFile hnoisy old
    have hne : v.store.entries ≠ [] := by
      intro hes
      apply hnoisy
      rw [Save.Quiet, RsmpGateway.Auth.Quiet, hes]
      intro command h
      cases h
    rw [hfile, Save.text, head?_authDbSerialize hne] at hhole
    exact absurd (hhole _ rfl) (by decide)

/-- A save of this entry. -/
def oneSave : Save := ⟨oneEntry true, logDates⟩

/-- A second save of the same store replaces the first one. -/
theorem saves_twice :
    saves oneDateExt emptyingShell [] [oneSave, oneSave] =
      [oneSave, oneSave].map (Save.text oneDateExt) := by
  have hquiet : ∀ v ∈ [oneSave, oneSave], v.Quiet oneDateExt := by
    intro v hv
    obtain rfl : v = oneSave := by simpa using hv
    exact quiet_oneEntry true
  exact (saves_iff.2.1 emptyingShell emptyingShell_lawful [] [oneSave, oneSave] hquiet).mpr
    ⟨by decide, Nat.le_refl _, trivial⟩

/-- The entry deleted before the second save is still in the file, and is loaded. -/
theorem saves_deleted :
    let s := (oneEntry true).authDeleteByKey oneKey
    let files := saves oneDateExt emptyingShell [] [oneSave, ⟨s, logDates⟩]
    files.getLast? ≠ some (authDbSerialize oneDateExt s) ∧
      ∃ file ∈ files.getLast?,
        ((authUnserializeFromFile oneDateExt 4096 ⟨0, 0⟩ (fun _ => ([], [])) authCheckDb .empty
          file).bind fun r => (r.2.authFindByKey oneKey).map fun it => it.auth.pwd)
            = some (ascii "password") ∧ s.authFindByKey oneKey = none := by
  refine ⟨by decide +kernel, authDbSerialize oneDateExt (oneEntry true), ?_, ?_, ?_⟩
  · decide +kernel
  · decide +kernel
  · decide

end RsmpGateway.Auth
