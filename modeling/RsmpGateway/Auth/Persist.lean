import RsmpGateway.Auth.SaveLog
import RsmpGateway.Lib.Overwrite

/-!
# The store on file

`auth_write` writes an entry on a line, `auth_serialize_to_file` writes all entries over the file,
and `auth_unserialize_from_file` reads the lines back into a store. Between two lines a save gives
a command of the log to the shell, which may do something to the file. What a save leaves in it is
therefore a run of writes and commands; when the commands are harmless (`Quiet`), it is the text of
the store over the old content.

* `authSerializeToFile_of_quiet` is the content of the file after a quiet save.
* `head?_authSerializeToFile` is what a shell may make of one that is not.
* `reload` is what one line written gives back, and `authFindByKey_loadLines` says that a load is
  the reload of every entry.
* `authUnserializeFromFile_authDbSerialize` is a load of what was saved.
-/

namespace RsmpGateway.Auth

open RsmpGateway.Lib RsmpGateway.Crypt

/-- The functions used from outside: `decodeparam(s, ';', &argv)`, `auth_strHorodate`
and `str2GmtHorodate`. -/
structure PersistExt where
  decodeparam : Bytes → List Bytes
  authStrHorodate : HoroDate → Bytes
  str2GmtHorodate : Bytes → HoroDate

/-- No separator of the format, and no NUL. -/
def IsField (f : Bytes) : Prop := f ≠ [] ∧ ∀ c ∈ f, c ≠ 0x3B ∧ c ≠ 0x0A ∧ c ≠ 0

/-- What is assumed of `decodeparam`: it splits on `;`. -/
structure PersistExt.Lawful (X : PersistExt) : Prop where
  decodeparam_intercalate : ∀ {fs : List Bytes}, fs ≠ [] → (∀ f ∈ fs, IsField f) →
    X.decodeparam ([0x3B].intercalate fs) = fs

/-- What is assumed of the dates: the text of `ts` can be written on a line and, from
1970 on, it has 19 characters or more and is read back to the second. -/
structure PersistExt.DateLaw (X : PersistExt) (ts : HoroDate) : Prop where
  isField : IsField (X.authStrHorodate ts)
  length : 0 ≤ ts.sec → 19 ≤ (X.authStrHorodate ts).length
  read : 0 ≤ ts.sec →
    (X.str2GmtHorodate (X.authStrHorodate ts)).sec = ts.sec ∧
      0 ≤ (X.str2GmtHorodate (X.authStrHorodate ts)).nsec

variable (X : PersistExt)

/-! ## Writing

A line has the columns of an entry, between separators. The commands of the log come between two
lines. -/

/-- The text of a password: `$0$` and BCD, or `*` for none. -/
def pwdField (pwd : AuthPwd) : Bytes :=
  if pwd = [] then ascii "*" else ascii "$0$" ++ bcdEncode pwd

/-- The nine columns of a line. -/
def authColumns (no : Nat) (key : AuthKey) (auth : AuthEntry) : List Bytes :=
  [decimal no, key.dbId, key.login, key.sId, pwdField auth.pwd, decimal auth.active.toNat,
    X.authStrHorodate auth.timestamp, pwdField (if auth.newPwdPending then auth.newPwd else []),
    decimal auth.newPwdPending.toNat]

/-- `auth_write`, without the end of the line. -/
def authWrite (no : Nat) (key : AuthKey) (auth : AuthEntry) : Bytes :=
  [0x3B].intercalate (authColumns X no key auth)

/-- The lines of `auth_db_serialize`, numbered from 1. -/
def authLines (no : Nat) : List (AuthKey × AuthItem) → List Bytes
  | [] => []
  | (key, it) :: es => authWrite X no key it.auth :: authLines (no + 1) es

/-- `auth_db_serialize` -/
def authDbSerialize (s : AuthDbs) : Bytes :=
  (authLines X 1 s.entries).flatMap (frame 0x0A)

/-! ### The log of a save

`auth_write` calls the shell for each line, while the file is open. What a command does to the
file is a parameter of the model; a command that only adds to the log does nothing to it. -/

/-- The command of `log_auth_info` for a line. -/
def logAuthInfo (date : Bytes) (no : Nat) (key : AuthKey) (auth : AuthEntry) : Bytes :=
  logCommand (logText date no key auth (X.authStrHorodate auth.timestamp))

/-- The commands of a save, one for each line. `dates` are the dates in the log. -/
def authCommands (dates : Nat → Bytes) (no : Nat) : List (AuthKey × AuthItem) → List Bytes
  | [] => []
  | (key, it) :: es => logAuthInfo X (dates no) no key it.auth :: authCommands dates (no + 1) es

/-- The calls of `auth_write`: the line, and what the command does to the file after it. -/
def authWrites (sh : Shell) (dates : Nat → Bytes) (no : Nat) :
    List (AuthKey × AuthItem) → List (Bytes × (Bytes → Bytes))
  | [] => []
  | (key, it) :: es =>
    (frame 0x0A (authWrite X no key it.auth), sh (logAuthInfo X (dates no) no key it.auth)) ::
      authWrites sh dates (no + 1) es

/-- `auth_serialize_to_file` on a file that holds `old`: it is opened with
`O_CREAT|O_WRONLY`. The value returned is that of the initialisation. -/
def authSerializeToFile (sh : Shell) (dates : Nat → Bytes) (old : Bytes) (s : AuthDbs) :
    Int × Bytes :=
  (-1, writeAll 0 old 0 (authWrites X sh dates 1 s.entries))

/-- No command of the save does anything to the file. -/
def Quiet (dates : Nat → Bytes) (s : AuthDbs) : Prop :=
  ∀ command ∈ authCommands X dates 1 s.entries, Harmless command

instance (dates : Nat → Bytes) (s : AuthDbs) : Decidable (Quiet X dates s) :=
  List.decidableBAll _ _

/-! ## Reading

A line is cut at its separators, and a column that is missing leaves what the entry has. Every
line loads an active entry. -/

/-- `isdigit(*str) && atoi(str)`: `strtol` saturates, then the value becomes an
`int`. -/
def digitsNonZero (str : Bytes) : Bool :=
  let n := str.takeWhile isDigit |>.foldl (fun n c => 10 * n + (c.toNat - 0x30)) 0
  (BitVec.ofNat 32 (min n (2 ^ 63 - 1))) ≠ 0

/-- The timestamp of a line: a text too short is 1970. -/
def columnTimestamp (str : Bytes) : HoroDate :=
  if 19 ≤ str.length then X.str2GmtHorodate str else ⟨0, 0⟩

/-- `auth_pwd_cpy` when the passwords differ: no password on the line draws one. -/
def pwdCopy (auto : AuthPwd) (dest src : AuthPwd) : AuthPwd :=
  if dest = src then dest else authPwdSet auto src

/-- The assignments of an accepted line to its entry. -/
def assignLine (auto newAuto : AuthPwd) (argv : List Bytes) (pwd : AuthPwd) (ts : HoroDate)
    (auth : AuthEntry) : AuthEntry :=
  let auth :=
    if argv.length = 9 ∧ digitsNonZero (argv.getD 8 []) then
      match authPwdDecode (argv.getD 7 []) with
      | none => auth
      | some newPwd =>
        { auth with newPwd := pwdCopy newAuto auth.newPwd newPwd, newPwdPending := true }
    else auth
  { auth with pwd := pwdCopy auto auth.pwd pwd, active := true, timestamp := ts }

/-! ### Lines

A line is accepted when the number of its columns, its database, its date and its password
are. Only then is its entry searched, and created when it is not there. -/

/-- One line of `auth_unserialize_from_file`; `none` when the line is ignored. The
column of the active flag is not read. -/
def unserializeLine (now : HoroDate) (auto newAuto : AuthPwd) (checkDb : Bytes → Bool)
    (s : AuthDbs) (line : Bytes) : Option AuthDbs :=
  let argv := X.decodeparam line
  if argv.length < 7 then none
  else if ¬ checkDb (argv.getD 1 []) then none
  else
    let ts := columnTimestamp X (argv.getD 6 [])
    if ts.sec < 0 ∨ ts.nsec < 0 then none
    else
      match authPwdDecode (argv.getD 4 []) with
      | none => none
      | some pwd =>
        let key : AuthKey := ⟨argv.getD 1 [], argv.getD 2 [], argv.getD 3 []⟩
        if AuthDbs.keyIsSet key then
          some ((s.authSearchByKey now key).modifyAuth key (assignLine auto newAuto argv pwd ts))
        else none

/-- The key of a line. -/
def lineKey (line : Bytes) : AuthKey :=
  let argv := X.decodeparam line
  ⟨argv.getD 1 [], argv.getD 2 [], argv.getD 3 []⟩

/-- The loop over the lines, with the number of lines accepted. `draws` gives the two
passwords that a line may draw. -/
def loadLines (now : HoroDate) (draws : Nat → AuthPwd × AuthPwd) (checkDb : Bytes → Bool) :
    Nat → AuthDbs → List Bytes → Int × AuthDbs
  | _, s, [] => (0, s)
  | n, s, l :: ls =>
    match unserializeLine X now (draws n).1 (draws n).2 checkDb s l with
    | none => loadLines now draws checkDb (n + 1) s ls
    | some s' =>
      let (ret, s'') := loadLines now draws checkDb (n + 1) s' ls
      (ret + 1, s'')

/-- `auth_unserialize_from_file` on a file with this content. An empty file cannot be
mapped. The text is read as a C string: when the file fills its last page and holds no
NUL, the reader leaves the mapping (`none`). -/
def authUnserializeFromFile (pageSize : Nat) (now : HoroDate) (draws : Nat → AuthPwd × AuthPwd)
    (checkDb : Bytes → Bool) (s : AuthDbs) (file : Bytes) : Option (Int × AuthDbs) :=
  if file = [] then some (-1, s)
  else if file.length % pageSize = 0 ∧ (0 : UInt8) ∉ file then none
  else some (loadLines X now draws checkDb 1 s (strtok (· == 0x0A) (cstr file)))

/-- `auth_check_db` -/
def authCheckDb (val : Bytes) : Bool := val == authFromDbId || val == authToDbId

/-! ## What a save leaves

The file is written from its start and not truncated. -/

variable {X}

theorem mem_authWrites {sh : Shell} {dates : Nat → Bytes} {no : Nat}
    {es : List (AuthKey × AuthItem)} {t : Bytes × (Bytes → Bytes)}
    (h : t ∈ authWrites X sh dates no es) :
    t.1 ≠ [] ∧ ∃ command ∈ authCommands X dates no es, t.2 = sh command := by
  induction es generalizing no with
  | nil => cases h
  | cons e es ih =>
    obtain ⟨key, it⟩ := e
    rcases List.mem_cons.mp h with rfl | h
    · exact ⟨by simp [frame], _, by simp [authCommands], rfl⟩
    · obtain ⟨hne, command, hcommand, htouch⟩ := ih h
      exact ⟨hne, command, by simp [authCommands, hcommand], htouch⟩

theorem exists_mem_authWrites {sh : Shell} {dates : Nat → Bytes} {no : Nat}
    {es : List (AuthKey × AuthItem)} {command : Bytes}
    (h : command ∈ authCommands X dates no es) :
    ∃ t ∈ authWrites X sh dates no es, t.2 = sh command := by
  induction es generalizing no with
  | nil => cases h
  | cons e es ih =>
    obtain ⟨key, it⟩ := e
    rcases List.mem_cons.mp h with rfl | h
    · refine ⟨(frame 0x0A (authWrite X no key it.auth), sh _), ?_, rfl⟩
      simp [authWrites]
    · obtain ⟨t, ht, htouch⟩ := ih h
      exact ⟨t, by simp [authWrites, ht], htouch⟩

theorem flatten_authWrites (sh : Shell) (dates : Nat → Bytes) (no : Nat)
    (es : List (AuthKey × AuthItem)) :
    ((authWrites X sh dates no es).map Prod.fst).flatten =
      (authLines X no es).flatMap (frame 0x0A) := by
  induction es generalizing no with
  | nil => rfl
  | cons e es ih =>
    rw [authWrites, authLines, List.map_cons, List.flatten_cons, ih, List.flatMap_cons]

/-- **A quiet save** writes the text of the store over the file. -/
theorem authSerializeToFile_of_quiet {sh : Shell} (hsh : sh.Lawful) {dates : Nat → Bytes}
    {s : AuthDbs} (hquiet : Quiet X dates s) (old : Bytes) :
    (authSerializeToFile X sh dates old s).2 = overwrite old (authDbSerialize X s) := by
  have htouch : ∀ t ∈ authWrites X sh dates 1 s.entries, ∀ file, t.2 file = file := by
    intro t ht file
    obtain ⟨-, command, hcommand, htouch⟩ := mem_authWrites ht
    rw [htouch]
    exact hsh command file (hquiet command hcommand)
  rw [authSerializeToFile, writeAll_eq_overwrite htouch, flatten_authWrites, authDbSerialize]

/-- The shell that empties the file makes holes of what a save that is not quiet wrote. -/
theorem head?_authSerializeToFile {dates : Nat → Bytes} {s : AuthDbs}
    (hnoisy : ¬ Quiet X dates s) (old : Bytes) :
    ∀ c ∈ (authSerializeToFile X emptyingShell dates old s).2.head?, c = 0 := by
  apply head?_writeAll_of_emptied
  · intro t ht file
    obtain ⟨-, command, -, htouch⟩ := mem_authWrites ht
    rw [htouch, emptyingShell]
    split
    · exact .inl rfl
    · exact .inr rfl
  · intro t ht
    exact (mem_authWrites ht).1
  · rw [Quiet] at hnoisy
    push Not at hnoisy
    obtain ⟨command, hcommand, hharm⟩ := hnoisy
    obtain ⟨t, ht, htouch⟩ := exists_mem_authWrites hcommand
    refine ⟨t, ht, fun file => ?_⟩
    rw [htouch, emptyingShell, if_neg hharm]

/-- The text of a store starts with its first number. -/
theorem head?_authDbSerialize {s : AuthDbs} (h : s.entries ≠ []) :
    (authDbSerialize X s).head? = some 0x31 := by
  rw [authDbSerialize]
  cases hes : s.entries with
  | nil => exact absurd hes h
  | cons e es => rfl

variable (X)

/-! ## Columns

A column that is written has no separator and no end of line, so that a line is cut where it was
put together. -/

/-- Keys whose parts can be written on a line. -/
structure ValidKey (key : AuthKey) : Prop where
  dbId : IsField key.dbId
  login : IsField key.login
  sId : IsField key.sId

theorem ValidKey.keyIsSet {key : AuthKey} (h : ValidKey key) : AuthDbs.keyIsSet key = true := by
  simp [AuthDbs.keyIsSet, h.dbId.1, h.login.1, h.sId.1]

theorem isField_of_isXDigit {f : Bytes} (hne : f ≠ []) (h : ∀ c ∈ f, isXDigit c = true) :
    IsField f := by
  refine ⟨hne, fun c hc => ?_⟩
  have hx := h c hc
  refine ⟨?_, ?_, ?_⟩ <;> rintro rfl <;> exact absurd hx (by decide)

theorem isField_decimal (n : Nat) : IsField (decimal n) := by
  refine isField_of_isXDigit (decimal_ne_nil n) fun c hc => ?_
  simp [isXDigit, isDigit_of_mem_decimal hc]

theorem isField_pwdField (pwd : AuthPwd) : IsField (pwdField pwd) := by
  rw [pwdField]
  split
  · exact ⟨by decide, by simp [ascii]⟩
  · refine ⟨by simp [ascii], fun c hc => ?_⟩
    have hprefix : ∀ c ∈ ascii "$0$", c ≠ 0x3B ∧ c ≠ 0x0A ∧ c ≠ 0 := by simp [ascii]
    rcases List.mem_append.mp hc with hc | hc
    · exact hprefix c hc
    · have hx := isXDigit_of_mem_bcdEncode hc
      refine ⟨?_, ?_, ?_⟩ <;> rintro rfl <;> exact absurd hx (by decide)

variable {X}

theorem isField_authColumns {key : AuthKey} (hkey : ValidKey key) (no : Nat) {auth : AuthEntry}
    (hdate : X.DateLaw auth.timestamp) : ∀ f ∈ authColumns X no key auth, IsField f := by
  intro f hf
  simp only [authColumns, List.mem_cons, List.not_mem_nil, or_false] at hf
  rcases hf with rfl | rfl | rfl | rfl | rfl | rfl | rfl | rfl | rfl
  · exact isField_decimal _
  · exact hkey.dbId
  · exact hkey.login
  · exact hkey.sId
  · exact isField_pwdField _
  · exact isField_decimal _
  · exact hdate.isField
  · exact isField_pwdField _
  · exact isField_decimal _

/-- The columns of a line are found again. -/
theorem decodeparam_authWrite (hX : X.Lawful) {key : AuthKey} (hkey : ValidKey key) (no : Nat)
    {auth : AuthEntry} (hdate : X.DateLaw auth.timestamp) :
    X.decodeparam (authWrite X no key auth) = authColumns X no key auth :=
  hX.decodeparam_intercalate (by simp [authColumns]) (isField_authColumns hkey no hdate)

theorem mem_intercalate {sep c : UInt8} {fs : List Bytes} (h : c ∈ [sep].intercalate fs) :
    c = sep ∨ ∃ f ∈ fs, c ∈ f := by
  induction fs with
  | nil => simp at h
  | cons f fs ih =>
    cases fs with
    | nil => exact .inr ⟨f, by simp, by simpa using h⟩
    | cons g gs =>
      rw [List.intercalate_cons_cons] at h
      simp only [List.append_assoc, List.mem_append, List.mem_singleton] at h
      rcases h with h | h | h
      · exact .inr ⟨f, by simp, h⟩
      · exact .inl h
      · rcases ih h with h | ⟨f', hf', hc⟩
        · exact .inl h
        · exact .inr ⟨f', by simp [hf'], hc⟩

/-! ## Quiet saves

The commands are harmless when no column has a quote and none of them is cut. -/

/-- Nothing of what the log says of an entry holds a quote. -/
structure Unquoted (X : PersistExt) (e : AuthKey × AuthItem) : Prop where
  dbId : (0x27 : UInt8) ∉ e.1.dbId
  login : (0x27 : UInt8) ∉ e.1.login
  sId : (0x27 : UInt8) ∉ e.1.sId
  date : (0x27 : UInt8) ∉ X.authStrHorodate e.2.auth.timestamp

theorem quote_not_mem_decimal (n : Nat) : (0x27 : UInt8) ∉ decimal n := by
  intro h
  exact absurd (isDigit_of_mem_decimal h) (by decide)

theorem quote_not_mem_logPwd (pwd : AuthPwd) : (0x27 : UInt8) ∉ logPwd pwd := by
  rw [logPwd]
  split
  · decide
  · intro h
    exact absurd (isXDigit_of_mem_bcdEncode h) (by decide)

theorem quote_not_mem_logText {date : Bytes} (hdate : (0x27 : UInt8) ∉ date) (no : Nat)
    {e : AuthKey × AuthItem} (he : Unquoted X e) :
    (0x27 : UInt8) ∉ logText date no e.1 e.2.auth (X.authStrHorodate e.2.auth.timestamp) := by
  intro h
  simp only [logText, List.mem_append] at h
  rcases h with ((h | h) | h) | h
  · exact absurd h (by decide)
  · exact hdate h
  · exact absurd h (by decide)
  · rcases mem_intercalate h with h | ⟨f, hf, h⟩
    · exact absurd h (by decide)
    · simp only [List.mem_cons, List.not_mem_nil, or_false] at hf
      rcases hf with rfl | rfl | rfl | rfl | rfl | rfl | rfl | rfl | rfl
      · exact quote_not_mem_decimal _ h
      · exact he.dbId h
      · exact he.login h
      · exact he.sId h
      · rcases List.mem_append.mp h with h | h
        · exact absurd h (by decide)
        · exact quote_not_mem_logPwd _ h
      · exact quote_not_mem_decimal _ h
      · exact he.date h
      · exact quote_not_mem_logPwd _ h
      · exact quote_not_mem_decimal _ h

variable (X) in
/-- The texts of the log, of which none has the length that the cut leaves at `>> auth.db`. -/
def Uncut (dates : Nat → Bytes) (s : AuthDbs) : Prop :=
  ∀ e ∈ s.entries.zipIdx 1, (logText (dates e.2) e.2 e.1.1 e.1.2.auth
    (X.authStrHorodate e.1.2.auth.timestamp)).length ≠ 1005

instance (dates : Nat → Bytes) (s : AuthDbs) : Decidable (Uncut X dates s) :=
  List.decidableBAll _ _

/-- Without a quote in an identifier or a login, and without that cut, a save is quiet. -/
theorem quiet_of_unquoted {dates : Nat → Bytes} {s : AuthDbs}
    (hdates : ∀ no, (0x27 : UInt8) ∉ dates no) (hs : ∀ e ∈ s.entries, Unquoted X e)
    (hcut : Uncut X dates s) : Quiet X dates s := by
  have hes : ∀ {es : List (AuthKey × AuthItem)} {no : Nat}, (∀ e ∈ es, Unquoted X e) →
      (∀ e ∈ es.zipIdx no, (logText (dates e.2) e.2 e.1.1 e.1.2.auth
        (X.authStrHorodate e.1.2.auth.timestamp)).length ≠ 1005) →
      ∀ command ∈ authCommands X dates no es, Harmless command := by
    intro es
    induction es with
    | nil =>
      intro no _ _ command h
      cases h
    | cons e es ih =>
      intro no hs hcut command h
      rw [List.zipIdx_cons] at hcut
      rcases List.mem_cons.mp h with rfl | h
      · exact harmless_logCommand (quote_not_mem_logText (hdates no) no (hs e (by simp)))
          (hcut (e, no) (by simp))
      · exact ih (fun e he => hs e (by simp [he])) (fun e he => hcut e (by simp [he])) command h
  exact hes hs hcut

/-- A line holds neither the end of the line nor a NUL. -/
theorem authWrite_plain {key : AuthKey} (hkey : ValidKey key) (no : Nat) {auth : AuthEntry}
    (hdate : X.DateLaw auth.timestamp) :
    authWrite X no key auth ≠ [] ∧ ∀ c ∈ authWrite X no key auth, c ≠ 0x0A ∧ c ≠ 0 := by
  constructor
  · intro h
    have hlen := congrArg List.length h
    simp [authWrite, authColumns, List.intercalate, List.intersperse] at hlen
  · intro c hc
    rcases mem_intercalate hc with rfl | ⟨f, hf, hc⟩
    · decide
    · exact ((isField_authColumns hkey no hdate f hf).2 c hc).2

/-! ## What one line gives back

The passwords and the times are read from their texts, and the rest is what the source writes. -/

variable (X) in
/-- The entry that a line written for `auth` gives when it is read: none when the line
is ignored. -/
def reload (auth : AuthEntry) : Option AuthEntry :=
  let ts := columnTimestamp X (X.authStrHorodate auth.timestamp)
  if ts.sec < 0 ∨ ts.nsec < 0 then none
  else if auth.pwd.length < authPwdLenMin then none
  else
    let pending := auth.newPwdPending && authPwdLenMin ≤ auth.newPwd.length
    some {
      active := true
      pwd := auth.pwd
      timestamp := ts
      newPwdPending := pending
      newPwd := if pending then auth.newPwd else [] }

theorem digitsNonZero_decimal_toNat (b : Bool) : digitsNonZero (decimal b.toNat) = b := by
  cases b <;> decide

/-! ### The columns of an entry

A password is read back when it has the least length, and the missing one stays missing. The line
is then assigned to the entry that was created for it. -/

theorem authPwdDecode_pwdField (pwd : AuthPwd) :
    authPwdDecode (pwdField pwd) = if authPwdLenMin ≤ pwd.length then some pwd else none := by
  by_cases h : pwd = []
  · subst h; decide
  · rw [pwdField, if_neg h, authPwdDecode_hex h]

theorem pwdCopy_of_ne_nil {src : AuthPwd} (h : src ≠ []) (auto dest : AuthPwd) :
    pwdCopy auto dest src = src := by
  rw [pwdCopy]
  split
  · next hd => exact hd
  · rw [authPwdSet, if_neg h]

theorem ne_nil_of_authPwdLenMin_le {pwd : AuthPwd} (h : authPwdLenMin ≤ pwd.length) :
    pwd ≠ [] := by
  rintro rfl
  exact absurd h (by decide)

/-- What an accepted line assigns to the entry created for it. -/
theorem assignLine_authColumns (now : HoroDate) (auto newAuto : AuthPwd) (no : Nat)
    (key : AuthKey) (auth : AuthEntry) (hpwd : authPwdLenMin ≤ auth.pwd.length) (ts : HoroDate) :
    assignLine auto newAuto (authColumns X no key auth) auth.pwd ts
        (AuthDbs.authNewBody now [] none false [] false) =
      { active := true
        pwd := auth.pwd
        timestamp := ts
        newPwdPending := auth.newPwdPending && authPwdLenMin ≤ auth.newPwd.length
        newPwd := if auth.newPwdPending && authPwdLenMin ≤ auth.newPwd.length then auth.newPwd
          else [] } := by
  simp only [assignLine, authColumns, List.length_cons, List.length_nil, List.getD_cons_succ,
    List.getD_cons_zero, digitsNonZero_decimal_toNat, authPwdDecode_pwdField,
    pwdCopy_of_ne_nil (ne_nil_of_authPwdLenMin_le hpwd)]
  cases auth.newPwdPending with
  | false => simp [AuthDbs.authNewBody]
  | true =>
    by_cases hnew : authPwdLenMin ≤ auth.newPwd.length
    · simp [hnew, pwdCopy_of_ne_nil (ne_nil_of_authPwdLenMin_le hnew)]
    · simp [hnew, AuthDbs.authNewBody]

/-- What an accepted line does: the entry under its key, created when missing, takes the
columns of the line. -/
theorem unserializeLine_some {now : HoroDate} {auto newAuto : AuthPwd} {checkDb : Bytes → Bool}
    {s s' : AuthDbs} {line : Bytes}
    (h : unserializeLine X now auto newAuto checkDb s line = some s') :
    AuthDbs.keyIsSet (lineKey X line) = true ∧
      ∃ pwd ts, authPwdDecode ((X.decodeparam line).getD 4 []) = some pwd ∧
        s' = (s.authSearchByKey now (lineKey X line)).modifyAuth (lineKey X line)
          (assignLine auto newAuto (X.decodeparam line) pwd ts) := by
  rw [unserializeLine] at h
  split at h
  · cases h
  · split at h
    · cases h
    · dsimp only at h
      split at h
      · cases h
      · split at h
        · cases h
        · next pwd hpwd =>
          split at h
          · next hkey =>
            cases h
            exact ⟨hkey, pwd, _, hpwd, rfl⟩
          · cases h

@[simp] theorem pwd_assignLine (auto newAuto : AuthPwd) (argv : List Bytes) (pwd : AuthPwd)
    (ts : HoroDate) (auth : AuthEntry) :
    (assignLine auto newAuto argv pwd ts auth).pwd = pwdCopy auto auth.pwd pwd := by
  unfold assignLine
  dsimp only
  split
  · split <;> rfl
  · rfl

/-- A line written for a valid key, read into a store without that key. -/
theorem unserializeLine_authWrite (hX : X.Lawful) {key : AuthKey} (hkey : ValidKey key)
    {checkDb : Bytes → Bool} (hcheck : checkDb key.dbId = true) {s : AuthDbs}
    (hnew : s.authFindByKey key = none) (now : HoroDate) (auto newAuto : AuthPwd) (no : Nat)
    {auth : AuthEntry} (hdate : X.DateLaw auth.timestamp) :
    match reload X auth with
    | none => unserializeLine X now auto newAuto checkDb s (authWrite X no key auth) = none
    | some auth' =>
      ∃ s', unserializeLine X now auto newAuto checkDb s (authWrite X no key auth) = some s' ∧
        ∀ key', s'.authFindByKey key' =
          if key' = key then some ⟨key.login, auth', .empty⟩ else s.authFindByKey key' := by
  have hcol : ∀ i, (authColumns X no key auth).getD i [] =
      [decimal no, key.dbId, key.login, key.sId, pwdField auth.pwd, decimal auth.active.toNat,
        X.authStrHorodate auth.timestamp,
        pwdField (if auth.newPwdPending then auth.newPwd else []),
        decimal auth.newPwdPending.toNat].getD i [] := fun _ => rfl
  have hlen : ¬ (authColumns X no key auth).length < 7 := by simp [authColumns]
  rw [unserializeLine, decodeparam_authWrite hX hkey no hdate]
  simp only [hcol, List.getD_cons_succ, List.getD_cons_zero, hcheck, hlen, if_false, not_true,
    authPwdDecode_pwdField, hkey.keyIsSet, if_true, reload]
  by_cases hts : (columnTimestamp X (X.authStrHorodate auth.timestamp)).sec < 0 ∨
      (columnTimestamp X (X.authStrHorodate auth.timestamp)).nsec < 0
  · simp [hts]
  · by_cases hpwd : authPwdLenMin ≤ auth.pwd.length
    · simp only [hts, if_false, hpwd, if_true, Nat.not_lt_of_le hpwd]
      refine ⟨_, rfl, fun key' => ?_⟩
      rw [AuthDbs.authFindByKey_modifyAuth]
      simp only [AuthDbs.authFindByKey_authSearchByKey now s hkey.keyIsSet, hnew, if_true,
        Option.getD_none, Option.map_some, assignLine_authColumns now auto newAuto no key auth hpwd]
      by_cases hk : key' = key
      · simp [hk]
      · simp [hk]
    · simp [hts, hpwd, Nat.lt_of_not_le hpwd]

/-! ## What a load gives back

By induction on the lines: each of them changes one entry. -/

/-- An entry whose key and date can be written, in a database that the reader knows. -/
structure Writable (X : PersistExt) (checkDb : Bytes → Bool) (e : AuthKey × AuthItem) : Prop where
  valid : ValidKey e.1
  check : checkDb e.1.dbId = true
  date : X.DateLaw e.2.auth.timestamp

/-- **Loading the lines of a store.** Each entry is reloaded on its own; the keys that
are not on the lines keep their entries. -/
theorem authFindByKey_loadLines (hX : X.Lawful) {checkDb : Bytes → Bool} (now : HoroDate)
    (draws : Nat → AuthPwd × AuthPwd) {es : List (AuthKey × AuthItem)}
    (hkeys : ∀ e ∈ es, Writable X checkDb e) (hnodup : (es.map (·.1)).Nodup) :
    ∀ {no n : Nat} {s : AuthDbs}, (∀ e ∈ es, s.authFindByKey e.1 = none) → ∀ key,
      (loadLines X now draws checkDb n s (authLines X no es)).2.authFindByKey key =
        match es.find? fun e => e.1 = key with
        | none => s.authFindByKey key
        | some e => (reload X e.2.auth).map fun auth => ⟨key.login, auth, .empty⟩ := by
  induction es with
  | nil => intros; rfl
  | cons e es ih =>
    obtain ⟨ekey, it⟩ := e
    intro no n s hnone key
    rw [List.map_cons, List.nodup_cons] at hnodup
    obtain ⟨hvalid, hcheck, hdate⟩ := hkeys (ekey, it) (by simp)
    have hes : ∀ e ∈ es, Writable X checkDb e :=
      fun e he => hkeys e (by simp [he])
    have hline := unserializeLine_authWrite hX hvalid hcheck (hnone (ekey, it) (by simp)) now
      (draws n).1 (draws n).2 no hdate
    -- no later line has the key of this one
    have hother : ∀ e ∈ es, e.1 ≠ ekey := by
      rintro e he rfl
      exact hnodup.1 (List.mem_map.mpr ⟨e, he, rfl⟩)
    rw [authLines, loadLines]
    -- a line that does not come back adds nothing
    cases hreload : reload X it.auth with
    | none =>
      rw [hreload] at hline
      rw [hline]
      rw [ih hes hnodup.2 (fun e he => hnone e (by simp [he]))]
      by_cases hk : ekey = key
      · subst hk
        have : es.find? (fun e => decide (e.1 = ekey)) = none := by simpa using hother
        simp [this, hreload, hnone (ekey, it) (by simp)]
      · simp [hk]
    | some auth =>
      rw [hreload] at hline
      obtain ⟨s', hs', hfind⟩ := hline
      simp only [hs']
      rw [ih hes hnodup.2]
      · by_cases hk : ekey = key
        · subst hk
          have : es.find? (fun e => decide (e.1 = ekey)) = none := by simpa using hother
          simp [this, hreload, hfind]
        · simp [hk, hfind, Ne.symm hk]
      · intro e he
        rw [hfind, if_neg (hother e he)]
        exact hnone e (by simp [he])

/-! ### The file as a whole

The lines are the tokens of the mapped file, up to its first zero byte. A file that fills its
last page has none after its text. -/

/-- The lines written are the tokens of the file. -/
theorem strtok_authDbSerialize {checkDb : Bytes → Bool} {s : AuthDbs}
    (hs : ∀ e ∈ s.entries, Writable X checkDb e) :
    (0 : UInt8) ∉ authDbSerialize X s ∧
      strtok (· == 0x0A) (authDbSerialize X s) = authLines X 1 s.entries := by
  have hlines : ∀ {es : List (AuthKey × AuthItem)} {no : Nat}, (∀ e ∈ es, Writable X checkDb e) →
      ∀ l ∈ authLines X no es, l ≠ [] ∧ ∀ c ∈ l, c ≠ 0x0A ∧ c ≠ 0 := by
    intro es
    induction es with
    | nil => intro no _ l hl; simp [authLines] at hl
    | cons e es ih =>
      intro no hes l hl
      obtain ⟨hvalid, -, hdate⟩ := hes e (by simp)
      rw [authLines] at hl
      rcases List.mem_cons.mp hl with rfl | hl
      · exact authWrite_plain hvalid no hdate
      · exact ih (fun e he => hes e (by simp [he])) l hl
  constructor
  · intro h
    obtain ⟨l, hl, hc⟩ := List.mem_flatMap.mp h
    rw [frame] at hc
    rcases List.mem_append.mp hc with hc | hc
    · exact ((hlines hs l hl).2 0 hc).2 rfl
    · simp at hc
  · refine strtok_frames (by decide) fun l hl => ⟨(hlines hs l hl).1, fun c hc => ?_⟩
    simpa using ((hlines hs l hl).2 c hc).1

theorem authDbSerialize_eq_nil {s : AuthDbs} : authDbSerialize X s = [] ↔ s.entries = [] := by
  rw [authDbSerialize]
  cases s.entries with
  | nil => simp [authLines]
  | cons e es => simp [authLines, frame]

/-- Of a file that starts with a hole, or of an empty one, nothing is loaded. -/
theorem authUnserializeFromFile_of_hole {checkDb : Bytes → Bool} (pageSize : Nat) (now : HoroDate)
    (draws : Nat → AuthPwd × AuthPwd) (s : AuthDbs) {file : Bytes}
    (h : ∀ c ∈ file.head?, c = 0) :
    ∃ ret, authUnserializeFromFile X pageSize now draws checkDb s file = some (ret, s) := by
  rw [authUnserializeFromFile]
  cases file with
  | nil => exact ⟨-1, rfl⟩
  | cons c file =>
    obtain rfl : c = 0 := h c rfl
    refine ⟨0, ?_⟩
    rw [if_neg (List.cons_ne_nil _ _), if_neg (by simp)]
    rfl

/-- **A load of what was saved.** Unless the file fills its last page, the store loaded
holds the reload of every entry, and nothing else. -/
theorem authUnserializeFromFile_authDbSerialize (hX : X.Lawful) {checkDb : Bytes → Bool}
    (pageSize : Nat) (now : HoroDate) (draws : Nat → AuthPwd × AuthPwd) {s : AuthDbs}
    (hs : ∀ e ∈ s.entries, Writable X checkDb e) :
    if s.entries ≠ [] ∧ (authDbSerialize X s).length % pageSize = 0 then
      authUnserializeFromFile X pageSize now draws checkDb .empty (authDbSerialize X s) = none
    else
      ∃ ret s', authUnserializeFromFile X pageSize now draws checkDb .empty (authDbSerialize X s)
          = some (ret, s') ∧
        ∀ key, s'.authFindByKey key = (s.authFindByKey key).bind fun it =>
          (reload X it.auth).map fun auth => ⟨key.login, auth, .empty⟩ := by
  obtain ⟨hnul, hlines⟩ := strtok_authDbSerialize hs
  rw [authUnserializeFromFile]
  by_cases hnil : s.entries = []
  · have hfind : ∀ key, s.authFindByKey key = none := by
      intro key
      have := AuthDbs.find?_entries s key
      rw [hnil] at this
      simpa using this.symm
    rw [if_neg (by simp [hnil]), if_pos (authDbSerialize_eq_nil.mpr hnil)]
    exact ⟨_, _, rfl, fun key => by simp [hfind key]⟩
  · rw [if_neg (mt authDbSerialize_eq_nil.mp hnil)]
    by_cases hpage : (authDbSerialize X s).length % pageSize = 0
    · rw [if_pos ⟨hnil, hpage⟩, if_pos ⟨hpage, hnul⟩]
    · rw [if_neg (by simp [hpage]), if_neg (by simp [hpage]), cstr_eq_self hnul, hlines]
      refine ⟨_, _, rfl, fun key => ?_⟩
      rw [authFindByKey_loadLines hX now draws hs (AuthDbs.nodup_keys_entries s)
        (fun _ _ => AuthDbs.authFindByKey_empty _), AuthDbs.find?_entries]
      cases s.authFindByKey key <;> simp

end RsmpGateway.Auth
