import RsmpGateway.Gateway.Versions

/-!
# The login of a message

`_send` with and without a login. Without one it takes the last login of the remote site, or its
successor, which is the first one, when the last one is in a challenge; the successor must have
no new password pending. With one it asks that there is such a login, and then looks at the new
password of the last one (`cyberSendTo_iff`).

What a caller expects is a definition of its own (`ChoosesFree`, `TakesFree`): once both sides
have nothing left to renew, a message goes with a login that is in no challenge, and is refused
when there is none. The two tests of the source are close to this, and the conditions say where
they differ from it.
-/

namespace RsmpGateway.Gateway

open RsmpGateway.Lib RsmpGateway.Auth RsmpGateway.Coder RsmpGateway.Rsmp

/-! ## Sending

Two tests of `_send`: that the login exists, and that of `_send_optional_encryption`, which looks
at the last login of the remote whichever is asked for. -/

/-- `isAuthToAvailableForLogin` -/
def isAuthToAvailableForLogin (S : SendState) (login : Bytes) : Bool :=
  match S.sIdRemote with
  | none => false
  | some sId => (S.dbs.authFindByKey ⟨authToDbId, login, sId⟩).isSome

/-- The login that is sent with the payload, where one was asked for: `auth_get_first` does not
look at the login of its key. -/
def checkLogin (S : SendState) (login : Bytes) : Option Bytes :=
  match S.dbs.authGetFirst (some authToDbId) S.sIdRemote with
  | none => none
  | some (_, it) => if it.auth.newPwdPending then none else some login

/-- `_send`: the login that goes in the queue with the payload, unless it fails. -/
def cyberSendTo (S : SendState) (login : Option Bytes) : Option Bytes :=
  if !S.allClearRxed || !S.allClearSent ||
      login.any fun login => !isAuthToAvailableForLogin S login then none
  else
    match login.elim (chooseLogin S) (checkLogin S) with
    | none => none
    | some login => if S.memory then some login else none

/-! ## Logins

What a caller expects: a payload goes with a login that is in no challenge, and with no other. -/

namespace SendState

/-- `AllClear` was received and sent. -/
def AllClear (S : SendState) : Prop := S.allClearRxed = true ∧ S.allClearSent = true

/-- The logins with which the remote site is reached, in order. -/
def logins (S : SendState) : List AuthItem :=
  (S.sIdRemote.map (S.dbs.logins authToDbId)).getD []

/-- The login is that of a challenge that runs, or is to be sent. -/
def InChallenge (S : SendState) (login : Bytes) : Prop :=
  (∃ sId, S.sIdRemote = some sId ∧ S.challengeAuth = some ⟨authToDbId, login, sId⟩) ∧
    (S.challengeRunning = true ∨ S.challengeToSend = true)

/-- A login of the remote site that is in no challenge. -/
def Free (S : SendState) (login : Bytes) : Prop :=
  login ∈ S.logins.map AuthItem.login ∧ ¬ S.InChallenge login

/-- A payload goes with a free login, when there is one, and only then. -/
structure ChoosesFree (S : SendState) : Prop where
  succeeds : (cyberSendTo S none).isSome = true ↔ S.AllClear ∧ ∃ login, S.Free login
  uses : ∀ login, cyberSendTo S none = some login → S.Free login

/-- A payload goes with the login that it is given, when it is free, and only then. -/
def TakesFree (S : SendState) (login : Bytes) : Prop :=
  cyberSendTo S (some login) = some login ↔ S.AllClear ∧ S.Free login

/-- Where the last login is in a challenge, the first one has no new password pending. -/
def SuccessorReady (S : SendState) : Prop :=
  ∀ last first, S.logins.getLast? = some last → S.logins.head? = some first →
    S.InChallenge last.login → first.auth.newPwdPending = false

/-- The last login has a new password pending. -/
def LastPending (S : SendState) : Prop :=
  ∃ last, S.logins.getLast? = some last ∧ last.auth.newPwdPending = true

/-! ## The first and its successor

`auth_get_first` gives the last login of the list, and its successor is the first one. -/

variable {S : SendState} {sId : Bytes}

theorem logins_eq (hsId : S.sIdRemote = some sId) :
    S.logins = S.dbs.logins authToDbId sId := by
  rw [logins, hsId]
  rfl

theorem logins_nodup (S : SendState) : (S.logins.map AuthItem.login).Nodup := by
  cases hsId : S.sIdRemote with
  | none => rw [logins, hsId]; exact List.nodup_nil
  | some sId =>
    rw [logins_eq hsId, AuthDbs.logins]
    cases S.dbs.sIds? authToDbId sId with
    | none => exact List.nodup_nil
    | some si => exact si.logins.nodup

theorem inChallenge_iff (hsId : S.sIdRemote = some sId) (login : Bytes) :
    S.InChallenge login ↔ S.challengeAuth = some ⟨authToDbId, login, sId⟩ ∧
      (S.challengeRunning = true ∨ S.challengeToSend = true) := by
  simp [InChallenge, hsId]

/-- Only one login is in a challenge. -/
theorem InChallenge.unique {login login' : Bytes} (h : S.InChallenge login)
    (h' : S.InChallenge login') : login = login' := by
  obtain ⟨⟨sId, hsId, hauth⟩, -⟩ := h
  obtain ⟨⟨sId', hsId', hauth'⟩, -⟩ := h'
  obtain rfl : sId = sId' := Option.some.inj (hsId.symm.trans hsId')
  have hkey := Option.some.inj (hauth.symm.trans hauth')
  exact (AuthKey.mk.inj hkey).2.1

/-- The other logins are not the last one. -/
theorem login_ne_last {init : List AuthItem} {last : AuthItem}
    (hlogins : S.logins = init ++ [last]) : ∀ it ∈ init, it.login ≠ last.login := by
  have hnodup := S.logins_nodup
  rw [hlogins, List.map_append, List.nodup_append] at hnodup
  intro it hit
  exact hnodup.2.2 _ (List.mem_map_of_mem hit) _ (by simp)

/-- The successor of the last login is the first one, unless it is alone. -/
theorem authGetNextFromAuth_last (hsId : S.sIdRemote = some sId) {init : List AuthItem}
    {last : AuthItem} (hlogins : S.logins = init ++ [last]) :
    S.dbs.authGetNextFromAuth ⟨authToDbId, last.login, sId⟩ =
      if init = [] then none else S.logins.head? := by
  have hinit := login_ne_last hlogins
  -- only the last one is left after those before it
  have hdrop : (init ++ [last]).dropWhile (fun it => it.login ≠ last.login) = [last] := by
    rw [List.dropWhile_append_of_pos (by simpa using hinit)]
    simp
  rw [AuthDbs.authGetNextFromAuth, ← logins_eq hsId, hlogins]
  dsimp only
  rw [hdrop]
  dsimp only
  cases init <;> simp

theorem authGetFirst_last (hsId : S.sIdRemote = some sId) {init : List AuthItem}
    {last : AuthItem} (hlogins : S.logins = init ++ [last]) :
    S.dbs.authGetFirst (some authToDbId) S.sIdRemote =
      some (⟨authToDbId, last.login, sId⟩, last) := by
  rw [hsId, AuthDbs.authGetFirst_eq, ← logins_eq hsId, hlogins]
  simp

theorem authGetFirst_nil (hsId : S.sIdRemote = some sId) (hlogins : S.logins = []) :
    S.dbs.authGetFirst (some authToDbId) S.sIdRemote = none := by
  rw [hsId, AuthDbs.authGetFirst_eq, ← logins_eq hsId, hlogins]
  rfl

/-- What is chosen: the last login, unless it is in a challenge; then the first one, unless it is
the last one too, or has a new password pending. -/
theorem chooseLogin_last (hsId : S.sIdRemote = some sId) {init : List AuthItem}
    {last : AuthItem} (hlogins : S.logins = init ++ [last]) :
    (¬ S.InChallenge last.login → chooseLogin S = some last.login) ∧
      (S.InChallenge last.login → chooseLogin S = init.head?.bind fun first =>
        if first.auth.newPwdPending then none else some first.login) := by
  have hchoice : S.challengeAuth ≠ some ⟨authToDbId, last.login, sId⟩ ∨
      (S.challengeRunning = false ∧ S.challengeToSend = false) ↔ ¬ S.InChallenge last.login := by
    rw [inChallenge_iff hsId, not_and_or, not_or, Bool.not_eq_true, Bool.not_eq_true]
  have hfirst := authGetFirst_last hsId hlogins
  constructor
  · intro h
    rw [chooseLogin, hfirst]
    exact if_pos (hchoice.mpr h)
  · intro h
    rw [chooseLogin, hfirst]
    dsimp only
    rw [if_neg (mt hchoice.mp (not_not.mpr h)), authGetNextFromAuth_last hsId hlogins, hlogins]
    cases init with
    | nil => rfl
    | cons first rest => rfl

/-! ## The choice

The login is chosen, and may be refused for its successor. -/

/-- Some login is free: the last one, or the last one is in a challenge and there is another. -/
theorem exists_free_iff {init : List AuthItem} {last : AuthItem}
    (hlogins : S.logins = init ++ [last]) :
    (∃ login, S.Free login) ↔ ¬ S.InChallenge last.login ∨ init ≠ [] := by
  constructor
  · rintro ⟨login, hmem, hfree⟩
    by_contra h
    obtain ⟨hlast, hinit⟩ := not_or.mp h
    rw [not_not] at hlast hinit
    rw [hlogins, hinit] at hmem
    obtain rfl : login = last.login := by simpa using hmem
    exact hfree hlast
  · rintro (h | h)
    · exact ⟨last.login, by simp [hlogins], h⟩
    · by_cases hlast : S.InChallenge last.login
      · -- only one login is in a challenge
        obtain ⟨first, rest, rfl⟩ := List.exists_cons_of_ne_nil h
        refine ⟨first.login, by simp [hlogins], fun hfirst => ?_⟩
        exact login_ne_last hlogins first (by simp) (hfirst.unique hlast)
      · exact ⟨last.login, by simp [hlogins], hlast⟩

/-- What is chosen is free. -/
theorem free_of_chooseLogin (hsId : S.sIdRemote = some sId) {login : Bytes}
    (h : chooseLogin S = some login) : S.Free login := by
  rcases List.eq_nil_or_concat S.logins with hnil | ⟨init, last, hlogins⟩
  · rw [chooseLogin, authGetFirst_nil hsId hnil] at h
    cases h
  · rw [List.concat_eq_append] at hlogins
    obtain ⟨hfree, hbusy⟩ := chooseLogin_last hsId hlogins
    by_cases hlast : S.InChallenge last.login
    · rw [hbusy hlast] at h
      obtain ⟨first, hfirst, h⟩ := Option.bind_eq_some_iff.mp h
      have hmem : first ∈ init := List.mem_of_mem_head? hfirst
      split at h
      · cases h
      · cases h
        refine ⟨by simp [hlogins, List.mem_map_of_mem hmem], fun hfirst => ?_⟩
        exact login_ne_last hlogins first hmem (hfirst.unique hlast)
    · rw [hfree hlast] at h
      cases h
      exact ⟨by simp [hlogins], hlast⟩

/-- A login is chosen when one is free and the successor is ready. -/
theorem chooseLogin_isSome_iff (hsId : S.sIdRemote = some sId) :
    (chooseLogin S).isSome = true ↔ (∃ login, S.Free login) ∧ S.SuccessorReady := by
  rcases List.eq_nil_or_concat S.logins with hnil | ⟨init, last, hlogins⟩
  · rw [chooseLogin, authGetFirst_nil hsId hnil]
    apply iff_of_false nofun
    rintro ⟨⟨login, hmem, -⟩, -⟩
    rw [hnil] at hmem
    cases hmem
  · rw [List.concat_eq_append] at hlogins
    obtain ⟨hfree, hbusy⟩ := chooseLogin_last hsId hlogins
    rw [exists_free_iff hlogins]
    by_cases hlast : S.InChallenge last.login
    · rw [hbusy hlast]
      cases init with
      | nil => simp [hlast]
      | cons first rest =>
        have hready : S.SuccessorReady ↔ first.auth.newPwdPending = false := by
          constructor
          · intro h
            exact h last first (by rw [hlogins, List.getLast?_concat]) (by rw [hlogins]; rfl) hlast
          · intro h _ first' _ hfirst _
            rw [hlogins] at hfirst
            cases hfirst
            exact h
        rw [hready]
        cases hpending : first.auth.newPwdPending <;> simp [hpending]
    · rw [hfree hlast]
      have hready : S.SuccessorReady := by
        intro last' first hlast' _ hbusy'
        rw [hlogins, List.getLast?_concat] at hlast'
        cases hlast'
        exact absurd hbusy' hlast
      simp [hlast, hready]

theorem cyberSendTo_none_eq (S : SendState) {login : Bytes} :
    cyberSendTo S none = some login ↔
      S.AllClear ∧ S.memory = true ∧ chooseLogin S = some login := by
  unfold cyberSendTo AllClear
  cases S.allClearRxed <;> cases S.allClearSent <;> cases S.memory <;>
    cases chooseLogin S <;> simp

theorem choosesFree_iff (hknown : S.AllClear → S.sIdRemote ≠ none) :
    S.ChoosesFree ↔
      (S.AllClear → (∃ login, S.Free login) → S.memory = true ∧ S.SuccessorReady) := by
  constructor
  · intro h hclear hfree
    obtain ⟨sId, hsId⟩ := Option.ne_none_iff_exists'.mp (hknown hclear)
    obtain ⟨login, hlogin⟩ := Option.isSome_iff_exists.mp (h.succeeds.mpr ⟨hclear, hfree⟩)
    obtain ⟨-, hmemory, hchosen⟩ := S.cyberSendTo_none_eq.mp hlogin
    have hsome : (chooseLogin S).isSome = true := by rw [hchosen]; rfl
    exact ⟨hmemory, ((chooseLogin_isSome_iff hsId).mp hsome).2⟩
  · intro h
    have huses : ∀ login, cyberSendTo S none = some login → S.AllClear ∧ S.Free login := by
      intro login hlogin
      obtain ⟨hclear, -, hchosen⟩ := S.cyberSendTo_none_eq.mp hlogin
      obtain ⟨sId, hsId⟩ := Option.ne_none_iff_exists'.mp (hknown hclear)
      exact ⟨hclear, free_of_chooseLogin hsId hchosen⟩
    refine ⟨⟨fun hsome => ?_, fun ⟨hclear, hfree⟩ => ?_⟩,
      fun login hlogin => (huses login hlogin).2⟩
    · obtain ⟨login, hlogin⟩ := Option.isSome_iff_exists.mp hsome
      exact ⟨(huses login hlogin).1, login, (huses login hlogin).2⟩
    · obtain ⟨hmemory, hready⟩ := h hclear hfree
      obtain ⟨sId, hsId⟩ := Option.ne_none_iff_exists'.mp (hknown hclear)
      obtain ⟨login, hchosen⟩ := Option.isSome_iff_exists.mp
        ((chooseLogin_isSome_iff hsId).mpr ⟨hfree, hready⟩)
      rw [S.cyberSendTo_none_eq.mpr ⟨hclear, hmemory, hchosen⟩]
      rfl

/-! ## The login that is asked for

It may be any; the test is made on the last one. -/

theorem isAuthToAvailableForLogin_iff (S : SendState) (login : Bytes) :
    isAuthToAvailableForLogin S login = true ↔ login ∈ S.logins.map AuthItem.login := by
  cases hsId : S.sIdRemote with
  | none => simp [isAuthToAvailableForLogin, logins, hsId]
  | some sId =>
    rw [logins_eq hsId, List.mem_map]
    simp only [isAuthToAvailableForLogin, hsId, Option.isSome_iff_exists]
    constructor
    · rintro ⟨it, hit⟩
      obtain ⟨si, hsi, hfind⟩ := Option.bind_eq_some_iff.mp hit
      obtain rfl : it.login = login := KeyedList.key_of_find hfind
      exact ⟨it, AuthDbs.mem_logins.mpr hit, rfl⟩
    · rintro ⟨it, hit, rfl⟩
      exact ⟨it, AuthDbs.mem_logins.mp hit⟩

theorem checkLogin_iff {login : Bytes} (hmem : login ∈ S.logins.map AuthItem.login) :
    checkLogin S login = some login ↔ ¬ S.LastPending := by
  have hsId : ∃ sId, S.sIdRemote = some sId := by
    cases hsId : S.sIdRemote with
    | none => simp [logins, hsId] at hmem
    | some sId => exact ⟨sId, rfl⟩
  obtain ⟨sId, hsId⟩ := hsId
  rcases List.eq_nil_or_concat S.logins with hnil | ⟨init, last, hlogins⟩
  · rw [hnil] at hmem
    cases hmem
  · rw [List.concat_eq_append] at hlogins
    have hlast : S.LastPending ↔ last.auth.newPwdPending = true := by
      rw [LastPending, hlogins, List.getLast?_concat]
      simp
    rw [checkLogin, authGetFirst_last hsId hlogins, hlast]
    simp

theorem cyberSendTo_some_iff (S : SendState) (login : Bytes) :
    cyberSendTo S (some login) = some login ↔
      S.AllClear ∧ login ∈ S.logins.map AuthItem.login ∧ S.memory = true ∧ ¬ S.LastPending := by
  by_cases hmem : login ∈ S.logins.map AuthItem.login
  · rw [← checkLogin_iff hmem]
    have havailable := (isAuthToAvailableForLogin_iff S login).mpr hmem
    unfold cyberSendTo AllClear
    cases S.allClearRxed <;> cases S.allClearSent <;> cases S.memory <;>
      cases hlogin : checkLogin S login <;> simp [havailable, hmem, hlogin]
  · have havailable : isAuthToAvailableForLogin S login = false := by
      rw [← Bool.not_eq_true, isAuthToAvailableForLogin_iff]
      exact hmem
    unfold cyberSendTo AllClear
    simp [havailable, hmem]

theorem takesFree_iff (S : SendState) (login : Bytes) :
    S.TakesFree login ↔ (S.AllClear → login ∈ S.logins.map AuthItem.login →
      (S.InChallenge login ↔ S.memory = false ∨ S.LastPending)) := by
  rw [TakesFree, cyberSendTo_some_iff, Free, ← Bool.not_eq_true]
  generalize S.AllClear = clear, (login ∈ S.logins.map AuthItem.login) = mem,
    (S.memory = true) = memory, S.LastPending = pending, S.InChallenge login = busy
  tauto

end SendState

/-- **The login of a message.** -/
theorem cyberSendTo_iff (S : SendState) (hknown : S.AllClear → S.sIdRemote ≠ none) :
    (S.ChoosesFree ↔
      (S.AllClear → (∃ login, S.Free login) → S.memory = true ∧ S.SuccessorReady)) ∧
    ∀ login, S.TakesFree login ↔ (S.AllClear → login ∈ S.logins.map AuthItem.login →
      (S.InChallenge login ↔ S.memory = false ∨ S.LastPending)) :=
  ⟨SendState.choosesFree_iff hknown, S.takesFree_iff⟩

/-! ### Two logins, and three

The cases that go wrong, and one that goes right while a challenge runs. -/

def secondKey : AuthKey := ⟨authToDbId, ascii "log-002", oneKey.sId⟩

def thirdKey : AuthKey := ⟨authToDbId, ascii "log-003", oneKey.sId⟩

/-- Two logins, the first of which has a new password pending. The challenge of one of them
runs. -/
def twoLogins (key : AuthKey) : SendState :=
  { oneLogin true with
    dbs := AuthDbs.authNew ⟨1457012463, 0⟩
      (AuthDbs.authNew ⟨1457012463, 0⟩ .empty oneKey (ascii "password") none true
        (ascii "next-one") true)
      secondKey (ascii "password") none true [] false
    challengeAuth := some key }

/-- Three logins. The challenge of the last one runs, with its new password pending. -/
def threeLogins : SendState :=
  { oneLogin true with
    dbs := AuthDbs.authNew ⟨1457012463, 0⟩
      (AuthDbs.authNew ⟨1457012463, 0⟩
        (AuthDbs.authNew ⟨1457012463, 0⟩ .empty oneKey (ascii "password") none true [] false)
        secondKey (ascii "password") none true [] false)
      thirdKey (ascii "password") none true (ascii "next-one") true
    challengeAuth := some thirdKey }

/-- A payload without a login goes with the first one, and none goes with the last one. -/
theorem choosesFree_threeLogins :
    threeLogins.ChoosesFree ∧ threeLogins.TakesFree thirdKey.login := by
  have hknown : threeLogins.AllClear → threeLogins.sIdRemote ≠ none := fun _ h => by cases h
  obtain ⟨hchooses, htakes⟩ := cyberSendTo_iff threeLogins hknown
  constructor
  · refine hchooses.mpr fun _ _ => ⟨rfl, fun last first _ hfirst _ => ?_⟩
    cases hfirst
    rfl
  · refine (htakes _).mpr fun _ _ => iff_of_true ⟨⟨thirdKey.sId, rfl, rfl⟩, .inl rfl⟩ (.inr ?_)
    exact ⟨_, rfl, rfl⟩

/-- The first login is taken while its challenge runs; while the challenge of the second one
runs, the first one is not chosen, though it is in none. -/
theorem not_choosesFree :
    ¬ (twoLogins oneKey).TakesFree oneKey.login ∧ ¬ (twoLogins secondKey).ChoosesFree := by
  constructor
  · intro h
    have hsent : cyberSendTo (twoLogins oneKey) (some oneKey.login) = some oneKey.login := rfl
    exact (h.mp hsent).2.2 ⟨⟨oneKey.sId, rfl, rfl⟩, .inl rfl⟩
  · intro h
    have hrefused : cyberSendTo (twoLogins secondKey) none = none := rfl
    have hfree : (twoLogins secondKey).Free oneKey.login := by
      refine ⟨List.mem_map.mpr ⟨_, List.mem_cons_self, rfl⟩, ?_⟩
      rintro ⟨⟨sId, -, hkey⟩, -⟩
      have hlogin := (AuthKey.mk.inj (Option.some.inj hkey)).2.1
      exact absurd hlogin (by simp [oneKey, ascii])
    have hsome := h.succeeds.mpr ⟨⟨rfl, rfl⟩, oneKey.login, hfree⟩
    rw [hrefused] at hsome
    cases hsome

end RsmpGateway.Gateway
