import RsmpGateway.Auth.Chains

/-!
# Structures that come and go

Each function that changes the store keeps `Holds`, with a tree that is the former one after the
change: a database, a list or an entry is chained at the end of its list, or an entry is freed.

A change touches the chain of one list. Everything else is as it was, which is said by
`Links.SameBut` for the chains and by `Keeps` for the structures; the two general cases are
`Holds.put` and `Holds.drop`, and the functions of the source are followed one by one from there.
-/

namespace RsmpGateway.Auth

open RsmpGateway.Lib RsmpGateway.Sync Links

namespace AuthMem

/-! ## One structure more, or one less

The general cases. A block that is put on the heap or taken off it changes the tree at one place
and the chain of one list; what a caller has to show is that the new tree has the structures that
the heap has now, and that each list is chained again. The fields of `Holds` are then shown one
after the other, each from that of the former tree. -/

section Frames

variable {ν : Type} [DecidableEq ν] {m : AuthMem ν} {t t' : Tree ν} {L : Links (Chain ν)} {a : ν}
  {b : Block ν}

omit [DecidableEq ν] in
/-- A list belongs to one database, and an entry to one list. -/
theorem Holds.sIds_apart (h : m.Holds t) {db db' s : ν} (hne : db ≠ db') (hs : s ∈ t.sIds db) :
    s ∉ t.sIds db' := by
  intro hs'
  obtain ⟨k, hk⟩ := h.mem_sIds.mp hs
  obtain ⟨k', hk'⟩ := h.mem_sIds.mp hs'
  rw [hk] at hk'
  cases hk'
  exact hne rfl

omit [DecidableEq ν] in
theorem Holds.logins_apart (h : m.Holds t) {s s' it : ν} (hne : s ≠ s') (hit : it ∈ t.logins s) :
    it ∉ t.logins s' := by
  intro hit'
  obtain ⟨k, hk⟩ := h.mem_logins.mp hit
  obtain ⟨k', hk'⟩ := h.mem_logins.mp hit'
  rw [hk] at hk'
  cases hk'
  exact hne rfl

/-- Where there was no structure in a list, there is one now. -/
theorem put_placed (ha : ∀ c, m.heap a = some c → ¬ c.Placed) {x : ν} {c : Block ν}
    (hc : c.Placed) :
    Function.update m.heap a (some b) x = some c ↔ m.heap x = some c ∨ x = a ∧ b = c := by
  by_cases hx : x = a
  · subst hx
    rw [Function.update_self, Option.some.injEq]
    constructor
    · intro hb
      exact .inr ⟨rfl, hb⟩
    · rintro (hold | ⟨-, hb⟩)
      · exact absurd hc (ha c hold)
      · exact hb
  · simp [hx]

/-- A structure that is put on the heap, and in the tree when it is in a list. -/
theorem Holds.put (h : m.Holds t) (ha : ∀ c, m.heap a = some c → ¬ c.Placed)
    (hnew : b.Placed → ∀ x, m.heap x ≠ some b)
    (hdbs : ∀ x, x ∈ t'.dbs ↔ x ∈ t.dbs ∨ x = a ∧ ∃ k, b = .db k)
    (hsIds : ∀ db x, x ∈ t'.sIds db ↔ x ∈ t.sIds db ∨ x = a ∧ ∃ k, b = .sIds k (some db))
    (hlogins : ∀ s x, x ∈ t'.logins s ↔ x ∈ t.logins s ∨ x = a ∧ ∃ k, b = .auth k (some s))
    (hdb : ∀ k db, b = .sIds k (some db) → m.IsDb db)
    (hs : ∀ k s, b = .auth k (some s) → ∃ db, m.IsSIds db s)
    (hringDbs : L.Ring .authDbsRoot (t'.dbs.map .dbChain))
    (hringSIds : ∀ db, m.IsDb db ∨ db = a ∧ (∃ k, b = .db k) →
      L.Ring (.dbSIds db) ((t'.sIds db).map .sIdChain))
    (hringLogins : ∀ s, (∃ db, m.IsSIds db s) ∨ s = a ∧ (∃ k db, b = .sIds k (some db)) →
      L.Ring (.sIdLogins s) ((t'.logins s).map .authChain))
    (halone : ∀ it login, it ≠ a ∧ m.heap it = some (.auth login none) ∨
      it = a ∧ b = .auth login none → L.Alone (.authChain it)) :
    Holds ⟨L, Function.update m.heap a (some b)⟩ t' := by
  -- what the blocks are after the change, one kind after the other
  have hisDb : ∀ {db}, IsDb ⟨L, Function.update m.heap a (some b)⟩ db ↔
      m.IsDb db ∨ db = a ∧ ∃ k, b = .db k := by
    intro db
    simp only [IsDb, put_placed ha (c := .db _) trivial, exists_or, exists_and_left]
  have hisSIds : ∀ {db s}, IsSIds ⟨L, Function.update m.heap a (some b)⟩ db s ↔
      m.IsSIds db s ∨ s = a ∧ ∃ k, b = .sIds k (some db) := by
    intro db s
    simp only [IsSIds, put_placed ha (c := .sIds _ (some _)) rfl, exists_or, exists_and_left]
  have hisLogin : ∀ {s it}, IsLogin ⟨L, Function.update m.heap a (some b)⟩ s it ↔
      m.IsLogin s it ∨ it = a ∧ ∃ k, b = .auth k (some s) := by
    intro s it
    simp only [IsLogin, put_placed ha (c := .auth _ (some _)) rfl, exists_or, exists_and_left]
  constructor
  case dbs =>
    exact hringDbs
  case mem_dbs =>
    intro db
    rw [hisDb, hdbs, h.mem_dbs]
  case sIds =>
    intro db hmem
    exact hringSIds db (hisDb.mp hmem)
  case mem_sIds =>
    intro db s
    rw [hisSIds, hsIds, h.mem_sIds]
  case isDb =>
    intro db s hmem
    rcases hisSIds.mp hmem with hmem | ⟨-, k, hk⟩
    · exact hisDb.mpr (.inl (h.isDb hmem))
    · exact hisDb.mpr (.inl (hdb k db hk))
  case logins =>
    intro db s hmem
    rcases hisSIds.mp hmem with hmem | ⟨hsa, k, hk⟩
    · exact hringLogins s (.inl ⟨db, hmem⟩)
    · exact hringLogins s (.inr ⟨hsa, k, db, hk⟩)
  case mem_logins =>
    intro s it
    rw [hisLogin, hlogins, h.mem_logins]
  case isSIds =>
    intro s it hmem
    rcases hisLogin.mp hmem with hmem | ⟨-, k, hk⟩
    · obtain ⟨db, hin⟩ := h.isSIds hmem
      exact ⟨db, hisSIds.mpr (.inl hin)⟩
    · obtain ⟨db, hin⟩ := hs k s hk
      exact ⟨db, hisSIds.mpr (.inl hin)⟩
  case alone =>
    intro it login hit
    by_cases hne : it = a
    · subst hne
      have hb : b = .auth login none := by simpa using hit
      exact halone it login (.inr ⟨rfl, hb⟩)
    · have hold : m.heap it = some (.auth login none) := by simpa [hne] using hit
      exact halone it login (.inl ⟨hne, hold⟩)
  case unique =>
    intro x x' c hx hx' hc
    -- two blocks of one key: both old, or the new one and an old one
    rcases (put_placed ha hc).mp hx with hx | ⟨hxa, hbc⟩
    · rcases (put_placed ha hc).mp hx' with hx' | ⟨-, hbc⟩
      · exact h.unique hx hx' hc
      · exact absurd (hbc ▸ hx) (hnew (hbc ▸ hc) x)
    · rcases (put_placed ha hc).mp hx' with hx' | ⟨hxa', -⟩
      · exact absurd (hbc ▸ hx') (hnew (hbc ▸ hc) x')
      · exact hxa.trans hxa'.symm

/-- An entry that is taken off the heap, and out of its list. -/
theorem Holds.drop (h : m.Holds t) {login : Bytes} {toSId : Option ν} {f : ν → List ν}
    (ha : m.heap a = some (.auth login toSId))
    (hlogins : ∀ s x, x ∈ f s ↔ x ∈ t.logins s ∧ x ≠ a)
    (hringDbs : L.Ring .authDbsRoot (t.dbs.map .dbChain))
    (hringSIds : ∀ db, m.IsDb db → L.Ring (.dbSIds db) ((t.sIds db).map .sIdChain))
    (hringLogins : ∀ db s, m.IsSIds db s → L.Ring (.sIdLogins s) ((f s).map .authChain))
    (halone : ∀ it login, it ≠ a → m.heap it = some (.auth login none) →
      L.Alone (.authChain it)) :
    Holds ⟨L, Function.update m.heap a none⟩ { t with logins := f } := by
  have hheap : ∀ {x c}, Function.update m.heap a none x = some c ↔ x ≠ a ∧ m.heap x = some c := by
    intro x c
    by_cases hne : x = a
    · simp [hne]
    · simp [hne]
  -- an entry is freed, so that databases and lists are those before
  have hisDb : ∀ {db}, IsDb ⟨L, Function.update m.heap a none⟩ db ↔ m.IsDb db := by
    intro db
    simp only [IsDb, hheap, exists_and_left, and_iff_right_iff_imp]
    rintro ⟨k, hk⟩ rfl
    rw [ha] at hk
    cases hk
  have hisSIds : ∀ {db s}, IsSIds ⟨L, Function.update m.heap a none⟩ db s ↔ m.IsSIds db s := by
    intro db s
    simp only [IsSIds, hheap, exists_and_left, and_iff_right_iff_imp]
    rintro ⟨k, hk⟩ rfl
    rw [ha] at hk
    cases hk
  have hisLogin : ∀ {s it}, IsLogin ⟨L, Function.update m.heap a none⟩ s it ↔
      m.IsLogin s it ∧ it ≠ a := by
    intro s it
    simp only [IsLogin, hheap, exists_and_left]
    exact and_comm
  constructor
  case dbs =>
    exact hringDbs
  case mem_dbs =>
    intro db
    rw [hisDb, h.mem_dbs]
  case sIds =>
    intro db hmem
    exact hringSIds db (hisDb.mp hmem)
  case mem_sIds =>
    intro db s
    rw [hisSIds, h.mem_sIds]
  case isDb =>
    intro db s hmem
    exact hisDb.mpr (h.isDb (hisSIds.mp hmem))
  case logins =>
    intro db s hmem
    exact hringLogins db s (hisSIds.mp hmem)
  case mem_logins =>
    intro s it
    rw [hisLogin, hlogins, h.mem_logins]
  case isSIds =>
    intro s it hmem
    obtain ⟨db, hin⟩ := h.isSIds (hisLogin.mp hmem).1
    exact ⟨db, hisSIds.mpr hin⟩
  case alone =>
    intro it login hit
    obtain ⟨hne, hold⟩ := hheap.mp hit
    exact halone it login hne hold
  case unique =>
    intro x x' c hx hx' hc
    exact h.unique (hheap.mp hx).2 (hheap.mp hx').2 hc

end Frames

/-! ## Searches that create

`auth_db_search` and `auth_sId_search` return the structure of a name, and make one where there is
none. Both ways the structures before are kept (`Keeps`), so that what the caller holds of the
levels above is still there: the database when the list is searched, the list when the entry is
inserted.

The allocator gives an address that is free (`Calloc.Fresh`), at which nothing was, and where
nothing points to. A new structure is chained to the list above it with `ldcInsert`, and the head
of its own list is initialised to the empty chain. -/

section Steps

variable {ν : Type} [DecidableEq ν] {D : LdcLib (Chain ν)} (hD : D.Lawful) {calloc : Calloc ν}
  (hcalloc : calloc.Fresh) {m : AuthMem ν} {t : Tree ν}

omit [DecidableEq ν] in
theorem ne_of_free {a x : ν} {b : Block ν} (ha : m.heap a = none) (hx : m.heap x = some b) :
    x ≠ a := by
  rintro rfl
  rw [ha] at hx
  cases hx

/-- The structures of `m` are those of `m'`, which may have more. -/
def Keeps (m m' : AuthMem ν) : Prop := ∀ {a b}, m.heap a = some b → m'.heap a = some b

include hD

omit [DecidableEq ν] in
/-- A new structure, with its chain and the head of its own list, is put in a list. -/
theorem insert_new (c hd : Chain ν) {L : Links (Chain ν)} {root : Chain ν} {ns : List (Chain ν)}
    (h : L.Ring root ns) (hc : c ∉ root :: ns) (hhd : hd ∉ root :: ns) (hne : c ≠ hd) :
    (D.ldcInsert (D.ldcInitialize (D.ldcInitialize L c) hd) root c).Ring root (ns ++ [c]) ∧
      (D.ldcInsert (D.ldcInitialize (D.ldcInitialize L c) hd) root c).Alone hd ∧
        L.SameBut (D.ldcInsert (D.ldcInitialize (D.ldcInitialize L c) hd) root c)
          (c :: hd :: root :: ns) := by
  obtain ⟨hcAlone, hcSame⟩ := hD.made_alone (L := L) (n := c)
  obtain ⟨hhdAlone, hhdSame⟩ := hD.made_alone (L := D.ldcInitialize L c) (n := hd)
  have hring := h.of_sameBut (hcSame.trans hhdSame) (by grind)
  have halone := hcAlone.of_sameBut hhdSame (by simpa using hne)
  obtain ⟨hring', hsame⟩ := hD.insert hring halone hc
  refine ⟨hring', hhdAlone.of_sameBut hsame (by grind), ?_⟩
  exact ((hcSame.trans hhdSame).trans hsame).mono (by grind)

include hcalloc

theorem Holds.authDbSearch (h : m.Holds t) (dbId : Bytes) :
    ∃ t', (m.authDbSearch D calloc dbId).2.Holds t' ∧ m.Keeps (m.authDbSearch D calloc dbId).2 ∧
      ∀ db, (m.authDbSearch D calloc dbId).1 = some db →
        (m.authDbSearch D calloc dbId).2.IsDb db := by
  rw [AuthMem.authDbSearch]
  cases hfind : m.authDbFind D dbId with
  | some db =>
    refine ⟨t, h, fun hb => hb, ?_⟩
    rintro _ ⟨⟩
    exact ⟨dbId, (authDbFind_iff hD h).mp hfind⟩
  | none =>
    rw [authDbNew]
    cases ha : calloc m.heap with
    | none => exact ⟨t, h, fun hb => hb, nofun⟩
    | some a =>
      have hfree : m.heap a = none := hcalloc ha
      have hout : ∀ {x b}, m.heap x = some b → x ≠ a := fun hx => ne_of_free hfree hx
      have hnot : a ∉ t.dbs := by
        intro hmem
        obtain ⟨k, hk⟩ := h.mem_dbs.mp hmem
        exact hout hk rfl
      obtain ⟨hring, halone, hsame⟩ := insert_new hD (.dbChain a) (.dbSIds a) h.dbs
        (by simpa using hnot) (by simp) (by simp)
      -- no list has the new address for its database
      have hnil : t.sIds a = [] := by
        apply List.eq_nil_iff_forall_not_mem.mpr
        intro s hs
        obtain ⟨k, hk⟩ := h.isDb (h.mem_sIds.mp hs)
        exact hout hk rfl
      refine ⟨{ t with dbs := t.dbs ++ [a] }, h.put ?ha ?hnew ?hdbs ?hsIds ?hlogins ?hdb ?hs
        ?hringDbs ?hringSIds ?hringLogins ?halone, ?keeps, ?isDb⟩
      case ha =>
        rw [hfree]
        exact nofun
      case hnew =>
        intro _ x hx
        rw [(authDbFind_iff hD h).mpr hx] at hfind
        cases hfind
      case hdbs =>
        simp
      case hsIds =>
        simp
      case hlogins =>
        simp
      case hdb =>
        exact nofun
      case hs =>
        exact nofun
      case hringDbs =>
        simpa using hring
      -- the databases before keep their lists, the new one has an empty list
      case hringSIds =>
        rintro db (⟨k, hk⟩ | ⟨rfl, -⟩)
        · refine (h.sIds ⟨k, hk⟩).of_sameBut hsame ?_
          simp [(hout hk).symm]
        · rw [hnil]
          exact ring_nil.mpr halone
      case hringLogins =>
        rintro s (⟨db, hs⟩ | ⟨-, k, db, hk⟩)
        · apply (h.logins hs).of_sameBut hsame
          simp
        · cases hk
      case halone =>
        rintro it login (⟨-, hit⟩ | ⟨-, hb⟩)
        · exact (h.alone hit).of_sameBut hsame (by simp)
        · cases hb
      case keeps =>
        intro x b hx
        exact (Function.update_of_ne (hout hx) ..).trans hx
      case isDb =>
        rintro _ ⟨⟩
        exact ⟨dbId, Function.update_self ..⟩

theorem Holds.authSIdSearch (h : m.Holds t) {db : ν} (hdb : m.IsDb db) (sId : Bytes) :
    ∃ t', (m.authSIdSearch D calloc db sId).2.Holds t' ∧
      m.Keeps (m.authSIdSearch D calloc db sId).2 ∧
        ∀ s, (m.authSIdSearch D calloc db sId).1 = some s →
          (m.authSIdSearch D calloc db sId).2.IsSIds db s := by
  rw [AuthMem.authSIdSearch]
  cases hfind : m.authSIdFind D db sId with
  | some s =>
    refine ⟨t, h, fun hb => hb, ?_⟩
    rintro _ ⟨⟩
    exact ⟨sId, (authSIdFind_iff hD h hdb).mp hfind⟩
  | none =>
    rw [authSIdNew]
    cases ha : calloc m.heap with
    | none => exact ⟨t, h, fun hb => hb, nofun⟩
    | some a =>
      -- the new address is in no chain, and nothing else moves
      have hfree : m.heap a = none := hcalloc ha
      have hout : ∀ {x b}, m.heap x = some b → x ≠ a := fun hx => ne_of_free hfree hx
      have hnot : ∀ {db}, a ∉ t.sIds db := by
        intro db hmem
        obtain ⟨k, hk⟩ := h.mem_sIds.mp hmem
        exact hout hk rfl
      obtain ⟨hring, halone, hsame⟩ := insert_new hD (.sIdChain a) (.sIdLogins a)
        (h.sIds hdb) (by simpa using hnot) (by simp) (by simp)
      have hnil : t.logins a = [] := by
        apply List.eq_nil_iff_forall_not_mem.mpr
        intro it hit
        obtain ⟨_, k, hk⟩ := h.isSIds (h.mem_logins.mp hit)
        exact hout hk rfl
      -- the list is chained first and gets its parent afterwards
      have hmade : ∀ L : Links (Chain ν),
          AuthMem.setParent ⟨L, Function.update m.heap a (some (.sIds sId none))⟩ a db =
            ⟨L, Function.update m.heap a (some (.sIds sId (some db)))⟩ := by
        intro L
        simp [AuthMem.setParent, Block.setParent]
      simp only [Option.map_some, hmade]
      refine ⟨{ t with sIds := Function.update t.sIds db (t.sIds db ++ [a]) },
        h.put ?ha ?hnew ?hdbs ?hsIds ?hlogins ?hdb ?hs ?hringDbs ?hringSIds ?hringLogins ?halone,
        ?keeps, ?isSIds⟩
      case ha =>
        rw [hfree]
        exact nofun
      case hnew =>
        intro _ x hx
        rw [(authSIdFind_iff hD h hdb).mpr hx] at hfind
        cases hfind
      case hdbs =>
        simp
      case hsIds =>
        intro db' x
        by_cases hne : db' = db
        · subst hne
          simp
        · simp [hne, Ne.symm hne]
      case hlogins =>
        simp
      case hdb =>
        rintro k db' ⟨⟩
        exact hdb
      case hs =>
        exact nofun
      case hringDbs =>
        exact h.dbs.of_sameBut hsame (by simp)
      case hringSIds =>
        rintro db' (hdb' | ⟨-, k, hk⟩)
        · by_cases hne : db' = db
          · subst hne
            simpa using hring
          · show (D.ldcInsert _ _ _).Ring _
              ((Function.update t.sIds db (t.sIds db ++ [a]) db').map .sIdChain)
            rw [Function.update_of_ne hne]
            apply (h.sIds hdb').of_sameBut hsame
            have hapart : ∀ s ∈ t.sIds db, s ∉ t.sIds db' := fun s => h.sIds_apart (Ne.symm hne)
            have hnot' : a ∉ t.sIds db' := hnot
            intro n hn
            simp only [List.mem_cons, List.mem_map] at hn ⊢
            grind
        · cases hk
      case hringLogins =>
        rintro s (⟨db', hs⟩ | ⟨rfl, -⟩)
        · obtain ⟨k, hk⟩ := hs
          refine (h.logins ⟨k, hk⟩).of_sameBut hsame ?_
          simp [(hout hk).symm]
        · rw [hnil]
          exact ring_nil.mpr halone
      case halone =>
        rintro it login (⟨-, hit⟩ | ⟨-, hb⟩)
        · exact (h.alone hit).of_sameBut hsame (by simp)
        · cases hb
      case keeps =>
        intro x b hx
        exact (Function.update_of_ne (hout hx) ..).trans hx
      case isSIds =>
        rintro _ ⟨⟩
        exact ⟨sId, Function.update_self ..⟩

/-! ## Entries

An entry is made outside of any list, and is then alone on its chain. Only its insertion gives it
a place, under the list of its three-part key, which is searched first and so is made when it is
missing. -/

theorem Holds.authNewItem (h : m.Holds t) (login : Bytes) {it : ν} {m' : AuthMem ν}
    (hnew : m.authNewItem D calloc login = some (it, m')) :
    m'.Holds t ∧ m.Keeps m' ∧ m'.heap it = some (.auth login none) := by
  obtain ⟨a, ha, heq⟩ := Option.map_eq_some_iff.mp hnew
  cases heq
  have hfree : m.heap it = none := hcalloc ha
  have hout : ∀ {x b}, m.heap x = some b → x ≠ it := fun hx => ne_of_free hfree hx
  have hnot : ∀ {s}, it ∉ t.logins s := by
    intro s hmem
    obtain ⟨k, hk⟩ := h.mem_logins.mp hmem
    exact hout hk rfl
  obtain ⟨halone, hsame⟩ := hD.made_alone (L := m.links) (n := .authChain it)
  refine ⟨h.put ?ha ?hnew ?hdbs ?hsIds ?hlogins ?hdb ?hs ?hringDbs ?hringSIds ?hringLogins
    ?halone, ?keeps, Function.update_self ..⟩
  case ha =>
    rw [hfree]
    exact nofun
  case hnew =>
    exact nofun
  case hdbs =>
    simp
  case hsIds =>
    simp
  case hlogins =>
    simp
  case hdb =>
    exact nofun
  case hs =>
    exact nofun
  case hringDbs =>
    exact h.dbs.of_sameBut hsame (by simp)
  case hringSIds =>
    rintro db (hdb | ⟨-, k, hk⟩)
    · exact (h.sIds hdb).of_sameBut hsame (by simp)
    · cases hk
  case hringLogins =>
    rintro s (⟨db, hs⟩ | ⟨-, k, db, hk⟩)
    · apply (h.logins hs).of_sameBut hsame
      have hnot' : it ∉ t.logins s := hnot
      simp only [List.mem_cons, List.mem_map]
      grind
    · cases hk
  case halone =>
    rintro x k (⟨hne, hx⟩ | ⟨rfl, -⟩)
    · exact (h.alone hx).of_sameBut hsame (by simpa using hne)
    · exact halone
  case keeps =>
    intro x b hx
    exact (Function.update_of_ne (hout hx) ..).trans hx

omit hcalloc in
theorem Holds.authLoginInsert (h : m.Holds t) {db s it : ν} {login : Bytes} (hs : m.IsSIds db s)
    (hit : m.heap it = some (.auth login none))
    (hnew : ∀ x, m.heap x ≠ some (.auth login (some s))) :
    (m.authLoginInsert D s it).Holds
      { t with logins := Function.update t.logins s (t.logins s ++ [it]) } := by
  have hnot : ∀ {s}, it ∉ t.logins s := by
    intro s hmem
    obtain ⟨k, hk⟩ := h.mem_logins.mp hmem
    rw [hit] at hk
    cases hk
  obtain ⟨hring, hsame⟩ := hD.insert (h.logins hs) (h.alone hit) (by simp [hnot])
  rw [AuthMem.authLoginInsert, AuthMem.setParent, hit]
  apply h.put
  case ha =>
    rintro c hc
    rw [hit] at hc
    cases hc
    exact nofun
  case hnew =>
    intro _ x
    exact hnew x
  case hdbs =>
    simp [Block.setParent]
  case hsIds =>
    simp [Block.setParent]
  case hlogins =>
    intro s' x
    by_cases hne : s' = s
    · subst hne
      simp [Block.setParent]
    · simp [Block.setParent, hne, Ne.symm hne]
  case hdb =>
    exact nofun
  case hs =>
    rintro k s' ⟨⟩
    exact ⟨db, hs⟩
  case hringDbs =>
    exact h.dbs.of_sameBut hsame (by simp)
  case hringSIds =>
    rintro db' (hdb | ⟨-, k, hk⟩)
    · exact (h.sIds hdb).of_sameBut hsame (by simp)
    · cases hk
  case hringLogins =>
    rintro s' (⟨db', hs'⟩ | ⟨-, k, db', hk⟩)
    · by_cases hne : s' = s
      · subst hne
        simpa using hring
      · show (D.ldcInsert _ _ _).Ring _
          ((Function.update t.logins s (t.logins s ++ [it]) s').map .authChain)
        rw [Function.update_of_ne hne]
        apply (h.logins hs').of_sameBut hsame
        have hapart : ∀ x ∈ t.logins s, x ∉ t.logins s' := fun x => h.logins_apart (Ne.symm hne)
        have hnot' : it ∉ t.logins s' := hnot
        intro n hn
        simp only [List.mem_cons, List.mem_map] at hn ⊢
        grind
    · cases hk
  case halone =>
    rintro x k (⟨hne, hx⟩ | ⟨-, hk⟩)
    · apply (h.alone hx).of_sameBut hsame
      have hout : x ∉ t.logins s := by
        intro hmem
        obtain ⟨k', hk'⟩ := h.mem_logins.mp hmem
        rw [hx] at hk'
        cases hk'
      simpa [hne] using hout
    · cases hk

theorem Holds.authInsert (h : m.Holds t) {key : AuthKey} {it : ν}
    (hit : m.heap it = some (.auth key.login none)) :
    ∃ t', (m.authInsert D calloc key it).Holds t' := by
  rw [AuthMem.authInsert]
  obtain ⟨t₁, h₁, hkeep₁, hdb⟩ := h.authDbSearch hD hcalloc key.dbId
  cases hsearch : m.authDbSearch D calloc key.dbId with
  | mk db m₁ =>
    rw [hsearch] at h₁ hkeep₁ hdb
    cases db with
    | none => exact ⟨t₁, h₁⟩
    | some db =>
      obtain ⟨t₂, h₂, hkeep₂, hs⟩ := h₁.authSIdSearch hD hcalloc (hdb db rfl) key.sId
      dsimp only
      cases hsearch' : m₁.authSIdSearch D calloc db key.sId with
      | mk s m₂ =>
        rw [hsearch'] at h₂ hkeep₂ hs
        cases s with
        | none => exact ⟨t₂, h₂⟩
        | some s =>
          dsimp only
          cases hfind : m₂.authLoginFind D s key.login with
          | some _ => exact ⟨t₂, h₂⟩
          | none =>
            refine ⟨_, h₂.authLoginInsert hD (hs s rfl) (hkeep₂ (hkeep₁ hit)) ?_⟩
            intro x hx
            rw [(authLoginFind_iff hD h₂ (hs s rfl)).mpr hx] at hfind
            cases hfind

theorem Holds.authNew (h : m.Holds t) (key : AuthKey) :
    ∃ t', (m.authNew D calloc key).Holds t' := by
  rw [AuthMem.authNew]
  cases hnew : m.authNewItem D calloc key.login with
  | none => exact ⟨t, h⟩
  | some r =>
    obtain ⟨it, m'⟩ := r
    obtain ⟨h', -, hit⟩ := h.authNewItem hD hcalloc key.login hnew
    exact h'.authInsert hD hcalloc hit

theorem Holds.authSearchByKey (h : m.Holds t) (key : AuthKey) :
    ∃ t', (m.authSearchByKey D calloc key).Holds t' := by
  rw [AuthMem.authSearchByKey]
  split
  · obtain ⟨t₁, h₁, -, hdb⟩ := h.authDbSearch hD hcalloc key.dbId
    cases hsearch : m.authDbSearch D calloc key.dbId with
    | mk db m₁ =>
      rw [hsearch] at h₁ hdb
      cases db with
      | none => exact ⟨t₁, h₁⟩
      | some db =>
        obtain ⟨t₂, h₂, -, -⟩ := h₁.authSIdSearch hD hcalloc (hdb db rfl) key.sId
        dsimp only
        cases hsearch' : m₁.authSIdSearch D calloc db key.sId with
        | mk s m₂ =>
          rw [hsearch'] at h₂
          cases s with
          | none => exact ⟨t₂, h₂⟩
          | some s =>
            dsimp only
            split
            · exact h₂.authNew hD hcalloc key
            · exact ⟨t₂, h₂⟩
  · exact ⟨t, h⟩

/-! ## An entry that is freed

`auth_free` looks at the chain of the entry: one that is alone is in no list, and any other is
suppressed before it is freed. The other entries of the list keep their order; the structures of
the database and of the list stay, also when the list is empty now. -/

omit hcalloc in
/-- An entry that is freed leaves its list. -/
theorem Holds.authFree (h : m.Holds t) {it : ν} {login : Bytes} {toSId : Option ν}
    (hit : m.heap it = some (.auth login toSId)) : ∃ t', (m.authFree D it).Holds t' := by
  rw [AuthMem.authFree]
  cases toSId with
  | none =>
    -- an entry in no list is alone on its chain, and is freed without being taken out
    have hout : ∀ s, it ∉ t.logins s := by
      intro s hmem
      obtain ⟨k, hk⟩ := h.mem_logins.mp hmem
      rw [hit] at hk
      cases hk
    rw [if_pos (hD.isEmpty_alone (h.alone hit))]
    refine ⟨_, h.drop hit (f := t.logins) ?_ h.dbs ?_ ?_ ?_⟩
    · intro s x
      have := hout s
      grind
    · exact fun db hdb => h.sIds hdb
    · exact fun db s hs => h.logins hs
    · exact fun x k _ hx => h.alone hx
  | some s =>
    have hmem : it ∈ t.logins s := h.mem_logins.mpr ⟨login, hit⟩
    obtain ⟨db, hs⟩ := h.isSIds (h.mem_logins.mp hmem)
    -- the list is cut at the entry
    obtain ⟨as, bs, hcut⟩ := List.append_of_mem hmem
    have hring : m.links.Ring (.sIdLogins s) (as.map .authChain ++ .authChain it ::
        bs.map .authChain) := by
      have := h.logins hs
      rwa [hcut, List.map_append, List.map_cons] at this
    have hlinked := hD.isEmpty_linked hring (n := .authChain it) (by simp) (by simp)
    obtain ⟨hring', -, hsame⟩ := hD.suppress hring
    have hsame : m.links.SameBut (D.ldcSuppress m.links (.authChain it))
        (.sIdLogins s :: (t.logins s).map .authChain) := by
      rwa [hcut, List.map_append, List.map_cons]
    rw [hlinked, if_neg Bool.false_ne_true]
    -- the entry is once in its list
    have hnodup : it ∉ as ++ bs := by
      have hnodup := hring.nodup
      rw [List.nodup_cons, List.nodup_append, List.nodup_cons] at hnodup
      simp only [List.mem_append, List.mem_map, List.mem_cons] at hnodup ⊢
      grind
    refine ⟨_, h.drop hit (f := Function.update t.logins s (as ++ bs)) ?_ ?_ ?_ ?_ ?_⟩
    · intro s' x
      by_cases hne : s' = s
      · subst hne
        rw [Function.update_self, hcut]
        simp only [List.mem_append, List.mem_cons] at hnodup ⊢
        grind
      · rw [Function.update_of_ne hne]
        have hout : it ∉ t.logins s' := h.logins_apart (Ne.symm hne) hmem
        grind
    · exact h.dbs.of_sameBut hsame (by simp)
    · exact fun db' hdb => (h.sIds hdb).of_sameBut hsame (by simp)
    · intro db' s' hs'
      by_cases hne : s' = s
      · subst hne
        rw [Function.update_self, List.map_append]
        exact hring'
      · rw [Function.update_of_ne hne]
        apply (h.logins hs').of_sameBut hsame
        have hapart : ∀ x ∈ t.logins s, x ∉ t.logins s' := fun x => h.logins_apart (Ne.symm hne)
        intro n hn
        simp only [List.mem_cons, List.mem_map] at hn ⊢
        grind
    · intro x k hne hx
      apply (h.alone hx).of_sameBut hsame
      have hout : x ∉ t.logins s := by
        intro hmem
        obtain ⟨k', hk'⟩ := h.mem_logins.mp hmem
        rw [hx] at hk'
        cases hk'
      simpa using hout

omit hcalloc in
theorem Holds.authDeleteByKey (h : m.Holds t) (key : AuthKey) :
    ∃ t', (m.authDeleteByKey D key).Holds t' := by
  rw [AuthMem.authDeleteByKey]
  cases hfind : m.authFindByKey D key with
  | none => exact ⟨t, h⟩
  | some it =>
    obtain ⟨db, hdb, hrest⟩ := Option.bind_eq_some_iff.mp hfind
    have hisDb : m.IsDb db := ⟨_, (authDbFind_iff hD h).mp hdb⟩
    obtain ⟨s, hs, hlogin⟩ := Option.bind_eq_some_iff.mp hrest
    have hisSIds : m.IsSIds db s := ⟨_, (authSIdFind_iff hD h hisDb).mp hs⟩
    exact h.authFree hD ((authLoginFind_iff hD h hisSIds).mp hlogin)

end Steps

end AuthMem

end RsmpGateway.Auth
