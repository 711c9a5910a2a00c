import RsmpGateway.Coder.Codec
import RsmpGateway.Lib.Quoted

/-!
# Classes of plain texts

`ptxt_set` gives a text the class of the application when it finds `"rSMsg"` in it, wherever this
stands, and looks for `"eRMsg"` only then. The text of an internal message has `"eRMsg"` as its
`mType`; it has `"rSMsg"` where one of its strings ends with it.

The search is that of `Lib/Quoted.lean`: what a text shows is read off the object that was
printed. The names in the object of an internal message are constants of the source, and none of
them is a mark, so that only the strings of the message count (`Unmarked`).
-/

namespace RsmpGateway.Coder

open RsmpGateway.Lib

/-- The class that `ptxt_set` gives to a text, whenever it does. -/
def HasClass (text : Bytes) (cls : PtClass) : Prop :=
  ∀ now timestamp, ∃ ptxt, ptxtSet now timestamp text = .ok ptxt ∧ ptxt.cls = cls

theorem strstr_iff {text part : Bytes} : strstr text part = true ↔ part <:+: text := by
  simp only [strstr, List.any_eq_true, List.mem_tails, List.isPrefixOf_iff_prefix,
    List.infix_iff_prefix_suffix]
  constructor
  · rintro ⟨t, hsuffix, hprefix⟩
    exact ⟨t, hprefix, hsuffix⟩
  · rintro ⟨t, hprefix, hsuffix⟩
    exact ⟨t, hsuffix, hprefix⟩

/-- The words of the marks. -/
def externalWord : Bytes := ascii "rSMsg"

def internalWord : Bytes := ascii "eRMsg"

theorem externalMark_eq : externalMark = Json.quoted externalWord := by decide

theorem internalMark_eq : internalMark = Json.quoted internalWord := by decide

theorem externalWord_word : Json.Word externalWord where
  bare := Json.bare_of_gt (by simp [externalWord, ascii])
  ne_nil := by simp [externalWord, ascii]
  starts := by simp [externalWord, ascii, Json.structural]

theorem internalWord_word : Json.Word internalWord where
  bare := Json.bare_of_gt (by simp [internalWord, ascii])
  ne_nil := by simp [internalWord, ascii]
  starts := by simp [internalWord, ascii, Json.structural]

theorem hasClass_external {text : Bytes} (h : Json.quoted externalWord <:+: text) :
    HasClass text .external := by
  intro now timestamp
  have hmark : strstr text externalMark = true := strstr_iff.mpr (externalMark_eq ▸ h)
  exact ⟨_, by rw [ptxtSet, if_pos hmark], rfl⟩

/-- A text with the mark of internal messages. -/
theorem hasClass_internal_iff {text : Bytes} (h : Json.quoted internalWord <:+: text) :
    HasClass text .internal ↔ ¬ Json.quoted externalWord <:+: text := by
  have hmark : strstr text internalMark = true := strstr_iff.mpr (internalMark_eq ▸ h)
  constructor
  · intro hclass hexternal
    obtain ⟨ptxt, hset, hcls⟩ := hclass ⟨0, 0⟩ none
    obtain ⟨ptxt', hset', hcls'⟩ := hasClass_external hexternal ⟨0, 0⟩ none
    rw [hset] at hset'
    cases hset'
    rw [hcls] at hcls'
    cases hcls'
  · intro hexternal now timestamp
    have hnot : strstr text externalMark = false := by
      rw [Bool.eq_false_iff]
      exact fun h => hexternal (externalMark_eq ▸ strstr_iff.mp h)
    exact ⟨_, by rw [ptxtSet, hnot, if_neg Bool.false_ne_true, if_pos hmark], rfl⟩

/-! ## Internal messages

The strings of a message are those of its fields; the identifiers are among them. -/

/-- The strings of the fields. -/
def texts : MessageFields → List CString
  | .encrypted sId login data => sId.toList ++ data.reduceOption ++ login.toList
  | .allClear => []
  | .changePwdRequest pwd => pwd.toList
  | .changePwdResponse _ oMId => [.ofBytes oMId.val]
  | .ping padding => padding.toList
  | .pong oMId padding => padding.toList ++ [.ofBytes oMId.val]

/-- No string of the message is `rSMsg`, or ends with a quote and `rSMsg`. -/
def Unmarked (m : Message) : Prop :=
  ∀ s ∈ CString.ofBytes m.mId.val :: texts m.fields, ¬ Json.EndsQuoted externalWord s.val

theorem mapM_jsonNewString {data : List (Option CString)} {js : List Json}
    (h : data.mapM jsonNewString = .ok js) :
    js = data.reduceOption.map fun s => .str s.val := by
  induction data generalizing js with
  | nil =>
    cases h
    rfl
  | cons d data ih =>
    rw [List.mapM_cons] at h
    obtain ⟨j, hj, h⟩ := Outcome.bind_eq_ok.mp h
    obtain ⟨rest, hrest, h⟩ := Outcome.bind_eq_ok.mp h
    cases h
    cases d with
    | none => cases hj
    | some s =>
      cases hj
      rw [ih hrest]
      rfl

/-- No name in the object of a message has the word, nor does the mark or a type. -/
theorem names_unmarked :
    (∀ k ∈ [ascii "mType", ascii "eRMsg", ascii "mId", ascii "type", ascii "sId", ascii "data",
      ascii "login", ascii "pwd", ascii "oMId", ascii "status", ascii "pad"],
      ¬ Json.EndsQuoted externalWord k) ∧
    ∀ t : MessageType, ¬ Json.EndsQuoted externalWord t.text := by
  constructor
  · decide
  · intro t
    cases t <;> decide

/-- The members of a type are flat; they show the word where a string of the fields does. -/
theorem messageMembers_texts {fields : MessageFields} {members : List (Bytes × Json)}
    (h : messageMembers fields = .ok members) :
    (∀ m ∈ members, m.2.Flat) ∧
      ((∃ s ∈ members.flatMap fun m => m.1 :: m.2.texts, Json.EndsQuoted externalWord s) ↔
        ∃ s ∈ texts fields, Json.EndsQuoted externalWord s.val) := by
  have hnames := names_unmarked.1
  simp only [List.forall_mem_cons] at hnames
  obtain ⟨-, -, -, -, hsId, hdata, hlogin, hpwd, hoMId, hstatus, hpad, -⟩ := hnames
  cases fields with
  | encrypted sId login data =>
    obtain ⟨jsId, hjsId, h⟩ := Outcome.bind_eq_ok.mp h
    obtain ⟨jdata, hjdata, h⟩ := Outcome.bind_eq_ok.mp h
    obtain ⟨jlogin, hjlogin, h⟩ := Outcome.bind_eq_ok.mp h
    cases h
    obtain rfl := mapM_jsonNewString hjdata
    cases sId <;> cases hjsId
    cases login <;> cases hjlogin
    constructor
    · intro m hm
      simp only [List.mem_cons, List.not_mem_nil, or_false] at hm
      rcases hm with rfl | rfl | rfl
      · trivial
      · intro j hj
        obtain ⟨s, -, rfl⟩ := List.mem_map.mp hj
        exact nofun
      · trivial
    · simp [texts, hsId, hdata, hlogin, or_and_right, exists_or, List.flatMap_map]
  | allClear =>
    cases h
    simp [texts]
  | changePwdRequest pwd =>
    obtain ⟨j, hj, h⟩ := Outcome.bind_eq_ok.mp h
    cases h
    cases pwd <;> cases hj
    simp [Json.Flat, texts, hpwd]
  | changePwdResponse status oMId =>
    obtain ⟨s, hs, h⟩ := Outcome.bind_eq_ok.mp h
    cases h
    have hval : s.val = cstr oMId.val := (CharArray.read_eq_ok hs).2
    simp [Json.Flat, texts, hoMId, hstatus, hval, CString.ofBytes]
  | ping padding =>
    obtain ⟨j, hj, h⟩ := Outcome.bind_eq_ok.mp h
    cases h
    cases padding <;> cases hj
    simp [Json.Flat, texts, hpad]
  | pong oMId padding =>
    obtain ⟨j, hj, h⟩ := Outcome.bind_eq_ok.mp h
    obtain ⟨s, hs, h⟩ := Outcome.bind_eq_ok.mp h
    cases h
    cases padding <;> cases hj
    have hval : s.val = cstr oMId.val := (CharArray.read_eq_ok hs).2
    simp [Json.Flat, texts, hoMId, hpad, hval, CString.ofBytes]

/-- The text of an internal message has the internal mark, and the external one where a string
of the message ends with it. -/
theorem serializeMessage_marks {J : JsonLib} (hJ : J.LaysOut) {m : Message} {text : Bytes}
    (h : serializeMessage J m = .ok text) :
    Json.quoted internalWord <:+: text ∧
      (Json.quoted externalWord <:+: text ↔ ¬ Unmarked m) := by
  obtain ⟨j, hjson, hprint⟩ := Outcome.bind_eq_ok.mp h
  obtain ⟨_, -, hjson⟩ := Outcome.bind_eq_ok.mp hjson
  obtain ⟨mId, hmId, hjson⟩ := Outcome.bind_eq_ok.mp hjson
  obtain ⟨members, hmembers, hjson⟩ := Outcome.bind_eq_ok.mp hjson
  cases hjson
  obtain ⟨sp, hsp, rfl⟩ := hJ (Outcome.ofOption_eq_ok.mp hprint)
  obtain ⟨hflat, htexts⟩ := messageMembers_texts hmembers
  constructor
  · have hmem : (ascii "mType", Json.str (ascii "eRMsg")) ∈
        (ascii "mType", .str (ascii "eRMsg")) :: (ascii "mId", .str mId.val) ::
          (ascii "type", .str m.fields.messageType.text) :: members := List.mem_cons_self
    have hmember := Json.stringText_infix sp hmem
    have hquoted : Json.stringText (ascii "eRMsg") = Json.quoted internalWord :=
      Json.stringText_bare internalWord_word.bare
    rwa [hquoted] at hmember
  · have hshows : Json.Shows externalWord
        ((messageObject mId m.fields.messageType members).layout sp) _ :=
      externalWord_word.shows_obj hsp (f := Json.texts) (by
        intro member hmember
        apply externalWord_word.shows_flat hsp
        simp only [List.mem_cons] at hmember
        rcases hmember with rfl | rfl | rfl | hmember
        · trivial
        · trivial
        · trivial
        · exact hflat member hmember)
    have hnames := names_unmarked.1
    simp only [List.forall_mem_cons] at hnames
    obtain ⟨hmType, hmark, hmIdName, htype, -⟩ := hnames
    have hval : mId.val = cstr m.mId.val := (CharArray.read_eq_ok hmId).2
    rw [hshows.infix_iff externalWord_word, Unmarked]
    push Not
    simp only [List.flatMap_cons, Json.texts_str, List.cons_append, List.nil_append,
      List.mem_cons, exists_eq_or_imp, hmType, hmark, hmIdName, htype, names_unmarked.2, false_or,
      htexts, hval, CString.ofBytes]

end RsmpGateway.Coder
