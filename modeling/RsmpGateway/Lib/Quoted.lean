import Mathlib.Data.List.Infix
import RsmpGateway.Lib.Json

/-!
# Quoted words in JSON texts

Where a word between quotes stands in the text of a value. A program that looks for `"word"` in a
JSON text means a key or a string of it; this library says what it finds.

A quote of the text either starts or ends a string, or is the character of one, escaped. So the
quoted word is found at the end of each string that is the word, or that ends with a quote and
the word, and nowhere else (`Shows.infix_iff`). What a text *shows* (`Shows`) is the list of its
strings and keys, and it follows the structure of the value: an object shows its keys and what
its values show, an array what its items show.

The layout may have spaces or none. The word must be one that is not escaped, and that does not
start like the punctuation after a string.
-/

namespace RsmpGateway.Lib.Json

/-- The word between quotes. -/
def quoted (w : Bytes) : Bytes := 0x22 :: (w ++ [0x22])

/-- No character of the word is escaped. -/
def Bare (w : Bytes) : Prop := ∀ c ∈ w, escapeChar c = [c]

instance (w : Bytes) : Decidable (Bare w) := List.decidableBAll _ w

/-- The word ends the string, after a quote or as the whole of it. -/
def EndsQuoted (w s : Bytes) : Prop := 0x22 :: w <:+ 0x22 :: s

instance (w s : Bytes) : Decidable (EndsQuoted w s) := inferInstanceAs (Decidable (_ <:+ _))

theorem endsQuoted_iff {w s : Bytes} : EndsQuoted w s ↔ s = w ∨ 0x22 :: w <:+ s := by
  rw [EndsQuoted, List.suffix_cons_iff, List.cons_eq_cons]
  simp [eq_comm]

/-! ## Escapes

A string is written character by character. A character that is escaped starts with a backslash,
so that a quote in the text of a string is always the second character of an escape. -/

/-- A character is written as it is, or after a backslash. -/
theorem escapeChar_cases (c : UInt8) :
    (escapeChar c = [c] ∧ c ≠ 0x22 ∧ c ≠ 0x5C) ∨ (c = 0x22 ∧ escapeChar c = [0x5C, 0x22]) ∨
      (c ≠ 0x22 ∧ (escapeChar c).head? = some 0x5C ∧ (0x22 : UInt8) ∉ escapeChar c) := by
  revert c
  apply forall_byte
  decide +kernel

/-- A word without the characters up to the slash, and without backslashes. -/
theorem bare_of_gt {w : Bytes} (h : ∀ c ∈ w, 0x2F < c ∧ c ≠ 0x5C) : Bare w := by
  intro c hc
  obtain ⟨hgt, hne⟩ := h c hc
  have hlow : ∀ d : UInt8, d ≤ 0x2F → c ≠ d := by
    rintro d hd rfl
    exact UInt8.not_lt.mpr hd hgt
  have hspace : ¬ c < 0x20 := fun hlt => absurd (UInt8.lt_trans hgt hlt) (by decide)
  rw [escapeChar, if_neg (by simp [hne, hlow]), if_neg (hlow _ (by decide)),
    if_neg (hlow _ (by decide)), if_neg (hlow _ (by decide)), if_neg (hlow _ (by decide)),
    if_neg (hlow _ (by decide)), if_neg hspace]

theorem escape_cons (c : UInt8) (s : Bytes) : escape (c :: s) = escapeChar c ++ escape s := rfl

theorem stringText_bare {w : Bytes} (hw : Bare w) : stringText w = quoted w := by
  have hescape : escape w = w := by
    induction w with
    | nil => rfl
    | cons c w ih =>
      rw [escape_cons, hw c (by simp), ih fun d hd => hw d (by simp [hd])]
      rfl
  rw [stringText, hescape]
  rfl

/-- A word that is not escaped, then a quote, start the text of a string when the string is
that word. -/
theorem prefix_escape {w : Bytes} (hw : Bare w) (s rest : Bytes) :
    w ++ [0x22] <+: escape s ++ 0x22 :: rest ↔ s = w := by
  induction w generalizing s with
  | nil =>
    cases s with
    | nil => simp [escape]
    | cons c s =>
      simp only [List.nil_append, reduceCtorEq, iff_false, escape_cons]
      rcases escapeChar_cases c with ⟨hc, hquote, -⟩ | ⟨-, hc⟩ | ⟨-, hhead, -⟩
      · simp [hc, Ne.symm hquote]
      · simp [hc]
      · obtain ⟨e, he⟩ := List.head?_eq_some_iff.mp hhead
        simp [he]
  | cons a w ih =>
    have ha := hw a (by simp)
    have hw : Bare w := fun d hd => hw d (by simp [hd])
    -- `a` is no quote and no backslash, what an escape starts with
    obtain ⟨hquote, hback⟩ : a ≠ 0x22 ∧ a ≠ 0x5C := by
      rcases escapeChar_cases a with ⟨-, h⟩ | ⟨rfl, h⟩ | ⟨h, hhead, -⟩
      · exact h
      · rw [h] at ha
        cases ha
      · rw [ha] at hhead
        cases hhead
        exact absurd ha (by decide)
    cases s with
    | nil => simp [escape, hquote]
    | cons c s =>
      rw [escape_cons]
      rcases escapeChar_cases c with ⟨hc, -⟩ | ⟨hc, hescape⟩ | ⟨hc, hhead, -⟩
      · rw [hc]
        simp only [List.cons_append, List.nil_append, List.cons_prefix_cons, ih hw]
        simp [eq_comm]
      · subst hc
        simp [hescape, hback, Ne.symm hquote]
      · obtain ⟨e, he⟩ := List.head?_eq_some_iff.mp hhead
        simp only [he, List.cons_append, List.cons_prefix_cons, hback, false_and, false_iff]
        intro h
        cases h
        rw [ha] at he
        cases he
        exact hback rfl

/-! ## Where the quoted word is found

The text of one string, then what follows it. -/

theorem infix_append_of_not_mem {w t : Bytes} (ht : (0x22 : UInt8) ∉ t) (rest : Bytes) :
    quoted w <:+: t ++ rest ↔ quoted w <:+: rest := by
  induction t with
  | nil => rfl
  | cons c t ih =>
    rw [List.mem_cons, not_or] at ht
    have hstart : ¬ quoted w <+: c :: (t ++ rest) := by
      rw [quoted, List.cons_prefix_cons]
      exact fun h => ht.1 h.1
    rw [List.cons_append, List.infix_cons_iff, ih ht.2]
    simp [hstart]

/-- In what follows the first quote of a string: it starts at a quote of the string. -/
theorem infix_escape {w : Bytes} (hw : Bare w) (s rest : Bytes) :
    quoted w <:+: escape s ++ 0x22 :: rest ↔
      0x22 :: w <:+ s ∨ quoted w <:+: 0x22 :: rest := by
  induction s with
  | nil => simp [escape]
  | cons c s ih =>
    rw [escape_cons, List.append_assoc, List.suffix_cons_iff]
    rcases escapeChar_cases c with ⟨hc, hquote, -⟩ | ⟨rfl, hc⟩ | ⟨hquote, -, hc⟩
    · have hne : ¬ 0x22 :: w = c :: s := fun h => hquote (List.cons.inj h).1.symm
      rw [hc, infix_append_of_not_mem (by simpa using Ne.symm hquote), ih]
      simp [hne]
    · -- the escaped quote: the word starts after it, or further on
      have hstart : quoted w <+: 0x22 :: (escape s ++ 0x22 :: rest) ↔ s = w := by
        rw [quoted, List.cons_prefix_cons, prefix_escape hw]
        simp
      rw [hc]
      show quoted w <:+: 0x5C :: 0x22 :: (escape s ++ 0x22 :: rest) ↔ _
      rw [List.infix_cons_iff, List.infix_cons_iff, hstart, ih, List.cons_eq_cons]
      have hback : ¬ quoted w <+: 0x5C :: 0x22 :: (escape s ++ 0x22 :: rest) := by
        rw [quoted, List.cons_prefix_cons]
        exact fun h => absurd h.1 (by decide)
      simp [hback, eq_comm, or_assoc]
    · have hne : ¬ 0x22 :: w = c :: s := fun h => hquote (List.cons.inj h).1.symm
      rw [infix_append_of_not_mem hc, ih]
      simp [hne]

/-! ## Layouts

By induction on the value, with the text that follows it: what is shown is a concatenation, and
so is the text. -/

/-- The characters between strings and numbers. -/
def structural : Bytes := ascii " ,:[]\x7b\x7d"

/-- A word that is not escaped, and that does not start like what follows a string. -/
structure Word (w : Bytes) : Prop where
  bare : Bare w
  ne_nil : w ≠ []
  starts : ∀ c ∈ structural, w.head? ≠ some c

/-- What follows a string or a number does not go on with the word. -/
def Breaks (w rest : Bytes) : Prop := rest.head? ≠ w.head?

/-- A text that shows these strings, and none other between its quotes. -/
def Shows (w text : Bytes) (strings : List Bytes) : Prop :=
  ∀ rest, Breaks w rest →
    (quoted w <:+: text ++ rest ↔ (∃ s ∈ strings, EndsQuoted w s) ∨ quoted w <:+: rest)

section Shows

variable {w : Bytes} (hw : Word w)

include hw

theorem Word.breaks_nil : Breaks w [] := by
  intro h
  exact hw.ne_nil (List.head?_eq_none_iff.mp h.symm)

theorem Word.breaks_cons {c : UInt8} (hc : c ∈ structural) (rest : Bytes) :
    Breaks w (c :: rest) := by
  intro h
  exact hw.starts c hc h.symm

theorem Word.breaks_spaces {sp : Bytes} (hsp : ∀ c ∈ sp, c = 0x20) {rest : Bytes}
    (hrest : Breaks w rest) : Breaks w (sp ++ rest) := by
  cases sp with
  | nil => exact hrest
  | cons c sp =>
    rw [hsp c (by simp)]
    exact hw.breaks_cons (by decide) _

theorem Word.shows_string (s : Bytes) : Shows w (stringText s) [s] := by
  intro rest hrest
  have hfirst : quoted w <+: 0x22 :: (escape s ++ 0x22 :: rest) ↔ s = w := by
    rw [quoted, List.cons_prefix_cons, prefix_escape hw.bare]
    simp
  -- the last quote does not start it
  have hlast : ¬ quoted w <+: 0x22 :: rest := by
    rw [quoted, List.cons_prefix_cons]
    intro h
    obtain ⟨a, w', rfl⟩ := List.exists_cons_of_ne_nil hw.ne_nil
    cases rest with
    | nil => simp at h
    | cons c rest =>
      rw [List.cons_append, List.cons_prefix_cons] at h
      exact hrest (by simp [h.2.1])
  show quoted w <:+: 0x22 :: (escape s ++ [0x22] ++ rest) ↔ _
  rw [List.append_assoc, List.singleton_append, List.infix_cons_iff, hfirst,
    infix_escape hw.bare, List.infix_cons_iff]
  simp [hlast, endsQuoted_iff, or_assoc]

end Shows

/-! ### Texts put together

Two texts one after the other show what both of them show, and a text without a quote shows
nothing. -/

theorem Shows.of_not_mem {w t : Bytes} (ht : (0x22 : UInt8) ∉ t) : Shows w t [] := by
  intro rest _
  simp [infix_append_of_not_mem ht]

theorem Shows.append {w t u : Bytes} {ss us : List Bytes} (ht : Shows w t ss) (hu : Shows w u us)
    (hbreaks : ∀ rest, Breaks w rest → Breaks w (u ++ rest)) : Shows w (t ++ u) (ss ++ us) := by
  intro rest hrest
  rw [List.append_assoc, ht _ (hbreaks rest hrest), hu rest hrest]
  simp [List.mem_append, or_and_right, exists_or, or_assoc]

theorem Shows.prepend {w t u : Bytes} {us : List Bytes} (ht : (0x22 : UInt8) ∉ t)
    (hu : Shows w u us) : Shows w (t ++ u) us := by
  intro rest hrest
  rw [List.append_assoc, infix_append_of_not_mem ht, hu rest hrest]

section Layout

variable {w sp : Bytes} (hw : Word w) (hsp : ∀ c ∈ sp, c = 0x20)

include hsp

theorem quote_not_mem_spaces : (0x22 : UInt8) ∉ sp := by
  intro h
  exact absurd (hsp _ h) (by decide)

/-- Punctuation and spaces before a text. -/
theorem Shows.after {t u : Bytes} {us : List Bytes} (ht : (0x22 : UInt8) ∉ t)
    (hu : Shows w u us) : Shows w (t ++ (sp ++ u)) us :=
  .prepend ht (.prepend (quote_not_mem_spaces hsp) hu)

/-- The end of an object or of an array. -/
theorem shows_close {t : Bytes} (ht : (0x22 : UInt8) ∉ t) : Shows w (sp ++ t) [] := by
  apply Shows.of_not_mem
  rw [List.mem_append, not_or]
  exact ⟨quote_not_mem_spaces hsp, ht⟩

include hw

theorem Word.breaks_close {c : UInt8} (hc : c ∈ structural) (t rest : Bytes) :
    Breaks w (sp ++ c :: t ++ rest) := by
  rw [List.append_assoc]
  exact hw.breaks_spaces hsp (hw.breaks_cons hc _)

/-- A key, its value, and what follows them. -/
theorem Word.shows_member {v t : Bytes} {vs ts : List Bytes} (hv : Shows w v vs)
    (ht : Shows w t ts) (hbreaks : ∀ rest, Breaks w (t ++ rest)) (k : Bytes) :
    Shows w (stringText k ++ (ascii ":" ++ (sp ++ (v ++ t)))) (k :: vs ++ ts) := by
  have htail : Shows w (v ++ t) (vs ++ ts) := hv.append ht fun rest _ => hbreaks rest
  have hcolon : Shows w (ascii ":" ++ (sp ++ (v ++ t))) (vs ++ ts) := .after hsp (by decide) htail
  exact (hw.shows_string k).append hcolon fun rest _ => hw.breaks_cons (c := 0x3A) (by decide) _

/-- The members after the first one, where `f` says what each value shows. -/
theorem Word.shows_members {f : Json → List Bytes} {ms : List (Bytes × Json)}
    (hms : ∀ m ∈ ms, Shows w (m.2.layout sp) (f m.2)) :
    Shows w (membersLayout sp ms) (ms.flatMap fun m => m.1 :: f m.2) ∧
      ∀ rest, Breaks w (membersLayout sp ms ++ rest) := by
  induction ms with
  | nil => exact ⟨shows_close hsp (by decide), hw.breaks_close hsp (c := 0x7D) (by decide) []⟩
  | cons m ms ih =>
    obtain ⟨k, j⟩ := m
    obtain ⟨hrest, hbreaks⟩ := ih fun m hm => hms m (by simp [hm])
    have hpair := hw.shows_member hsp (hms (k, j) (by simp)) hrest hbreaks k
    constructor
    · have hcomma : Shows w (ascii "," ++ (sp ++ _)) _ := .after hsp (by decide) hpair
      simpa only [membersLayout, List.append_assoc, List.flatMap_cons] using hcomma
    · intro rest
      exact hw.breaks_cons (c := 0x2C) (by decide) _

/-- An object shows its keys and what its values show. -/
theorem Word.shows_obj {f : Json → List Bytes} {ms : List (Bytes × Json)}
    (hms : ∀ m ∈ ms, Shows w (m.2.layout sp) (f m.2)) :
    Shows w ((obj ms).layout sp) (ms.flatMap fun m => m.1 :: f m.2) := by
  cases ms with
  | nil =>
    rw [layout, List.append_assoc]
    exact .prepend (by decide) (shows_close hsp (by decide))
  | cons m ms =>
    obtain ⟨k, j⟩ := m
    have hms' : ∀ m ∈ ms, Shows w (m.2.layout sp) (f m.2) := fun m hm => hms m (by simp [hm])
    obtain ⟨hrest, hbreaks⟩ := hw.shows_members hsp hms'
    have hpair := hw.shows_member hsp (hms (k, j) (by simp)) hrest hbreaks k
    have hopen : Shows w (ascii "\x7b" ++ (sp ++ _)) _ := .after hsp (by decide) hpair
    simpa only [layout, List.append_assoc, List.flatMap_cons] using hopen

/-- The items after the first one, where `f` says what each shows. -/
theorem Word.shows_items {f : Json → List Bytes} {js : List Json}
    (hjs : ∀ j ∈ js, Shows w (j.layout sp) (f j)) :
    Shows w (itemsLayout sp js) (js.flatMap f) ∧ ∀ rest, Breaks w (itemsLayout sp js ++ rest) := by
  induction js with
  | nil => exact ⟨shows_close hsp (by decide), hw.breaks_close hsp (c := 0x5D) (by decide) []⟩
  | cons j js ih =>
    obtain ⟨hrest, hbreaks⟩ := ih fun j hj => hjs j (by simp [hj])
    constructor
    · have htail := (hjs j (by simp)).append hrest fun rest _ => hbreaks rest
      have hcomma : Shows w (ascii "," ++ (sp ++ _)) _ := .after hsp (by decide) htail
      simpa only [itemsLayout, List.append_assoc, List.flatMap_cons] using hcomma
    · intro rest
      exact hw.breaks_cons (c := 0x2C) (by decide) _

/-- An array shows what its items show. -/
theorem Word.shows_arr {f : Json → List Bytes} {js : List Json}
    (hjs : ∀ j ∈ js, Shows w (j.layout sp) (f j)) :
    Shows w ((arr js).layout sp) (js.flatMap f) := by
  cases js with
  | nil =>
    rw [layout, List.append_assoc]
    exact .prepend (by decide) (shows_close hsp (by decide))
  | cons j js =>
    have hjs' : ∀ j ∈ js, Shows w (j.layout sp) (f j) := fun j hj => hjs j (by simp [hj])
    obtain ⟨hrest, hbreaks⟩ := hw.shows_items hsp hjs'
    have htail := (hjs j (by simp)).append hrest fun rest _ => hbreaks rest
    have hopen : Shows w (ascii "[" ++ (sp ++ _)) _ := .after hsp (by decide) htail
    simpa only [layout, List.append_assoc, List.flatMap_cons] using hopen

omit hsp in
/-- The quoted word stands in a text when a string that the text shows ends with it. -/
theorem Shows.infix_iff {t : Bytes} {ss : List Bytes} (ht : Shows w t ss) :
    quoted w <:+: t ↔ ∃ s ∈ ss, EndsQuoted w s := by
  have h := ht [] hw.breaks_nil
  have hnil : ¬ quoted w <:+: [] := by
    rw [List.infix_nil]
    exact nofun
  simpa [hnil] using h

end Layout

/-! ## Members

For an object that is built member by member, as encoders do. -/

/-- A member that is a string stands in the text of its object. -/
theorem stringText_infix (sp : Bytes) {k s : Bytes} {ms : List (Bytes × Json)}
    (h : (k, str s) ∈ ms) :
    stringText s <:+: (obj ms).layout sp := by
  have hmembers : ∀ {ms}, (k, str s) ∈ ms → stringText s <:+: membersLayout sp ms := by
    intro ms h
    induction ms with
    | nil => cases h
    | cons m ms ih =>
      obtain ⟨l, j⟩ := m
      rw [membersLayout]
      rcases List.mem_cons.mp h with h | h
      · cases h
        rw [layout]
        exact ⟨_, _, rfl⟩
      · exact (ih h).trans (List.suffix_append _ _).isInfix
  cases ms with
  | nil => cases h
  | cons m ms =>
    obtain ⟨l, j⟩ := m
    rw [layout]
    rcases List.mem_cons.mp h with h | h
    · cases h
      rw [layout]
      exact ⟨_, _, rfl⟩
    · exact (hmembers h).trans (List.suffix_append _ _).isInfix

/-- A value without strings but itself, or the items of its array. -/
def Flat : Json → Prop
  | str _ => True
  | bool _ => True
  | arr js => ∀ j ∈ js, j.str? ≠ none
  | _ => False

/-- The strings of a flat value. -/
def texts : Json → List Bytes
  | str s => [s]
  | arr js => js.flatMap fun j => j.str?.toList
  | _ => []

@[simp] theorem str?_str (s : Bytes) : (str s).str? = some s := rfl

@[simp] theorem texts_str (s : Bytes) : (str s).texts = [s] := rfl

@[simp] theorem texts_bool (b : Bool) : (bool b).texts = [] := rfl

@[simp] theorem texts_arr (js : List Json) :
    (arr js).texts = js.flatMap fun j => j.str?.toList := rfl

theorem Word.shows_flat {w sp : Bytes} (hw : Word w) (hsp : ∀ c ∈ sp, c = 0x20) {j : Json}
    (hj : j.Flat) : Shows w (j.layout sp) j.texts := by
  cases j with
  | str s =>
    rw [layout]
    exact hw.shows_string s
  | bool b => cases b <;> exact .of_not_mem (by rw [layout]; decide)
  | arr js =>
    apply hw.shows_arr hsp
    intro j hj'
    obtain ⟨s, hs⟩ := Option.ne_none_iff_exists'.mp (hj j hj')
    cases j with
    | str _ =>
      cases hs
      rw [layout]
      exact hw.shows_string s
    | _ => cases hs
  | null => exact hj.elim
  | int _ => exact hj.elim
  | double _ => exact hj.elim
  | obj _ => exact hj.elim

/-! ## Strings at any depth

The general case, with the strings of a value as a function of it. -/

mutual

/-- The strings of a value, with the keys of its objects. -/
def strings : Json → List Bytes
  | str s => [s]
  | arr js => itemsStrings js
  | obj ms => membersStrings ms
  | _ => []

def itemsStrings : List Json → List Bytes
  | [] => []
  | j :: js => j.strings ++ itemsStrings js

def membersStrings : List (Bytes × Json) → List Bytes
  | [] => []
  | (k, j) :: ms => k :: j.strings ++ membersStrings ms

end

theorem strings_arr (js : List Json) : (arr js).strings = js.flatMap strings := by
  rw [strings]
  induction js with
  | nil => rfl
  | cons j js ih => rw [itemsStrings, ih, List.flatMap_cons]

theorem strings_obj (ms : List (Bytes × Json)) :
    (obj ms).strings = ms.flatMap fun m => m.1 :: m.2.strings := by
  rw [strings]
  induction ms with
  | nil => rfl
  | cons m ms ih => rw [membersStrings, ih, List.flatMap_cons]

/-! ## Printable texts

The escapes leave no control character. -/

/-- No control character. -/
def Printable (text : Bytes) : Prop := ∀ c ∈ text, 0x20 ≤ c

instance (text : Bytes) : Decidable (Printable text) := List.decidableBAll _ text

theorem Printable.append {text text' : Bytes} (h : Printable text) (h' : Printable text') :
    Printable (text ++ text') := by
  intro c hc
  rcases List.mem_append.mp hc with hc | hc
  · exact h c hc
  · exact h' c hc

theorem Printable.flatMap {α : Type} {f : α → Bytes} {xs : List α}
    (h : ∀ x ∈ xs, Printable (f x)) : Printable (xs.flatMap f) := by
  intro c hc
  obtain ⟨x, hx, hc⟩ := List.mem_flatMap.mp hc
  exact h x hx c hc

theorem printable_spaces {sp : Bytes} (hsp : ∀ c ∈ sp, c = 0x20) : Printable sp := by
  intro c hc
  rw [hsp c hc]
  decide

theorem hexChar_printable {d : Nat} (h : d < 16) : 0x20 ≤ hexChar d := by
  revert d
  decide

theorem printable_escapeChar (c : UInt8) : Printable (escapeChar c) := by
  unfold escapeChar
  split_ifs with hspecial _ _ _ _ _ hlow
  · intro d hd
    rcases List.mem_cons.mp hd with rfl | hd
    · decide
    · obtain rfl := List.mem_singleton.mp hd
      rcases hspecial with rfl | rfl | rfl <;> decide
  · decide
  · decide
  · decide
  · decide
  · decide
  · have hlt : c.toNat < 32 := UInt8.lt_iff_toNat_lt.mp hlow
    refine .append (by decide) ?_
    intro d hd
    rcases List.mem_cons.mp hd with rfl | hd
    · exact hexChar_printable (by omega)
    · obtain rfl := List.mem_singleton.mp hd
      exact hexChar_printable (by omega)
  · intro d hd
    obtain rfl := List.mem_singleton.mp hd
    exact UInt8.not_lt.mp hlow

theorem printable_stringText (s : Bytes) : Printable (stringText s) := by
  have hquote : Printable [0x22] := by decide
  exact hquote.append (.append (.flatMap fun c _ => printable_escapeChar c) hquote)

section Layout

variable {sp : Bytes} (hsp : ∀ c ∈ sp, c = 0x20)
include hsp

/-! ### Values

By induction on the layout of a flat value, like the strings before. -/

theorem printable_items {js : List Json} (hjs : ∀ j ∈ js, Printable (j.layout sp)) :
    Printable (itemsLayout sp js) := by
  have hspaces := printable_spaces hsp
  induction js with
  | nil => exact hspaces.append (by decide)
  | cons j js ih =>
    rw [itemsLayout]
    refine .append (.append (.append (by decide) hspaces) (hjs j List.mem_cons_self)) ?_
    exact ih fun j' hj' => hjs j' (List.mem_cons_of_mem _ hj')

/-- A flat value has a printable text. -/
theorem Flat.printable {j : Json} (hj : j.Flat) : Printable (j.layout sp) := by
  have hspaces := printable_spaces hsp
  cases j with
  | str s =>
    rw [layout]
    exact printable_stringText s
  | bool b => cases b <;> rw [layout] <;> decide
  | arr js =>
    have hitems : ∀ j ∈ js, Printable (j.layout sp) := by
      intro j hj'
      obtain ⟨s, hs⟩ := Option.ne_none_iff_exists'.mp (hj j hj')
      cases j with
      | str _ =>
        rw [layout]
        exact printable_stringText _
      | _ => cases hs
    cases js with
    | nil =>
      rw [layout]
      exact .append (.append (by decide) hspaces) (by decide)
    | cons j js =>
      rw [layout]
      refine .append (.append (.append (by decide) hspaces) (hitems j List.mem_cons_self)) ?_
      exact printable_items hsp fun j' hj' => hitems j' (List.mem_cons_of_mem _ hj')
  | null => exact hj.elim
  | int _ => exact hj.elim
  | double _ => exact hj.elim
  | obj _ => exact hj.elim

theorem printable_members {ms : List (Bytes × Json)} (hms : ∀ m ∈ ms, m.2.Flat) :
    Printable (membersLayout sp ms) := by
  have hspaces := printable_spaces hsp
  induction ms with
  | nil => exact hspaces.append (by decide)
  | cons m ms ih =>
    obtain ⟨k, j⟩ := m
    have hflat : j.Flat := hms (k, j) List.mem_cons_self
    rw [membersLayout]
    refine .append (.append (.append (.append (.append (.append (by decide) hspaces)
      (printable_stringText k)) (by decide)) hspaces) (hflat.printable hsp)) ?_
    exact ih fun m hm => hms m (List.mem_cons_of_mem _ hm)

/-- An object of flat values has a printable text. -/
theorem printable_obj {ms : List (Bytes × Json)} (hms : ∀ m ∈ ms, m.2.Flat) :
    Printable ((obj ms).layout sp) := by
  have hspaces := printable_spaces hsp
  cases ms with
  | nil =>
    rw [layout]
    exact .append (.append (by decide) hspaces) (by decide)
  | cons m ms =>
    obtain ⟨k, j⟩ := m
    have hflat : j.Flat := hms (k, j) List.mem_cons_self
    rw [layout]
    refine .append (.append (.append (.append (.append (.append (by decide) hspaces)
      (printable_stringText k)) (by decide)) hspaces) (hflat.printable hsp)) ?_
    exact printable_members hsp fun m hm => hms m (List.mem_cons_of_mem _ hm)

end Layout

end RsmpGateway.Lib.Json

namespace RsmpGateway.Lib.JsonLib

/-- What is printed is the value laid out, with spaces or without. -/
def LaysOut (J : JsonLib) : Prop :=
  ∀ {j text}, J.print j = some text → ∃ sp, (∀ c ∈ sp, c = 0x20) ∧ text = Json.layout sp j

theorem ofTable_laysOut {table : List (Bytes × Json)}
    (htext : ∀ e ∈ table, e.1 = e.2.toText ∨ e.1 = e.2.toPlain) :
    (JsonLib.ofTable table).LaysOut := by
  intro j text h
  obtain ⟨⟨t, k⟩, hfind, rfl⟩ := Option.map_eq_some_iff.mp h
  obtain rfl : k = j := Json.eq_of_same (by simpa using List.find?_some hfind)
  rcases htext _ (List.mem_of_find?_eq_some hfind) with hspaced | hplain
  · exact ⟨ascii " ", by simp [ascii], hspaced⟩
  · exact ⟨[], by simp, hplain⟩

theorem ofValues_laysOut (values : List Json) : (JsonLib.ofValues values).LaysOut := by
  refine ofTable_laysOut fun e he => ?_
  obtain ⟨j, -, rfl⟩ := List.mem_map.mp he
  exact .inl rfl

theorem ofPlain_laysOut (values : List Json) : (JsonLib.ofPlain values).LaysOut := by
  refine ofTable_laysOut fun e he => ?_
  obtain ⟨j, -, rfl⟩ := List.mem_map.mp he
  exact .inr rfl

end RsmpGateway.Lib.JsonLib
