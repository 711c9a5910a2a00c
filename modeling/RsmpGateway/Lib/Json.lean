import RsmpGateway.Lib.Text

/-!
# JSON values

The values of json-c and its accessors. A null pointer stands for the JSON `null`, and for a text
that is not parsed. The parser and the printer come from outside; the parser is assumed to read
back what the printer wrote (`JsonLib.Lawful`).

A printer writes with spaces between the members or without, and the layout of a value is defined
for both, so that what a text of a value looks like can be said. A library that prints and parses
a given table of values is at hand for the examples.
-/

namespace RsmpGateway.Lib

inductive Json
  | null
  | bool (b : Bool)
  | int (n : Int)
  | double (text : Bytes)
  | str (s : Bytes)
  | arr (items : List Json)
  | obj (members : List (Bytes × Json))
  deriving Repr

/-- json-c: `json_tokener_parse`, and `json_object_to_json_string` where it returns a
text. -/
structure JsonLib where
  parse : Bytes → Option Json
  print : Json → Option Bytes

/-- A text that is printed is a C string of at most `INT_MAX` bytes, and is parsed. -/
structure JsonLib.Lawful (J : JsonLib) : Prop where
  parse_nil : J.parse [] = none
  parse_print : ∀ {j text}, J.print j = some text → J.parse text = some j
  nul : ∀ {j text}, J.print j = some text → (0 : UInt8) ∉ text
  length : ∀ {j text}, J.print j = some text → text.length < 2 ^ 31

namespace Json

/-- `json_object_object_get_ex`: the member, which may be `null`. -/
def get? (j : Json) (key : Bytes) : Option Json :=
  match j with
  | obj members => (members.find? fun m => m.1 = key).map Prod.snd
  | _ => none

/-- `json_object_get_string` of a value that is not `null`: another value than a string is
printed. -/
def getString (J : JsonLib) : Json → Option Bytes
  | null => none
  | str s => some s
  | j => J.print j

/-- The string, of a value that is one. -/
def str? : Json → Option Bytes
  | str s => some s
  | _ => none

/-- `json_object_object_add`: the value of a key that is there already is replaced. -/
def addMember (members : List (Bytes × Json)) (key : Bytes) (value : Json) :
    List (Bytes × Json) :=
  if members.any fun m => m.1 = key then
    members.map fun m => if m.1 = key then (key, value) else m
  else members ++ [(key, value)]

/-! ## Comparison

Values can be compared by evaluation, member by member. -/

mutual

/-- The two values are the same. -/
def same : Json → Json → Bool
  | null, null => true
  | bool b, bool c => b == c
  | int n, int m => n == m
  | double s, double t => s == t
  | str s, str t => s == t
  | arr js, arr ks => sameItems js ks
  | obj ms, obj ns => sameMembers ms ns
  | _, _ => false

def sameItems : List Json → List Json → Bool
  | [], [] => true
  | j :: js, k :: ks => same j k && sameItems js ks
  | _, _ => false

def sameMembers : List (Bytes × Json) → List (Bytes × Json) → Bool
  | [], [] => true
  | (k, j) :: ms, (l, i) :: ns => k == l && same j i && sameMembers ms ns
  | _, _ => false

end

mutual

theorem eq_of_same : ∀ {j k : Json}, same j k = true → j = k := by
  intro j k h
  cases j <;> cases k <;>
    simp_all only [same, beq_iff_eq, Bool.false_eq_true]
  · rw [eq_of_sameItems h]
  · rw [eq_of_sameMembers h]

theorem eq_of_sameItems : ∀ {js ks : List Json}, sameItems js ks = true → js = ks
  | [], [], _ => rfl
  | j :: js, k :: ks, h => by
    rw [sameItems, Bool.and_eq_true] at h
    rw [eq_of_same h.1, eq_of_sameItems h.2]

theorem eq_of_sameMembers :
    ∀ {ms ns : List (Bytes × Json)}, sameMembers ms ns = true → ms = ns
  | [], [], _ => rfl
  | (k, j) :: ms, (l, i) :: ns, h => by
    rw [sameMembers, Bool.and_eq_true, Bool.and_eq_true, beq_iff_eq] at h
    rw [h.1.1, eq_of_same h.1.2, eq_of_sameMembers h.2]

end

theorem get?_obj_cons (k key : Bytes) (v : Json) (members : List (Bytes × Json)) :
    (obj ((k, v) :: members)).get? key = if k = key then some v else (obj members).get? key := by
  simp only [get?, List.find?_cons]
  by_cases h : k = key
  · simp [h]
  · simp [h]

/-! ## Texts

How json-c writes a value. The characters that it escapes are those below the space, the quote,
the backslash and the slash. -/

/-- A digit of `json_hex_chars`. -/
def hexChar (d : Nat) : UInt8 := if d < 10 then digitByte d else (0x57 + d).toUInt8

/-- `json_escape_str` of a character. -/
def escapeChar (c : UInt8) : Bytes :=
  if c = 0x22 ∨ c = 0x5C ∨ c = 0x2F then [0x5C, c]
  else if c = 0x08 then ascii "\\b"
  else if c = 0x0A then ascii "\\n"
  else if c = 0x0D then ascii "\\r"
  else if c = 0x09 then ascii "\\t"
  else if c = 0x0C then ascii "\\f"
  else if c < 0x20 then ascii "\\u00" ++ [hexChar (c.toNat / 16), hexChar (c.toNat % 16)]
  else [c]

/-- `json_escape_str` -/
def escape (s : Bytes) : Bytes := s.flatMap escapeChar

def stringText (s : Bytes) : Bytes := 0x22 :: (escape s ++ [0x22])

section Layout

-- what stands where `JSON_C_TO_STRING_SPACED` puts a space
variable (sp : Bytes)

mutual

/-- The text of `json_object_to_json_string_ext`. -/
def layout : Json → Bytes
  | null => ascii "null"
  | bool b => ascii (if b then "true" else "false")
  | int n => (if n < 0 then [0x2D] else []) ++ decimal n.natAbs
  | double text => text
  | str s => stringText s
  | arr [] => ascii "[" ++ sp ++ ascii "]"
  | arr (j :: js) => ascii "[" ++ sp ++ layout j ++ itemsLayout js
  | obj [] => ascii "\x7b" ++ sp ++ ascii "\x7d"
  | obj ((k, j) :: ms) =>
    ascii "\x7b" ++ sp ++ stringText k ++ ascii ":" ++ sp ++ layout j ++ membersLayout ms

/-- The items after the first one. -/
def itemsLayout : List Json → Bytes
  | [] => sp ++ ascii "]"
  | j :: js => ascii "," ++ sp ++ layout j ++ itemsLayout js

/-- The members after the first one. -/
def membersLayout : List (Bytes × Json) → Bytes
  | [] => sp ++ ascii "\x7d"
  | (k, j) :: ms =>
    ascii "," ++ sp ++ stringText k ++ ascii ":" ++ sp ++ layout j ++ membersLayout ms

end

end Layout

/-- The text of `json_object_to_json_string`. -/
def toText (j : Json) : Bytes := j.layout (ascii " ")

/-- The text of `JSON_C_TO_STRING_PLAIN`. -/
def toPlain (j : Json) : Bytes := j.layout []

end Json

/-- A parser and a printer that know the texts of a table. -/
def JsonLib.ofTable (table : List (Bytes × Json)) : JsonLib where
  parse text := (table.find? fun e => e.1 = text).map Prod.snd
  print j := (table.find? fun e => e.2.same j).map Prod.fst

/-- Different texts, which are C strings. -/
theorem JsonLib.ofTable_lawful {table : List (Bytes × Json)}
    (hnodup : (table.map Prod.fst).Nodup)
    (htext : ∀ e ∈ table, e.1 ≠ [] ∧ (0 : UInt8) ∉ e.1 ∧ e.1.length < 2 ^ 31) :
    (JsonLib.ofTable table).Lawful := by
  have hprint : ∀ {j text}, (JsonLib.ofTable table).print j = some text → (text, j) ∈ table := by
    intro j text h
    obtain ⟨⟨t, k⟩, hfind, rfl⟩ := Option.map_eq_some_iff.mp h
    have hsame : k.same j = true := by simpa using List.find?_some hfind
    obtain rfl := Json.eq_of_same hsame
    exact List.mem_of_find?_eq_some hfind
  constructor
  · have hnone : (table.find? fun e => e.1 = []) = none := by
      rw [List.find?_eq_none]
      intro e he
      simpa using (htext e he).1
    simp [ofTable, hnone]
  · intro j text h
    have hmem := hprint h
    cases hfind : table.find? fun e => e.1 = text with
    | none =>
      rw [List.find?_eq_none] at hfind
      exact absurd (decide_eq_true rfl) (hfind _ hmem)
    | some e =>
      have htext : e.1 = text := by simpa using List.find?_some hfind
      have he : e = (text, j) :=
        List.inj_on_of_nodup_map hnodup (List.mem_of_find?_eq_some hfind) hmem htext
      simp [ofTable, hfind, he]
  · intro j text h
    exact (htext _ (hprint h)).2.1
  · intro j text h
    exact (htext _ (hprint h)).2.2

/-- json-c, for a list of values. -/
def JsonLib.ofValues (values : List Json) : JsonLib :=
  .ofTable (values.map fun j => (j.toText, j))

/-- json-c, for a list of values that are printed plain. -/
def JsonLib.ofPlain (values : List Json) : JsonLib :=
  .ofTable (values.map fun j => (j.toPlain, j))

end RsmpGateway.Lib
