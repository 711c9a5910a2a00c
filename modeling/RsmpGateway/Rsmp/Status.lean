import RsmpGateway.Rsmp.Command

/-!
# The execution of status requests

`_rsmp_msg_StatusRequest_exe` answers the items of a request with the callback of a status code.
The callback of an item is looked for by the code of another one: that of the item whose index is
the one of the callback. What is answered is exact when the callback that all the items get makes
no difference to any of them (`statusRequestExe_exact_iff`).

There are two callbacks, for `GEN/S1` and `GEN/S2`. So the first two items of a request decide
for all of them, and with one item the loop may read a second one that is not there.
-/

namespace RsmpGateway.Rsmp

open RsmpGateway.Lib RsmpGateway.Auth RsmpGateway.Coder

/-! ## Requests

The items of a request, with the names of their fields. -/

/-- `sSs`, in a request. -/
abbrev SSs : Type := Option CStr × Option CStr × Unit

namespace SSs

def sCI (elt : SSs) : Option CStr := elt.1

def n (elt : SSs) : Option CStr := elt.2.1

end SSs

/-- `rsmp_msg_StatusRequest_t` -/
abbrev StatusRequest : Type :=
  Unit × MsgType × Uuid × Option CStr × Option CStr × Option CStr × List SSs × Unit

namespace StatusRequest

def msg (request : StatusRequest) : Message := ⟨.statusRequest, request⟩

def sS : StatusRequest → List SSs
  | (_, _, _, _, _, _, sS, _) => sS

end StatusRequest

/-! ## Callbacks

The two callbacks look a name up in a table, and answer nothing for a name that is not there. -/

/-- `fct` in `CallbackEntry`: the object of the answer, unless it returns -1. -/
abbrev StatusFct : Type := SSs → Except Stop (Option Json)

/-- The object of an answer. -/
def statusObject (s : Bytes) (sCI n : CStr) : Json :=
  .obj [(ascii "s", .str s), (ascii "q", .str (ascii "recent")), (ascii "sCI", .str sCI.val),
    (ascii "n", .str n.val)]

/-- A callback that compares `n` with the names it knows. json-c takes the length of the string
that it copies. -/
def fctOf (values : List (Bytes × Bytes)) : StatusFct := fun elt =>
  match elt.n with
  | none => .error .nullString
  | some n =>
    match values.lookup n.val with
    | none => .ok none
    | some s =>
      match elt.sCI with
      | none => .error .nullString
      | some sCI => .ok (some (statusObject s sCI n))

/-- The values of `GEN/S1`. -/
def genS1Values : List (Bytes × Bytes) :=
  [(ascii "Manufacturer", ascii "SVMS"), (ascii "ProductName", ascii "PIP"),
    (ascii "SoftwareVersion", ascii "1.2.3"), (ascii "HardwareVersion", ascii "4.6")]

/-- The values of `GEN/S2`. -/
def genS2Values : List (Bytes × Bytes) :=
  [(ascii "Name", ascii "default.conf"), (ascii "Version", ascii "version-dev"),
    (ascii "Timestamp", ascii "2025-03-24T17:04:05.540Z"), (ascii "Location", ascii "0,0")]

/-- `fct_GEN_S1` -/
def fctGenS1 : StatusFct := fctOf genS1Values

/-- `fct_GEN_S2` -/
def fctGenS2 : StatusFct := fctOf genS2Values

/-- `CallbackEntry` -/
structure CallbackEntry where
  sigName : Bytes
  fct : StatusFct

/-- `callbacks` -/
def callbacks : List CallbackEntry := [⟨ascii "GEN/S1", fctGenS1⟩, ⟨ascii "GEN/S2", fctGenS2⟩]

/-! ## Execution

The loop over the items, and for each of them the loop over the callbacks. -/

/-- The inner loop, from the callback `j` on: its name is compared with the code of the item
`j`. -/
def findCallback (items : List SSs) : Nat → List CallbackEntry → Except Stop (Option StatusFct)
  | _, [] => .ok none
  | j, entry :: entries =>
    match items[j]?.map SSs.sCI with
    | none => .error .overflow
    | some none => .error .nullString
    | some (some sCI) =>
      if entry.sigName = sCI.val then .ok (some entry.fct) else findCallback items (j + 1) entries

/-- The answer to an item, if a callback was found. -/
def callStatus (fct : Option StatusFct) (elt : SSs) : Except Stop (Option Json) :=
  match fct with
  | none => .ok none
  | some fct => fct elt

/-- The outer loop. -/
def statusEntries (items : List SSs) : List SSs → Except Stop (List Json)
  | [] => .ok []
  | elt :: elts => do
    let fct ← findCallback items 0 callbacks
    let jobj ← callStatus fct elt
    let jobjs ← statusEntries items elts
    return jobj.toList ++ jobjs

section Execution

variable {σ : Type} (X : RsmpExt) (engine : Option (Bytes → σ → Int × σ))

/-- `rsmp_json_msg2payload_with_inserting_jobj`: the member of the key is deleted, then added. -/
def rsmpJsonMsg2payloadWithInsertingJobj (msg : Message) (key : Bytes) (jobjToInsert : Json) :
    Option Bytes :=
  match msg.1.desc?, msg.1.desc.jsonAddFields X msg.2 [] with
  | some _, some members =>
    X.json.print (.obj (Json.addMember (members.filter fun m => m.1 ≠ key) key jobjToInsert))
  | _, _ => none

/-- `_rsmp_msg_StatusRequest_exe`. The answer goes to the log when there is no engine; there is
no length of an answer that was not printed. -/
def statusRequestExe (B : Birth) (request : StatusRequest) : TraceM Stop σ Bytes Int := do
  let jobjs ← (statusEntries request.sS request.sS : Except Stop (List Json))
  let response : Message := ⟨.statusResponse, MsgType.statusResponse.new B⟩
  match rsmpJsonMsg2payloadWithInsertingJobj X response (ascii "sS") (.arr jobjs) with
  | none => throw .nullString
  | some payload =>
    let _ ← TraceM.perform payload ((engine.getD fun _ s => (noError, s)) payload)
    return noError

end Execution

/-! ## What is to be answered

To each item the answer of the callback of its own code; an item that has none is left out. -/

/-- The values that are implemented, by code and by name. -/
def statusValues : List (Bytes × List (Bytes × Bytes)) :=
  [(ascii "GEN/S1", genS1Values), (ascii "GEN/S2", genS2Values)]

/-- The answer to an item from a table of values. -/
def answerFrom (values : List (Bytes × Bytes)) (elt : SSs) : Option Json := do
  let sCI ← elt.sCI
  let n ← elt.n
  let s ← values.lookup n.val
  return statusObject s sCI n

/-- The values of the code of an item. -/
def valuesOf (elt : SSs) : List (Bytes × Bytes) :=
  ((elt.sCI.bind fun sCI => statusValues.lookup sCI.val)).getD []

/-- The answer to an item: its code is that of a callback, which knows its name. -/
def statusAnswer (elt : SSs) : Option Json := answerFrom (valuesOf elt) elt

/-- The answer to a request is sent, and carries the answers to its items. -/
def StatusExact {σ : Type} (X : RsmpExt) (engine : Option (Bytes → σ → Int × σ)) (B : Birth)
    (request : StatusRequest) (t : Traced σ Bytes) : Prop :=
  ∃ ret payload s members,
    statusRequestExe X engine B request t = .ok (ret, ⟨s, t.trace ++ [payload]⟩) ∧
    X.json.parse payload = some (.obj members) ∧
    (Json.obj members).get? (ascii "sS") = some (.arr (request.sS.filterMap statusAnswer))

/-- The items have a code and a name, as the decoder leaves them. -/
def StatusRequest.Filled (request : StatusRequest) : Prop :=
  ∀ elt ∈ request.sS, elt.sCI ≠ none ∧ elt.n ≠ none

namespace SSs

/-- The code of the item. -/
def HasCode (code : Bytes) (elt : SSs) : Prop := elt.sCI.map Subtype.val = some code

/-- The name of the item is in the table. -/
def Named (values : List (Bytes × Bytes)) (elt : SSs) : Prop :=
  ∃ n s, elt.n = some n ∧ values.lookup n.val = some s

/-- The callback of the code of the item knows its name. -/
def Implemented (elt : SSs) : Prop := elt.Named (valuesOf elt)

end SSs

/-- The callback that all the items get makes no difference. It is that of `GEN/S1` when the
first item has this code; else it is that of `GEN/S2` when there is a second item, with this
code; else there is none, but the code of a second item was read. -/
inductive NoDifference : List SSs → Prop
  | nil : NoDifference []
  | first {elt elts} : elt.HasCode (ascii "GEN/S1") →
    (∀ e ∈ elt :: elts, e.HasCode (ascii "GEN/S1") ∨
      ¬ e.Named genS1Values ∧ ¬ e.Implemented) →
    NoDifference (elt :: elts)
  | second {elt elt' elts} : ¬ elt.HasCode (ascii "GEN/S1") → elt'.HasCode (ascii "GEN/S2") →
    (∀ e ∈ elt :: elt' :: elts, e.HasCode (ascii "GEN/S2") ∨
      ¬ e.Named genS2Values ∧ ¬ e.Implemented) →
    NoDifference (elt :: elt' :: elts)
  | neither {elt elt' elts} : ¬ elt.HasCode (ascii "GEN/S1") → ¬ elt'.HasCode (ascii "GEN/S2") →
    (∀ e ∈ elt :: elt' :: elts, ¬ e.Implemented) →
    NoDifference (elt :: elt' :: elts)

/-! ## The answers

Two callbacks know no name in common, so that an answer tells which one has made it. -/

section Answers

variable {values : List (Bytes × Bytes)} {elt : SSs}

theorem fctOf_eq (hfilled : elt.sCI ≠ none ∧ elt.n ≠ none) :
    fctOf values elt = .ok (answerFrom values elt) := by
  obtain ⟨sCI, hsCI⟩ := Option.ne_none_iff_exists'.mp hfilled.1
  obtain ⟨n, hn⟩ := Option.ne_none_iff_exists'.mp hfilled.2
  simp only [fctOf, answerFrom, hsCI, hn]
  cases hs : values.lookup n.val with
  | none => simp [hs]
  | some s => simp [hs]

theorem answerFrom_eq_none_iff (hfilled : elt.sCI ≠ none ∧ elt.n ≠ none) :
    answerFrom values elt = none ↔ ¬ elt.Named values := by
  obtain ⟨sCI, hsCI⟩ := Option.ne_none_iff_exists'.mp hfilled.1
  obtain ⟨n, hn⟩ := Option.ne_none_iff_exists'.mp hfilled.2
  simp only [answerFrom, SSs.Named, hsCI, hn]
  cases values.lookup n.val <;> simp

/-! ### Two tables

An answer names the code and the name of its item, and the names of the two tables are different.
So what one callback says of an item of the other code is nothing, whichever item it is. -/

/-- An answer tells the item. -/
theorem answerFrom_injective {values' : List (Bytes × Bytes)} {elt' : SSs} {jobj : Json}
    (h : answerFrom values elt = some jobj) (h' : answerFrom values' elt' = some jobj) :
    elt = elt' := by
  obtain ⟨_, _, ⟨⟩⟩ := elt
  obtain ⟨_, _, ⟨⟩⟩ := elt'
  simp only [answerFrom, SSs.sCI, SSs.n, Option.bind_eq_bind, Option.bind_eq_some_iff,
    Option.pure_def, Option.some.injEq] at h h'
  obtain ⟨sCI, rfl, n, rfl, s, -, rfl⟩ := h
  obtain ⟨sCI', rfl, n', rfl, s', -, heq⟩ := h'
  simp only [statusObject, Json.obj.injEq, List.cons.injEq, Prod.mk.injEq, Json.str.injEq,
    true_and, and_true] at heq
  rw [Subtype.ext heq.2.1, Subtype.ext heq.2.2]

/-- No name is known to both callbacks. -/
theorem not_named_both (h : elt.Named genS1Values) : ¬ elt.Named genS2Values := by
  have hdisjoint : ∀ name ∈ genS1Values.map Prod.fst, genS2Values.lookup name = none := by
    decide
  rintro ⟨n', s', hn', hs'⟩
  obtain ⟨n, s, hn, hs⟩ := h
  obtain rfl : n = n' := Option.some.inj (hn.symm.trans hn')
  obtain ⟨before, after, hvalues, -⟩ := List.lookup_eq_some_iff.mp hs
  have hmem : n.val ∈ genS1Values.map Prod.fst := by simp [hvalues]
  rw [hdisjoint _ hmem] at hs'
  cases hs'

/-- The code of an item has one of the two tables, or none. -/
theorem valuesOf_cases (elt : SSs) :
    (elt.HasCode (ascii "GEN/S1") ∧ valuesOf elt = genS1Values) ∨
      (elt.HasCode (ascii "GEN/S2") ∧ valuesOf elt = genS2Values) ∨
      ¬ elt.HasCode (ascii "GEN/S1") ∧ ¬ elt.HasCode (ascii "GEN/S2") ∧ valuesOf elt = [] := by
  simp only [SSs.HasCode, valuesOf]
  cases hsCI : elt.sCI with
  | none => exact .inr (.inr ⟨nofun, nofun, rfl⟩)
  | some sCI =>
    simp only [Option.map_some, Option.some.injEq, Option.bind_some, statusValues,
      List.lookup_cons]
    by_cases h1 : sCI.val = ascii "GEN/S1"
    · exact .inl ⟨h1, by rw [beq_iff_eq.mpr h1]; rfl⟩
    · by_cases h2 : sCI.val = ascii "GEN/S2"
      · exact .inr (.inl ⟨h2, by rw [beq_eq_false_iff_ne.mpr h1, beq_iff_eq.mpr h2]; rfl⟩)
      · refine .inr (.inr ⟨h1, h2, ?_⟩)
        rw [beq_eq_false_iff_ne.mpr h1, beq_eq_false_iff_ne.mpr h2]
        rfl

theorem not_hasCode_both (h : elt.HasCode (ascii "GEN/S2")) : ¬ elt.HasCode (ascii "GEN/S1") := by
  intro h'
  have heq := Option.some.inj (h.symm.trans h')
  simp [ascii] at heq

/-- Of an item with another code, a callback says the same only when there is nothing to say. -/
theorem answerFrom_eq_iff (hfilled : elt.sCI ≠ none ∧ elt.n ≠ none)
    (hdisjoint : elt.Named values → ¬ elt.Implemented) :
    answerFrom values elt = statusAnswer elt ↔ ¬ elt.Named values ∧ ¬ elt.Implemented := by
  rw [← answerFrom_eq_none_iff hfilled, SSs.Implemented, ← answerFrom_eq_none_iff hfilled,
    statusAnswer]
  constructor
  · intro heq
    by_cases hnamed : elt.Named values
    · have hnone := (answerFrom_eq_none_iff hfilled).mpr (hdisjoint hnamed)
      exact ⟨heq.trans hnone, hnone⟩
    · have hnone := (answerFrom_eq_none_iff hfilled).mpr hnamed
      exact ⟨hnone, heq.symm.trans hnone⟩
  · intro h
    rw [h.1, h.2]

/-- The callback of `GEN/S1`. -/
theorem genS1_agrees_iff (hfilled : elt.sCI ≠ none ∧ elt.n ≠ none) :
    answerFrom genS1Values elt = statusAnswer elt ↔
      elt.HasCode (ascii "GEN/S1") ∨ ¬ elt.Named genS1Values ∧ ¬ elt.Implemented := by
  rcases valuesOf_cases elt with ⟨h1, hvalues⟩ | ⟨h2, hvalues⟩ | ⟨h1, -, hvalues⟩
  · exact ⟨fun _ => .inl h1, fun _ => by rw [statusAnswer, hvalues]⟩
  · rw [or_iff_right (not_hasCode_both h2)]
    refine answerFrom_eq_iff hfilled fun hnamed => ?_
    rw [SSs.Implemented, hvalues]
    exact not_named_both hnamed
  · rw [or_iff_right h1]
    refine answerFrom_eq_iff hfilled fun _ => ?_
    rw [SSs.Implemented, hvalues]
    rintro ⟨_, _, -, h⟩
    cases h

/-- The callback of `GEN/S2`. -/
theorem genS2_agrees_iff (hfilled : elt.sCI ≠ none ∧ elt.n ≠ none) :
    answerFrom genS2Values elt = statusAnswer elt ↔
      elt.HasCode (ascii "GEN/S2") ∨ ¬ elt.Named genS2Values ∧ ¬ elt.Implemented := by
  rcases valuesOf_cases elt with ⟨h1, hvalues⟩ | ⟨h2, hvalues⟩ | ⟨-, h2, hvalues⟩
  · rw [or_iff_right fun h2 => not_hasCode_both h2 h1]
    refine answerFrom_eq_iff hfilled fun hnamed => ?_
    rw [SSs.Implemented, hvalues]
    exact fun hnamed' => not_named_both hnamed' hnamed
  · exact ⟨fun _ => .inl h2, fun _ => by rw [statusAnswer, hvalues]⟩
  · rw [or_iff_right h2]
    refine answerFrom_eq_iff hfilled fun _ => ?_
    rw [SSs.Implemented, hvalues]
    rintro ⟨_, _, -, h⟩
    cases h

end Answers

/-! ## The callback that all the items get

The callback does not depend on the item. Case by case on the codes of the first two. -/

/-- The items are answered from a table. -/
def AnsweredFrom (values : List (Bytes × Bytes)) (items : List SSs) : Prop :=
  ∃ fct, findCallback items 0 callbacks = .ok fct ∧
    ∀ elt : SSs, elt.sCI ≠ none ∧ elt.n ≠ none → callStatus fct elt = .ok (answerFrom values elt)

theorem AnsweredFrom.statusEntries {values : List (Bytes × Bytes)} {items : List SSs}
    (h : AnsweredFrom values items) {elts : List SSs}
    (hfilled : ∀ elt ∈ elts, elt.sCI ≠ none ∧ elt.n ≠ none) :
    statusEntries items elts = .ok (elts.filterMap (answerFrom values)) := by
  obtain ⟨fct, hfct, hcall⟩ := h
  induction elts with
  | nil => rfl
  | cons elt elts ih =>
    obtain ⟨helt, helts⟩ := List.forall_mem_cons.mp hfilled
    rw [Rsmp.statusEntries, hfct]
    show (callStatus fct elt >>= _) = _
    rw [hcall elt helt, ih helts, List.filterMap_cons]
    cases answerFrom values elt <;> rfl

section Selection

variable {elt elt' : SSs} {elts : List SSs}

theorem answeredFrom_first (h : elt.HasCode (ascii "GEN/S1")) :
    AnsweredFrom genS1Values (elt :: elts) := by
  obtain ⟨sCI, hsCI, hcode⟩ := Option.map_eq_some_iff.mp h
  refine ⟨some fctGenS1, ?_, fun e he => fctOf_eq he⟩
  simp [callbacks, findCallback, hsCI, hcode]

/-! ### The loop that selects

The inner loop compares the code of the item whose index is that of the callback, not that of the
item that is to be answered. With one item there is none at the index of the second callback. -/

theorem findCallback_skip (hfilled : elt.sCI ≠ none) (h : ¬ elt.HasCode (ascii "GEN/S1")) :
    findCallback (elt :: elts) 0 callbacks =
      findCallback (elt :: elts) 1 [⟨ascii "GEN/S2", fctGenS2⟩] := by
  obtain ⟨sCI, hsCI⟩ := Option.ne_none_iff_exists'.mp hfilled
  have hne : ¬ ascii "GEN/S1" = sCI.val := by
    intro heq
    exact h (by rw [SSs.HasCode, hsCI, heq]; rfl)
  rw [callbacks, findCallback]
  simp [hsCI, hne]

theorem answeredFrom_second (hfilled : elt.sCI ≠ none) (h : ¬ elt.HasCode (ascii "GEN/S1"))
    (h' : elt'.HasCode (ascii "GEN/S2")) : AnsweredFrom genS2Values (elt :: elt' :: elts) := by
  obtain ⟨sCI, hsCI, hcode⟩ := Option.map_eq_some_iff.mp h'
  refine ⟨some fctGenS2, ?_, fun e he => fctOf_eq he⟩
  rw [findCallback_skip hfilled h]
  simp [findCallback, hsCI, hcode]

theorem answeredFrom_neither (hfilled : elt.sCI ≠ none) (hfilled' : elt'.sCI ≠ none)
    (h : ¬ elt.HasCode (ascii "GEN/S1")) (h' : ¬ elt'.HasCode (ascii "GEN/S2")) :
    AnsweredFrom [] (elt :: elt' :: elts) := by
  obtain ⟨sCI, hsCI⟩ := Option.ne_none_iff_exists'.mp hfilled'
  have hne : ¬ ascii "GEN/S2" = sCI.val := by
    intro heq
    exact h' (by rw [SSs.HasCode, hsCI, heq]; rfl)
  refine ⟨none, ?_, fun e he => ?_⟩
  · rw [findCallback_skip hfilled h]
    simp [findCallback, hsCI, hne]
  · have hnone : answerFrom [] e = none := by
      rw [answerFrom_eq_none_iff he]
      rintro ⟨_, _, -, h⟩
      cases h
    rw [hnone]
    rfl

/-- The only item is not the first of two. -/
theorem findCallback_outside (hfilled : elt.sCI ≠ none) (h : ¬ elt.HasCode (ascii "GEN/S1")) :
    findCallback [elt] 0 callbacks = .error .overflow := by
  rw [findCallback_skip hfilled h]
  rfl

end Selection

/-! ## What is sent

The answers are put in the response in place of its own member. -/

section Payload

variable {σ : Type} {X : RsmpExt} {engine : Option (Bytes → σ → Int × σ)}

/-- The object that is printed for a list of answers. -/
def statusResponseObject (X : RsmpExt) (B : Birth) (jobjs : List Json) : Json :=
  let response : Message := ⟨.statusResponse, MsgType.statusResponse.new B⟩
  .obj (Json.addMember ((response.members X).filter fun m => m.1 ≠ ascii "sS") (ascii "sS")
    (.arr jobjs))

theorem get?_statusResponseObject (X : RsmpExt) (B : Birth) (jobjs : List Json) :
    (statusResponseObject X B jobjs).get? (ascii "sS") = some (.arr jobjs) := by
  have hnew : ascii "sS" ∉
      ((Message.members X ⟨.statusResponse, MsgType.statusResponse.new B⟩).filter
        fun m => m.1 ≠ ascii "sS").map Prod.fst := by
    simp
  rw [statusResponseObject, addMember_new hnew, Json.get?, List.find?_append]
  rw [List.find?_eq_none.mpr (by simp)]
  simp

/-- The execution, when the items were answered. -/
theorem statusRequestExe_eq {B : Birth} {request : StatusRequest} {jobjs : List Json}
    (hjobjs : statusEntries request.sS request.sS = .ok jobjs) (t : Traced σ Bytes) :
    statusRequestExe X engine B request t =
      match X.json.print (statusResponseObject X B jobjs) with
      | none => .error .nullString
      | some payload => .ok (noError,
          ⟨((engine.getD fun _ s => (noError, s)) payload t.state).2, t.trace ++ [payload]⟩) := by
  have hpayload : rsmpJsonMsg2payloadWithInsertingJobj X
      ⟨.statusResponse, MsgType.statusResponse.new B⟩ (ascii "sS") (.arr jobjs) =
      X.json.print (statusResponseObject X B jobjs) := by
    rw [rsmpJsonMsg2payloadWithInsertingJobj,
      Fields.jsonAddFields_eq X (MsgType.desc_distinct _) _ (by simp)]
    rfl
  unfold statusRequestExe
  rw [hjobjs]
  show (match rsmpJsonMsg2payloadWithInsertingJobj X _ _ _ with
    | none => throw .nullString
    | some payload => do
      let _ ← TraceM.perform payload ((engine.getD fun _ s => (noError, s)) payload)
      return noError : TraceM Stop σ Bytes Int) t = _
  rw [hpayload]
  cases X.json.print (statusResponseObject X B jobjs) <;> rfl

/-- The execution, when the items cannot be answered. -/
theorem statusRequestExe_error {B : Birth} {request : StatusRequest} {stop : Stop}
    (hstop : statusEntries request.sS request.sS = .error stop) (t : Traced σ Bytes) :
    statusRequestExe X engine B request t = .error stop := by
  unfold statusRequestExe
  rw [hstop]
  rfl

end Payload

/-! ## Exactness

The lists of answers are the same when they are the same item by item. -/

section Exact

variable {σ : Type} {X : RsmpExt} {engine : Option (Bytes → σ → Int × σ)}

/-- The execution is exact when the answers are. -/
theorem statusExact_iff (hX : X.json.Lawful) {B : Birth} {request : StatusRequest}
    (hprint : X.json.print (statusResponseObject X B (request.sS.filterMap statusAnswer)) ≠ none)
    {jobjs : List Json} (hjobjs : statusEntries request.sS request.sS = .ok jobjs)
    (t : Traced σ Bytes) :
    StatusExact X engine B request t ↔ jobjs = request.sS.filterMap statusAnswer := by
  rw [StatusExact, statusRequestExe_eq hjobjs]
  constructor
  · rintro ⟨ret, payload, s, members, hok, hparse, hget⟩
    cases htext : X.json.print (statusResponseObject X B jobjs) with
    | none => rw [htext] at hok; cases hok
    | some text =>
      simp only [htext, Except.ok.injEq, Prod.mk.injEq, Traced.mk.injEq,
        List.append_cancel_left_eq, List.cons.injEq, and_true] at hok
      obtain ⟨-, -, rfl⟩ := hok
      rw [hX.parse_print htext, Option.some.injEq] at hparse
      rw [← hparse, get?_statusResponseObject] at hget
      simpa using hget
  · rintro rfl
    obtain ⟨text, htext⟩ := Option.ne_none_iff_exists'.mp hprint
    rw [htext]
    exact ⟨_, text, _, _, rfl, hX.parse_print htext, get?_statusResponseObject X B _⟩

theorem AnsweredFrom.exact_iff (hX : X.json.Lawful) {B : Birth} {request : StatusRequest}
    (hfilled : request.Filled)
    (hprint : X.json.print (statusResponseObject X B (request.sS.filterMap statusAnswer)) ≠ none)
    {values : List (Bytes × Bytes)} (h : AnsweredFrom values request.sS) (t : Traced σ Bytes) :
    StatusExact X engine B request t ↔
      ∀ elt ∈ request.sS, answerFrom values elt = statusAnswer elt := by
  rw [statusExact_iff hX hprint (h.statusEntries hfilled)]
  exact filterMap_eq_iff fun _ _ _ hb hb' => answerFrom_injective hb hb'

/-! ### The three ways to choose

One lemma for each callback, and one for none. -/

section Choice

variable {elt elt' : SSs} {elts : List SSs}

theorem noDifference_first_iff (h1 : elt.HasCode (ascii "GEN/S1")) :
    NoDifference (elt :: elts) ↔ ∀ e ∈ elt :: elts,
      e.HasCode (ascii "GEN/S1") ∨ ¬ e.Named genS1Values ∧ ¬ e.Implemented := by
  constructor
  · intro h
    cases h with
    | first _ hall => exact hall
    | second h1' => exact absurd h1 h1'
    | neither h1' => exact absurd h1 h1'
  · exact .first h1

theorem noDifference_second_iff (h1 : ¬ elt.HasCode (ascii "GEN/S1"))
    (h2 : elt'.HasCode (ascii "GEN/S2")) :
    NoDifference (elt :: elt' :: elts) ↔ ∀ e ∈ elt :: elt' :: elts,
      e.HasCode (ascii "GEN/S2") ∨ ¬ e.Named genS2Values ∧ ¬ e.Implemented := by
  constructor
  · intro h
    cases h with
    | first h1' => exact absurd h1' h1
    | second _ _ hall => exact hall
    | neither _ h2' => exact absurd h2 h2'
  · exact .second h1 h2

theorem noDifference_neither_iff (h1 : ¬ elt.HasCode (ascii "GEN/S1"))
    (h2 : ¬ elt'.HasCode (ascii "GEN/S2")) :
    NoDifference (elt :: elt' :: elts) ↔ ∀ e ∈ elt :: elt' :: elts, ¬ e.Implemented := by
  constructor
  · intro h
    cases h with
    | first h1' => exact absurd h1' h1
    | second _ h2' => exact absurd h2' h2
    | neither _ _ hall => exact hall
  · exact .neither h1 h2

/-- A single item that is not of the first callback. -/
theorem not_noDifference_single (h1 : ¬ elt.HasCode (ascii "GEN/S1")) : ¬ NoDifference [elt] := by
  intro h
  cases h with
  | first h1' => exact h1 h1'

end Choice

/-- **The execution of a status request.** -/
theorem statusRequestExe_exact_iff (hX : X.json.Lawful) (engine : Option (Bytes → σ → Int × σ))
    (B : Birth) {request : StatusRequest} (hfilled : request.Filled)
    (hprint : X.json.print (statusResponseObject X B (request.sS.filterMap statusAnswer)) ≠ none)
    (t : Traced σ Bytes) :
    StatusExact X engine B request t ↔ NoDifference request.sS := by
  have hexact : ∀ values, AnsweredFrom values request.sS → (StatusExact X engine B request t ↔
      ∀ elt ∈ request.sS, answerFrom values elt = statusAnswer elt) :=
    fun _ h => h.exact_iff hX hfilled hprint t
  have hstops : ∀ {stop}, statusEntries request.sS request.sS = .error stop →
      ¬ StatusExact X engine B request t := by
    rintro stop hstop ⟨_, _, _, _, hok, -⟩
    rw [statusRequestExe_error hstop] at hok
    cases hok
  have hjobjs : ∀ {jobjs}, statusEntries request.sS request.sS = .ok jobjs →
      (StatusExact X engine B request t ↔ jobjs = request.sS.filterMap statusAnswer) :=
    fun h => statusExact_iff hX hprint h t
  unfold StatusRequest.Filled at hfilled
  generalize request.sS = items at *
  match items, hfilled with
  | [], _ =>
    rw [hjobjs rfl]
    exact ⟨fun _ => .nil, fun _ => rfl⟩
  | elt :: elts, hfilled =>
    -- the codes of the first two items decide
    by_cases h1 : elt.HasCode (ascii "GEN/S1")
    · rw [hexact _ (answeredFrom_first h1), noDifference_first_iff h1]
      exact forall₂_congr fun e he => genS1_agrees_iff (hfilled e he)
    · have helt : elt.sCI ≠ none := (hfilled elt List.mem_cons_self).1
      match elts, hfilled with
      | [], _ =>
        -- the second item is read, and there is none
        have hstop : statusEntries [elt] [elt] = .error .overflow := by
          rw [statusEntries, findCallback_outside helt h1]
          rfl
        exact iff_of_false (hstops hstop) (not_noDifference_single h1)
      | elt' :: elts, hfilled =>
        by_cases h2 : elt'.HasCode (ascii "GEN/S2")
        · rw [hexact _ (answeredFrom_second helt h1 h2), noDifference_second_iff h1 h2]
          exact forall₂_congr fun e he => genS2_agrees_iff (hfilled e he)
        · have helt' : elt'.sCI ≠ none := (hfilled elt' (by simp)).1
          rw [hexact _ (answeredFrom_neither helt helt' h1 h2), noDifference_neither_iff h1 h2]
          refine forall₂_congr fun e he => ?_
          have hnone : ¬ e.Named [] := by rintro ⟨_, _, -, h⟩; cases h
          rw [answerFrom_eq_iff (hfilled e he) fun h => absurd h hnone, and_iff_right hnone]

end Exact

/-! ### Three requests

Two items of one code; items of both codes; one item of the second code. -/

/-- A request for a code and a name. -/
def sSOf (sCI n : String) : SSs := (some (CStr.dup (ascii sCI)), some (CStr.dup (ascii n)), ())

def statusRequestOf (sS : List SSs) : StatusRequest :=
  ((), .statusRequest, 0x2c, some (CStr.dup []), some (CStr.dup []), some (CStr.dup (ascii "GW1")),
    sS, ())

/-- Two values of the first callback. -/
def sameCodeRequest : StatusRequest :=
  statusRequestOf [sSOf "GEN/S1" "Manufacturer", sSOf "GEN/S1" "ProductName"]

/-- A value of each callback. -/
def mixedRequest : StatusRequest :=
  statusRequestOf [sSOf "GEN/S1" "Manufacturer", sSOf "GEN/S2" "Name"]

/-- A value of the second callback. -/
def singleRequest : StatusRequest := statusRequestOf [sSOf "GEN/S2" "Name"]

/-- json-c, for what is to be answered to these requests. -/
def statusExt : RsmpExt :=
  let X := hostExt []
  { X with
    json := .ofPlain ([sameCodeRequest, mixedRequest].map fun request =>
      statusResponseObject X bareBirth (request.sS.filterMap statusAnswer)) }

theorem statusExt_lawful : statusExt.json.Lawful := by
  apply JsonLib.ofTable_lawful
  · decide +kernel
  · decide +kernel

section Requests

theorem sSOf_filled (sCI n : String) : (sSOf sCI n).sCI ≠ none ∧ (sSOf sCI n).n ≠ none :=
  ⟨nofun, nofun⟩

theorem hasCode_genS1 (n : String) : (sSOf "GEN/S1" n).HasCode (ascii "GEN/S1") :=
  congrArg some (cstr_eq_self (by simp [ascii]))

theorem hasCode_genS2 (n : String) : (sSOf "GEN/S2" n).HasCode (ascii "GEN/S2") :=
  congrArg some (cstr_eq_self (by simp [ascii]))

theorem statusRequestOf_filled (items : List (String × String)) :
    (statusRequestOf (items.map fun item => sSOf item.1 item.2)).Filled := by
  intro elt helt
  obtain ⟨item, -, rfl⟩ := List.mem_map.mp helt
  exact sSOf_filled _ _

theorem statusExact_sameCode :
    StatusExact statusExt (some fun _ s => (noError, s)) bareBirth sameCodeRequest
      (⟨(), []⟩ : Traced Unit Bytes) := by
  have hprint : (statusExt.json.print (statusResponseObject statusExt bareBirth
      (sameCodeRequest.sS.filterMap statusAnswer))).isSome = true := by decide
  refine (statusRequestExe_exact_iff statusExt_lawful _ bareBirth
    (statusRequestOf_filled [("GEN/S1", "Manufacturer"), ("GEN/S1", "ProductName")])
    (Option.isSome_iff_ne_none.mp hprint) _).mpr ?_
  refine .first (hasCode_genS1 _) fun elt helt => .inl ?_
  rcases List.mem_cons.mp helt with rfl | helt
  · exact hasCode_genS1 _
  · obtain rfl := List.mem_singleton.mp helt
    exact hasCode_genS1 _

/-- The item of the second callback is not answered; when it is alone, what is after it is
read. -/
theorem not_statusExact :
    ¬ StatusExact statusExt (some fun _ s => (noError, s)) bareBirth mixedRequest
        (⟨(), []⟩ : Traced Unit Bytes) ∧
      statusRequestExe statusExt (some fun _ s => (noError, s)) bareBirth singleRequest
        (⟨(), []⟩ : Traced Unit Bytes) = .error .overflow := by
  constructor
  · have hprint : (statusExt.json.print (statusResponseObject statusExt bareBirth
        (mixedRequest.sS.filterMap statusAnswer))).isSome = true := by decide
    have hfrom : AnsweredFrom genS1Values mixedRequest.sS := answeredFrom_first (hasCode_genS1 _)
    intro hexact
    have hagree := (hfrom.exact_iff statusExt_lawful
      (statusRequestOf_filled [("GEN/S1", "Manufacturer"), ("GEN/S2", "Name")])
      (Option.isSome_iff_ne_none.mp hprint) _).mp hexact (sSOf "GEN/S2" "Name")
      (List.mem_cons_of_mem _ (List.mem_singleton_self _))
    rcases (genS1_agrees_iff (sSOf_filled _ _)).mp hagree with hcode | ⟨-, himplemented⟩
    · exact not_hasCode_both (hasCode_genS2 _) hcode
    · rcases valuesOf_cases (sSOf "GEN/S2" "Name") with ⟨hcode, -⟩ | ⟨-, hvalues⟩ | ⟨-, hcode, -⟩
      · exact not_hasCode_both (hasCode_genS2 _) hcode
      · apply himplemented
        rw [SSs.Implemented, hvalues]
        exact ⟨_, ascii "default.conf", rfl, by decide⟩
      · exact hcode (hasCode_genS2 _)
  · have h1 : ¬ (sSOf "GEN/S2" "Name").HasCode (ascii "GEN/S1") :=
      not_hasCode_both (hasCode_genS2 _)
    have hstop : statusEntries singleRequest.sS singleRequest.sS = .error .overflow := by
      show (findCallback [sSOf "GEN/S2" "Name"] 0 callbacks >>= _) = _
      rw [findCallback_outside (sSOf_filled _ _).1 h1]
      rfl
    exact statusRequestExe_error hstop _

end Requests

end RsmpGateway.Rsmp
