import RsmpGateway.Rsmp.Display

/-!
# What the DISP handlers come to

The handlers of the DISP commands read the value of an argument and answer in a return value.
They are put in one form (`Settles`): there are texts that a handler refuses, for which it leaves
the return value as it is; texts that it accepts, for which it changes it; and all others, for
which it does what C leaves undefined.

`DispCommand.handle_settles` and `DispStatus.handle_settles` say which texts these are for each
handler. The eight handlers are of few shapes (a status that is copied, a list of statuses, a
list of texts), and each shape has a lemma of its own.
-/

namespace RsmpGateway.Rsmp

open RsmpGateway.Lib RsmpGateway.Auth RsmpGateway.Coder

/-! ## What a text says

What is copied of a JSON value into the arrays of a structure, and when the copy is one: a member
that is `null` is read through a null pointer. -/

section Texts

variable (J : JsonLib)

/-- The member has a text, if it is there. -/
def HasText (obj : Json) (key : Bytes) : Prop :=
  ∀ value, obj.get? key = some value → jsonObjectGetString J value ≠ none

/-! The arrays that are filled, and those that keep their last byte. -/

theorem fills32 : 32 ≤ 32 := le_rfl

theorem fills64 : 64 ≤ 64 := le_rfl

theorem fills128 : 128 ≤ 128 := le_rfl

theorem fills256 : 256 ≤ 256 := le_rfl

theorem keeps32 : 31 ≤ 32 := by decide

theorem keeps64 : 63 ≤ 64 := by decide

/-- What is copied of it. -/
def copied {n k : Nat} (hk : k ≤ n) (obj : Json) (key : Bytes) (a : Lib.CharArray n) :
    Lib.CharArray n :=
  match obj.get? key with
  | none => a
  | some value => ((jsonObjectGetString J value).map fun s => a.strncpy s hk).getD a

/-! ### Copies

`strncpy` of a text that is there fills the array, with NULs behind a text that is shorter. Of a
member that is null it reads through a null pointer. -/

theorem copyMember_decides {n k : Nat} (hk : k ≤ n) (obj : Json) (key : Bytes)
    (a : Lib.CharArray n) :
    (copyMember J hk obj key a).Decides (HasText J obj key) (copied J hk obj key a) := by
  unfold copyMember HasText copied
  cases obj.get? key with
  | none => exact .inl ⟨nofun, rfl⟩
  | some value =>
    cases htext : jsonObjectGetString J value with
    | none => exact .inr ⟨fun h => h value rfl htext, by simp only [htext]⟩
    | some s =>
      refine .inl ⟨?_, by simp only [htext]; rfl⟩
      rintro _ ⟨⟩
      rw [htext]
      exact Option.some_ne_none s

/-- The members that `decodeRetMessage` copies have a text. -/
structure Copyable (obj : Json) : Prop where
  msgId : HasText J obj (ascii "msgId")
  code : ∀ retStatus, obj.get? (ascii "retStatus") = some retStatus →
    HasText J retStatus (ascii "code")
  rea : ∀ retStatus, obj.get? (ascii "retStatus") = some retStatus →
    HasText J retStatus (ascii "rea")

/-- The status that is made of them. -/
def retStatusOf (obj : Json) (res : RetStatusObject) : RetStatusObject :=
  match obj.get? (ascii "retStatus") with
  | none => res
  | some retStatus =>
    ⟨copied J fills32 retStatus (ascii "code") res.code,
      copied J fills256 retStatus (ascii "rea") res.rea⟩

def retMessageOf (obj : Json) (res : RetMessageObject) : RetMessageObject :=
  ⟨copied J fills64 obj (ascii "msgId") res.msgId, retStatusOf J obj res.retStatus⟩

theorem decodeRetMessage_decides (obj : Json) (res : RetMessageObject) :
    (decodeRetMessage J obj res).Decides (Copyable J obj) (retMessageOf J obj res) := by
  have hstatus : (decodeRetStatus J obj res.retStatus).Decides
      (∀ retStatus, obj.get? (ascii "retStatus") = some retStatus →
        HasText J retStatus (ascii "code") ∧ HasText J retStatus (ascii "rea"))
      (retStatusOf J obj res.retStatus) := by
    unfold decodeRetStatus retStatusOf
    cases obj.get? (ascii "retStatus") with
    | none => exact .inl ⟨nofun, rfl⟩
    | some retStatus =>
      refine Outcome.Decides.congr ((copyMember_decides J le_rfl _ _ _).bind
        ((copyMember_decides J le_rfl _ _ _).map _)) ?_
      simp
  apply ((copyMember_decides J le_rfl _ _ _).bind (hstatus.map _)).congr
  constructor
  · rintro ⟨hmsgId, hstatus⟩
    exact ⟨hmsgId, fun r hr => (hstatus r hr).1, fun r hr => (hstatus r hr).2⟩
  · rintro ⟨hmsgId, hcode, hrea⟩
    exact ⟨hmsgId, fun r hr => ⟨hcode r hr, hrea r hr⟩⟩

end Texts

/-! ## What a handler comes to

The cases are exclusive, so that what is proved of a handler says what it returns on each text. -/

/-- The return value stays where `R` holds, `result` comes out where `A` does, and all else is a
fault. -/
structure Settles (x : Outcome (Int × Rv)) (refusal : Int × Rv) (R : Prop) (result : Int × Rv)
    (A : Prop) : Prop where
  refused : R → x = .ok refusal
  accepted : ¬ R → A → x = .ok result
  wrong : ¬ R → ¬ A → x = .fault

section Handlers

variable {J : JsonLib}

/-! ### The text of the argument

All handlers begin alike: an empty `v` is refused; any other is parsed up to a NUL, which it must
have, and is refused too when json-c makes no value of it. What is left to each of them is the
value. -/

theorem Settles.congr {x : Outcome (Int × Rv)} {refusal result : Int × Rv} {R R' A A' : Prop}
    (h : Settles x refusal R result A) (hR : R ↔ R') (hA : A ↔ A') :
    Settles x refusal R' result A' := by
  rwa [hR, hA] at h

/-- No text, or one whose value, if json-c makes one of it, is refused. -/
def Refused (J : JsonLib) (v : Bytes) (onRoot : Json → Prop) : Prop :=
  v = [] ∨ (0 : UInt8) ∈ v ∧ ∀ root, jsonTokenerParse J v = .ok root → onRoot root

/-- A text whose value is accepted. -/
def Accepted (J : JsonLib) (v : Bytes) (onRoot : Json → Prop) : Prop :=
  ∃ root, jsonTokenerParse J v = .ok root ∧ onRoot root

theorem jsonTokenerParse_fault_iff {v : Bytes} :
    jsonTokenerParse J v = .fault ↔ (0 : UInt8) ∉ v := by
  unfold jsonTokenerParse
  split
  · next h =>
    refine iff_of_false ?_ (not_not.mpr h)
    split <;> exact nofun
  · next h => exact iff_of_true rfl h

/-- It is enough to look at what is done with the value of the text. -/
theorem Settles.handleDecoded {α : Type} {onRoot : Json → Outcome α} {refusal : Int}
    {request : Arg} {response : Rv} {handle : α → Outcome (Int × Rv)} {result : Int × Rv}
    {R A : Json → Prop}
    (h : ∀ root, Settles (handleParsed refusal response handle (onRoot root))
      (refusal, response) (R root) result (A root)) :
    Settles (Rsmp.handleDecoded (fun jsonStr => jsonTokenerParse J jsonStr >>= onRoot) refusal
        request response handle)
      (refusal, response) (Refused J request.v.items R) result
      (Accepted J request.v.items A) := by
  unfold Rsmp.handleDecoded Refused Accepted
  by_cases hnil : request.v.items = []
  · rw [if_pos hnil]
    exact ⟨fun _ => rfl, fun hnot => absurd (.inl hnil) hnot, fun hnot => absurd (.inl hnil) hnot⟩
  · rw [if_neg hnil]
    dsimp only
    cases hroot : jsonTokenerParse J request.v.items with
    | fault =>
      have hnul := jsonTokenerParse_fault_iff.mp hroot
      refine ⟨?_, ?_, fun _ _ => rfl⟩
      · rintro (h | ⟨h, -⟩)
        · exact absurd h hnil
        · exact absurd h hnul
      · rintro - ⟨root, ⟨⟩, -⟩
    | err =>
      have hnul : (0 : UInt8) ∈ request.v.items := by
        by_contra hnul
        rw [jsonTokenerParse_fault_iff.mpr hnul] at hroot
        cases hroot
      refine ⟨fun _ => rfl, fun hnot => absurd (.inr ⟨hnul, nofun⟩) hnot,
        fun hnot => absurd (.inr ⟨hnul, nofun⟩) hnot⟩
    | ok root =>
      have hnul : (0 : UInt8) ∈ request.v.items := by
        by_contra hnul
        rw [jsonTokenerParse_fault_iff.mpr hnul] at hroot
        cases hroot
      have hrefused : (request.v.items = [] ∨ (0 : UInt8) ∈ request.v.items ∧
          ∀ root', Outcome.ok root = Outcome.ok root' → R root') ↔ R root := by
        simp [hnil, hnul]
      have haccepted : (∃ root', Outcome.ok root = Outcome.ok root' ∧ A root') ↔ A root := by
        simp
      rw [hrefused, haccepted]
      exact h root

/-! ### The acknowledgement

The text is copied to the `v` of the return value, for which memory is asked with the item size
that is found there; and the strings of the status are printed, up to the NUL that is to end
them. -/

theorem rsmpArrayCharFromStrLen_ack (array : CharArray) :
    (rsmpArrayCharFromStrLen array (ascii "ACK")).Decides (array.itemLen ≠ 0)
      { array with items := ascii "ACK" } := by
  have hlen : (ascii "ACK").length = 3 := rfl
  unfold rsmpArrayCharFromStrLen
  rw [hlen]
  by_cases h : array.itemLen = 0
  · exact .inr ⟨not_not.mpr h, if_pos (by omega)⟩
  · exact .inl ⟨h, if_neg (by omega)⟩

theorem read_decides {n : Nat} (a : Lib.CharArray n) :
    a.read.Decides a.Terminated (.ofBytes a.val) := by
  by_cases h : a.Terminated
  · exact .inl ⟨h, if_pos h⟩
  · exact .inr ⟨h, if_neg h⟩

/-- The texts of the status that are printed end in their arrays. -/
def RetMessageObject.Shown (m : RetMessageObject) : Prop :=
  m.msgId.Terminated ∧ m.retStatus.rea.Terminated

/-- The return value, acknowledged. -/
def Rv.acked (rv : Rv) : Rv := rv.setV { rv.v with items := ascii "ACK" }

theorem acknowledge_settles (parsed : RetMessageObject) (response : Rv)
    (finish : Rv → Int × Rv) :
    Settles (acknowledge parsed response finish) (errcodGenGeneric, response)
      parsed.msgId.Blank (finish response.acked)
      (parsed.Shown ∧ response.v.itemLen ≠ 0) := by
  unfold acknowledge
  by_cases hblank : parsed.msgId.Blank
  · rw [hblank.read]
    exact ⟨fun _ => rfl, fun h => absurd hblank h, fun h => absurd hblank h⟩
  · have hrest := ((read_decides parsed.retStatus.rea).bind
      (f := fun _ => rsmpArrayCharFromStrLen response.v (ascii "ACK") >>= fun array =>
        (pure (finish (response.setV array)) : Outcome (Int × Rv)))
      ((rsmpArrayCharFromStrLen_ack response.v).map fun array => finish (response.setV array)))
    have hall : (parsed.msgId.read >>= fun msgId =>
        if msgId.strlen = 0 then (pure (errcodGenGeneric, response) : Outcome (Int × Rv))
        else do
          let _ ← parsed.retStatus.rea.read
          let array ← rsmpArrayCharFromStrLen response.v (ascii "ACK")
          return finish (response.setV array)).Decides
        (parsed.Shown ∧ response.v.itemLen ≠ 0) (finish response.acked) := by
      rcases read_decides parsed.msgId with ⟨hterm, hread⟩ | ⟨hterm, hread⟩
      · have hlen : (CString.ofBytes parsed.msgId.val).strlen ≠ 0 :=
          fun h => hblank (CharArray.blank_of_read hread h)
        rw [hread, Outcome.ok_bind, if_neg hlen]
        apply hrest.congr
        simp [RetMessageObject.Shown, hterm]
      · rw [hread]
        exact .inr ⟨fun h => hterm h.1.1, rfl⟩
    exact ⟨fun h => absurd h hblank, fun _ h => hall.eq_ok h, fun _ h => hall.eq_fault h⟩

/-! ### Commands

M40 and M41 decode into a structure on the stack that they do not clear. What is on it before is
a parameter: it is what is left where the value has no member. -/

/-- The value has a list of statuses, which can all be copied. -/
def HasStatuses (J : JsonLib) (root : Json) (P : List Json → Prop) : Prop :=
  ∃ items, root.get? (ascii "retMessages") = some (.arr items) ∧
    (∀ item ∈ items, Copyable J item) ∧ P items

namespace DispCommand

/-- The values that the handler refuses: they have no list of statuses, or an empty identifier. -/
def RefusesRoot (J : JsonLib) (stack : DispStack) : DispCommand → Json → Prop
  | m31, root => root.get? (ascii "retMessages") = none ∨ HasStatuses J root fun items =>
    ∃ first ∈ items.head?, (retMessageOf J first .zero).msgId.Blank
  | m32, root => root.get? (ascii "retMessages") = none ∨ HasStatuses J root fun items =>
    ∀ first ∈ items.head?, (retMessageOf J first .zero).msgId.Blank
  | m40, root => Copyable J root ∧ (retMessageOf J root stack.m40).msgId.Blank
  | m41, root => Copyable J root ∧ (retMessageOf J root stack.m41).msgId.Blank

/-- The values that it acknowledges. -/
def AcceptsRoot (J : JsonLib) (stack : DispStack) : DispCommand → Json → Prop
  | m31, root => HasStatuses J root fun items =>
    ∃ first ∈ items.head?, (retMessageOf J first .zero).Shown
  | m32, _ => False
  | m40, root => Copyable J root ∧ (retMessageOf J root stack.m40).Shown
  | m41, root => Copyable J root ∧ (retMessageOf J root stack.m41).Shown

/-- The texts that are refused. -/
def Refuses (J : JsonLib) (stack : DispStack) (c : DispCommand) (v : Bytes) : Prop :=
  Refused J v (c.RefusesRoot J stack)

/-- The texts that are acknowledged, if the items of the return value have a size. -/
def Accepts (J : JsonLib) (stack : DispStack) (c : DispCommand) (v : Bytes) : Prop :=
  Accepted J v (c.AcceptsRoot J stack)

/-- What comes out of an acknowledgement. -/
def finish : DispCommand → Rv → Int × Rv
  | m40, rv => (noError, rv.setAgeNo)
  | _, rv => (errcodGenGeneric, rv)

end DispCommand

/-! ### The handlers of commands

M40 and M41 have one status, M31 and M32 a list of them, of which the first is looked at. M32
takes the first bytes of that status for the address of an identifier. -/

/-- A handler that acknowledges one status of the value. -/
theorem Settles.message {root : Json} {start : RetMessageObject} {response : Rv}
    {finish : Rv → Int × Rv} :
    Settles (handleParsed errcodGenGeneric response
        (fun parsed => acknowledge parsed response finish) (decodeRetMessage J root start))
      (errcodGenGeneric, response)
      (Copyable J root ∧ (retMessageOf J root start).msgId.Blank) (finish response.acked)
      ((Copyable J root ∧ (retMessageOf J root start).Shown) ∧ response.v.itemLen ≠ 0) := by
  rcases decodeRetMessage_decides J root start with ⟨hcopy, hdecode⟩ | ⟨hcopy, hdecode⟩
  · have hack := acknowledge_settles (retMessageOf J root start) response finish
    rw [hdecode]
    refine ⟨fun h => hack.refused h.2, fun h hA => ?_, fun h hA => ?_⟩
    · exact hack.accepted (fun hblank => h ⟨hcopy, hblank⟩) ⟨hA.1.2, hA.2⟩
    · exact hack.wrong (fun hblank => h ⟨hcopy, hblank⟩) fun hA' => hA ⟨⟨hcopy, hA'.1⟩, hA'.2⟩
  · rw [hdecode]
    exact ⟨fun h => absurd h.1 hcopy, fun _ h => absurd h.1.1 hcopy, fun _ _ => rfl⟩

/-- How the list of statuses is decoded. -/
theorem decodeRetMessages_cases (J : JsonLib) (root : Json) :
    (root.get? (ascii "retMessages") = none ∧ decodeRetMessages J root = .err) ∨
      (∃ items, root.get? (ascii "retMessages") = some (.arr items) ∧
        (∀ item ∈ items, Copyable J item) ∧
        decodeRetMessages J root = .ok (items.map fun item => retMessageOf J item .zero)) ∨
      (∃ list, root.get? (ascii "retMessages") = some list ∧
        (∀ items, list = .arr items → ¬ ∀ item ∈ items, Copyable J item) ∧
        decodeRetMessages J root = .fault) := by
  unfold decodeRetMessages
  cases root.get? (ascii "retMessages") with
  | none => exact .inl ⟨rfl, rfl⟩
  | some list =>
    cases list with
    | arr items =>
      have hitems : (items.mapM fun item => decodeRetMessage J item .zero).Decides
          (∀ item ∈ items, Copyable J item) (items.map fun item => retMessageOf J item .zero) :=
        Outcome.Decides.mapM items fun item => decodeRetMessage_decides J item .zero
      rcases hitems with ⟨hcopy, h⟩ | ⟨hcopy, h⟩
      · exact .inr (.inl ⟨items, rfl, hcopy, h⟩)
      · refine .inr (.inr ⟨_, rfl, ?_, h⟩)
        rintro _ ⟨⟩
        exact hcopy
    | _ => exact .inr (.inr ⟨_, rfl, nofun, rfl⟩)

/-- The bytes that are read as an address are null exactly when the identifier is empty. -/
theorem address_null_iff (item : Json) :
    (retMessageOf J item .zero).msgId.val.take 8 = List.replicate 8 0 ↔
      (retMessageOf J item .zero).msgId.Blank := by
  constructor
  · intro h
    have hhead := congrArg List.head? h
    rwa [List.head?_take, if_neg (by decide)] at hhead
  · intro hblank
    have hzero : (retMessageOf J item .zero).msgId = .zero := by
      show copied J le_rfl item (ascii "msgId") .zero = .zero
      replace hblank : (copied J le_rfl item (ascii "msgId") .zero : Lib.CharArray 64).Blank :=
        hblank
      unfold copied at hblank ⊢
      split
      · rfl
      · next value hvalue =>
        rw [hvalue] at hblank
        cases htext : jsonObjectGetString J value with
        | none => rfl
        | some s =>
          dsimp only at hblank
          rw [htext] at hblank
          exact Lib.CharArray.strncpy_of_blank hblank
    rw [hzero]
    rfl

/-- A handler of the list of statuses. -/
theorem Settles.statuses {root : Json} {response : Rv} {refusal : Int}
    {handle : List RetMessageObject → Outcome (Int × Rv)} {result : Int × Rv}
    {P Q : List Json → Prop} {S : Prop}
    (h : ∀ items, Settles (handle (items.map fun item => retMessageOf J item .zero))
      (refusal, response) (P items) result (Q items ∧ S)) :
    Settles (handleParsed refusal response handle (decodeRetMessages J root)) (refusal, response)
      (root.get? (ascii "retMessages") = none ∨ HasStatuses J root P) result
      (HasStatuses J root Q ∧ S) := by
  unfold HasStatuses
  rcases decodeRetMessages_cases J root with
    ⟨hnone, hdecode⟩ | ⟨items, hlist, hcopy, hdecode⟩ | ⟨list, hlist, hnot, hdecode⟩
  · rw [hdecode]
    exact ⟨fun _ => rfl, fun hR => absurd (.inl hnone) hR, fun hR => absurd (.inl hnone) hR⟩
  · -- the list is the only one
    rw [hdecode, hlist]
    have hstatuses : ∀ P : List Json → Prop, (∃ items', some (Json.arr items) = some (.arr items') ∧
        (∀ item ∈ items', Copyable J item) ∧ P items') ↔ P items := by
      intro P
      constructor
      · rintro ⟨_, ⟨⟩, -, h⟩
        exact h
      · exact fun h => ⟨items, rfl, hcopy, h⟩
    rw [hstatuses, hstatuses, or_iff_right nofun]
    exact h items
  · rw [hdecode, hlist]
    have hstatuses : ∀ P : List Json → Prop, ¬ ∃ items, some list = some (.arr items) ∧
        (∀ item ∈ items, Copyable J item) ∧ P items := by
      rintro P ⟨items, heq, hcopy, -⟩
      exact hnot items (Option.some.inj heq) hcopy
    refine ⟨fun hR => ?_, fun _ hA => absurd hA.1 (hstatuses Q), fun _ _ => rfl⟩
    rcases hR with hR | hR
    · cases hR
    · exact absurd hR (hstatuses P)

/-- What the handler of a command comes to. -/
theorem DispCommand.handle_settles (c : DispCommand) (stack : DispStack) (request : Arg)
    (response : Rv) :
    Settles (c.handle J stack request response) (errcodGenGeneric, response)
      (c.Refuses J stack request.v.items) (c.finish response.acked)
      (Accepted J request.v.items fun root =>
        c.AcceptsRoot J stack root ∧ response.v.itemLen ≠ 0) := by
  cases c with
  | m31 =>
    refine Settles.handleDecoded fun root => Settles.statuses fun items => ?_
    cases items with
    | nil =>
      -- the element at 0 of an empty list
      refine ⟨?_, ?_, fun _ _ => rfl⟩
      · rintro ⟨_, ⟨⟩, -⟩
      · rintro - ⟨⟨_, ⟨⟩, -⟩, -⟩
    | cons first rest =>
      have hfirst : ∀ P : Json → Prop, (∃ item ∈ (first :: rest).head?, P item) ↔ P first := by
        simp
      rw [hfirst, hfirst]
      exact acknowledge_settles (retMessageOf J first .zero) response DispCommand.m31.finish
  | m32 =>
    refine Settles.handleDecoded fun root => ?_
    have hnever : False ∧ response.v.itemLen ≠ 0 ↔ HasStatuses J root (fun _ => False) ∧ True := by
      simp [HasStatuses]
    show Settles _ _ _ _ (False ∧ response.v.itemLen ≠ 0)
    rw [hnever]
    refine Settles.statuses fun items => ?_
    cases items with
    | nil => exact ⟨fun _ => rfl, fun hR => absurd nofun hR, fun hR => absurd nofun hR⟩
    | cons first rest =>
      refine ⟨fun hR => ?_, fun _ hA => hA.1.elim, fun hR _ => ?_⟩
      · exact if_pos ((address_null_iff first).mpr (hR first rfl))
      · refine if_neg fun hnull => hR ?_
        rintro _ ⟨⟩
        exact (address_null_iff first).mp hnull
  | m40 => exact Settles.handleDecoded fun root => Settles.message
  | m41 => exact Settles.handleDecoded fun root => Settles.message

/-! ### Statuses

S10, S20 and S40 set the age of the return value where they succeed, to the end mark of its
enumeration. S30 never succeeds. -/

/-- The members that `decodeTemplate` copies have a text. -/
structure TemplateCopyable (J : JsonLib) (template : Json) : Prop where
  templateId : HasText J template (ascii "templateId")
  zones : ∀ zones, template.get? (ascii "zones") = some (.arr zones) → ∀ zone ∈ zones,
    HasText J zone (ascii "zoneId") ∧ HasText J zone (ascii "zoneType")

namespace DispStatus

/-- The code of a refusal. -/
def refusal : DispStatus → Int
  | s30 => noError
  | _ => errcodGenGeneric

/-- The values that the handler refuses. -/
def RefusesRoot (J : JsonLib) : DispStatus → Json → Prop
  | s10, root => (HasText J root (ascii "displayType") ∧ HasText J root (ascii "templateType")) ∧
    (copied J keeps32 root (ascii "displayType") .zero).Blank
  | s20, root => ∀ templates, root.get? (ascii "templates") = some (.arr templates) →
    templates = []
  | s30, root => ∀ list, root.get? (ascii "msgIdList") = some list → list = .arr []
  | s40, root => ∀ list, root.get? (ascii "displayPoolList") = some list → list = .arr []

/-- Those for which it sets the age. -/
def AcceptsRoot (J : JsonLib) : DispStatus → Json → Prop
  | s10, root => HasText J root (ascii "displayType") ∧ HasText J root (ascii "templateType")
  | s20, root => ∃ templates, root.get? (ascii "templates") = some (.arr templates) ∧
    ∀ template ∈ templates, TemplateCopyable J template
  | s30, _ => False
  | s40, root => ∃ elems, root.get? (ascii "displayPoolList") = some (.arr elems) ∧
    ∀ elem ∈ elems, (HasText J elem (ascii "msgId") ∧ HasText J elem (ascii "dynamicData")) ∧
      (copied J fills64 elem (ascii "msgId") (.zero : Lib.CharArray 64)).Terminated

/-- The texts that are refused. -/
def Refuses (J : JsonLib) (c : DispStatus) (v : Bytes) : Prop := Refused J v (c.RefusesRoot J)

end DispStatus

theorem decodeTemplate_decides (J : JsonLib) (template : Json) :
    (decodeTemplate J template).Decides (TemplateCopyable J template)
      (copied J (show 63 ≤ 64 by decide) template (ascii "templateId") .zero) := by
  have hzone : ∀ zone, (decodeZone J zone).Decides
      (HasText J zone (ascii "zoneId") ∧ HasText J zone (ascii "zoneType")) () := fun zone =>
    (copyMember_decides J _ _ _ _).bind ((copyMember_decides J _ _ _ _).map fun _ => ())
  unfold decodeTemplate
  refine ((copyMember_decides J _ _ _ _).bind (Q := ∀ zones,
    template.get? (ascii "zones") = some (.arr zones) → ∀ zone ∈ zones,
      HasText J zone (ascii "zoneId") ∧ HasText J zone (ascii "zoneType")) ?_).congr
    ⟨fun h => ⟨h.1, h.2⟩, fun h => ⟨h.templateId, h.zones⟩⟩
  split
  · next zones hget =>
    refine ((Outcome.Decides.mapM zones hzone).map fun _ => _).congr ?_
    simp [hget]
  · next hnot => exact .inl ⟨fun zones hget => absurd hget (hnot zones), rfl⟩

theorem decodeDisplayPoolElement_decides (J : JsonLib) (elem : Json) :
    (decodeDisplayPoolElement J elem).Decides
      (HasText J elem (ascii "msgId") ∧ HasText J elem (ascii "dynamicData"))
      (copied J le_rfl elem (ascii "msgId") .zero) :=
  (copyMember_decides J _ _ _ _).bind ((copyMember_decides J _ _ _ _).map _)

/-! ### The handlers of statuses

The texts of S10 and S20 are copied into arrays that keep their last byte, so that what is
printed of them ends. -/

/-- The last character of these arrays is not copied. -/
theorem terminated_copied {n k : Nat} (hk : k < n) (obj : Json) (key : Bytes) :
    (copied J hk.le obj key (.zero : Lib.CharArray n)).Terminated := by
  have hzero : (0 : UInt8) ∈ (Lib.CharArray.zero : Lib.CharArray n).val.drop k := by
    show 0 ∈ (List.replicate n 0).drop k
    rw [List.drop_replicate, List.mem_replicate]
    exact ⟨by omega, rfl⟩
  unfold copied
  split
  · exact List.mem_of_mem_drop hzero
  · next value _ =>
    cases jsonObjectGetString J value with
    | none => exact List.mem_of_mem_drop hzero
    | some s => exact Lib.CharArray.terminated_strncpy_of_lt _ hk.le hzero

/-- A handler of a list of texts. -/
theorem Settles.showList {x : Outcome (List (Lib.CharArray 64))} {D : Prop}
    {texts : List (Lib.CharArray 64)} (hx : x.Decides D texts) (response : Rv) :
    Settles (handleParsed errcodGenGeneric response (fun texts => Rsmp.showList texts response) x)
      (errcodGenGeneric, response) (D ∧ texts = []) (noError, response.setAgeNo)
      (D ∧ ∀ text ∈ texts, text.Terminated) := by
  rcases hx with ⟨hD, rfl⟩ | ⟨hD, rfl⟩
  · show Settles (if texts = [] then _ else _) _ _ _ _
    have hread := (Outcome.Decides.mapM (f := fun text => text.read) texts read_decides).map
      fun _ => (noError, response.setAgeNo)
    refine ⟨fun hR => if_pos hR.2, fun hR hA => ?_, fun hR hA => ?_⟩
    · rw [if_neg fun hnil => hR ⟨hD, hnil⟩]
      exact hread.eq_ok hA.2
    · rw [if_neg fun hnil => hR ⟨hD, hnil⟩]
      exact hread.eq_fault fun h => hA ⟨hD, h⟩
  · exact ⟨fun hR => absurd hR.1 hD, fun _ hA => absurd hA.1 hD, fun _ _ => rfl⟩

theorem handleDispS10_settles (root : Json) (response : Rv) :
    Settles (handleParsed errcodGenGeneric response (fun parsed => showTypes parsed response)
        (decodeTypes J root))
      (errcodGenGeneric, response) (DispStatus.s10.RefusesRoot J root)
      (noError, response.setAgeNo) (DispStatus.s10.AcceptsRoot J root) := by
  have hdecode : (decodeTypes J root).Decides (DispStatus.s10.AcceptsRoot J root)
      ⟨copied J (show 31 ≤ 32 by decide) root (ascii "displayType") .zero,
        copied J (show 31 ≤ 32 by decide) root (ascii "templateType") .zero⟩ :=
    (copyMember_decides J _ _ _ _).bind ((copyMember_decides J _ _ _ _).map _)
  rcases hdecode with ⟨htexts, h⟩ | ⟨htexts, h⟩
  · have hdisplay := (read_decides _).eq_ok
      (terminated_copied (J := J) (show 31 < 32 by decide) root (ascii "displayType"))
    have htemplate := (read_decides _).eq_ok
      (terminated_copied (J := J) (show 31 < 32 by decide) root (ascii "templateType"))
    rw [h]
    refine ⟨fun hR => ?_, fun hR _ => ?_, fun _ hA => absurd htexts hA⟩
    · simp only [handleParsed, showTypes, hR.2.read, Outcome.ok_bind]
      rfl
    · have hne : (CString.ofBytes (copied J (show 31 ≤ 32 by decide) root (ascii "displayType")
          (.zero : Lib.CharArray 32)).val).strlen ≠ 0 :=
        fun hlen => hR ⟨htexts, CharArray.blank_of_read hdisplay hlen⟩
      simp only [handleParsed, showTypes, hdisplay, Outcome.ok_bind, if_neg hne, htemplate]
      rfl
  · rw [h]
    exact ⟨fun hR => absurd hR.1 htexts, fun _ hA => absurd hA htexts, fun _ _ => rfl⟩

theorem handleDispS20_settles (root : Json) (response : Rv) :
    Settles (handleParsed errcodGenGeneric response (fun texts => showList texts response)
        (decodeTemplates J root))
      (errcodGenGeneric, response) (DispStatus.s20.RefusesRoot J root)
      (noError, response.setAgeNo) (DispStatus.s20.AcceptsRoot J root) := by
  simp only [decodeTemplates, DispStatus.RefusesRoot, DispStatus.AcceptsRoot]
  split
  · next templates hget =>
    have hterm : ∀ text ∈ templates.map fun template =>
        copied J (show 63 ≤ 64 by decide) template (ascii "templateId") .zero, text.Terminated := by
      intro text htext
      obtain ⟨template, -, rfl⟩ := List.mem_map.mp htext
      exact terminated_copied (by decide) template _
    rw [hget]
    refine (Settles.showList (Outcome.Decides.mapM templates (decodeTemplate_decides J))
      response).congr ⟨?_, ?_⟩ ⟨?_, ?_⟩
    · rintro ⟨-, hnil⟩ _ ⟨⟩
      exact List.map_eq_nil_iff.mp hnil
    · intro h
      obtain rfl := h _ rfl
      exact ⟨nofun, rfl⟩
    · rintro ⟨hcopy, -⟩
      exact ⟨_, rfl, hcopy⟩
    · rintro ⟨_, ⟨⟩, hcopy⟩
      exact ⟨hcopy, hterm⟩
  · next hnot =>
    have hR : ∀ templates, root.get? (ascii "templates") = some (.arr templates) → templates = [] :=
      fun templates h => absurd h (hnot templates)
    exact ⟨fun _ => rfl, fun h => absurd hR h, fun h => absurd hR h⟩

theorem handleDispS30_settles (root : Json) (response : Rv) :
    Settles (handleParsed noError response
        (fun msgIdList => if msgIdList = [] then .ok (noError, response) else .fault)
        (decodeMsgIdList J root))
      (noError, response) (DispStatus.s30.RefusesRoot J root) (noError, response.setAgeNo)
      False := by
  have hstrdup : ∀ item, (strdupText J item).Decides (jsonObjectGetString J item ≠ none)
      ((jsonObjectGetString J item).getD ⟨[], List.not_mem_nil⟩) := by
    intro item
    unfold strdupText
    cases jsonObjectGetString J item with
    | none => exact .inr ⟨not_not.mpr rfl, rfl⟩
    | some s => exact .inl ⟨Option.some_ne_none s, rfl⟩
  simp only [decodeMsgIdList, DispStatus.RefusesRoot]
  cases root.get? (ascii "msgIdList") with
  | none => exact ⟨fun _ => rfl, fun h => absurd nofun h, fun h => absurd nofun h⟩
  | some list =>
    cases list with
    | arr items =>
      cases items with
      | nil =>
        have hR : ∀ list, some (Json.arr []) = some list → list = .arr [] := by
          rintro _ ⟨⟩
          rfl
        exact ⟨fun _ => rfl, fun h => absurd hR h, fun h => absurd hR h⟩
      | cons item items =>
        refine ⟨fun h => (nomatch h _ rfl), fun _ h => h.elim, fun _ _ => ?_⟩
        show handleParsed _ _ _ ((item :: items).mapM (strdupText J)) = _
        -- whatever is decoded, the list is not empty
        rcases Outcome.Decides.mapM (item :: items) hstrdup with ⟨-, h⟩ | ⟨-, h⟩
        · rw [h]
          simp [handleParsed]
        · rw [h]
          rfl
    | _ => exact ⟨fun h => (nomatch h _ rfl), fun _ h => h.elim, fun _ _ => rfl⟩

theorem handleDispS40_settles (root : Json) (response : Rv) :
    Settles (handleParsed errcodGenGeneric response (fun texts => showList texts response)
        (decodeDisplayPool J root))
      (errcodGenGeneric, response) (DispStatus.s40.RefusesRoot J root)
      (noError, response.setAgeNo) (DispStatus.s40.AcceptsRoot J root) := by
  simp only [decodeDisplayPool, DispStatus.RefusesRoot, DispStatus.AcceptsRoot]
  cases root.get? (ascii "displayPoolList") with
  | none => exact ⟨fun _ => rfl, fun h => absurd nofun h, fun h => absurd nofun h⟩
  | some list =>
    cases list with
    | arr elems =>
      refine (Settles.showList (Outcome.Decides.mapM elems (decodeDisplayPoolElement_decides J))
        response).congr ⟨?_, ?_⟩ ⟨?_, ?_⟩
      · rintro ⟨-, hnil⟩ _ ⟨⟩
        rw [List.map_eq_nil_iff.mp hnil]
      · intro h
        obtain ⟨⟩ := h _ rfl
        exact ⟨nofun, rfl⟩
      · rintro ⟨htexts, hterm⟩
        exact ⟨_, rfl, fun elem helem => ⟨htexts elem helem,
          hterm _ (List.mem_map.mpr ⟨elem, helem, rfl⟩)⟩⟩
      · rintro ⟨_, ⟨⟩, h⟩
        refine ⟨fun elem helem => (h elem helem).1, fun text htext => ?_⟩
        obtain ⟨elem, helem, rfl⟩ := List.mem_map.mp htext
        exact (h elem helem).2
    | _ =>
      refine ⟨fun h => (nomatch h _ rfl), fun _ h => ?_, fun _ _ => rfl⟩
      obtain ⟨_, ⟨⟩, -⟩ := h

/-- What the handler of a status comes to. -/
theorem DispStatus.handle_settles (c : DispStatus) (request : Arg) (response : Rv) :
    Settles (c.handle J request response) (c.refusal, response) (c.Refuses J request.v.items)
      (noError, response.setAgeNo) (Accepted J request.v.items (c.AcceptsRoot J)) := by
  cases c with
  | s10 => exact Settles.handleDecoded fun root => handleDispS10_settles root response
  | s20 => exact Settles.handleDecoded fun root => handleDispS20_settles root response
  | s30 => exact Settles.handleDecoded fun root => handleDispS30_settles root response
  | s40 => exact Settles.handleDecoded fun root => handleDispS40_settles root response

/-! ### All of them

In an answer the return values are as `calloc` left them, so that nothing is accepted without a
fault or an age that has no name. -/

namespace DispCode

/-- The texts that are refused. -/
def Refuses (J : JsonLib) (stack : DispStack) : DispCode → Bytes → Prop
  | command c, v => c.Refuses J stack v
  | status c, v => c.Refuses J v

/-- In an answer, whose values have no item size yet: the return value stays, or there is a fault,
or it has the age that is none. -/
theorem handle_cases (c : DispCode) (stack : DispStack) (request : Arg) {response : Rv}
    (hsize : response.v.itemLen = 0) :
    (c.Refuses J stack request.v.items ∧
        ∃ code, c.handle J stack request response = .ok (code, response)) ∨
      (¬ c.Refuses J stack request.v.items ∧ (c.handle J stack request response = .fault ∨
        c.handle J stack request response = .ok (noError, response.setAgeNo))) := by
  by_cases hR : c.Refuses J stack request.v.items
  · cases c with
    | command c => exact .inl ⟨hR, _, (c.handle_settles stack request response).refused hR⟩
    | status c => exact .inl ⟨hR, _, (c.handle_settles request response).refused hR⟩
  · refine .inr ⟨hR, ?_⟩
    cases c with
    | command c =>
      refine .inl ((c.handle_settles stack request response).wrong hR ?_)
      rintro ⟨root, -, -, hne⟩
      exact hne hsize
    | status c =>
      have h := c.handle_settles (J := J) request response
      by_cases hA : Accepted J request.v.items (c.AcceptsRoot J)
      · exact .inr (h.accepted hR hA)
      · exact .inl (h.wrong hR hA)

end DispCode

end Handlers

end RsmpGateway.Rsmp
