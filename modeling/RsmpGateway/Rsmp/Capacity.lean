import RsmpGateway.Lib.System
import RsmpGateway.Rsmp.Array
import RsmpGateway.Rsmp.Field

/-!
# The arrays of a run

The arrays of the process, made and changed one operation after the other, with those of the
contexts and of the messages. They keep room for their length, and no access is made out of their
items, as long as an array is only given items once its item size is set, and the positions, the
lengths and the allocations are those that the operations take for granted (`arrays_in_bounds`).

The condition is on each step, and on the arrays before it (`ArrayOp.Allowed`). Runs are of any
length, over any number of arrays, and an operation may use the same array twice.
-/

namespace RsmpGateway.Rsmp

open RsmpGateway.Lib RsmpArray

/-! ## Contexts

A context has three arrays, which its constructor copies from the defaults or from another one. -/

/-- The arrays of a `rsmp_context_t`. -/
structure ContextArrays where
  RSMP : RsmpArray
  siteId : RsmpArray
  eSXLG : RsmpArray

namespace ContextArrays

variable (A : Allocator)

/-- What `calloc` leaves in a context. -/
def zeroed : ContextArrays := ⟨.zeroed .RSMPs, .zeroed .siteIds, .zeroed .eSXLGs⟩

/-- `rsmp_context_get_global`, the first time. -/
def global : ContextArrays :=
  ⟨zeroed.RSMP.declare, zeroed.siteId.declare, zeroed.eSXLG.declare⟩

/-- `rsmp_context_set_default` where the default context has no `eSXLG`: one item is made, and
the two entries of `eSXLG_default` are written. -/
def setDefaultESXLG (a : RsmpArray) : Except ArrayStop RsmpArray := do
  let a ← a.newItem A
  a.writeRec 0
  a.writeRec 1
  return a

/-- `rsmp_context_set_default` -/
def setDefault (item default : ContextArrays) : Except ArrayStop ContextArrays := do
  let RSMP ←
    if default.RSMP.len ≠ 0 then item.RSMP.dup2 A default.RSMP else item.RSMP.addItem A
  let eSXLG ←
    if default.eSXLG.len ≠ 0 then item.eSXLG.dup2 A default.eSXLG else setDefaultESXLG A item.eSXLG
  let siteId ←
    if default.siteId.len ≠ 0 then item.siteId.dup2 A default.siteId else item.siteId.addItem A
  return ⟨RSMP, siteId, eSXLG⟩

/-- `rsmp_context_new` -/
def new : Option ContextArrays → Except ArrayStop ContextArrays
  | none => .ok zeroed
  | some default => zeroed.setDefault A default

end ContextArrays

/-- `rsmp_msg_Version_new`, with `rsmp_context_set`: `eSXLG` is not described. -/
def versionNew (A : Allocator) (RSMP siteId : RsmpArray) : Except ArrayStop ContextArrays := do
  let RSMP ← ContextArrays.global.RSMP.dup2 A RSMP
  let siteId ← ContextArrays.global.siteId.dup2 A siteId
  return ⟨RSMP, siteId, ContextArrays.global.eSXLG⟩

/-! ## Runs

The arrays of the process are numbered in the order in which they are made. -/

/-- The arrays, in the order in which they were made, and the place of those of the global
context, which are three in a row. -/
structure ArraysState where
  arrays : List RsmpArray
  global : Option Nat

namespace ArraysState

variable (σ : ArraysState)

/-- One more context or message, with its arrays. -/
def push (c : ContextArrays) : ArraysState :=
  { σ with arrays := σ.arrays ++ [c.RSMP, c.siteId, c.eSXLG] }

/-- The arrays of the global context. -/
def globalArrays : Option ContextArrays := do
  let g ← σ.global
  return ⟨← σ.arrays[g]?, ← σ.arrays[g + 1]?, ← σ.arrays[g + 2]?⟩

/-- An operation on the array of a place. -/
def update (h : Nat) (f : RsmpArray → Except ArrayStop RsmpArray) : Except ArrayStop ArraysState :=
  match σ.arrays[h]? with
  | none => .ok σ
  | some a => do
    let a ← f a
    return { σ with arrays := σ.arrays.set h a }

/-- The second array of an operation, unless it is the first one again. -/
def second (h h2 : Nat) (b : RsmpArray) : Option RsmpArray := if h = h2 then none else some b

/-- An operation on the array of a place, with another one of the same type. -/
def update2 (h h2 : Nat) (f : RsmpArray → Option RsmpArray → Except ArrayStop RsmpArray) :
    Except ArrayStop ArraysState :=
  match σ.arrays[h2]? with
  | none => .ok σ
  | some b => σ.update h fun a => if b.type = a.type then f a (second h h2 b) else .ok a

end ArraysState

/-- The operations. An array is named by its place; `h` is the one that is changed. -/
inductive ArrayOp
  | calloc (T : ItemType)
  | declare (h : Nat)
  | new (T : ItemType) (len itemLen : Nat)
  | init (h max : Nat)
  | extend (h add : Nat)
  | newItem (h : Nat)
  | set (h i : Nat)
  | cpyPos (h i1 h2 i2 n2 : Nat)
  | cpy (h h2 : Nat)
  | catN (h h2 n2 : Nat)
  | cat (h h2 : Nat)
  | insert (h i1 h2 i2 n2 : Nat)
  | shrink (h delta : Nat)
  | dup (h itemLen : Nat)
  | flush (h : Nat)
  | vDecode (h l : Nat)
  | extract (h n : Nat) (values : List (List Nat))
  | contextGlobal
  | contextNew
  | versionNew (hRSMP hSiteId : Nat)
  deriving DecidableEq

/-- One operation. -/
def arrayStep (A : Allocator) (σ : ArraysState) : ArrayOp → Except ArrayStop ArraysState
  | .calloc T => .ok { σ with arrays := σ.arrays ++ [.zeroed T] }
  | .declare h => σ.update h fun a => .ok a.declare
  | .new T len itemLen => do
    let a ← RsmpArray.new A T len itemLen
    return { σ with arrays := σ.arrays ++ a.toList }
  | .init h max => σ.update h fun a => a.initializeTyped A max
  | .extend h add => σ.update h fun a => a.extend A add
  | .newItem h => σ.update h fun a => a.addItem A
  | .set h i => σ.update h fun a => a.set A i
  | .cpyPos h i1 h2 i2 n2 => σ.update2 h h2 fun a b => a.cpyPos A i1 b i2 n2
  | .cpy h h2 => σ.update2 h h2 fun a b => a.cpy A b
  | .catN h h2 n2 => σ.update2 h h2 fun a b => a.catN A b n2
  | .cat h h2 => σ.update2 h h2 fun a b => a.cat A b
  | .insert h i1 h2 i2 n2 => σ.update2 h h2 fun a b =>
    match b with
    | none => .error .abort
    | some b => a.insert A i1 b i2 n2
  | .shrink h delta => σ.update h fun a => a.shrink A delta
  | .dup h itemLen =>
    match σ.arrays[h]? with
    | none => .ok σ
    | some a => do
      let copy ← a.dup A itemLen
      return { σ with arrays := σ.arrays ++ copy.toList }
  | .flush h => σ.update h fun a => a.flush
  | .vDecode h l => σ.update h fun a => a.vDecode A l
  | .extract h n values =>
    match σ.arrays[h]? with
    | none => .ok σ
    | some a => do
      let (a, vs) ← a.extract A n values
      return { σ with arrays := σ.arrays.set h a ++ vs }
  | .contextGlobal =>
    match σ.global with
    | none => .ok { σ.push ContextArrays.global with global := some σ.arrays.length }
    | some _ => .ok σ
  | .contextNew => do
    let c ← ContextArrays.new A σ.globalArrays
    return σ.push c
  | .versionNew hRSMP hSiteId =>
    match σ.arrays[hRSMP]?, σ.arrays[hSiteId]? with
    | some RSMP, some siteId => do
      let c ← versionNew A RSMP siteId
      return σ.push c
    | _, _ => .ok σ

/-- The runs. The allocator may answer otherwise at each operation. -/
def arraysSystem : System ArraysState (Allocator × ArrayOp) where
  init σ := σ = ⟨[], none⟩
  step σ e σ' := arrayStep e.1 σ e.2 = .ok σ'

/-! ## What the operations take for granted

The condition on a call, on the state before it. -/

/-- The item size is set where there are items to allocate; the sizes fit, and what is written
past the end is granted; the positions are in the arrays; no context is made from the global
one. -/
def ArrayOp.Allowed (A : Allocator) (σ : ArraysState) : ArrayOp → Prop
  | .new _ len itemLen => Newable A len itemLen
  | .init h max => ∀ a ∈ σ.arrays[h]?, a.Sized max
  | .extend h add => ∀ a ∈ σ.arrays[h]?, a.Extendable add
  | .newItem h => ∀ a ∈ σ.arrays[h]?, a.Granted A (a.len + 1)
  | .set h i => ∀ a ∈ σ.arrays[h]?, a.Settable i
  | .cpyPos h i1 h2 i2 n2 => ∀ a ∈ σ.arrays[h]?, ∀ b ∈ σ.arrays[h2]?,
    Copyable A a i1 (ArraysState.second h h2 b) i2 n2
  | .cpy h h2 => ∀ a ∈ σ.arrays[h]?, ∀ b ∈ σ.arrays[h2]?,
    Copyable A a 0 (ArraysState.second h h2 b) 0 b.len
  | .catN h h2 n2 => ∀ a ∈ σ.arrays[h]?, ∀ b ∈ σ.arrays[h2]?,
    Copyable A a a.len (ArraysState.second h h2 b) 0 n2
  | .cat h h2 => ∀ a ∈ σ.arrays[h]?, ∀ b ∈ σ.arrays[h2]?,
    Copyable A a a.len (ArraysState.second h h2 b) 0 b.len
  | .insert h i1 h2 i2 n2 => ∀ a ∈ σ.arrays[h]?, ∀ b ∈ σ.arrays[h2]?, Insertable A a i1 b i2 n2
  | .shrink h delta => ∀ a ∈ σ.arrays[h]?, a.Shrinkable delta
  | .dup h itemLen => ∀ a ∈ σ.arrays[h]?,
    Newable A a.len itemLen ∧ (a.len = 0 ∨ a.Granted A a.len)
  | .vDecode h l => ∀ a ∈ σ.arrays[h]?, a.Sized l
  | .extract h n values => ∀ a ∈ σ.arrays[h]?, a.Extractable n values
  | .contextNew => σ.globalArrays.isNone
  | _ => True

instance (A : Allocator) (σ : ArraysState) (op : ArrayOp) : Decidable (op.Allowed A σ) := by
  cases op <;> unfold ArrayOp.Allowed <;> infer_instance

/-! ## Every run

The step lemma has a case for each operation, which is that of `Rsmp/Array.lean`. -/

namespace ArraysState

variable {A : Allocator} {σ : ArraysState}

/-- All the arrays have room for their length. -/
def Good (σ : ArraysState) : Prop := ∀ a ∈ σ.arrays, a.Good

theorem Good.get (hσ : σ.Good) {h : Nat} {a : RsmpArray} (ha : σ.arrays[h]? = some a) : a.Good :=
  hσ a (List.mem_of_getElem? ha)

theorem Good.append (hσ : σ.Good) {as : List RsmpArray} (has : ∀ a ∈ as, a.Good)
    (global : Option Nat) : Good ⟨σ.arrays ++ as, global⟩ := by
  intro a ha
  rcases List.mem_append.mp ha with ha | ha
  · exact hσ a ha
  · exact has a ha

theorem Good.set (hσ : σ.Good) (h : Nat) {a : RsmpArray} (ha : a.Good) :
    Good { σ with arrays := σ.arrays.set h a } := by
  intro b hb
  rcases List.mem_or_eq_of_mem_set hb with hb | rfl
  · exact hσ b hb
  · exact ha

theorem Good.update (hσ : σ.Good) {h : Nat} {f : RsmpArray → Except ArrayStop RsmpArray}
    (hf : ∀ a ∈ σ.arrays[h]?, a.Good → Safe RsmpArray.Good (f a)) :
    Safe Good (σ.update h f) := by
  unfold ArraysState.update
  split
  · exact hσ
  · next a ha => exact (hf a ha (hσ.get ha)).bind fun b hb => hσ.set h hb

theorem Good.update2 (hσ : σ.Good) {h h2 : Nat}
    {f : RsmpArray → Option RsmpArray → Except ArrayStop RsmpArray}
    (hf : ∀ a ∈ σ.arrays[h]?, ∀ b ∈ σ.arrays[h2]?, a.Good → b.Good → b.type = a.type →
      Safe RsmpArray.Good (f a (second h h2 b))) : Safe Good (σ.update2 h h2 f) := by
  unfold ArraysState.update2
  split
  · exact hσ
  · next b hb =>
    refine hσ.update fun a ha hgood => .ite (fun htype => ?_) fun _ => hgood
    exact hf a ha b hb hgood (hσ.get hb) htype

/-- The second array is of the type of the first one. -/
theorem second_good {h h2 : Nat} {a b : RsmpArray} (hb : b.Good) (htype : b.type = a.type) :
    ∀ c ∈ second h h2 b, c.Good ∧ c.type = a.type := by
  intro c hc
  unfold second at hc
  split at hc
  · cases hc
  · cases hc
    exact ⟨hb, htype⟩

/-- The length of the second array, even if it is the first one. -/
theorem second_len {h h2 : Nat} {a b : RsmpArray} (ha : σ.arrays[h]? = some a)
    (hb : σ.arrays[h2]? = some b) : ((second h h2 b).getD a).len = b.len := by
  unfold second
  split
  · next heq =>
    subst heq
    rw [ha] at hb
    cases hb
    rfl
  · rfl

end ArraysState

/-- The arrays of a context have room for their lengths. -/
def ContextArrays.Good (c : ContextArrays) : Prop := c.RSMP.Good ∧ c.siteId.Good ∧ c.eSXLG.Good

theorem ContextArrays.global_good : ContextArrays.global.Good :=
  ⟨(zeroed_good _).declare, (zeroed_good _).declare, (zeroed_good _).declare⟩

theorem ArraysState.Good.push {σ : ArraysState} (hσ : σ.Good) {c : ContextArrays} (hc : c.Good)
    (global : Option Nat) : ArraysState.Good { σ.push c with global := global } := by
  refine hσ.append ?_ global
  intro a ha
  obtain ⟨hRSMP, hsiteId, heSXLG⟩ := hc
  simp only [List.mem_cons, List.not_mem_nil, or_false] at ha
  rcases ha with rfl | rfl | rfl
  · exact hRSMP
  · exact hsiteId
  · exact heSXLG

theorem versionNew_safe (A : Allocator) {RSMP siteId : RsmpArray} (hRSMP : RSMP.Good)
    (hsiteId : siteId.Good) : Safe ContextArrays.Good (versionNew A RSMP siteId) := by
  obtain ⟨hR, hS, hE⟩ := ContextArrays.global_good
  refine (hR.dup2 hRSMP (.inr (by decide))).bind fun R hR => ?_
  refine (hS.dup2 hsiteId (.inr (by decide))).bind fun S hS => ?_
  exact ⟨hR.1, hS.1, hE⟩

/-- **One operation.** -/
theorem arrayStep_safe {A : Allocator} {σ : ArraysState} (hσ : σ.Good) {op : ArrayOp}
    (hop : op.Allowed A σ) : Safe ArraysState.Good (arrayStep A σ op) := by
  cases op with
  | calloc T =>
    refine hσ.append ?_ _
    intro a ha
    obtain rfl := List.mem_singleton.mp ha
    exact zeroed_good T
  | declare h => exact hσ.update fun a _ ha => ha.declare
  | new T len itemLen =>
    refine (new_safe hop).bind fun r hr => hσ.append ?_ _
    intro a ha
    rw [hr a (Option.mem_toList.mp ha)]
    exact (zeroed_good T).declare
  | init h max =>
    exact hσ.update fun a hmem ha => (ha.initializeTyped (hop a hmem)).mono fun _ hb => hb.1
  | extend h add => exact hσ.update fun a hmem ha => (ha.extend (hop a hmem)).mono fun _ hb => hb.1
  | newItem h => exact hσ.update fun a hmem ha => (ha.addItem (hop a hmem)).mono fun _ hb => hb.1
  | set h i => exact hσ.update fun a hmem ha => (ha.set (hop a hmem)).mono fun _ hb => hb.1
  | cpyPos h i1 h2 i2 n2 =>
    rw [arrayStep]
    refine hσ.update2 fun a hmem b hmem2 ha hb htype => ?_
    exact (ha.cpyPos (ArraysState.second_good hb htype) (hop a hmem b hmem2)).mono fun _ hc => hc.1
  | cpy h h2 =>
    rw [arrayStep]
    refine hσ.update2 fun a hmem b hmem2 ha hb htype => ?_
    -- the length of the second array is taken before it is changed
    have hcopy := hop a hmem b hmem2
    rw [← ArraysState.second_len hmem hmem2] at hcopy
    exact (ha.cpy (ArraysState.second_good hb htype) hcopy).mono fun _ hc => hc.1
  | catN h h2 n2 =>
    rw [arrayStep]
    refine hσ.update2 fun a hmem b hmem2 ha hb htype => ?_
    exact (ha.cpyPos (ArraysState.second_good hb htype) (hop a hmem b hmem2)).mono fun _ hc => hc.1
  | cat h h2 =>
    rw [arrayStep]
    refine hσ.update2 fun a hmem b hmem2 ha hb htype => ?_
    have hcopy := hop a hmem b hmem2
    rw [← ArraysState.second_len hmem hmem2] at hcopy
    exact (ha.cpyPos (ArraysState.second_good hb htype) hcopy).mono fun _ hc => hc.1
  | insert h i1 h2 i2 n2 =>
    rw [arrayStep]
    refine hσ.update2 fun a hmem b hmem2 ha hb htype => ?_
    -- an array that is inserted in itself stops at an assertion
    unfold ArraysState.second
    split
    · exact Ends.error_iff.mpr rfl
    · next c hc =>
      split at hc
      · cases hc
      · cases hc
        exact (ha.insert hb htype (hop a hmem b hmem2)).mono fun _ hc => hc.1
  | shrink h delta =>
    exact hσ.update fun a hmem ha => (ha.shrink (hop a hmem)).mono fun _ hb => hb.1
  | dup h itemLen =>
    show Safe _ (match σ.arrays[h]? with | none => _ | some a => _)
    split
    · exact hσ
    · next a ha =>
      obtain ⟨hnew, hgranted⟩ := hop a ha
      refine ((hσ.get ha).dup hnew hgranted).bind fun r hr => hσ.append ?_ _
      intro b hb
      exact hr b (Option.mem_toList.mp hb)
  | flush h =>
    refine hσ.update fun a _ ha => ?_
    obtain ⟨b, hflush, hb⟩ := ha.flush
    rw [hflush]
    exact hb.1
  | vDecode h l => exact hσ.update fun a hmem ha => (ha.vDecode (hop a hmem)).mono fun _ hb => hb.1
  | extract h n values =>
    show Safe _ (match σ.arrays[h]? with | none => _ | some a => _)
    split
    · exact hσ
    · next a ha =>
      refine ((hσ.get ha).extract (hop a ha)).bind fun r hr => ?_
      exact (hσ.set h hr.1).append hr.2.2 _
  | contextGlobal =>
    show Safe _ (match σ.global with | none => _ | some _ => _)
    split
    · exact hσ.push ContextArrays.global_good _
    · exact hσ
  | contextNew =>
    have hnone : σ.globalArrays = none := Option.isNone_iff_eq_none.mp hop
    show Safe _ (ContextArrays.new A σ.globalArrays >>= _)
    rw [hnone]
    exact hσ.push ⟨zeroed_good _, zeroed_good _, zeroed_good _⟩ _
  | versionNew hRSMP hSiteId =>
    show Safe _ (match σ.arrays[hRSMP]?, σ.arrays[hSiteId]? with | some _, some _ => _ | _, _ => _)
    split
    · next R S hR hS =>
      exact (versionNew_safe A (hσ.get hR) (hσ.get hS)).bind fun c hc => hσ.push hc _
    · exact hσ

/-- The items of the array have room for its length, whatever the size it gives to an item. -/
def RsmpArray.Fits (a : RsmpArray) : Prop := a.len * a.type.size ≤ a.items.bytes

instance (a : RsmpArray) : Decidable a.Fits := inferInstanceAs (Decidable (_ ≤ _))

/-- The operation is done, or the process stops without an access out of the items. -/
def InBounds {α : Type} (x : Except ArrayStop α) : Prop :=
  x ≠ .error .outOfBounds ∧ x ≠ .error .dangling

/-- **Room and accesses, in every run whose operations are allowed.** -/
theorem arrays_in_bounds {σ : ArraysState}
    (h : (arraysSystem.restrict fun σ e => e.2.Allowed e.1 σ).Reachable σ) :
    (∀ a ∈ σ.arrays, a.Fits) ∧
      ∀ A op, op.Allowed A σ → InBounds (arrayStep A σ op) := by
  have hgood : σ.Good := by
    refine System.Reachable.invariant (P := ArraysState.Good) ?_ ?_ h
    · rintro _ rfl
      exact nofun
    · rintro s ⟨A, op⟩ s' hs ⟨hstep, hop⟩
      exact (arrayStep_safe hs hop).of_ok hstep
  refine ⟨fun a ha => (hgood a ha).room, fun A op hop => ?_⟩
  have hsafe := arrayStep_safe hgood hop
  constructor
  · intro herror
    cases hsafe.of_error herror
  · intro herror
    cases hsafe.of_error herror

/-! ### A run

Arrays that are made, extended and copied. -/

/-- An operation, if it is allowed. -/
def allowedStep (σ : ArraysState) (e : Allocator × ArrayOp) : Option ArraysState :=
  if e.2.Allowed e.1 σ then (arrayStep e.1 σ e.2).toOption else none

/-- Operations one after the other. -/
def runArrays (ops : List ArrayOp) : Option ArraysState :=
  (ops.map (Prod.mk Allocator.all)).foldlM allowedStep ⟨[], none⟩

theorem runArrays_reachable {ops : List ArrayOp} {σ : ArraysState} (h : runArrays ops = some σ) :
    (arraysSystem.restrict fun σ e => e.2.Allowed e.1 σ).Reachable σ := by
  refine System.Reachable.foldlM (f := allowedStep) ?_ (.init rfl) h
  intro s e s' hstep
  rw [allowedStep] at hstep
  split at hstep
  · next hop =>
    cases hres : arrayStep e.1 s e.2 with
    | ok s₁ =>
      rw [hres] at hstep
      cases hstep
      exact ⟨hres, hop⟩
    | error stop =>
      rw [hres] at hstep
      cases hstep
  · cases hstep

/-- A global context with one version and one site, a `Version` with its copies, and a
`CommandRequest` whose two `v` are empty. -/
def oneRun : List ArrayOp :=
  [.contextGlobal, .newItem 0, .newItem 1, .versionNew 0 1, .calloc .args, .declare 6,
    .extract 6 2 [[0], [0]], .calloc .char, .extend 9 5, .cat 9 9, .shrink 9 3]

theorem oneRun_in_bounds :
    ∃ σ, runArrays oneRun = some σ ∧ σ.arrays.length = 10 ∧ (∀ a ∈ σ.arrays, a.Fits) ∧
      InBounds (arrayStep .all σ (.cpy 3 0)) := by
  have hrun : (runArrays oneRun).any (fun σ => σ.arrays.length = 10 ∧
      (ArrayOp.cpy 3 0).Allowed .all σ) = true := by decide
  obtain ⟨σ, hσ, hprop⟩ := (Option.any_eq_true _ _).mp hrun
  obtain ⟨hlen, hallowed⟩ := of_decide_eq_true hprop
  obtain ⟨hfits, hbounds⟩ := arrays_in_bounds (runArrays_reachable hσ)
  exact ⟨σ, hσ, hlen, hfits, hbounds .all _ hallowed⟩

/-! ### Three that do not fit

An operation without its condition, for each kind of condition. The array of a `v` in an item is
not declared before it is decoded, so that no character fits. -/

/-- The result, if it is an access out of the items. -/
def isOutOfBounds {α : Type} : Except ArrayStop α → Bool
  | .error .outOfBounds => true
  | _ => false

theorem not_inBounds {α : Type} {x : Except ArrayStop α} (h : isOutOfBounds x = true) :
    ¬ InBounds x := by
  rintro ⟨hne, -⟩
  unfold isOutOfBounds at h
  split at h
  · exact hne rfl
  · cases h

/-- A `v` is decoded in an item, with one character; a `v` whose item size is not set is given
one item; a context is made from the global one. -/
theorem arrays_out_of_bounds :
    (∃ σ, arraysSystem.Reachable σ ∧
      ¬ InBounds (arrayStep .all σ (.extract 0 1 [[1]]))) ∧
    (∃ σ, arraysSystem.Reachable σ ∧ ¬ ∀ a ∈ σ.arrays, a.Fits) ∧
    ∃ σ, arraysSystem.Reachable σ ∧ ¬ InBounds (arrayStep .all σ .contextNew) := by
  have hstart : arraysSystem.Reachable ⟨[], none⟩ := .init rfl
  refine ⟨?_, ?_, ?_⟩
  · have hargs := (hstart.next (.all, .calloc .args) rfl).next (.all, .declare 0) rfl
    exact ⟨_, hargs, not_inBounds (by decide)⟩
  · have hchar := (hstart.next (.all, .calloc .char) rfl).next (.all, .init 0 1) rfl
    refine ⟨_, hchar, fun h => ?_⟩
    have hfits := h _ List.mem_cons_self
    exact absurd hfits (by decide)
  · have hglobal := hstart.next (.all, .contextGlobal) rfl
    exact ⟨_, hglobal, not_inBounds (by decide)⟩

end RsmpGateway.Rsmp
