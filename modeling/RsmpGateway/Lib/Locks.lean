import Mathlib.Algebra.GroupWithZero.Nat
import Mathlib.Logic.Function.Basic

/-!
# Locks that are not recursive

A lock has readers or one writer. A computation works on a state and takes and releases locks; it
is stopped where it takes a lock that does not let it in, or releases one that nobody holds.
`Disciplined` says that neither happens and that every lock is held afterwards as it was before.

The computations are those of one thread, in a state monad with errors (`LockM`). Locks and state
are of any type. Functions are shown to be disciplined by rules for their parts: what is done
around a lock that is taken and released (`Balanced.reading`, `Balanced.writing`), one
computation after the other (`Balanced.bind`), a loop over a list. For functions that are not,
`Blocks` says that they are stopped from any state, whatever comes before.
-/

namespace RsmpGateway.Lib

/-- Who holds a lock: readers, as many as `n` besides one, or a writer. -/
inductive Holder
  | free
  | readers (n : Nat)
  | writer
  deriving Repr, DecidableEq

namespace Holder

def read : Holder → Option Holder
  | free => some (readers 0)
  | readers n => some (readers (n + 1))
  | writer => none

def write : Holder → Option Holder
  | free => some writer
  | _ => none

def release : Holder → Option Holder
  | free => none
  | readers 0 => some free
  | readers (n + 1) => some (readers n)
  | writer => some free

theorem release_of_read {h h' : Holder} (hread : h.read = some h') : h'.release = some h := by
  cases h with
  | free =>
    cases hread
    rfl
  | readers n =>
    cases hread
    rfl
  | writer => cases hread

theorem read_isSome {h : Holder} (hne : h ≠ writer) : ∃ h', h.read = some h' := by
  cases h with
  | free => exact ⟨_, rfl⟩
  | readers n => exact ⟨_, rfl⟩
  | writer => exact absurd rfl hne

end Holder

/-- Where a computation is stopped: at a lock that does not let it in, at one that it does not
hold, or by the program itself. -/
inductive LockStop (κ : Type)
  | blocked (k : κ)
  | notHeld (k : κ)
  | abort
  deriving DecidableEq

/-- A state, and the locks. -/
structure Locked (κ σ : Type) where
  state : σ
  holders : κ → Holder

abbrev LockM (κ σ : Type) : Type → Type := StateT (Locked κ σ) (Except (LockStop κ))

namespace LockM

variable {κ σ α β : Type}

section Operations

/-- Work on the state. -/
def work (f : σ → σ) : LockM κ σ Unit := fun l => .ok ((), { l with state := f l.state })

/-- Look at the state. -/
def look (f : σ → α) : LockM κ σ α := fun l => .ok (f l.state, l)

def abort : LockM κ σ α := fun _ => .error .abort

variable [DecidableEq κ]

/-- One lock changes its holders, when it can. -/
def change (f : Holder → Option Holder) (stop : κ → LockStop κ) (k : κ) : LockM κ σ Unit := fun l =>
  match f (l.holders k) with
  | some h => .ok ((), { l with holders := Function.update l.holders k h })
  | none => .error (stop k)

def read : κ → LockM κ σ Unit := change Holder.read .blocked

def write : κ → LockM κ σ Unit := change Holder.write .blocked

def release : κ → LockM κ σ Unit := change Holder.release .notHeld

/-- A lock that may be left out. -/
def readIf (lock : Option κ) : LockM κ σ Unit := lock.elim (pure ()) read

def writeIf (lock : Option κ) : LockM κ σ Unit := lock.elim (pure ()) write

def releaseIf (lock : Option κ) : LockM κ σ Unit := lock.elim (pure ()) release

/-- Go over a list, and add up. -/
def foreachNode (xs : List α) (f : α → LockM κ σ Nat) : LockM κ σ Nat :=
  match xs with
  | [] => pure 0
  | x :: xs => do
    let n ← f x
    let ret ← foreachNode xs f
    pure (n + ret)

end Operations

/-! ## Runs

How a computation is run step by step, where the locks are known. -/

/-- Every lock is held after the computation as it was before. Where the program itself stops it,
there is no after. -/
def Disciplined (c : LockM κ σ α) (l : Locked κ σ) : Prop :=
  match c l with
  | .ok (_, l') => l'.holders = l.holders
  | .error .abort => True
  | .error _ => False

variable {c : LockM κ σ α} {f : α → LockM κ σ β} {a : α} {l l' : Locked κ σ} {s : σ}
  {H : κ → Holder} {k : κ}

/-- The rule of sequence. -/
theorem bind_ok (hc : c l = .ok (a, l')) : (c >>= f) l = f a l' := by
  show (c l >>= fun r => f r.1 r.2) = f a l'
  rw [hc]
  rfl

theorem bind_error {stop : LockStop κ} (hc : c l = .error stop) : (c >>= f) l = .error stop := by
  show (c l >>= fun r => f r.1 r.2) = .error stop
  rw [hc]
  rfl

theorem Disciplined.of_ok (hc : c l = .ok (a, l')) (h : l'.holders = l.holders) :
    Disciplined c l := by
  rw [Disciplined, hc]
  exact h

theorem Disciplined.of_abort (hc : c l = .error .abort) : Disciplined c l := by
  rw [Disciplined, hc]
  trivial

theorem not_disciplined_of_blocked (hc : c l = .error (.blocked k)) : ¬ Disciplined c l := by
  rw [Disciplined, hc]
  exact id

theorem not_disciplined_of_held (hc : c l = .ok (a, l')) (h : l'.holders k ≠ l.holders k) :
    ¬ Disciplined c l := by
  rw [Disciplined, hc]
  intro heq
  exact h (congrFun heq k)

/-! ### Steps without locks

Work on the state and looks at it leave the locks as they are, and so are disciplined whatever is
locked. -/

theorem run_work (f : σ → σ) : (work f : LockM κ σ Unit) ⟨s, H⟩ = .ok ((), ⟨f s, H⟩) := rfl

theorem run_look (f : σ → α) : (look f : LockM κ σ α) ⟨s, H⟩ = .ok (f s, ⟨s, H⟩) := rfl

theorem run_pure (a : α) : (pure a : LockM κ σ α) l = .ok (a, l) := rfl

theorem run_discard : (discard c) l = (c l).map fun r => ((), r.2) := by
  show (c l >>= fun r => Except.ok ((), r.2)) = _
  cases c l <;> rfl

/-- The result of a computation plays no part in its discipline. -/
theorem disciplined_discard : Disciplined (discard c) l ↔ Disciplined c l := by
  rw [Disciplined, Disciplined, run_discard]
  cases c l with
  | ok r => rfl
  | error stop => cases stop <;> rfl

/-- Nobody holds a lock. -/
def allFree : κ → Holder := fun _ => .free

/-- Nobody writes. -/
def CanRead (H : κ → Holder) (k : κ) : Prop := H k ≠ .writer

theorem canRead_allFree : CanRead allFree k := nofun

section Rules

variable [DecidableEq κ]

/-- The lock with one reader more. -/
def withReader (H : κ → Holder) (k : κ) : κ → Holder :=
  Function.update H k (((H k).read).getD .writer)

/-- The lock with a writer. -/
def withWriter (H : κ → Holder) (k : κ) : κ → Holder := Function.update H k .writer

theorem run_change {g : Holder → Option Holder} {stop : κ → LockStop κ} {h : Holder}
    (hg : g (H k) = some h) :
    (change g stop k : LockM κ σ Unit) ⟨s, H⟩ = .ok ((), ⟨s, Function.update H k h⟩) := by
  simp only [change, hg]

theorem run_change_none {g : Holder → Option Holder} {stop : κ → LockStop κ}
    (hg : g (H k) = none) : (change g stop k : LockM κ σ Unit) ⟨s, H⟩ = .error (stop k) := by
  simp only [change, hg]

theorem withReader_eq {h : Holder} (hread : (H k).read = some h) :
    withReader H k = Function.update H k h := by
  rw [withReader, hread, Option.getD_some]

theorem run_read (h : CanRead H k) :
    (read k : LockM κ σ Unit) ⟨s, H⟩ = .ok ((), ⟨s, withReader H k⟩) := by
  obtain ⟨x, hread⟩ := Holder.read_isSome h
  rw [withReader_eq hread]
  exact run_change hread

/-- What was read is released. -/
theorem run_release_reader (h : CanRead H k) :
    (release k : LockM κ σ Unit) ⟨s, withReader H k⟩ = .ok ((), ⟨s, H⟩) := by
  obtain ⟨x, hread⟩ := Holder.read_isSome h
  have hrelease : Holder.release (Function.update H k x k) = some (H k) := by
    rw [Function.update_self, Holder.release_of_read hread]
  rw [withReader_eq hread, release, run_change hrelease, Function.update_idem,
    Function.update_eq_self]

theorem run_write (h : H k = .free) :
    (write k : LockM κ σ Unit) ⟨s, H⟩ = .ok ((), ⟨s, withWriter H k⟩) := by
  have hwrite : Holder.write (H k) = some .writer := by rw [h]; rfl
  exact run_change hwrite

/-- What was written is released. -/
theorem run_release_writer (h : H k = .free) :
    (release k : LockM κ σ Unit) ⟨s, withWriter H k⟩ = .ok ((), ⟨s, H⟩) := by
  have hrelease : Holder.release (Function.update H k .writer k) = some (H k) := by
    rw [Function.update_self, h]
    rfl
  rw [withWriter, release, run_change hrelease, Function.update_idem, Function.update_eq_self]

theorem run_release_written (h : H k = .writer) :
    (release k : LockM κ σ Unit) ⟨s, H⟩ = .ok ((), ⟨s, Function.update H k .free⟩) := by
  have hrelease : Holder.release (H k) = some .free := by rw [h]; rfl
  exact run_change hrelease

theorem withWriter_self : withWriter H k k = .writer := Function.update_self ..

theorem withWriter_of_ne {k' : κ} (h : k' ≠ k) : withWriter H k k' = H k' :=
  Function.update_of_ne h ..

/-- A lock that is written lets nobody in. -/
theorem run_read_blocked (h : H k = .writer) :
    (read k : LockM κ σ Unit) ⟨s, H⟩ = .error (.blocked k) := by
  have hread : Holder.read (H k) = none := by rw [h]; rfl
  exact run_change_none hread

/-- A lock that is held cannot be written. -/
theorem run_write_blocked (h : H k ≠ .free) :
    (write k : LockM κ σ Unit) ⟨s, H⟩ = .error (.blocked k) := by
  have hwrite : Holder.write (H k) = none := by
    cases hH : H k with
    | free => exact absurd hH h
    | readers n => rfl
    | writer => rfl
  exact run_change_none hwrite

theorem CanRead.withReader {k' : κ} (h : CanRead H k) (h' : CanRead H k') :
    CanRead (withReader H k') k := by
  obtain ⟨x, hread⟩ := Holder.read_isSome h'
  rw [withReader_eq hread, CanRead]
  by_cases hk : k = k'
  · subst hk
    rw [Function.update_self]
    rintro rfl
    cases hH : H k <;> simp [hH, Holder.read] at hread
  · rwa [Function.update_of_ne hk]

/-! ### Locks that may be left out

Programs that lock on demand are given the lock as an option. Where there is none, taking and
releasing it do nothing. -/

theorem run_readIf {lock : Option κ} (h : ∀ k, CanRead H k) :
    (readIf lock : LockM κ σ Unit) ⟨s, H⟩ = .ok ((), ⟨s, lock.elim H (withReader H)⟩) := by
  cases lock with
  | none => rfl
  | some k => exact run_read (h k)

theorem run_releaseIf_reader {lock : Option κ} (h : ∀ k, CanRead H k) :
    (releaseIf lock : LockM κ σ Unit) ⟨s, lock.elim H (withReader H)⟩ = .ok ((), ⟨s, H⟩) := by
  cases lock with
  | none => rfl
  | some k => exact run_release_reader (h k)

/-! ## Discipline from every state

The rules. A state of the locks is fixed, and the state that is worked on is any. -/

/-- The computation is disciplined when it finds the locks so. -/
structure Balanced (H : κ → Holder) (c : LockM κ σ α) : Prop where
  disciplined : ∀ s, Disciplined c ⟨s, H⟩

omit [DecidableEq κ] in
theorem Balanced.pure (a : α) : Balanced H (pure a : LockM κ σ α) := ⟨fun _ => rfl⟩

omit [DecidableEq κ] in
theorem Balanced.work (g : σ → σ) : Balanced H (work g : LockM κ σ Unit) := ⟨fun _ => rfl⟩

omit [DecidableEq κ] in
theorem Balanced.look (g : σ → α) : Balanced H (look g : LockM κ σ α) := ⟨fun _ => rfl⟩

omit [DecidableEq κ] in
theorem Balanced.abort : Balanced H (abort : LockM κ σ α) := ⟨fun _ => trivial⟩

omit [DecidableEq κ] in
/-- What a disciplined computation comes to. -/
theorem Disciplined.cases (h : Disciplined c ⟨s, H⟩) :
    (∃ a s', c ⟨s, H⟩ = .ok (a, ⟨s', H⟩)) ∨ c ⟨s, H⟩ = .error .abort := by
  rw [Disciplined] at h
  cases hc : c ⟨s, H⟩ with
  | ok r =>
    obtain ⟨a, s', H'⟩ := r
    rw [hc] at h
    have hH : H' = H := h
    exact .inl ⟨a, s', by rw [hH]⟩
  | error stop =>
    rw [hc] at h
    cases stop with
    | abort => exact .inr rfl
    | blocked k => exact absurd h id
    | notHeld k => exact absurd h id

omit [DecidableEq κ] in
/-- The rule of sequence. -/
theorem Balanced.bind (hc : Balanced H c) (hf : ∀ a, Balanced H (f a)) : Balanced H (c >>= f) := by
  constructor
  intro s
  rcases (hc.disciplined s).cases with ⟨a, s', hrun⟩ | habort
  · rw [Disciplined, bind_ok hrun]
    exact (hf a).disciplined s'
  · exact .of_abort (bind_error habort)

/-! ### A lock around a computation

What is inside is balanced for the locks with one more taken. So a rule for nested locks is this
rule used once for each of them. -/

/-- A lock that is taken and released around a computation. -/
theorem Balanced.around {H' : κ → Holder} {take : LockM κ σ Unit}
    (htake : ∀ s, take ⟨s, H⟩ = .ok ((), ⟨s, H'⟩))
    (hrelease : ∀ s, (release k : LockM κ σ Unit) ⟨s, H'⟩ = .ok ((), ⟨s, H⟩))
    (hc : Balanced H' c) (hf : ∀ a, Balanced H (f a)) :
    Balanced H (take >>= fun _ => c >>= fun a => release k >>= fun _ => f a) := by
  constructor
  intro s
  rw [Disciplined, bind_ok (htake s)]
  rcases (hc.disciplined s).cases with ⟨a, s', hrun⟩ | habort
  · rw [bind_ok hrun, bind_ok (hrelease s')]
    exact (hf a).disciplined s'
  · rw [bind_error habort]
    trivial

theorem Balanced.reading (h : CanRead H k) (hc : Balanced (withReader H k) c)
    (hf : ∀ a, Balanced H (f a)) :
    Balanced H (read k >>= fun _ => c >>= fun a => release k >>= fun _ => f a) :=
  .around (fun _ => run_read h) (fun _ => run_release_reader h) hc hf

theorem Balanced.writing (h : H k = .free) (hc : Balanced (withWriter H k) c)
    (hf : ∀ a, Balanced H (f a)) :
    Balanced H (write k >>= fun _ => c >>= fun a => release k >>= fun _ => f a) :=
  .around (fun _ => run_write h) (fun _ => run_release_writer h) hc hf

theorem Balanced.writing_last (h : H k = .free) (hc : Balanced (withWriter H k) c) :
    Balanced H (write k >>= fun _ => c >>= fun _ => release k) := by
  have hlast := Balanced.writing h hc fun _ => .pure ()
  simpa only [bind_pure_unit] using hlast

omit [DecidableEq κ] in
theorem Balanced.foreachNode {xs : List α} {f : α → LockM κ σ Nat}
    (hf : ∀ x ∈ xs, Balanced H (f x)) : Balanced H (foreachNode xs f) := by
  induction xs with
  | nil => exact .pure 0
  | cons x xs ih =>
    refine (hf x List.mem_cons_self).bind fun n => (ih ?_).bind fun ret => .pure (n + ret)
    exact fun y hy => hf y (List.mem_cons_of_mem x hy)

/-! ### Loops that end, and loops that are blocked

To say when a loop is disciplined one needs the other direction too: an iteration that meets a
lock that is held blocks the loop, whatever the state is, and then the loop does not end. -/

/-- The computation ends, with the locks as they were. -/
def Ends (H : κ → Holder) (c : LockM κ σ α) : Prop := ∀ s, ∃ a s', c ⟨s, H⟩ = .ok (a, ⟨s', H⟩)

/-- The computation comes to a lock that does not let it in. -/
def Blocks (H : κ → Holder) (c : LockM κ σ α) : Prop := ∀ s, ∃ k, c ⟨s, H⟩ = .error (.blocked k)

omit [DecidableEq κ] in
theorem Ends.forM {xs : List α} {f : α → LockM κ σ Unit} (hf : ∀ x ∈ xs, Ends H (f x)) :
    Ends H (xs.forM f) := by
  induction xs with
  | nil => exact fun s => ⟨(), s, rfl⟩
  | cons x xs ih =>
    intro s
    obtain ⟨_, s', hrun⟩ := hf x List.mem_cons_self s
    obtain ⟨a, s'', hrest⟩ := ih (fun y hy => hf y (List.mem_cons_of_mem x hy)) s'
    exact ⟨a, s'', (bind_ok hrun).trans hrest⟩

omit [DecidableEq κ] in
/-- The first element that is blocked blocks the loop. -/
theorem Blocks.forM {xs : List α} {f : α → LockM κ σ Unit}
    (hf : ∀ x ∈ xs, Ends H (f x) ∨ Blocks H (f x)) (hblocks : ∃ x ∈ xs, ¬ Ends H (f x)) :
    Blocks H (xs.forM f) := by
  induction xs with
  | nil =>
    obtain ⟨x, hx, -⟩ := hblocks
    cases hx
  | cons x xs ih =>
    intro s
    rcases hf x List.mem_cons_self with hends | hblock
    · obtain ⟨_, s', hrun⟩ := hends s
      have hrest : ∃ y ∈ xs, ¬ Ends H (f y) := by
        obtain ⟨y, hy, hnot⟩ := hblocks
        rcases List.mem_cons.mp hy with rfl | hy
        · exact absurd hends hnot
        · exact ⟨y, hy, hnot⟩
      obtain ⟨k, hk⟩ := ih (fun y hy => hf y (List.mem_cons_of_mem x hy)) hrest s'
      exact ⟨k, (bind_ok hrun).trans hk⟩
    · obtain ⟨k, hk⟩ := hblock s
      exact ⟨k, bind_error hk⟩

omit [DecidableEq κ] in
theorem Blocks.not_ends [Nonempty σ] (h : Blocks H c) : ¬ Ends H c := by
  intro hends
  obtain ⟨s⟩ := ‹Nonempty σ›
  obtain ⟨k, hk⟩ := h s
  obtain ⟨a, s', hrun⟩ := hends s
  rw [hk] at hrun
  cases hrun

omit [DecidableEq κ] in
theorem run_foreachNode {xs : List α} {f : α → LockM κ σ Nat} {g : α → Nat}
    (hf : ∀ x ∈ xs, f x l = .ok (g x, l)) : foreachNode xs f l = .ok ((xs.map g).sum, l) := by
  induction xs with
  | nil => rfl
  | cons x xs ih =>
    have hrest := ih fun y hy => hf y (List.mem_cons_of_mem x hy)
    rw [foreachNode, bind_ok (hf x List.mem_cons_self), bind_ok hrest, List.map_cons, List.sum_cons]
    rfl

omit [DecidableEq κ] in
/-- The first element that is stopped stops the loop. -/
theorem run_foreachNode_error {xs : List α} {f : α → LockM κ σ Nat} {stop : LockStop κ}
    (hf : ∀ x ∈ xs, (∃ n, f x l = .ok (n, l)) ∨ f x l = .error stop)
    (hstop : ∃ x ∈ xs, f x l = .error stop) : foreachNode xs f l = .error stop := by
  induction xs with
  | nil =>
    obtain ⟨x, hx, -⟩ := hstop
    cases hx
  | cons x xs ih =>
    rw [foreachNode]
    rcases hf x List.mem_cons_self with ⟨n, hn⟩ | herror
    · rw [bind_ok hn]
      have hrest : ∃ y ∈ xs, f y l = .error stop := by
        obtain ⟨y, hy, herror⟩ := hstop
        rcases List.mem_cons.mp hy with rfl | hy
        · rw [hn] at herror
          cases herror
        · exact ⟨y, hy, herror⟩
      exact bind_error (ih (fun y hy => hf y (List.mem_cons_of_mem x hy)) hrest)
    · exact bind_error herror

end Rules

end LockM

end RsmpGateway.Lib
