import Mathlib.Logic.Function.Basic
import Mathlib.Logic.Relation
import Mathlib.Data.List.Pairwise
import Mathlib.Tactic.Tauto

/-!
# Rotation of a shared secret

An owner replaces a secret that a holder has a copy of. It records the new secret, then sends
numbered requests over a path that keeps their order: one that changes the secret of the holder,
one that the holder can open only when it has the new secret already. The holder answers the
requests that it acts on, and may refuse a change; requests and answers may be lost. The owner
switches to the new secret on an answer, and ends a round that is refused. It may leave, which
ends the round, and come back with nothing on its way.

Secrets, numbers and logins are of any type, and nothing is said of how a request is sealed: a
probe keeps its lock, and is opened when the holder has the secret of the lock.

* `Agrees.runs`: the secret of the holder is that of the owner or the recorded new one, in every
  run. This is what keeps the two able to go on after any loss.
* `Settled.steps`: as long as the owner stays, the two secrets differ only while a round is
  running whose change was taken. This is what lets the owner send other things between two
  rounds.

The proofs go by cases on the step. What is kept is a conjunction of facts about the messages on
their way (`Sound`), each of which speaks of the requests or of the answers alone.
-/

namespace RsmpGateway.Lib

/-! ## Requests in order

The requests on the way are in the order of their numbers, and all numbers that were answered are
smaller. The path loses requests and never exchanges two of them. -/

/-- Requests on the way in the order they were numbered, all after those answered. -/
structure Rounds (requests answers : List Nat) (next : Nat) : Prop where
  increasing : requests.Pairwise (· < ·)
  answered : ∀ o ∈ answers, ∀ i ∈ requests, o < i
  requests_lt : ∀ i ∈ requests, i < next
  answers_lt : ∀ o ∈ answers, o < next

namespace Rounds

theorem nil (next : Nat) : Rounds [] [] next := by
  constructor <;> simp

theorem lose {requests requests' answers answers' : List Nat} {next next' : Nat}
    (h : Rounds requests answers next) (hr : requests'.Sublist requests)
    (ha : answers' ⊆ answers) (hn : next ≤ next') : Rounds requests' answers' next' where
  increasing := h.increasing.sublist hr
  answered o ho i hi := h.answered o (ha ho) i (hr.subset hi)
  requests_lt i hi := Nat.lt_of_lt_of_le (h.requests_lt i (hr.subset hi)) hn
  answers_lt o ho := Nat.lt_of_lt_of_le (h.answers_lt o (ha ho)) hn

theorem issue {requests answers : List Nat} {next c c' next' : Nat}
    (h : Rounds requests answers next) (hc : next ≤ c) (hcc' : c < c') (hn : c' < next') :
    Rounds (requests ++ [c, c']) answers next' where
  increasing := by
    refine List.pairwise_append.mpr ⟨h.increasing, by simpa using hcc', ?_⟩
    intro i hi j hj
    have := h.requests_lt i hi
    simp only [List.mem_cons, List.not_mem_nil, or_false] at hj
    omega
  answered := by
    intro o ho i hi
    rcases List.mem_append.mp hi with hi | hi
    · exact h.answered o ho i hi
    · have := h.answers_lt o ho
      simp only [List.mem_cons, List.not_mem_nil, or_false] at hi
      omega
  requests_lt := by
    intro i hi
    rcases List.mem_append.mp hi with hi | hi
    · have := h.requests_lt i hi
      omega
    · simp only [List.mem_cons, List.not_mem_nil, or_false] at hi
      omega
  answers_lt := by
    intro o ho
    have := h.answers_lt o ho
    omega

/-- The first request is answered. -/
theorem answer {i : Nat} {requests answers answers' : List Nat} {next : Nat}
    (h : Rounds (i :: requests) answers next) (ha : answers' ⊆ i :: answers) :
    Rounds requests answers' next where
  increasing := h.increasing.of_cons
  answered := by
    intro o ho j hj
    rcases List.mem_cons.mp (ha ho) with rfl | ho
    · exact List.rel_of_pairwise_cons h.increasing hj
    · exact h.answered o ho j (List.mem_cons_of_mem _ hj)
  requests_lt j hj := h.requests_lt j (List.mem_cons_of_mem _ hj)
  answers_lt := by
    intro o ho
    rcases List.mem_cons.mp (ha ho) with rfl | ho
    · exact h.requests_lt o List.mem_cons_self
    · exact h.answers_lt o ho

end Rounds

/-! ## The rotation

The steps are labelled by who acts. What a step needs of the state before it is an argument of
its constructor, so that the cases of a proof have it at hand. -/

/-- A request for the secret named `login`. A probe keeps its lock until it is opened. -/
inductive Request (ι π : Type)
  | change (id : Nat) (login : ι) (secret : π)
  | probe (id : Nat) (login : ι) (lock : Option π)

/-- The number of a request. -/
def Request.id {ι π : Type} : Request ι π → Nat
  | .change id _ _ => id
  | .probe id _ _ => id

/-- The owner (`up`, `current`, `pending`, `running`), the holder (`held`) and the messages
on their way, the requests in order. A running round has a change and a probe; an answer
has the number of its request and says whether the holder has the new secret. -/
structure Rotation (ι π : Type) where
  up : Bool
  current : ι → Option π
  pending : ι → Option π
  held : ι → Option π
  running : Option (ι × Nat × Nat)
  requests : List (Request ι π)
  answers : List (Nat × Bool)
  next : Nat

namespace Rotation

open Function (update)

variable {ι π : Type} [DecidableEq ι]

inductive Step : Rotation ι π → Rotation ι π → Prop
  | /-- messages are lost -/
    lose {x : Rotation ι π} {requests answers next} (hq : requests.Sublist x.requests)
      (ha : answers ⊆ x.answers) (hn : x.next ≤ next) :
      Step x { x with requests, answers, next }
  | /-- the owner leaves -/
    leave {x : Rotation ι π} {requests answers next} (hq : requests.Sublist x.requests)
      (ha : answers ⊆ x.answers) (hn : x.next ≤ next) :
      Step x { x with up := false, running := none, requests, answers, next }
  | /-- a new secret is recorded -/
    propose {x : Rotation ι π} {l p} (hr : x.running = none) (hp : x.pending l = none) :
      Step x { x with pending := update x.pending l (some p) }
  | /-- a round starts with the recorded secret -/
    issue {x : Rotation ι π} {l p c c' next} (hr : x.running = none) (hp : x.pending l = some p)
      (hc : x.next ≤ c) (hcc' : c < c') (hn : c' < next) :
      Step x { x with
        running := some (l, c, c')
        requests := x.requests ++ [.change c l p, .probe c' l (some p)]
        next }
  | /-- the holder opens a probe -/
    opened {x : Rotation ι π} {pre post id l p}
      (hq : x.requests = pre ++ .probe id l (some p) :: post) (hh : x.held l = some p) :
      Step x { x with requests := pre ++ .probe id l none :: post }
  | /-- the holder changes its secret and answers -/
    change {x : Rotation ι π} {id l p rest} (hq : x.requests = .change id l p :: rest) :
      Step x { x with
        held := update x.held l (some p), requests := rest, answers := (id, true) :: x.answers }
  | /-- the holder refuses a change -/
    refuse {x : Rotation ι π} {id l p rest} (hq : x.requests = .change id l p :: rest) :
      Step x { x with requests := rest, answers := (id, false) :: x.answers }
  | /-- the holder answers a probe that it opened -/
    probe {x : Rotation ι π} {id l rest} (hq : x.requests = .probe id l none :: rest) :
      Step x { x with requests := rest, answers := (id, true) :: x.answers }
  | /-- the owner switches to the new secret -/
    commit {x : Rotation ι π} {l c c' p} (hr : x.running = some (l, c, c'))
      (ha : (c, true) ∈ x.answers ∨ (c', true) ∈ x.answers) (hp : x.pending l = some p) :
      Step x { x with
        current := update x.current l (some p), pending := update x.pending l none,
        running := none }
  | /-- the owner ends a round that is refused -/
    giveUp {x : Rotation ι π} {l c c'} (hr : x.running = some (l, c, c'))
      (ha : (c, false) ∈ x.answers) : Step x { x with running := none }

/-! ### Steps with conclusions left open

The constructors build the state after a step. To use one on a state that is given, it is enough
that its fields are those that the constructor would give. -/

/-- Any number of steps. -/
abbrev Steps : Rotation ι π → Rotation ι π → Prop := Relation.ReflTransGen Step

/-- The owner comes back. -/
def again (x : Rotation ι π) : Rotation ι π :=
  { x with up := true, running := none, requests := [], answers := [] }

/-- Any number of steps, and of departures. -/
abbrev Runs : Rotation ι π → Rotation ι π → Prop :=
  Relation.ReflTransGen fun x y => Step x y ∨ y = x.again

omit [DecidableEq ι] in
theorem ext {x y : Rotation ι π} (hc : y.current = x.current) (hp : y.pending = x.pending)
    (hh : y.held = x.held) :
    y = { x with
      up := y.up, running := y.running, requests := y.requests, answers := y.answers
      next := y.next } := by
  cases x
  cases y
  simp_all

/-- A loss, stated on the two states. -/
theorem Step.loss {x y : Rotation ι π} (hc : y.current = x.current) (hp : y.pending = x.pending)
    (hh : y.held = x.held) (hu : y.up = x.up) (hr : y.running = x.running)
    (hq : y.requests.Sublist x.requests) (ha : y.answers ⊆ x.answers) (hn : x.next ≤ y.next) :
    Step x y := by
  rw [ext hc hp hh, hu, hr]
  exact .lose hq ha hn

/-- A departure, stated on the two states. -/
theorem Step.departure {x y : Rotation ι π} (hc : y.current = x.current)
    (hp : y.pending = x.pending) (hh : y.held = x.held) (hu : y.up = false)
    (hr : y.running = none) (hq : y.requests.Sublist x.requests) (ha : y.answers ⊆ x.answers)
    (hn : x.next ≤ y.next) : Step x y := by
  rw [ext hc hp hh, hu, hr]
  exact .leave hq ha hn

/-! ### The invariant

The running round is known by its two numbers. Its requests are the last ones on their way; a
positive answer to one of them says that the holder has the recorded secret. -/

/-- What a running round knows. -/
structure Round (x : Rotation ι π) (l : ι) (c c' : Nat) : Prop where
  lt : c < c'
  lt_next : c' < x.next
  change_le : ∀ {id l' p}, Request.change id l' p ∈ x.requests → id ≤ c
  change_eq : ∀ {q}, q ∈ x.requests → q.id = c → ∃ p, q = .change c l p
  pending : (x.pending l).isSome
  locked : ∀ {l' p}, Request.probe c' l' (some p) ∈ x.requests → l' = l ∧ x.pending l = some p
  opened : ∀ {l'}, Request.probe c' l' none ∈ x.requests → x.held l = x.pending l
  answered : (c, true) ∈ x.answers ∨ (c', true) ∈ x.answers → x.held l = x.pending l

/-- The messages on their way belong to the rounds of the owner. -/
structure Sound (x : Rotation ι π) : Prop where
  rounds : Rounds (x.requests.map Request.id) (x.answers.map Prod.fst) x.next
  carried : ∀ {id l p}, Request.change id l p ∈ x.requests → x.pending l = some p
  round : ∀ {l c c'}, x.running = some (l, c, c') → Round x l c c'

/-- **Agreement.** The secret of the holder is that of the owner or the recorded one. -/
def Agrees (x : Rotation ι π) (l : ι) : Prop :=
  ∀ h, x.held l = some h → x.current l = some h ∨ x.pending l = some h

/-! ## One step

Each part of the invariant is followed through each step. The steps of the holder (`opened`,
`change`, `probe`) touch the requests, those of the owner (`propose`, `issue`, `commit`,
`refuse`) the round that runs. -/

omit [DecidableEq ι] in
theorem Sound.lose {x : Rotation ι π} (hx : Sound x) {up running requests answers next}
    (hr : running = x.running ∨ running = none) (hq : requests.Sublist x.requests)
    (ha : answers ⊆ x.answers) (hn : x.next ≤ next) :
    Sound { x with up, running, requests, answers, next } where
  rounds := hx.rounds.lose (hq.map _) (List.map_subset _ ha) hn
  carried h := hx.carried (hq.subset h)
  round := by
    intro l c c' hrun
    have hrun : x.running = some (l, c, c') := by
      rcases hr with rfl | rfl
      · exact hrun
      · cases hrun
    have hround := hx.round hrun
    exact {
      lt := hround.lt
      lt_next := Nat.lt_of_lt_of_le hround.lt_next hn
      change_le := fun h => hround.change_le (hq.subset h)
      change_eq := fun h => hround.change_eq (hq.subset h)
      pending := hround.pending
      locked := fun h => hround.locked (hq.subset h)
      opened := fun h => hround.opened (hq.subset h)
      answered := fun h => hround.answered (h.imp (@ha _) (@ha _)) }

theorem Sound.propose {x : Rotation ι π} (hx : Sound x) {l : ι} {p : π} (hr : x.running = none)
    (hp : x.pending l = none) : Sound { x with pending := update x.pending l (some p) } where
  rounds := hx.rounds
  carried := by
    intro id l' p' h
    have hl' := hx.carried h
    have hne : l' ≠ l := by
      rintro rfl
      rw [hp] at hl'
      cases hl'
    show update x.pending l (some p) l' = some p'
    rw [Function.update_of_ne hne, hl']
  round h := by
    rw [hr] at h
    cases h

omit [DecidableEq ι] in
theorem Sound.issue {x : Rotation ι π} (hx : Sound x) {l : ι} {p : π} {c c' next : Nat}
    (hp : x.pending l = some p) (hc : x.next ≤ c) (hcc' : c < c') (hn : c' < next) :
    Sound { x with
      running := some (l, c, c')
      requests := x.requests ++ [.change c l p, .probe c' l (some p)]
      next } where
  rounds := by
    have := hx.rounds.issue hc hcc' hn
    rwa [List.map_append]
  carried := by
    intro id l' p' h
    rcases List.mem_append.mp h with h | h
    · exact hx.carried h
    · simp only [List.mem_cons, Request.change.injEq, reduceCtorEq, List.not_mem_nil,
        or_false] at h
      obtain ⟨-, rfl, rfl⟩ := h
      exact hp
  round := by
    intro l₁ c₁ c₁' hrun
    cases hrun
    -- every older message has a smaller number
    have hold : ∀ q ∈ x.requests, q.id < c := fun q hq =>
      Nat.lt_of_lt_of_le (hx.rounds.requests_lt _ (List.mem_map_of_mem hq)) hc
    have holda : ∀ o ∈ x.answers, o.1 < c := fun o ho =>
      Nat.lt_of_lt_of_le (hx.rounds.answers_lt _ (List.mem_map_of_mem ho)) hc
    exact {
      lt := hcc'
      lt_next := hn
      change_le := by
        intro id l' p' h
        rcases List.mem_append.mp h with h | h
        · exact Nat.le_of_lt (hold _ h)
        · simp only [List.mem_cons, Request.change.injEq, reduceCtorEq, List.not_mem_nil,
            or_false] at h
          exact Nat.le_of_eq h.1
      change_eq := by
        intro q h hid
        rcases List.mem_append.mp h with h | h
        · have := hold _ h
          omega
        · simp only [List.mem_cons, List.not_mem_nil, or_false] at h
          rcases h with rfl | rfl
          · exact ⟨p, rfl⟩
          · exact absurd hid (Nat.ne_of_gt hcc')
      pending := by
        show (x.pending l).isSome
        rw [hp]
        rfl
      locked := by
        intro l' p' h
        rcases List.mem_append.mp h with h | h
        · have : c' < c := hold _ h
          omega
        · simp only [List.mem_cons, Request.probe.injEq, reduceCtorEq, List.not_mem_nil,
            or_false, false_or, Option.some.injEq] at h
          obtain ⟨-, rfl, rfl⟩ := h
          exact ⟨rfl, hp⟩
      opened := by
        intro l' h
        rcases List.mem_append.mp h with h | h
        · have : c' < c := hold _ h
          omega
        · simp at h
      answered := by
        rintro (h | h)
        · have : c < c := holda _ h
          omega
        · have : c' < c := holda _ h
          omega }

omit [DecidableEq ι] in
theorem Sound.opened {x : Rotation ι π} (hx : Sound x) {pre post id l p}
    (hq : x.requests = pre ++ .probe id l (some p) :: post) (hh : x.held l = some p) :
    Sound { x with requests := pre ++ .probe id l none :: post } := by
  have hmem : ∀ q ∈ pre ++ Request.probe id l none :: post,
      q = .probe id l none ∨ q ∈ x.requests := by
    intro q h
    rw [hq]
    simp only [List.mem_append, List.mem_cons] at h ⊢
    tauto
  constructor
  · have := hx.rounds
    simp only [hq, List.map_append, List.map_cons, Request.id] at this ⊢
    exact this
  · intro id' l' p' h
    rcases hmem _ h with h | h
    · cases h
    · exact hx.carried h
  · intro l₁ c c' hrun
    have hround := hx.round hrun
    have hin : Request.probe id l (some p) ∈ x.requests := by
      rw [hq]
      exact List.mem_append_right _ List.mem_cons_self
    exact { hround with
      change_le := by
        intro id' l' p' h
        rcases hmem _ h with h | h
        · cases h
        · exact hround.change_le h
      change_eq := by
        intro q h hid
        rcases hmem _ h with rfl | h
        · obtain ⟨_, h⟩ := hround.change_eq (q := .probe id l (some p)) hin hid
          cases h
        · exact hround.change_eq h hid
      locked := by
        intro l' p' h
        rcases hmem _ h with h | h
        · cases h
        · exact hround.locked h
      opened := by
        intro l' h
        rcases hmem _ h with h | h
        · cases h
          -- the lock of the current probe is the pending secret
          obtain ⟨rfl, hp⟩ := hround.locked hin
          exact hh.trans hp.symm
        · exact hround.opened h }

theorem Sound.change {x : Rotation ι π} (hx : Sound x) {id l p rest}
    (hq : x.requests = .change id l p :: rest) :
    Sound { x with
      held := update x.held l (some p), requests := rest, answers := (id, true) :: x.answers } := by
  have hp : x.pending l = some p := hx.carried (by rw [hq]; exact List.mem_cons_self)
  have hsub : ∀ q ∈ rest, q ∈ x.requests := by
    intro q h
    rw [hq]
    exact List.mem_cons_of_mem _ h
  -- the holder can only get closer to what the owner recorded
  have hheld : ∀ l', x.held l' = x.pending l' →
      update x.held l (some p) l' = x.pending l' := by
    intro l' h
    by_cases hl : l' = l
    · subst hl
      rw [Function.update_self, hp]
    · rw [Function.update_of_ne hl, h]
  constructor
  · have h := hx.rounds
    rw [hq, List.map_cons] at h
    exact h.answer (List.Subset.refl _)
  · intro id' l' p' h
    exact hx.carried (hsub _ h)
  · intro l₁ c c' hrun
    have hround := hx.round hrun
    exact {
      lt := hround.lt
      lt_next := hround.lt_next
      change_le := fun h => hround.change_le (hsub _ h)
      change_eq := fun h => hround.change_eq (hsub _ h)
      pending := hround.pending
      locked := fun h => hround.locked (hsub _ h)
      opened := fun h => hheld _ (hround.opened (hsub _ h))
      answered := by
        have hin : Request.change id l p ∈ x.requests := by rw [hq]; exact List.mem_cons_self
        intro h
        show update x.held l (some p) l₁ = x.pending l₁
        by_cases hid : id = c
        · obtain ⟨_, h⟩ := hround.change_eq hin hid
          cases h
          rw [Function.update_self, hp]
        · have hid' : id ≠ c' := by
            have := hround.change_le hin
            have := hround.lt
            omega
          apply hheld
          apply hround.answered
          simp only [List.mem_cons, Prod.mk.injEq, and_true] at h
          tauto }

omit [DecidableEq ι] in
theorem Sound.probe {x : Rotation ι π} (hx : Sound x) {id l rest}
    (hq : x.requests = .probe id l none :: rest) :
    Sound { x with requests := rest, answers := (id, true) :: x.answers } := by
  have hin : Request.probe id l none ∈ x.requests := by rw [hq]; exact List.mem_cons_self
  have hsub : ∀ q ∈ rest, q ∈ x.requests := by
    intro q h
    rw [hq]
    exact List.mem_cons_of_mem _ h
  constructor
  · have h := hx.rounds
    rw [hq, List.map_cons] at h
    exact h.answer (List.Subset.refl _)
  · intro id' l' p' h
    exact hx.carried (hsub _ h)
  · intro l₁ c c' hrun
    have hround := hx.round hrun
    exact {
      lt := hround.lt
      lt_next := hround.lt_next
      change_le := fun h => hround.change_le (hsub _ h)
      change_eq := fun h => hround.change_eq (hsub _ h)
      pending := hround.pending
      locked := fun h => hround.locked (hsub _ h)
      opened := fun h => hround.opened (hsub _ h)
      answered := by
        intro h
        by_cases hid : id = c'
        · subst hid
          exact hround.opened hin
        · have hid' : id ≠ c := by
            intro hid
            obtain ⟨_, h⟩ := hround.change_eq hin hid
            cases h
          apply hround.answered
          simp only [List.mem_cons, Prod.mk.injEq, and_true] at h
          tauto }

theorem Sound.commit {x : Rotation ι π} (hx : Sound x) {l c c' p}
    (hr : x.running = some (l, c, c')) (ha : (c, true) ∈ x.answers ∨ (c', true) ∈ x.answers) :
    Sound { x with
      current := update x.current l (some p), pending := update x.pending l none,
      running := none } where
  rounds := hx.rounds
  carried := by
    intro id l' p' h
    -- the change of the round was answered, and those before it
    have hround := hx.round hr
    have hle := hround.change_le h
    have hlt := hround.lt
    have hid : id ∈ x.requests.map Request.id := List.mem_map_of_mem h
    rcases ha with ha | ha
    · have : c < id := hx.rounds.answered _ (List.mem_map_of_mem ha) _ hid
      omega
    · have : c' < id := hx.rounds.answered _ (List.mem_map_of_mem ha) _ hid
      omega
  round h := by cases h

omit [DecidableEq ι] in
theorem Sound.refuse {x : Rotation ι π} (hx : Sound x) {id l p rest}
    (hq : x.requests = .change id l p :: rest) :
    Sound { x with requests := rest, answers := (id, false) :: x.answers } := by
  have hsub : ∀ q ∈ rest, q ∈ x.requests := by
    intro q h
    rw [hq]
    exact List.mem_cons_of_mem _ h
  constructor
  · have h := hx.rounds
    rw [hq, List.map_cons] at h
    exact h.answer (List.Subset.refl _)
  · intro id' l' p' h
    exact hx.carried (hsub _ h)
  · intro l₁ c c' hrun
    have hround := hx.round hrun
    exact {
      lt := hround.lt
      lt_next := hround.lt_next
      change_le := fun h => hround.change_le (hsub _ h)
      change_eq := fun h => hround.change_eq (hsub _ h)
      pending := hround.pending
      locked := fun h => hround.locked (hsub _ h)
      opened := fun h => hround.opened (hsub _ h)
      answered := by
        intro h
        apply hround.answered
        simpa using h }

omit [DecidableEq ι] in
theorem Sound.again {x : Rotation ι π} : Sound x.again where
  rounds := Rounds.nil _
  carried h := nomatch h
  round h := nomatch h

/-- **Soundness** is kept by every step. -/
theorem Sound.step {x y : Rotation ι π} (hx : Sound x) (h : Step x y) : Sound y := by
  cases h with
  | lose hq ha hn => exact hx.lose (.inl rfl) hq ha hn
  | leave hq ha hn => exact hx.lose (.inr rfl) hq ha hn
  | propose hr hp => exact hx.propose hr hp
  | issue _ hp hc hcc' hn => exact hx.issue hp hc hcc' hn
  | opened hq hh => exact hx.opened hq hh
  | change hq => exact hx.change hq
  | refuse hq => exact hx.refuse hq
  | probe hq => exact hx.probe hq
  | commit hr ha _ => exact hx.commit hr ha
  | giveUp => exact ⟨hx.rounds, hx.carried, fun h => nomatch h⟩

/-! ### What is worth knowing of a step

The holder changes its secret to the recorded one, and the owner its own to the recorded one when
the round was answered. So they agree at each moment, on the current secret or on the recorded
one. -/

/-- A secret on which owner and holder agree stays so. -/
theorem Agrees.step {x y : Rotation ι π} {l : ι} (hl : Agrees x l) (hx : Sound x)
    (h : Step x y) : Agrees y l := by
  intro s hs
  cases h with
  | lose => exact hl s hs
  | leave => exact hl s hs
  | @propose l' p _ hp =>
    show x.current l = some s ∨ update x.pending l' (some p) l = some s
    rcases hl s hs with h | h
    · exact .inl h
    · have hne : l ≠ l' := by
        rintro rfl
        rw [hp] at h
        cases h
      rw [Function.update_of_ne hne]
      exact .inr h
  | issue => exact hl s hs
  | opened => exact hl s hs
  | @change id l' p rest hq =>
    have hs : update x.held l' (some p) l = some s := hs
    by_cases hll : l = l'
    · subst hll
      rw [Function.update_self] at hs
      rw [← hs]
      exact .inr (hx.carried (by rw [hq]; exact List.mem_cons_self))
    · rw [Function.update_of_ne hll] at hs
      exact hl s hs
  | refuse => exact hl s hs
  | probe => exact hl s hs
  | @commit l' c c' p hr ha hp =>
    show update x.current l' (some p) l = some s ∨ update x.pending l' none l = some s
    by_cases hll : l = l'
    · subst hll
      have := (hx.round hr).answered ha
      left
      rw [Function.update_self, ← hp, ← this]
      exact hs
    · rw [Function.update_of_ne hll, Function.update_of_ne hll]
      exact hl s hs
  | giveUp => exact hl s hs

/-- A secret is replaced, never lost. -/
theorem Step.isSome {x y : Rotation ι π} (h : Step x y) (l : ι) :
    ((x.current l).isSome → (y.current l).isSome) ∧ ((x.held l).isSome → (y.held l).isSome) := by
  have hupdate : ∀ (f : ι → Option π) (l' : ι) (p : π),
      (f l).isSome → (update f l' (some p) l).isSome := by
    intro f l' p hf
    by_cases hl : l = l'
    · subst hl
      rw [Function.update_self]
      rfl
    · rwa [Function.update_of_ne hl]
  cases h with
  | change => exact ⟨id, hupdate _ _ _⟩
  | commit => exact ⟨hupdate _ _ _, id⟩
  | _ => exact ⟨id, id⟩

/-! ## Any number of steps

Runs with departures: an owner that comes back finds its recorded secret, and no message. -/

theorem Steps.runs {x y : Rotation ι π} (h : Steps x y) : Runs x y :=
  Relation.ReflTransGen.mono (fun _ _ => Or.inl) _ _ h

theorem Sound.runs {x y : Rotation ι π} (hx : Sound x) (h : Runs x y) : Sound y := by
  induction h with
  | refl => exact hx
  | tail _ hs ih =>
    rcases hs with hs | rfl
    · exact ih.step hs
    · exact Sound.again

theorem Runs.isSome {x y : Rotation ι π} (h : Runs x y) (l : ι) :
    ((x.current l).isSome → (y.current l).isSome) ∧ ((x.held l).isSome → (y.held l).isSome) := by
  induction h with
  | refl => exact ⟨id, id⟩
  | tail _ hs ih =>
    rcases hs with hs | rfl
    · have := hs.isSome l
      exact ⟨fun h => this.1 (ih.1 h), fun h => this.2 (ih.2 h)⟩
    · exact ih

/-- **Agreement** is kept by every run. -/
theorem Agrees.runs {x y : Rotation ι π} {l : ι} (hl : Agrees x l) (hx : Sound x)
    (h : Runs x y) : Agrees y l := by
  induction h with
  | refl => exact hl
  | tail hs hlast ih =>
    rcases hlast with hlast | rfl
    · exact ih.step (hx.runs hs) hlast
    · exact ih

/-! ## As long as the owner stays

A stronger invariant for one stay of the owner. It is lost at a departure, where a change may
have been taken whose answer never comes. -/

/-- The holder has the secret of the owner. -/
def Equal (x : Rotation ι π) (l : ι) : Prop := ∀ p, x.current l = some p → x.held l = some p

/-- The secrets differ only in a running round whose change is no more on its way. -/
structure Settled (x : Rotation ι π) : Prop where
  behind : ∀ {id l p}, Request.change id l p ∈ x.requests → ∃ c', x.running = some (l, id, c')
  equal : ∀ l, Equal x l ∨ ∃ c c', x.running = some (l, c, c') ∧ ∀ q ∈ x.requests, q.id ≠ c
  refused : ∀ {l c c'}, x.running = some (l, c, c') → (c, false) ∈ x.answers → Equal x l

omit [DecidableEq ι] in
theorem Settled.equal_of_not_running {x : Rotation ι π} (hx : Settled x) {l : ι}
    (h : ∀ c c', x.running ≠ some (l, c, c')) : Equal x l := by
  rcases hx.equal l with heq | ⟨c, c', hrun, -⟩
  · exact heq
  · exact absurd hrun (h c c')

omit [DecidableEq ι] in
/-- No change is on its way once its round is answered. -/
theorem Settled.no_change {x : Rotation ι π} (hx : Settled x) (hs : Sound x) {l c c' b}
    (hrun : x.running = some (l, c, c'))
    (ha : (c, b) ∈ x.answers ∨ (c', b) ∈ x.answers) {id : Nat} {l' : ι} {p : π} :
    Request.change id l' p ∉ x.requests := by
  intro h
  obtain ⟨c₁, hrun'⟩ := hx.behind h
  rw [hrun] at hrun'
  cases hrun'
  have hlt := (hs.round hrun).lt
  have hid : c ∈ x.requests.map Request.id := List.mem_map_of_mem h
  rcases ha with ha | ha
  · have : c < c := hs.rounds.answered _ (List.mem_map_of_mem ha) _ hid
    omega
  · have : c' < c := hs.rounds.answered _ (List.mem_map_of_mem ha) _ hid
    omega

omit [DecidableEq ι] in
/-- The owner has nothing on its way, and the secrets are equal. -/
theorem Settled.ofEqual {x : Rotation ι π} (hq : x.requests = []) (hr : x.running = none)
    (h : ∀ l, Equal x l) : Settled x where
  behind h := by
    rw [hq] at h
    cases h
  equal l := .inl (h l)
  refused hrun := by
    rw [hr] at hrun
    cases hrun

/-! ### The steps of the owner -/

omit [DecidableEq ι] in
theorem Settled.lose {x : Rotation ι π} (hx : Settled x) {requests answers next}
    (hq : requests.Sublist x.requests) (ha : answers ⊆ x.answers) :
    Settled { x with requests, answers, next } where
  behind h := hx.behind (hq.subset h)
  equal l := (hx.equal l).imp_right fun ⟨c, c', hrun, hne⟩ =>
    ⟨c, c', hrun, fun q h => hne q (hq.subset h)⟩
  refused hrun h := hx.refused hrun (ha h)

omit [DecidableEq ι] in
theorem Settled.issue {x : Rotation ι π} (hx : Settled x) {l : ι} {p : π} {c c' next : Nat}
    (hr : x.running = none) :
    Settled { x with
      running := some (l, c, c')
      requests := x.requests ++ [.change c l p, .probe c' l (some p)]
      next } := by
  have hequal : ∀ l', Equal x l' := fun l' => hx.equal_of_not_running (by simp [hr])
  exact {
    behind := by
      intro id l' p' h
      rcases List.mem_append.mp h with h | h
      · obtain ⟨_, hrun⟩ := hx.behind h
        rw [hr] at hrun
        cases hrun
      · simp only [List.mem_cons, Request.change.injEq, reduceCtorEq, List.not_mem_nil,
          or_false] at h
        obtain ⟨rfl, rfl, -⟩ := h
        exact ⟨c', rfl⟩
    equal := fun l' => .inl (hequal l')
    refused := fun _ _ => hequal _ }

/-- The round that was answered ends, and with it the difference of the secrets. -/
theorem Settled.commit {x : Rotation ι π} (hx : Settled x) (hs : Sound x) {l : ι} {c c' : Nat}
    {p : π} (hr : x.running = some (l, c, c')) (ha : (c, true) ∈ x.answers ∨ (c', true) ∈ x.answers)
    (hp : x.pending l = some p) :
    Settled { x with
      current := update x.current l (some p), pending := update x.pending l none,
      running := none } where
  behind h := absurd h (hx.no_change hs hr ha)
  equal := by
    intro l'
    left
    intro s hcur
    have hcur : update x.current l (some p) l' = some s := hcur
    show x.held l' = some s
    by_cases hl : l' = l
    · subst hl
      rw [Function.update_self] at hcur
      rw [(hs.round hr).answered ha, hp, hcur]
    · rw [Function.update_of_ne hl] at hcur
      refine hx.equal_of_not_running ?_ s hcur
      intro c₁ c₁' hrun
      rw [hr] at hrun
      cases hrun
      exact hl rfl
  refused hrun := by cases hrun

omit [DecidableEq ι] in
theorem Settled.giveUp {x : Rotation ι π} (hx : Settled x) (hs : Sound x) {l : ι} {c c' : Nat}
    (hr : x.running = some (l, c, c')) (ha : (c, false) ∈ x.answers) :
    Settled { x with running := none } where
  behind h := absurd h (hx.no_change hs hr (.inl ha))
  equal := by
    intro l'
    left
    by_cases hl : l' = l
    · subst hl
      exact hx.refused hr ha
    · apply hx.equal_of_not_running
      intro c₁ c₁' hrun
      rw [hr] at hrun
      cases hrun
      exact hl rfl
  refused hrun := by cases hrun

/-! ### The steps of the holder -/

omit [DecidableEq ι] in
theorem Settled.opened {x : Rotation ι π} (hx : Settled x) {pre post : List (Request ι π)}
    {id : Nat} {l : ι} {p : π} (hq : x.requests = pre ++ .probe id l (some p) :: post) :
    Settled { x with requests := pre ++ .probe id l none :: post } := by
  have hmem : ∀ q ∈ pre ++ Request.probe id l none :: post, ∃ q' ∈ x.requests, q'.id = q.id ∧
      (q = q' ∨ q = .probe id l none) := by
    intro q h
    rw [hq]
    simp only [List.mem_append, List.mem_cons] at h
    rcases h with h | rfl | h
    · exact ⟨q, by simp [h], rfl, .inl rfl⟩
    · exact ⟨.probe id l (some p), by simp, rfl, .inr rfl⟩
    · exact ⟨q, by simp [h], rfl, .inl rfl⟩
  exact {
    behind := by
      intro id' l' p' h
      obtain ⟨q', hq', -, rfl | h⟩ := hmem _ h
      · exact hx.behind hq'
      · cases h
    equal := by
      intro l'
      refine (hx.equal l').imp_right fun ⟨c, c', hrun, hne⟩ => ⟨c, c', hrun, ?_⟩
      intro q h
      obtain ⟨q', hq', hid, -⟩ := hmem q h
      rw [← hid]
      exact hne q' hq'
    refused := hx.refused }

/-- The secrets differ from now on, in the round whose change is taken. -/
theorem Settled.change {x : Rotation ι π} (hx : Settled x) (hs : Sound x) {id : Nat} {l : ι}
    {p : π} {rest : List (Request ι π)} (hq : x.requests = .change id l p :: rest) :
    Settled { x with
      held := update x.held l (some p), requests := rest, answers := (id, true) :: x.answers } := by
  have hin : Request.change id l p ∈ x.requests := by rw [hq]; exact List.mem_cons_self
  obtain ⟨c', hrun⟩ := hx.behind hin
  exact {
    behind := fun h => hx.behind (by rw [hq]; exact List.mem_cons_of_mem _ h)
    equal := by
      intro l'
      by_cases hl : l' = l
      · subst hl
        refine .inr ⟨id, c', hrun, ?_⟩
        -- the numbers increase
        intro q h
        have hinc := hs.rounds.increasing
        rw [hq, List.map_cons] at hinc
        have : id < q.id := List.rel_of_pairwise_cons hinc (List.mem_map_of_mem h)
        omega
      · left
        intro s hcur
        show update x.held l (some p) l' = some s
        rw [Function.update_of_ne hl]
        refine hx.equal_of_not_running ?_ s hcur
        intro c₁ c₁' hrun'
        rw [hrun] at hrun'
        cases hrun'
        exact hl rfl
    refused := by
      intro l' c₁ c₁' hrun' ha
      rw [hrun] at hrun'
      cases hrun'
      have ha : (id, false) ∈ x.answers := by simpa using ha
      exact absurd hin (hx.no_change hs hrun (.inl ha)) }

omit [DecidableEq ι] in
/-- The first request is gone, and nothing else that matters before an answer comes. -/
theorem Settled.taken {x : Rotation ι π} (hx : Settled x) {q : Request ι π}
    {rest : List (Request ι π)} (hq : x.requests = q :: rest) {answers : List (Nat × Bool)}
    (hrefused : ∀ {l c c'}, x.running = some (l, c, c') → (c, false) ∈ answers → Equal x l) :
    Settled { x with requests := rest, answers } := by
  have hsub : ∀ r ∈ rest, r ∈ x.requests := by
    intro r h
    rw [hq]
    exact List.mem_cons_of_mem _ h
  exact {
    behind := fun h => hx.behind (hsub _ h)
    equal := fun l' => (hx.equal l').imp_right fun ⟨c, c', hrun, hne⟩ =>
      ⟨c, c', hrun, fun r h => hne r (hsub r h)⟩
    refused := hrefused }

omit [DecidableEq ι] in
/-- A change that is refused was still on its way. -/
theorem Settled.equal_of_change {x : Rotation ι π} (hx : Settled x) {id : Nat} {l : ι} {p : π}
    (hin : Request.change id l p ∈ x.requests) {l' : ι} {c c' : Nat}
    (hrun : x.running = some (l', c, c')) : Equal x l' := by
  obtain ⟨c₁, hrun₁⟩ := hx.behind hin
  rw [hrun] at hrun₁
  cases hrun₁
  rcases hx.equal l with heq | ⟨c₂, c₂', hrun₂, hne⟩
  · exact heq
  · rw [hrun] at hrun₂
    cases hrun₂
    exact absurd rfl (hne _ hin)

/-- **Settled** is kept by every step that the owner stays for. -/
theorem Settled.step {x y : Rotation ι π} (hx : Settled x) (hs : Sound x) (h : Step x y)
    (hup : y.up = true) : Settled y := by
  cases h with
  | lose hq ha => exact hx.lose hq ha
  | leave => cases hup
  | propose => exact ⟨hx.behind, hx.equal, hx.refused⟩
  | issue hr => exact hx.issue hr
  | opened hq => exact hx.opened hq
  | change hq => exact hx.change hs hq
  | refuse hq =>
    have hin := hq ▸ List.mem_cons_self
    exact hx.taken hq fun hrun _ => hx.equal_of_change hin hrun
  | probe hq =>
    refine hx.taken hq fun hrun ha => hx.refused hrun ?_
    simpa using ha
  | commit hr ha hp => exact hx.commit hs hr ha hp
  | giveUp hr ha => exact hx.giveUp hs hr ha

/-! ### Runs of one stay -/

/-- Nobody comes back in a step. -/
theorem Step.up {x y : Rotation ι π} (h : Step x y) (hup : y.up = true) : x.up = true := by
  cases h with
  | leave => cases hup
  | _ => exact hup

theorem Steps.up {x y : Rotation ι π} (h : Steps x y) (hup : y.up = true) : x.up = true := by
  induction h with
  | refl => exact hup
  | tail _ hs ih => exact ih (hs.up hup)

/-- **Settled** is kept as long as the owner stays. -/
theorem Settled.steps {x y : Rotation ι π} (hx : Settled x) (hs : Sound x) (h : Steps x y)
    (hup : y.up = true) : Settled y := by
  induction h with
  | refl => exact hx
  | tail hxy hlast ih => exact (ih (hlast.up hup)).step (hs.runs (Steps.runs hxy)) hlast hup

end Rotation

end RsmpGateway.Lib
