import Mathlib.Data.List.Chain
import Mathlib.Data.List.Nodup
import Mathlib.Logic.Function.Basic

/-!
# Circular lists

Doubly linked lists that close on a head node. The nodes of a list are known by their links alone
(`Ring.unique`); to put a node in, or to take one out, changes the links of its neighbours and of
no other node, so that all other lists stay (`Rings`).

The links are two functions on nodes, one for each direction, which are changed at one node at a
time as assignments do. Nothing is said of what is at a node. An operation is written as the
assignments that make it, and its lemma says which list there is afterwards.
-/

namespace RsmpGateway.Lib

/-- What the nodes point to. -/
structure Links (ν : Type _) where
  next : ν → ν
  prev : ν → ν

namespace Links

variable {ν : Type _} {L L' : Links ν} {root : ν} {ns : List ν}

/-- The nodes point to one another. -/
def Joined (L : Links ν) (a b : ν) : Prop := L.next a = b ∧ L.prev b = a

/-- The node points to itself. -/
def Alone (L : Links ν) (n : ν) : Prop := L.Joined n n

/-- From the head through the nodes, and back to the head. -/
structure Ring (L : Links ν) (root : ν) (ns : List ν) : Prop where
  nodup : (root :: ns).Nodup
  joined : (root :: (ns ++ [root])).IsChain L.Joined

/-- The links of the other nodes are the same. -/
def SameBut (L L' : Links ν) (s : List ν) : Prop :=
  ∀ n ∉ s, L'.next n = L.next n ∧ L'.prev n = L.prev n

/-! ## One list

A ring is a head and a list of nodes, each joined to the next one and the last one to the head.
The links determine the nodes. -/

theorem ring_nil : L.Ring root [] ↔ L.Alone root := by
  constructor
  · intro h
    exact List.isChain_pair.mp h.joined
  · intro h
    exact ⟨List.nodup_singleton root, List.isChain_pair.mpr h⟩

/-! ### Neighbours

The links of a node and of the head, read off the chain that a ring is: at a place in the list,
at its first node and at its last one. -/

/-- The neighbours of a node. -/
theorem Ring.at {as bs : List ν} {n : ν} (h : L.Ring root (as ++ n :: bs)) :
    (root :: as ++ [n]).IsChain L.Joined ∧ (n :: (bs ++ [root])).IsChain L.Joined := by
  have hjoined := h.joined
  rw [List.append_assoc, List.cons_append, ← List.cons_append, List.isChain_split] at hjoined
  exact hjoined

theorem joined_last {as : List ν} {a n : ν} (h : (a :: as ++ [n]).IsChain L.Joined) :
    L.Joined ((a :: as).getLast (List.cons_ne_nil a as)) n := by
  induction as generalizing a with
  | nil => exact List.isChain_pair.mp h
  | cons b as ih =>
    rw [List.getLast_cons_cons]
    exact ih (List.isChain_cons_cons.mp h).2

theorem joined_head {bs : List ν} {n r : ν} (h : (n :: (bs ++ [r])).IsChain L.Joined) :
    L.Joined n (bs.headD r) := by
  cases bs with
  | nil => exact List.isChain_pair.mp h
  | cons b bs => exact (List.isChain_cons_cons.mp h).1

/-- The node after the last one is the head. -/
theorem Ring.next_at {as bs : List ν} {n : ν} (h : L.Ring root (as ++ n :: bs)) :
    L.next n = bs.headD root :=
  (joined_head h.at.2).1

theorem Ring.prev_at {as bs : List ν} {n : ν} (h : L.Ring root (as ++ n :: bs)) :
    L.prev n = (root :: as).getLast (List.cons_ne_nil root as) :=
  (joined_last h.at.1).2

theorem Ring.next_root (h : L.Ring root ns) : L.next root = ns.headD root :=
  (joined_head h.joined).1

theorem Ring.prev_root (h : L.Ring root ns) :
    L.prev root = (root :: ns).getLast (List.cons_ne_nil root ns) := by
  have hjoined := h.joined
  rw [← List.cons_append] at hjoined
  exact (joined_last hjoined).2

/-- The nodes of a list point to nodes of the list. -/
theorem Ring.prev_mem {n : ν} (h : L.Ring root ns) (hn : n ∈ root :: ns) :
    L.prev n ∈ root :: ns := by
  rcases List.mem_cons.mp hn with rfl | hn
  · rw [h.prev_root]
    exact List.getLast_mem _
  · obtain ⟨as, bs, rfl⟩ := List.append_of_mem hn
    rw [h.prev_at]
    have hlast := List.getLast_mem (List.cons_ne_nil root as)
    exact List.mem_append_left (n :: bs) hlast

theorem Ring.next_mem {n : ν} (h : L.Ring root ns) (hn : n ∈ root :: ns) :
    L.next n ∈ root :: ns := by
  have hhead : ∀ bs : List ν, bs.headD root ∈ root :: bs := by
    intro bs
    cases bs <;> simp
  rcases List.mem_cons.mp hn with rfl | hn
  · rw [h.next_root]
    exact hhead ns
  · obtain ⟨as, bs, rfl⟩ := List.append_of_mem hn
    rw [h.next_at]
    have := hhead bs
    grind

/-! ### What the links tell

A list is empty, or a node is in no list, exactly when its links lead back to itself. And two
lists of nodes that the links make a ring of are equal: the walk from the head finds them. -/

/-- A list is empty when its head points to itself. -/
theorem Ring.alone_iff (h : L.Ring root ns) : L.Alone root ↔ ns = [] := by
  constructor
  · intro halone
    cases ns with
    | nil => rfl
    | cons n ns =>
      have hnext : root = n := halone.1.symm.trans h.next_root
      exact absurd (hnext ▸ List.mem_cons_self) (List.nodup_cons.mp h.nodup).1
  · rintro rfl
    exact ring_nil.mp h

/-- A node of a list does not point to itself. -/
theorem Ring.not_alone {n : ν} (h : L.Ring root ns) (hn : n ∈ ns) : L.next n ≠ n := by
  obtain ⟨as, bs, rfl⟩ := List.append_of_mem hn
  rw [h.next_at]
  have hnodup := h.nodup
  rw [List.nodup_cons, List.nodup_append, List.nodup_cons] at hnodup
  obtain ⟨hroot, -, ⟨hbs, -⟩, -⟩ := hnodup
  cases bs with
  | nil =>
    rintro rfl
    exact hroot hn
  | cons b bs =>
    rintro rfl
    exact hbs List.mem_cons_self

theorem Ring.ne_root {n : ν} (h : L.Ring root ns) (hn : n ∈ ns) : n ≠ root := by
  rintro rfl
  exact (List.nodup_cons.mp h.nodup).1 hn

theorem chain_unique {r : ν} : ∀ {ns ms : List ν} {a : ν}, (a :: (ns ++ [r])).IsChain L.Joined →
    (a :: (ms ++ [r])).IsChain L.Joined → r ∉ ns → r ∉ ms → ns = ms := by
  intro ns
  induction ns with
  | nil =>
    intro ms a hns hms _ hr
    cases ms with
    | nil => rfl
    | cons m ms =>
      have hm : r = m := (joined_head hns).1.symm.trans (joined_head hms).1
      exact absurd (hm ▸ List.mem_cons_self) hr
  | cons n ns ih =>
    intro ms a hns hms hr hr'
    cases ms with
    | nil =>
      have hn : n = r := (joined_head hns).1.symm.trans (joined_head hms).1
      exact absurd (hn ▸ List.mem_cons_self) hr
    | cons m ms =>
      have hm : n = m := (joined_head hns).1.symm.trans (joined_head hms).1
      subst hm
      rw [ih (List.isChain_cons_cons.mp hns).2 (List.isChain_cons_cons.mp hms).2
        (fun h => hr (List.mem_cons_of_mem _ h)) fun h => hr' (List.mem_cons_of_mem _ h)]

/-- The links tell the nodes. -/
theorem Ring.unique {ms : List ν} (h : L.Ring root ns) (h' : L.Ring root ms) : ns = ms :=
  chain_unique h.joined h'.joined (List.nodup_cons.mp h.nodup).1 (List.nodup_cons.mp h'.nodup).1

/-! ### Links that change elsewhere

The frame rules. A change is said by the nodes whose links it may touch, and a ring without one
of these nodes is as it was. -/

/-- A list without a node whose links differ stays. -/
theorem Ring.of_sameBut {s : List ν} (h : L.Ring root ns) (hsame : L.SameBut L' s)
    (hs : ∀ n ∈ s, n ∉ root :: ns) : L'.Ring root ns := by
  have hout : ∀ n ∈ root :: (ns ++ [root]), n ∉ s := by
    intro n hn hns
    apply hs n hns
    rw [List.mem_cons, List.mem_append, List.mem_singleton] at hn
    rw [List.mem_cons]
    tauto
  refine ⟨h.nodup, h.joined.imp_of_mem_imp ?_⟩
  rintro a b ha hb ⟨hnext, hprev⟩
  exact ⟨(hsame a (hout a ha)).1.trans hnext, (hsame b (hout b hb)).2.trans hprev⟩

theorem SameBut.mono {s s' : List ν} (h : L.SameBut L' s) (hs : s ⊆ s') : L.SameBut L' s' :=
  fun n hn => h n fun hmem => hn (hs hmem)

theorem SameBut.trans {L'' : Links ν} {s s' : List ν} (h : L.SameBut L' s)
    (h' : L'.SameBut L'' s') : L.SameBut L'' (s ++ s') := by
  intro n hn
  rw [List.mem_append, not_or] at hn
  obtain ⟨hnext, hprev⟩ := h n hn.1
  obtain ⟨hnext', hprev'⟩ := h' n hn.2
  exact ⟨hnext'.trans hnext, hprev'.trans hprev⟩

theorem Alone.of_sameBut {s : List ν} {n : ν} (h : L.Alone n) (hsame : L.SameBut L' s)
    (hs : n ∉ s) : L'.Alone n :=
  ⟨(hsame n hs).1.trans h.1, (hsame n hs).2.trans h.2⟩

/-! ## Where a list is cut

The neighbours of a node, in a list that is written with the node in the middle. -/

section Seam

variable {as bs : List ν}

theorem chain_congr {R S : ν → ν → Prop} {l : List ν} (h : l.IsChain R)
    (hRS : ∀ a ∈ l.dropLast, ∀ b ∈ l.tail, R a b → S a b) : l.IsChain S := by
  induction h with
  | nil => exact .nil
  | singleton a => exact .singleton a
  | @cons_cons a b l hab h ih =>
    refine .cons_cons (hRS a List.mem_cons_self b List.mem_cons_self hab) (ih ?_)
    intro c hc d hd
    exact hRS c (List.mem_cons_of_mem _ hc) d (List.mem_cons_of_mem _ hd)

theorem getLast_not_mem_dropLast {l : List ν} (hne : l ≠ []) (h : l.Nodup) :
    l.getLast hne ∉ l.dropLast := by
  intro hmem
  rw [← List.dropLast_append_getLast hne, List.nodup_append] at h
  exact h.2.2 _ hmem _ (List.mem_singleton_self _) rfl

/-- The first part of a list, from the head, and the second part, to the head. -/
theorem Ring.parts {ms : List ν} (h : L.Ring root (as ++ (ms ++ bs))) :
    (root :: as).IsChain L.Joined ∧ (bs ++ [root]).IsChain L.Joined := by
  have hjoined := h.joined
  rw [List.append_assoc, ← List.cons_append] at hjoined
  obtain ⟨hfirst, hrest, -⟩ := List.isChain_append.mp hjoined
  rw [List.append_assoc] at hrest
  exact ⟨hfirst, (List.isChain_append.mp hrest).2.1⟩

theorem Ring.parts_nodup {ms : List ν} (h : L.Ring root (as ++ (ms ++ bs))) :
    (root :: as).Nodup ∧ (bs ++ [root]).Nodup ∧ ∀ n ∈ as, n ∉ bs ++ [root] := by
  have hnodup := h.nodup
  rw [List.nodup_cons, List.nodup_append, List.nodup_append] at hnodup
  refine ⟨?_, ?_, ?_⟩
  · rw [List.nodup_cons]
    grind
  · rw [List.nodup_append]
    grind
  · grind

/-- Other nodes between two parts of a list, and a chain that goes over them. The links of the
first part, without its last node, and of the second part, without its first one, are the same. -/
theorem Ring.seam {ms new : List ν} {p q : ν} (h : L.Ring root (as ++ (ms ++ bs)))
    (hp : p = (root :: as).getLast (List.cons_ne_nil root as)) (hq : q = bs.headD root)
    (hnodup : (root :: (as ++ (new ++ bs))).Nodup)
    (hnext : ∀ n, n ≠ p → n ∉ ms ++ new → L'.next n = L.next n)
    (hprev : ∀ n, n ≠ q → n ∉ ms ++ new → L'.prev n = L.prev n)
    (hseam : (p :: (new ++ [q])).IsChain L'.Joined) : L'.Ring root (as ++ (new ++ bs)) := by
  obtain ⟨hfirst, hsecond⟩ := h.parts
  obtain ⟨hfirst', hsecond', hapart⟩ := h.parts_nodup
  have hout : ∀ n ∈ root :: (as ++ bs), n ∉ ms ++ new := by
    intro n hn
    have hold := h.nodup
    rw [List.nodup_cons, List.nodup_append, List.nodup_append] at hold hnodup
    simp only [List.mem_cons, List.mem_append] at *
    grind
  obtain ⟨c, cs, hcs⟩ := List.exists_cons_of_ne_nil (l := bs ++ [root]) (by simp)
  have hqc : q = c := by cases bs <;> simp_all
  subst hqc
  refine ⟨hnodup, ?_⟩
  have hleft : (root :: as).IsChain L'.Joined := by
    apply chain_congr hfirst
    rintro a ha b hb ⟨hab, hba⟩
    have hap : a ≠ p := by
      rintro rfl
      rw [hp] at ha
      exact getLast_not_mem_dropLast _ hfirst' ha
    have hbq : b ≠ q := by
      rintro rfl
      exact hapart b hb (hcs ▸ List.mem_cons_self)
    have ha' : a ∈ root :: (as ++ bs) :=
      List.mem_append_left bs (List.dropLast_subset _ ha)
    have hb' : b ∈ root :: (as ++ bs) :=
      List.mem_cons_of_mem _ (List.mem_append_left _ hb)
    exact ⟨(hnext a hap (hout a ha')).trans hab, (hprev b hbq (hout b hb')).trans hba⟩
  have hright : (q :: cs).IsChain L'.Joined := by
    rw [← hcs]
    apply chain_congr hsecond
    rintro a ha b hb ⟨hab, hba⟩
    rw [List.dropLast_concat] at ha
    have hap : a ≠ p := by
      rintro rfl
      have hpast : a ∈ root :: as := hp ▸ List.getLast_mem _
      rw [List.nodup_append] at hsecond'
      grind
    have hbq : b ≠ q := by
      rintro rfl
      rw [hcs] at hb hsecond'
      exact (List.nodup_cons.mp hsecond').1 hb
    have ha' : a ∈ root :: (as ++ bs) := by simp [ha]
    have hb' : b ∈ root :: (as ++ bs) := by
      have := List.mem_of_mem_tail hb
      grind
    exact ⟨(hnext a hap (hout a ha')).trans hab, (hprev b hbq (hout b hb')).trans hba⟩
  -- the seam between them
  have hsplit : root :: as = (root :: as).dropLast ++ [p] := by
    rw [hp, List.dropLast_append_getLast]
  rw [List.append_assoc, List.append_assoc, hcs, ← List.cons_append, hsplit, List.append_assoc,
    List.singleton_append, List.isChain_split, ← hsplit]
  exact ⟨hleft, List.isChain_cons_split.mpr ⟨hseam, hright⟩⟩

end Seam

/-! ## Insertion and removal

Three links change for an insertion, two for a removal, and the node that is removed is left
alone. -/

section Update

variable [DecidableEq ν]

/-- The node `item` before the node `pos`. -/
def insertBefore (L : Links ν) (pos item : ν) : Links ν where
  next := Function.update (Function.update L.next (L.prev pos) item) item pos
  prev := Function.update (Function.update L.prev pos item) item (L.prev pos)

/-- The node out of its list, and alone. -/
def unlink (L : Links ν) (n : ν) : Links ν where
  next := Function.update (Function.update L.next (L.prev n) (L.next n)) n n
  prev := Function.update (Function.update L.prev (L.next n) (L.prev n)) n n

theorem insertBefore_sameBut (L : Links ν) (pos item : ν) :
    L.SameBut (L.insertBefore pos item) [L.prev pos, pos, item] := by
  intro n hn
  simp only [List.mem_cons, List.not_mem_nil, or_false, not_or] at hn
  simp [insertBefore, hn]

theorem unlink_sameBut (L : Links ν) (n : ν) :
    L.SameBut (L.unlink n) [L.prev n, L.next n, n] := by
  intro m hm
  simp only [List.mem_cons, List.not_mem_nil, or_false, not_or] at hm
  simp [unlink, hm]

variable {as bs : List ν}

theorem Ring.insertBefore {item : ν} (h : L.Ring root (as ++ bs))
    (hitem : item ∉ root :: (as ++ bs)) :
    (L.insertBefore (bs.headD root) item).Ring root (as ++ item :: bs) := by
  have hprev : L.prev (bs.headD root) = (root :: as).getLast (List.cons_ne_nil root as) := by
    cases bs with
    | nil =>
      rw [List.append_nil] at h
      exact h.prev_root
    | cons b bs => exact h.prev_at
  have hp : L.prev (bs.headD root) ≠ item := by
    rw [hprev]
    rintro rfl
    have := List.getLast_mem (List.cons_ne_nil root as)
    grind
  have hq : bs.headD root ≠ item := by
    rintro rfl
    cases bs <;> simp at hitem
  generalize hpos : bs.headD root = pos at *
  have hcut : L.Ring root (as ++ ([] ++ bs)) := h
  show (L.insertBefore pos item).Ring root (as ++ ([item] ++ bs))
  apply hcut.seam hprev hpos.symm
  · have hnodup := h.nodup
    rw [List.nodup_cons, List.nodup_append] at hnodup ⊢
    simp only [List.mem_cons, List.mem_append] at *
    grind
  · intro n hnp hnew
    simp only [List.nil_append, List.mem_singleton] at hnew
    simp [Links.insertBefore, hnp, hnew]
  · intro n hnq hnew
    simp only [List.nil_append, List.mem_singleton] at hnew
    simp [Links.insertBefore, hnq, hnew]
  · refine List.isChain_cons_cons.mpr ⟨⟨?_, ?_⟩, List.isChain_pair.mpr ⟨?_, ?_⟩⟩
    · simp [Links.insertBefore, hp]
    · simp [Links.insertBefore]
    · simp [Links.insertBefore]
    · simp [Links.insertBefore, hq]

theorem unlink_alone (L : Links ν) (n : ν) : (L.unlink n).Alone n := by
  constructor <;> simp [unlink]

theorem Ring.unlink {n : ν} (h : L.Ring root (as ++ n :: bs)) :
    (L.unlink n).Ring root (as ++ bs) := by
  have hnodup := h.nodup
  rw [List.nodup_cons, List.nodup_append, List.nodup_cons] at hnodup
  have hp : L.prev n ≠ n := by
    rw [h.prev_at]
    intro heq
    have := heq ▸ List.getLast_mem (List.cons_ne_nil root as)
    grind
  have hq : L.next n ≠ n := h.not_alone (by simp)
  have hcut : L.Ring root (as ++ ([n] ++ bs)) := h
  show (L.unlink n).Ring root (as ++ ([] ++ bs))
  apply hcut.seam h.prev_at h.next_at
  · rw [List.nil_append, List.nodup_cons, List.nodup_append]
    grind
  · intro m hmp hm
    simp only [List.append_nil, List.mem_singleton] at hm
    simp [Links.unlink, hmp, hm]
  · intro m hmq hm
    simp only [List.append_nil, List.mem_singleton] at hm
    simp [Links.unlink, hmq, hm]
  · refine List.isChain_pair.mpr ⟨?_, ?_⟩
    · simp [Links.unlink, hp]
    · simp [Links.unlink, hq]

end Update

/-! ## Reading

A walk along the links of the head gives the nodes, with as many steps as there may be nodes. -/

section Walk

variable [DecidableEq ν]

/-- The nodes from `n` on, up to the head. -/
def walk (L : Links ν) (root : ν) : Nat → ν → List ν
  | 0, _ => []
  | fuel + 1, n => if n = root then [] else n :: walk L root fuel (L.next n)

theorem walk_chain {fuel : Nat} {a : ν} (h : (a :: (ns ++ [root])).IsChain L.Joined)
    (hroot : root ∉ ns) (hfuel : ns.length ≤ fuel) : L.walk root fuel (L.next a) = ns := by
  induction ns generalizing a fuel with
  | nil =>
    rw [(joined_head h).1]
    cases fuel with
    | zero => rfl
    | succ fuel => exact if_pos rfl
  | cons n ns ih =>
    obtain ⟨hn, hns⟩ := List.ne_and_not_mem_of_not_mem_cons hroot
    rw [(joined_head h).1]
    cases fuel with
    | zero => exact absurd hfuel (Nat.not_succ_le_zero _)
    | succ fuel =>
      have hwalk := ih (List.isChain_cons_cons.mp h).2 hns (Nat.le_of_succ_le_succ hfuel)
      show (if n = root then [] else n :: L.walk root fuel (L.next n)) = n :: ns
      rw [if_neg hn.symm, hwalk]

/-- The links give the nodes in order. -/
theorem Ring.walk_eq {fuel : Nat} (h : L.Ring root ns) (hfuel : ns.length ≤ fuel) :
    L.walk root fuel (L.next root) = ns :=
  walk_chain h.joined (List.nodup_cons.mp h.nodup).1 hfuel

end Walk

/-! ## Going round

Going on from a node, over the head, comes back to it after all the others. -/

/-- From the first node on: every node once, then the first one again. There is none after a
single one. -/
structure GoesRound (visit : Nat → Option ν) (ns : List ν) : Prop where
  nodup : ns.Nodup
  each : ∀ n ∈ ns, ∃! k, k < ns.length ∧ visit k = some n
  only : ∀ k n, visit k = some n → n ∈ ns
  back : 1 < ns.length → visit ns.length = visit 0
  alone : ns.length = 1 → visit 1 = none

section After

variable [DecidableEq ν]

/-- The node after `n`, over the head. -/
def after (L : Links ν) (root n : ν) : Option ν :=
  if L.next n ≠ root then some (L.next n)
  else if L.next root ≠ n then some (L.next root)
  else none

theorem Ring.after_at {as bs : List ν} {n m : ν} (h : L.Ring root (as ++ n :: m :: bs)) :
    L.after root n = some m := by
  have hnext : L.next n = m := h.next_at
  have hm : m ≠ root := h.ne_root (by simp)
  rw [after, hnext, if_pos hm]

/-- The last node is followed by the first one. -/
theorem Ring.after_last {as : List ν} {n m : ν} (h : L.Ring root (m :: (as ++ [n]))) :
    L.after root n = some m := by
  have hcut : L.Ring root ((m :: as) ++ n :: []) := h
  have hnext : L.next n = root := hcut.next_at
  have hroot : L.next root = m := h.next_root
  have hne : m ≠ n := by
    rintro rfl
    have hnodup := h.nodup
    rw [List.nodup_cons, List.nodup_cons] at hnodup
    exact hnodup.2.1 (by simp)
  rw [after, hnext, if_neg (not_not.mpr rfl), hroot, if_pos hne]

theorem Ring.after_alone {n : ν} (h : L.Ring root [n]) : L.after root n = none := by
  have hcut : L.Ring root ([] ++ n :: []) := h
  have hnext : L.next n = root := hcut.next_at
  have hroot : L.next root = n := h.next_root
  rw [after, hnext, if_neg (not_not.mpr rfl), hroot, if_neg (not_not.mpr rfl)]

theorem Ring.after_mem {n m : ν} (h : L.Ring root ns) (hn : n ∈ ns)
    (hafter : L.after root n = some m) : m ∈ ns := by
  have hroot := List.mem_cons_self (a := root) (l := ns)
  rw [after] at hafter
  split at hafter
  · next hne =>
    obtain rfl := Option.some.inj hafter
    exact (List.mem_cons.mp (h.next_mem (List.mem_cons_of_mem root hn))).resolve_left hne
  · split at hafter
    · obtain rfl := Option.some.inj hafter
      rcases List.mem_cons.mp (h.next_mem hroot) with halone | hmem
      · rw [h.next_root] at halone
        cases ns with
        | nil => cases hn
        | cons a as => exact absurd halone (h.ne_root List.mem_cons_self)
      · exact hmem
    · cases hafter

/-! ### The walk

A walk that asks for the node after the last one it was given. The head is stepped over, so that
the walk is a circle of the nodes alone. -/

/-- After the first node, each one is at its place. -/
theorem Ring.visit_at {visit : Nat → Option ν} {as : List ν} {last : ν}
    (h : L.Ring root (as ++ [last])) (h0 : visit 0 = some last)
    (hstep : ∀ k, ∀ n ∈ as ++ [last], visit k = some n → visit (k + 1) = L.after root n) {k : Nat}
    (hk : k < as.length) : visit (k + 1) = some as[k] := by
  induction k with
  | zero =>
    cases as with
    | nil => cases hk
    | cons m as => rw [hstep 0 last (by simp) h0, h.after_last, List.getElem_cons_zero]
  | succ k ih =>
    have hcut : as ++ [last] = as.take k ++ as[k] :: as[k + 1] :: (as.drop (k + 2) ++ [last]) := by
      have hdrop : as.drop k = as[k] :: as[k + 1] :: as.drop (k + 2) := by
        rw [List.drop_eq_getElem_cons (Nat.lt_of_succ_lt hk), List.drop_eq_getElem_cons hk]
      calc as ++ [last] = as.take k ++ as.drop k ++ [last] := by rw [List.take_append_drop]
        _ = _ := by rw [hdrop, List.append_assoc]; rfl
    have hmem : as[k] ∈ as ++ [last] :=
      List.mem_append_left _ (List.getElem_mem (Nat.lt_of_succ_lt hk))
    rw [hstep (k + 1) _ hmem (ih (Nat.lt_of_succ_lt hk))]
    rw [hcut] at h
    exact h.after_at

/-- **Going round** a list from its last node. -/
theorem Ring.goesRound {visit : Nat → Option ν} (h : L.Ring root ns) (hne : ns ≠ [])
    (h0 : visit 0 = some (L.prev root))
    (hstep : ∀ k, ∀ n ∈ ns, visit k = some n → visit (k + 1) = L.after root n)
    (hnone : ∀ k, visit k = none → visit (k + 1) = none) : GoesRound visit ns := by
  obtain ⟨as, last, rfl⟩ := (List.eq_nil_or_concat' ns).resolve_left hne
  have hlast : visit 0 = some last := by
    rw [h0, h.prev_root]
    simp
  have hnodup := (List.nodup_cons.mp h.nodup).2
  obtain ⟨has, -, hout⟩ := List.nodup_append.mp hnodup
  -- after the last node come the others, in order
  have hat : ∀ {k} (hk : k < as.length), visit (k + 1) = some as[k] :=
    fun hk => h.visit_at hlast hstep hk
  have hlen : (as ++ [last]).length = as.length + 1 := by simp
  refine ⟨hnodup, ?_, ?_, ?_, ?_⟩
  · -- each node is visited within one round, at one place only
    intro n hn
    rw [hlen]
    rcases List.mem_append.mp hn with hn | hn
    · obtain ⟨i, hi, rfl⟩ := List.getElem_of_mem hn
      refine ⟨i + 1, ⟨Nat.succ_lt_succ hi, hat hi⟩, ?_⟩
      rintro k ⟨hk, hvisit⟩
      cases k with
      | zero =>
        rw [hlast] at hvisit
        exact absurd (Option.some.inj hvisit).symm (hout _ hn _ (List.mem_singleton_self last))
      | succ k =>
        rw [hat (Nat.lt_of_succ_lt_succ hk)] at hvisit
        rw [(has.getElem_inj_iff).mp (Option.some.inj hvisit)]
    · obtain rfl := List.mem_singleton.mp hn
      refine ⟨0, ⟨Nat.succ_pos _, hlast⟩, ?_⟩
      rintro k ⟨hk, hvisit⟩
      cases k with
      | zero => rfl
      | succ k =>
        have hk' := Nat.lt_of_succ_lt_succ hk
        rw [hat hk'] at hvisit
        exact absurd (Option.some.inj hvisit)
          (hout _ (List.getElem_mem hk') _ (List.mem_singleton_self n))
  · -- nothing but nodes is visited
    intro k
    induction k with
    | zero =>
      intro n hn
      rw [hlast] at hn
      obtain rfl := Option.some.inj hn
      simp
    | succ k ih =>
      intro n hn
      cases hk : visit k with
      | none =>
        rw [hnone k hk] at hn
        cases hn
      | some m =>
        rw [hstep k m (ih m hk) hk] at hn
        exact h.after_mem (ih m hk) hn
  · -- the round ends where it began
    intro hlt
    cases hcut : as.length with
    | zero => omega
    | succ k =>
      have hk : k < as.length := by omega
      have hmem : as[k] ∈ as ++ [last] := List.mem_append_left _ (List.getElem_mem hk)
      rw [hlen, hcut, hstep (k + 1) _ hmem (hat hk), hlast]
      have hsplit : as ++ [last] = as.take k ++ as[k] :: last :: [] := by
        have hdrop : as.drop k = [as[k]] := by
          rw [List.drop_eq_getElem_cons hk, List.drop_of_length_le (by omega)]
        calc as ++ [last] = as.take k ++ as.drop k ++ [last] := by rw [List.take_append_drop]
          _ = _ := by rw [hdrop, List.append_assoc]; rfl
      rw [hsplit] at h
      exact h.after_at
  · intro hone
    have has : as = [] := List.length_eq_zero_iff.mp (by omega)
    subst has
    rw [hstep 0 last (by simp) hlast]
    exact Ring.after_alone h

end After

/-! ## Several lists

A family of rings without a node in common, one of which changes. -/

section Rings

variable {ι : Type _} {roots : ι → ν} {nodes : ι → List ν}

/-- Lists that are apart. -/
structure Rings (L : Links ν) (roots : ι → ν) (nodes : ι → List ν) : Prop where
  ring : ∀ i, L.Ring (roots i) (nodes i)
  apart : ∀ {i j}, i ≠ j → ∀ n ∈ roots i :: nodes i, n ∉ roots j :: nodes j

/-- The node is in no list, and is no head. -/
def Free (roots : ι → ν) (nodes : ι → List ν) (n : ν) : Prop := ∀ i, n ∉ roots i :: nodes i

variable [DecidableEq ι]

/-- One list changes, by its own nodes and by those that are in no list. -/
theorem Rings.update {i : ι} {s ns' : List ν} (h : L.Rings roots nodes)
    (hring : L'.Ring (roots i) ns') (hsame : L.SameBut L' s)
    (hs : ∀ n ∈ s ++ ns', n ∈ roots i :: nodes i ∨ Free roots nodes n) :
    L'.Rings roots (Function.update nodes i ns') := by
  have hout : ∀ {j}, j ≠ i → ∀ n ∈ s ++ ns', n ∉ roots j :: nodes j := by
    intro j hj n hn
    rcases hs n hn with hin | hfree
    · exact h.apart hj.symm n hin
    · exact hfree j
  -- the other lists do not meet the new nodes
  have hnew : ∀ {j}, j ≠ i → ∀ n ∈ roots i :: ns', n ∉ roots j :: nodes j := by
    intro j hj n hn
    rcases List.mem_cons.mp hn with rfl | hn
    · exact h.apart hj.symm _ List.mem_cons_self
    · exact hout hj n (List.mem_append_right s hn)
  constructor
  · intro j
    by_cases hj : j = i
    · subst hj
      rwa [Function.update_self]
    · rw [Function.update_of_ne hj]
      exact (h.ring j).of_sameBut hsame fun n hn => hout hj n (List.mem_append_left ns' hn)
  · intro j k hjk n hn
    by_cases hj : j = i
    · subst hj
      rw [Function.update_self] at hn
      rw [Function.update_of_ne hjk.symm]
      exact hnew hjk.symm n hn
    · rw [Function.update_of_ne hj] at hn
      by_cases hk : k = i
      · subst hk
        rw [Function.update_self]
        exact fun hmem => hnew hj n hmem hn
      · rw [Function.update_of_ne hk]
        exact h.apart hjk n hn

/-- A node that leaves its list is in none. -/
theorem Rings.free_of_cut {i : ι} {as bs : List ν} {n : ν} (h : L.Rings roots nodes)
    (hi : nodes i = as ++ n :: bs) : Free roots (Function.update nodes i (as ++ bs)) n := by
  intro j
  by_cases hj : j = i
  · subst hj
    have hnodup := (h.ring j).nodup
    rw [hi, List.nodup_cons, List.nodup_append, List.nodup_cons] at hnodup
    rw [Function.update_self]
    grind
  · rw [Function.update_of_ne hj]
    exact h.apart (Ne.symm hj) n (by rw [hi]; simp)

end Rings

end Links

end RsmpGateway.Lib
