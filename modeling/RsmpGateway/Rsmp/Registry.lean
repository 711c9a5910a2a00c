import Mathlib.Logic.Function.Basic
import RsmpGateway.Lib.Search
import RsmpGateway.Rsmp.Command

/-!
# The registry of commands

`rsmp_sxl_cmd_add`, and what `rsmp_sxl_cmd_is_active` and `rsmp_sxl_cmd_exe` find. The commands
are in a search tree of the C library. What `tfind` returns is the address of a node, whose first
field is the address of the record; it is used as the address of the record itself. So the code
that is read is the address of the record, and the callback is what follows in the node
(`rsmpSxlCmdAdd_refines_iff`).

The library is any one that does what is documented (`Lib/Search.lean`), and the registry is
compared with a finite map from codes to callbacks, over any sequence of additions.
-/

namespace RsmpGateway.Rsmp

open RsmpGateway.Lib RsmpGateway.Auth RsmpGateway.Coder

/-! ## Records

Records are compared by their codes. -/

/-- `rsmp_sxl_callback_t` -/
structure RsmpSxlCallback (σ : Type) where
  fct : Option (Nat → SxlCallback σ)
  context : Nat

namespace RsmpSxlCallback

variable {σ : Type}

/-- No callback. -/
def null : RsmpSxlCallback σ := ⟨none, 0⟩

/-- The function with its context, if there is one. -/
def bound (callback : RsmpSxlCallback σ) : Option (SxlCallback σ) :=
  callback.fct.map fun fct => fct callback.context

end RsmpSxlCallback

/-- `rsmp_sxl_rec_t` -/
structure RsmpSxlRec (σ : Type) where
  cCI : CStr
  callback : RsmpSxlCallback σ

variable {σ : Type}

/-- `rsmp_sxl_rec_cmp` -/
def rsmpSxlRecCmp (a b : RsmpSxlRec σ) : Ordering := compare a.cCI.val b.cCI.val

instance : Std.TransCmp (rsmpSxlRecCmp (σ := σ)) :=
  inferInstanceAs (Std.TransCmp (compareOn fun rec : RsmpSxlRec σ => rec.cCI.val))

theorem rsmpSxlRecCmp_eq_iff {a b : RsmpSxlRec σ} : rsmpSxlRecCmp a b = .eq ↔ a.cCI = b.cCI := by
  rw [rsmpSxlRecCmp, Std.compare_eq_iff_eq, Subtype.ext_iff]

/-! ## The registry

The functions of `sxl.c`, over the tree. -/

/-- The search functions, over records. The second field that a program would read in a node,
were it a record, is a callback. -/
abbrev SxlTree (σ : Type) : Type 1 := SearchLib (RsmpSxlRec σ) (RsmpSxlCallback σ)

section Registry

variable (L : SxlTree σ)

/-- `_rsmp_sxl_find_by_cCI`: a node, taken for a record. -/
def rsmpSxlFindByCCI (t : L.Tree) (cCI : CStr) : Option L.Node :=
  L.tfind rsmpSxlRecCmp ⟨cCI, .null⟩ t

/-- What `rsmp_sxl_cmd_is_active` and `rsmp_sxl_cmd_exe` read. -/
def registryOf (t : L.Tree) : SxlRegistry σ := fun cCI =>
  (rsmpSxlFindByCCI L t cCI).map fun rec => (L.rest t rec).bound

/-- `rsmp_sxl_cmd_add`: what it returns, what it stores in `old`, and the tree. A callback that is
replaced is written in the node. -/
def rsmpSxlCmdAdd (t : L.Tree) (cCI : CStr) (callback : RsmpSxlCallback σ) :
    Except Stop ((Int × Option (RsmpSxlCallback σ)) × L.Tree) :=
  match rsmpSxlFindByCCI L t cCI with
  | some _ => .error .overflow
  | none =>
    match L.tsearch rsmpSxlRecCmp ⟨cCI, callback⟩ t with
    | none => .ok ((errcodSxlNotAvailableCmd, none), t)
    | some (_, t) => .ok ((noError, some .null), t)

/-- A sequence of calls. -/
def addAll : L.Tree → List (CStr × RsmpSxlCallback σ) →
    Except Stop (List (Int × Option (RsmpSxlCallback σ)) × L.Tree)
  | t, [] => .ok ([], t)
  | t, (cCI, callback) :: adds => do
    let (ret, t) ← rsmpSxlCmdAdd L t cCI callback
    let (rets, t) ← addAll t adds
    return (ret :: rets, t)

end Registry

/-! ## The finite map

What a registry is for: a code that was added once gives its callback. -/

/-- A finite map from codes to callbacks. -/
abbrev Commands (σ : Type) : Type := CStr → Option (RsmpSxlCallback σ)

namespace Commands

def empty : Commands σ := fun _ => none

/-- The map after a sequence of additions, each of which replaces what there was. -/
def addAll (m : Commands σ) : List (CStr × RsmpSxlCallback σ) → Commands σ
  | [] => m
  | (cCI, callback) :: adds => addAll (Function.update m cCI (some callback)) adds

/-- What the additions report: no error, and the callback that was there, or none. -/
def reports (m : Commands σ) :
    List (CStr × RsmpSxlCallback σ) → List (Int × Option (RsmpSxlCallback σ))
  | [] => []
  | (cCI, callback) :: adds =>
    (noError, some ((m cCI).getD .null)) ::
      reports (Function.update m cCI (some callback)) adds

/-- The commands that can be called. -/
def registry (m : Commands σ) : SxlRegistry σ := fun cCI => (m cCI).map RsmpSxlCallback.bound

end Commands

/-- Two registries do the same of a code. -/
structure ActsAs (R R' : SxlRegistry σ) (cCI : CStr) : Prop where
  isActive : rsmpSxlCmdIsActive R (some cCI) = rsmpSxlCmdIsActive R' (some cCI)
  exe : ∀ arg rv, arg.cCI = some cCI → rsmpSxlCmdExe R arg rv = rsmpSxlCmdExe R' arg rv

/-- The additions report what the map does, and a code is then treated as in the map. -/
def RefinesMap (L : SxlTree σ) (adds : List (CStr × RsmpSxlCallback σ)) (cCI : CStr) : Prop :=
  ∃ t, addAll L L.empty adds = .ok (Commands.empty.reports adds, t) ∧
    ActsAs (registryOf L t) (Commands.empty.addAll adds).registry cCI

/-! ## One addition

A code that is new is added, and one that is known is found. -/

section Tree

variable {L : SxlTree σ}

/-- The records of the tree are those of the map. -/
def Stores (L : SxlTree σ) (t : L.Tree) (m : Commands σ) : Prop :=
  ∀ cCI, ((rsmpSxlFindByCCI L t cCI).map (L.key t)).map RsmpSxlRec.callback = m cCI

theorem stores_empty (hL : L.Conforms rsmpSxlRecCmp) : Stores L L.empty Commands.empty := by
  intro cCI
  rw [rsmpSxlFindByCCI, hL.tfind_empty]
  rfl

theorem Stores.find_eq_none_iff {t : L.Tree} {m : Commands σ} (h : Stores L t m) (cCI : CStr) :
    rsmpSxlFindByCCI L t cCI = none ↔ m cCI = none := by
  rw [← h cCI, Option.map_eq_none_iff, Option.map_eq_none_iff]

/-- A code that is new. -/
theorem Stores.add (hL : L.Conforms rsmpSxlRecCmp) {t : L.Tree} {m : Commands σ}
    (h : Stores L t m) {cCI : CStr} (hnew : m cCI = none) (callback : RsmpSxlCallback σ) :
    ∃ t', rsmpSxlCmdAdd L t cCI callback = .ok ((noError, some .null), t') ∧
      Stores L t' (Function.update m cCI (some callback)) := by
  have hfind : rsmpSxlFindByCCI L t cCI = none := (h.find_eq_none_iff cCI).mpr hnew
  have hfind' : L.tfind rsmpSxlRecCmp ⟨cCI, callback⟩ t = none := by
    have hsame : rsmpSxlRecCmp ⟨cCI, callback⟩ ⟨cCI, .null⟩ = .eq := rsmpSxlRecCmp_eq_iff.mpr rfl
    exact (hL.tfind_congr hsame t).trans hfind
  obtain ⟨n, t', hsearch, hsame, hother⟩ := hL.tsearch_new hfind'
  refine ⟨t', ?_, ?_⟩
  · simp only [rsmpSxlCmdAdd, hfind, hsearch]
  · intro cCI'
    rw [rsmpSxlFindByCCI]
    by_cases heq : cCI' = cCI
    · rw [hsame _ (rsmpSxlRecCmp_eq_iff.mpr heq), heq, Function.update_self]
      rfl
    · rw [hother _ fun h => heq (rsmpSxlRecCmp_eq_iff.mp h), Function.update_of_ne heq]
      exact h cCI'

/-- A code that is there already: the node is written. -/
theorem Stores.add_again {t : L.Tree} {m : Commands σ} (h : Stores L t m) {cCI : CStr}
    (hthere : m cCI ≠ none) (callback : RsmpSxlCallback σ) :
    rsmpSxlCmdAdd L t cCI callback = .error .overflow := by
  obtain ⟨n, hn⟩ := Option.ne_none_iff_exists'.mp (mt (h.find_eq_none_iff cCI).mp hthere)
  simp only [rsmpSxlCmdAdd, hn]

/-! ## A sequence of additions

By induction on the additions, up to the first code that is repeated. -/

theorem Commands.addAll_eq_none_iff {m : Commands σ} {adds : List (CStr × RsmpSxlCallback σ)}
    {cCI : CStr} : m.addAll adds cCI = none ↔ m cCI = none ∧ cCI ∉ adds.map Prod.fst := by
  induction adds generalizing m with
  | nil => simp [addAll]
  | cons add adds ih =>
    obtain ⟨cCI', callback⟩ := add
    rw [addAll, ih, List.map_cons, List.mem_cons, not_or]
    by_cases heq : cCI = cCI'
    · simp [heq]
    · simp [heq]

/-- Codes that are all new. -/
def Fresh (m : Commands σ) (adds : List (CStr × RsmpSxlCallback σ)) : Prop :=
  (adds.map Prod.fst).Nodup ∧ ∀ cCI ∈ adds.map Prod.fst, m cCI = none

theorem fresh_cons_iff {m : Commands σ} {cCI : CStr} {callback : RsmpSxlCallback σ}
    {adds : List (CStr × RsmpSxlCallback σ)} (hnew : m cCI = none) :
    Fresh m ((cCI, callback) :: adds) ↔ Fresh (Function.update m cCI (some callback)) adds := by
  simp only [Fresh, List.map_cons, List.nodup_cons, List.forall_mem_cons]
  constructor
  · rintro ⟨⟨hmem, hnodup⟩, -, hall⟩
    refine ⟨hnodup, fun cCI' hcCI' => ?_⟩
    rw [Function.update_of_ne (ne_of_mem_of_not_mem hcCI' hmem)]
    exact hall cCI' hcCI'
  · rintro ⟨hnodup, hall⟩
    have hmem : cCI ∉ adds.map Prod.fst := by
      intro hcCI
      have hnone := hall cCI hcCI
      rw [Function.update_self] at hnone
      cases hnone
    refine ⟨⟨hmem, hnodup⟩, hnew, fun cCI' hcCI' => ?_⟩
    have hnone := hall cCI' hcCI'
    rwa [Function.update_of_ne (ne_of_mem_of_not_mem hcCI' hmem)] at hnone

theorem addAll_cons {t t' : L.Tree} {cCI : CStr} {callback : RsmpSxlCallback σ}
    (h : rsmpSxlCmdAdd L t cCI callback = .ok ((noError, some .null), t'))
    (adds : List (CStr × RsmpSxlCallback σ)) :
    addAll L t ((cCI, callback) :: adds) =
      (addAll L t' adds >>= fun r => .ok ((noError, some .null) :: r.1, r.2)) := by
  rw [addAll, h]
  rfl

theorem Stores.addAll_fresh (hL : L.Conforms rsmpSxlRecCmp)
    {adds : List (CStr × RsmpSxlCallback σ)} {t : L.Tree} {m : Commands σ} (h : Stores L t m)
    (hfresh : Fresh m adds) :
    ∃ t', addAll L t adds = .ok (m.reports adds, t') ∧ Stores L t' (m.addAll adds) := by
  induction adds generalizing t m with
  | nil => exact ⟨t, rfl, h⟩
  | cons add adds ih =>
    obtain ⟨cCI, callback⟩ := add
    have hm : m cCI = none := hfresh.2 cCI (by simp)
    obtain ⟨t₁, hadd, hstores⟩ := h.add hL hm callback
    obtain ⟨t', hrun, hend⟩ := ih hstores ((fresh_cons_iff hm).mp hfresh)
    refine ⟨t', ?_, hend⟩
    rw [addAll_cons hadd, hrun, Commands.reports, hm]
    rfl

theorem Stores.addAll_repeated (hL : L.Conforms rsmpSxlRecCmp)
    {adds : List (CStr × RsmpSxlCallback σ)} {t : L.Tree} {m : Commands σ} (h : Stores L t m)
    (hrepeated : ¬ Fresh m adds) : addAll L t adds = .error .overflow := by
  induction adds generalizing t m with
  | nil => exact absurd ⟨List.nodup_nil, nofun⟩ hrepeated
  | cons add adds ih =>
    obtain ⟨cCI, callback⟩ := add
    by_cases hm : m cCI = none
    · obtain ⟨t₁, hadd, hstores⟩ := h.add hL hm callback
      rw [addAll_cons hadd, ih hstores (mt (fresh_cons_iff hm).mpr hrepeated)]
      rfl
    · rw [addAll, h.add_again hm]
      rfl

end Tree

/-! ## The map

A code is treated as in the map when no code was added twice and this one was not added. What is
done with a record that was added depends on what follows in its node, and there is a library in
which this is wrong. -/

section Refinement

variable {adds : List (CStr × RsmpSxlCallback σ)} {cCI : CStr}

theorem fresh_empty_iff : Fresh Commands.empty adds ↔ (adds.map Prod.fst).Nodup :=
  and_iff_left fun _ _ => rfl

/-- A code without record is treated as in the map. -/
theorem actsAs_unknown {R R' : SxlRegistry σ} (h : R cCI = none) (h' : R' cCI = none) :
    ActsAs R R' cCI where
  isActive := by simp only [rsmpSxlCmdIsActive, h, h']
  exe arg rv harg := by simp only [rsmpSxlCmdExe, harg, h, h']

/-- A callback that can be called, for one that cannot. -/
def opposite (callback : RsmpSxlCallback σ) : RsmpSxlCallback σ :=
  match callback.fct with
  | none => ⟨some fun _ _ rv s => ((noError, rv), s), 0⟩
  | some _ => .null

theorem not_actsAs_opposite {R R' : SxlRegistry σ} (callback : RsmpSxlCallback σ)
    (h : R cCI = some (opposite callback).bound) (h' : R' cCI = some callback.bound) :
    ¬ ActsAs R R' cCI := by
  intro hacts
  have hactive := hacts.isActive
  obtain ⟨fct, context⟩ := callback
  simp only [rsmpSxlCmdIsActive, h, h'] at hactive
  cases fct with
  | none => cases hactive
  | some fct => cases hactive

/-- A library whose nodes hold, after the record, what `rest` makes of its callback. -/
def chainTree (rest : RsmpSxlCallback σ → RsmpSxlCallback σ) : SxlTree σ :=
  SearchLib.chain fun rec => rest rec.callback

theorem chainTree_conforms (rest : RsmpSxlCallback σ → RsmpSxlCallback σ) :
    (chainTree rest).Conforms rsmpSxlRecCmp :=
  SearchLib.chain_conforms _

theorem registryOf_chainTree {rest : RsmpSxlCallback σ → RsmpSxlCallback σ}
    {t : (chainTree rest).Tree} {m : Commands σ} (h : Stores (chainTree rest) t m) (cCI : CStr) :
    registryOf (chainTree rest) t cCI = (m cCI).map fun callback => (rest callback).bound := by
  rw [← h cCI, Option.map_map, Option.map_map]
  rfl

/-- **The registry of commands.** -/
theorem rsmpSxlCmdAdd_refines_iff (adds : List (CStr × RsmpSxlCallback σ)) (cCI : CStr) :
    (∀ L : SxlTree σ, L.Conforms rsmpSxlRecCmp → RefinesMap L adds cCI) ↔
      (adds.map Prod.fst).Nodup ∧ cCI ∉ adds.map Prod.fst := by
  constructor
  · intro h
    have hnodup : (adds.map Prod.fst).Nodup := by
      by_contra hrepeated
      have hL := chainTree_conforms (σ := σ) id
      obtain ⟨t, hrun, -⟩ := h _ hL
      rw [(stores_empty hL).addAll_repeated hL (mt fresh_empty_iff.mp hrepeated)] at hrun
      cases hrun
    refine ⟨hnodup, fun hmem => ?_⟩
    -- what follows the record in its node is chosen against it
    have hL := chainTree_conforms (σ := σ) opposite
    obtain ⟨t, hrun, hacts⟩ := h _ hL
    obtain ⟨t', hrun', hstores⟩ := (stores_empty hL).addAll_fresh hL (fresh_empty_iff.mpr hnodup)
    obtain rfl : t = t' := congrArg Prod.snd (Except.ok.inj (hrun.symm.trans hrun'))
    have hsome : Commands.empty.addAll adds cCI ≠ none := by
      rw [Ne, Commands.addAll_eq_none_iff]
      exact fun hnone => hnone.2 hmem
    obtain ⟨callback, hcallback⟩ := Option.ne_none_iff_exists'.mp hsome
    refine not_actsAs_opposite callback ?_ ?_ hacts
    · rw [registryOf_chainTree hstores, hcallback]
      rfl
    · rw [Commands.registry, hcallback]
      rfl
  · rintro ⟨hnodup, hmem⟩ L hL
    obtain ⟨t, hrun, hstores⟩ := (stores_empty hL).addAll_fresh hL (fresh_empty_iff.mpr hnodup)
    have hnone : Commands.empty.addAll adds cCI = none :=
      Commands.addAll_eq_none_iff.mpr ⟨rfl, hmem⟩
    refine ⟨t, hrun, actsAs_unknown ?_ ?_⟩
    · rw [registryOf, (hstores.find_eq_none_iff cCI).mpr hnone]
      rfl
    · rw [Commands.registry, hnone]
      rfl

end Refinement

/-! ### A command that is registered

With one command, and a tree of one node. -/

/-- The code and the callback of a DISP command. -/
def dispCommand : CStr × RsmpSxlCallback Unit :=
  (CStr.dup (ascii "DISP/M40"), ⟨some fun _ => handleDispEmpty, 0⟩)

/-- A leaf: what follows its record are null links. -/
def leafTree : SxlTree Unit := chainTree fun _ => .null

/-- The command is not available once it is registered, and cannot be registered again. -/
theorem not_refinesMap_disp :
    leafTree.Conforms rsmpSxlRecCmp ∧ ¬ RefinesMap leafTree [dispCommand] dispCommand.1 ∧
      addAll leafTree leafTree.empty [dispCommand, dispCommand] = .error .overflow := by
  have hL : leafTree.Conforms rsmpSxlRecCmp := chainTree_conforms _
  have hfresh : Fresh Commands.empty [dispCommand] := fresh_empty_iff.mpr (List.nodup_singleton _)
  refine ⟨hL, ?_, ?_⟩
  · rintro ⟨t, hrun, hacts⟩
    obtain ⟨t', hrun', hstores⟩ := (stores_empty hL).addAll_fresh hL hfresh
    obtain rfl : t = t' := congrArg Prod.snd (Except.ok.inj (hrun.symm.trans hrun'))
    have hcommand : Commands.empty.addAll [dispCommand] dispCommand.1 = some dispCommand.2 := by
      show Function.update Commands.empty dispCommand.1 (some dispCommand.2) dispCommand.1 = _
      exact Function.update_self ..
    refine not_actsAs_opposite dispCommand.2 ?_ ?_ hacts
    · apply (registryOf_chainTree hstores dispCommand.1).trans
      rw [hcommand]
      rfl
    · rw [Commands.registry, hcommand]
      rfl
  · apply (stores_empty hL).addAll_repeated hL
    rw [fresh_empty_iff]
    exact fun hnodup => (List.nodup_cons.mp hnodup).1 (by simp)

end RsmpGateway.Rsmp
