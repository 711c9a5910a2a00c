import RsmpGateway.Lib.CString
import RsmpGateway.Rsmp.Command

/-!
# The options of the launcher

`rsmp_context_from_str` looks the name of each option up in the table of the fields, which has no
entry for three of them: a name that is not found before the first of the three is compared with
`NULL`. The options are stored exactly where this happens to none of them (`storesOptions_iff`).

The names and the order of the table are those of the source; which option is found before the
gap is read off them. Of the context only what the options set is modelled. How the text is cut
in options is a parameter.
-/

namespace RsmpGateway.Rsmp

open RsmpGateway.Lib

/-! ## The fields

The fields by their numbers, with their names. Three entries of the table are null. -/

/-- `rsmp_fields_t` -/
inductive RsmpField
  | aCId | ack | age | arg | aS | aSp | aSTS | aTs | cat | cCI | cId | cO | cTS | fP | fS | mId
  | mType | n | ntsOId | oMId | pri | q | rea | RSMP | rvs | s | sCI | se | sId | siteId | sOc | sS
  | sTs | SXL | eSXLG | sg | type | uRt | v | vers | wTs | xACId | xNACId | xNId | uId | data
  | login | cipher | ackMessage
  deriving DecidableEq

namespace RsmpField

/-- The fields in the order of their numbers. -/
def all : List RsmpField :=
  [aCId, ack, age, arg, aS, aSp, aSTS, aTs, cat, cCI, cId, cO, cTS, fP, fS, mId, mType, n, ntsOId,
    oMId, pri, q, rea, RSMP, rvs, s, sCI, se, sId, siteId, sOc, sS, sTs, SXL, eSXLG, sg, type, uRt,
    v, vers, wTs, xACId, xNACId, xNId, uId, data, login, cipher, ackMessage]

/-- An entry of the table. -/
def entry (name : String) : Option CString := some (.ofBytes (ascii name))

/-- `_rsmp_fields_tab[i].lib` -/
def lib : RsmpField → Option CString
  | aCId => entry "aCId"
  | ack => entry "ack"
  | age => entry "age"
  | arg => entry "arg"
  | aS => entry "aS"
  | aSp => entry "aSp"
  | aSTS => entry "aSTS"
  | aTs => entry "aTs"
  | cat => entry "cat"
  | cCI => entry "cCI"
  | cId => entry "cId"
  | cO => entry "cO"
  | cTS => entry "cTS"
  | fP => entry "fP"
  | fS => entry "fS"
  | mId => entry "mId"
  | mType => entry "mType"
  | n => entry "n"
  | ntsOId => entry "ntsOId"
  | oMId => entry "oMId"
  | pri => entry "pri"
  | q => entry "q"
  | rea => entry "rea"
  | RSMP => entry "RSMP"
  | rvs => entry "rvs"
  | s => entry "s"
  | sCI => entry "sCI"
  | se => entry "se"
  | sId => entry "sId"
  | siteId => entry "siteId"
  | sOc => entry "sOc"
  | sS => entry "sS"
  | sTs => entry "sTs"
  | SXL => entry "SXL"
  | type => entry "type"
  | uRt => entry "uRt"
  | v => entry "v"
  | vers => entry "vers"
  | wTs => entry "wTs"
  | xACId => entry "xACId"
  | xNACId => entry "xNACId"
  | xNId => entry "xNId"
  | uId => entry "uId"
  | data => entry "data"
  | login => entry "login"
  | cipher => entry "cipher"
  -- no designator names these three
  | eSXLG => none
  | sg => none
  | ackMessage => none

end RsmpField

/-- `_rsmp_field_from_lib` from an entry of the table on: `strcmp` with `NULL` is a fault. -/
def rsmpFieldFromLib (lib : CString) : List RsmpField → Outcome (Option RsmpField)
  | [] => .ok none
  | i :: rest =>
    match i.lib with
    | none => .fault
    | some name => if lib = name then .ok (some i) else rsmpFieldFromLib lib rest

/-! ## The context

The options one after the other, up to the first one that is refused. -/

/-- `rsmp_context_t`, of which the options set these. -/
structure RsmpContext where
  RSMP : List CString
  siteId : List CString
  SXL : Option CString
  ntsOId : Option CString
  cId : Option CString
  xNId : Option CString
  sId : Option CString
  deriving DecidableEq

namespace RsmpContext

/-- `rsmp_context_RSMP_add` -/
def RSMPAdd (item : RsmpContext) (value : CString) : RsmpContext :=
  { item with RSMP := item.RSMP ++ [value] }

/-- `rsmp_context_siteId_add` -/
def siteIdAdd (item : RsmpContext) (value : CString) : RsmpContext :=
  { item with siteId := item.siteId ++ [value] }

/-- The branch of `rsmp_context_from_str` for a field, and `sId_set` after it; nothing for the
default. -/
def setField (item : RsmpContext) (sIdSet : Bool) (value : CString) :
    Option RsmpField → Option (Bool × RsmpContext)
  | some .vers => some (sIdSet, item.RSMPAdd value)
  | some .sId =>
    let item := item.siteIdAdd value
    some (true, if sIdSet then item else { item with sId := some value })
  | some .xNId => some (sIdSet, { item with xNId := some value })
  | some .SXL => some (sIdSet, { item with SXL := some value })
  | some .ntsOId => some (sIdSet, { item with ntsOId := some value })
  | some .cId => some (sIdSet, { item with cId := some value })
  | _ => none

end RsmpContext

/-- `_rsmp_errcod_gen_config_` -/
def errcodGenConfig : Int := 2

/-- A label and its value, cut at the first colon. -/
def splitLabel (arg : CString) : Option (CString × CString) :=
  if 0x3A ∈ arg.val then
    some (.ofBytes (arg.val.takeWhile (· ≠ 0x3A)),
      .ofBytes ((arg.val.dropWhile (· ≠ 0x3A)).drop 1))
  else none

/-- The loop of `rsmp_context_from_str`. -/
def optionsLoop (sIdSet : Bool) (item : RsmpContext) :
    List CString → Outcome (Int × RsmpContext)
  | [] => .ok (noError, item)
  | arg :: argv =>
    match splitLabel arg with
    | none => .ok (errcodGenConfig, item)
    | some (label, value) => do
      let field ← rsmpFieldFromLib label RsmpField.all
      match item.setField sIdSet value field with
      | none => .ok (errcodGenConfig, item)
      | some (sIdSet, item) => optionsLoop sIdSet item argv

section

variable (decodeparam : CString → List CString)

/-- `rsmp_context_from_str`, of the context given or of the global one. -/
def rsmpContextFromStr (item : RsmpContext) (options : CString) : Outcome (Int × RsmpContext) :=
  optionsLoop false item (decodeparam options)

end

/-! ## What the options say

What a reader of the options expects to find in the context. -/

/-- The fields that an option sets. -/
def handled : List RsmpField := [.vers, .sId, .xNId, .SXL, .ntsOId, .cId]

/-- The field of a label, where an option sets it. -/
def handledField (label : CString) : Option RsmpField :=
  handled.find? fun field => field.lib = some label

/-- The field that an option sets, and the value. -/
def setting (arg : CString) : Option (RsmpField × CString) := do
  let (label, value) ← splitLabel arg
  let field ← handledField label
  return (field, value)

/-- The settings before the first option that is refused. -/
def settings : List CString → List (RsmpField × CString)
  | [] => []
  | arg :: argv =>
    match setting arg with
    | none => []
    | some s => s :: settings argv

/-- The values that are set for a field. -/
def values (field : RsmpField) (l : List (RsmpField × CString)) : List CString :=
  l.filterMap fun s => if s.1 = field then some s.2 else none

/-- The context with the settings: the values of a list are added, the last value of a string counts
and the first site. -/
def RsmpContext.stored (item : RsmpContext) (l : List (RsmpField × CString)) : RsmpContext where
  RSMP := item.RSMP ++ values .vers l
  siteId := item.siteId ++ values .sId l
  SXL := (values .SXL l).getLast?.or item.SXL
  ntsOId := (values .ntsOId l).getLast?.or item.ntsOId
  cId := (values .cId l).getLast?.or item.cId
  xNId := (values .xNId l).getLast?.or item.xNId
  sId := (values .sId l).head?.or item.sId

section

variable (decodeparam : CString → List CString)

/-- **The options are stored under their own names**, up to one that is refused. -/
def StoresOptions (item : RsmpContext) (options : CString) : Prop :=
  rsmpContextFromStr decodeparam item options =
    .ok (if ∀ arg ∈ decodeparam options, (setting arg).isSome then noError else errcodGenConfig,
      item.stored (settings (decodeparam options)))

end

/-- The labels that are looked up: all of them, or those up to the first refused option. -/
def labels : List CString → List CString
  | [] => []
  | arg :: argv =>
    match splitLabel arg with
    | none => []
    | some (label, _) => label :: if (handledField label).isSome then labels argv else []

/-- The fields before the first one without entry, `eSXLG`. -/
def early : List RsmpField := RsmpField.all.takeWhile fun field => field.lib.isSome

/-! ## When they are stored

A lookup decides where its name stands in the table, or goes wrong; the loop follows the lookups. -/

/-- **A name is looked up without fault** exactly where it is found before the first missing entry,
or none is missing. -/
theorem rsmpFieldFromLib_decides (lib : CString) (table : List RsmpField) :
    (rsmpFieldFromLib lib table).Decides
      ((∃ i ∈ table.takeWhile (fun i => i.lib.isSome), i.lib = some lib) ∨
        ∀ i ∈ table, i.lib.isSome)
      (table.find? fun i => i.lib = some lib) := by
  induction table with
  | nil => exact .inl ⟨.inr nofun, rfl⟩
  | cons i table ih =>
    rw [rsmpFieldFromLib]
    cases hi : i.lib with
    | none =>
      refine .inr ⟨?_, rfl⟩
      rintro (⟨j, hj, -⟩ | hall)
      · simp [hi] at hj
      · simpa [hi] using hall i List.mem_cons_self
    | some name =>
      by_cases hname : lib = name
      · refine .inl ⟨.inl ⟨i, ?_, ?_⟩, ?_⟩
        · simp [hi]
        · rw [hi, hname]
        · simp [hi, hname]
      · have hfind : (i :: table).find? (fun i => i.lib = some lib) =
            table.find? fun i => i.lib = some lib := by
          rw [List.find?_cons_of_neg]
          simpa [hi] using Ne.symm hname
        rw [hfind]
        simp only [if_neg hname]
        refine ih.congr ?_
        simp [hi, Ne.symm hname]

/-! ### Fields that come before the gap

The lookup compares with each entry of the table in turn, up to the one with the name. An entry
that is missing is a null pointer, so that the names after the first one of them are never
reached. -/

/-- A label that is the name of an early field. -/
def IsEarly (label : CString) : Prop := ∃ field ∈ early, field.lib = some label

theorem lookup_decides (label : CString) : (rsmpFieldFromLib label RsmpField.all).Decides
    (IsEarly label) (RsmpField.all.find? fun field => field.lib = some label) := by
  refine (rsmpFieldFromLib_decides label RsmpField.all).congr (or_iff_left fun hall => ?_)
  exact absurd (hall .eSXLG (by decide)) (by decide)

/-- No two fields have one name. -/
theorem find_lib : ∀ field ∈ RsmpField.all, field.lib.isSome →
    RsmpField.all.find? (fun other => other.lib = field.lib) = some field := by
  decide +kernel

theorem mem_all (field : RsmpField) : field ∈ RsmpField.all := by
  cases field <;> decide

theorem lib_injective {field other : RsmpField} {label : CString}
    (hfield : field.lib = some label) (hother : other.lib = some label) : field = other := by
  have h : ∀ f : RsmpField, f.lib = some label →
      RsmpField.all.find? (fun g => g.lib = some label) = some f := by
    intro f hf
    have := find_lib f (mem_all f) (by rw [hf]; rfl)
    rwa [hf] at this
  have := (h field hfield).symm.trans (h other hother)
  exact Option.some.inj this

/-- The field of a label that the table gives, where an option sets it. -/
theorem handledField_eq (label : CString) : handledField label =
    (RsmpField.all.find? fun field => field.lib = some label).filter (· ∈ handled) := by
  cases hall : RsmpField.all.find? fun field => field.lib = some label with
  | none =>
    refine List.find?_eq_none.mpr fun field _ => ?_
    exact List.find?_eq_none.mp hall field (mem_all field)
  | some field =>
    have hlib : field.lib = some label := by simpa using List.find?_some hall
    cases hfind : handledField label with
    | none =>
      have hnot : field ∉ handled := fun hmem =>
        absurd hlib (by simpa using List.find?_eq_none.mp hfind field hmem)
      rw [Option.filter, if_neg (by simpa using hnot)]
    | some other =>
      have hother : other.lib = some label := by simpa using List.find?_some hfind
      obtain rfl := lib_injective hother hlib
      rw [Option.filter, if_pos (by simpa using List.mem_of_find?_eq_some hfind)]

namespace RsmpContext

variable (item : RsmpContext) (sIdSet : Bool)

/-! ### One option, and all of them

The loop keeps the context and whether the first site was set. What it leaves is the context with
the settings, from any of its turns on. -/

/-- The context that the loop leaves, where the first site is set or not. -/
def storedFrom (l : List (RsmpField × CString)) : RsmpContext :=
  { item.stored l with sId := if sIdSet then item.sId else (item.stored l).sId }

theorem setField_eq_none {value : CString} {field : Option RsmpField} :
    item.setField sIdSet value field = none ↔ field.filter (· ∈ handled) = none := by
  cases field with
  | none => exact ⟨fun _ => rfl, fun _ => rfl⟩
  | some field => cases field <;> simp [setField, handled]

theorem getLast?_cons_or {α : Type*} (a : α) (l : List α) (b : Option α) :
    (a :: l).getLast?.or b = l.getLast?.or (some a) := by
  rw [List.getLast?_cons]
  cases l.getLast? <;> rfl

theorem mem_handled {value : CString} {field : RsmpField} {next : Bool × RsmpContext}
    (h : item.setField sIdSet value (some field) = some next) : field ∈ handled := by
  cases field with
  | vers | sId | xNId | SXL | ntsOId | cId => decide
  | _ => cases h

/-- **One option**: what the branch sets is what the settings say. -/
theorem storedFrom_cons {value : CString} {field : RsmpField} {set : Bool} {next : RsmpContext}
    (h : item.setField sIdSet value (some field) = some (set, next))
    (l : List (RsmpField × CString)) :
    next.storedFrom set l = item.storedFrom sIdSet ((field, value) :: l) := by
  cases field with
  | vers | xNId | SXL | ntsOId | cId =>
    cases h
    simp [storedFrom, stored, RSMPAdd, values, getLast?_cons_or]
  | sId =>
    cases h
    cases sIdSet <;> simp [storedFrom, stored, siteIdAdd, values]
  | _ => cases h

theorem storedFrom_nil : item.storedFrom sIdSet [] = item := by
  cases sIdSet <;> simp [storedFrom, stored, values]

end RsmpContext

theorem setting_eq {arg label value : CString} (h : splitLabel arg = some (label, value)) :
    setting arg = (handledField label).map fun field => (field, value) := by
  rw [setting, h]
  cases hfield : handledField label <;> simp [hfield]

/-- The loop, from any of its turns. -/
theorem optionsLoop_decides (argv : List CString) (sIdSet : Bool) (item : RsmpContext) :
    (optionsLoop sIdSet item argv).Decides (∀ label ∈ labels argv, IsEarly label)
      (if ∀ arg ∈ argv, (setting arg).isSome then noError else errcodGenConfig,
        item.storedFrom sIdSet (settings argv)) := by
  induction argv generalizing sIdSet item with
  | nil =>
    refine .inl ⟨nofun, ?_⟩
    rw [settings, item.storedFrom_nil, if_pos nofun]
    rfl
  | cons arg argv ih =>
    -- an option that is refused ends the loop
    have hrefused : setting arg = none →
        ((if ∀ a ∈ arg :: argv, (setting a).isSome then noError else errcodGenConfig,
          item.storedFrom sIdSet (settings (arg :: argv))) : Int × RsmpContext) =
        (errcodGenConfig, item) := by
      intro h
      rw [settings, h, if_neg (by simp [h]), item.storedFrom_nil]
    cases hsplit : splitLabel arg with
    | none =>
      rw [hrefused (by simp [setting, hsplit])]
      refine .inl ⟨?_, ?_⟩
      · simp [labels, hsplit]
      · simp only [optionsLoop, hsplit]
    | some option =>
      obtain ⟨label, value⟩ := option
      have hloop : optionsLoop sIdSet item (arg :: argv) =
          rsmpFieldFromLib label RsmpField.all >>= fun field =>
            match item.setField sIdSet value field with
            | none => .ok (errcodGenConfig, item)
            | some (sIdSet, item) => optionsLoop sIdSet item argv := by
        simp only [optionsLoop, hsplit]
      have hset := setting_eq hsplit
      have hfield := handledField_eq label
      have hlabels : labels (arg :: argv) =
          label :: if (handledField label).isSome then labels argv else [] := by
        simp only [labels, hsplit]
      rw [hloop, hlabels]
      simp only [List.forall_mem_cons]
      refine (lookup_decides label).bind ?_
      generalize RsmpField.all.find? (fun field => field.lib = some label) = field at hfield
      cases hnext : item.setField sIdSet value field with
      | none =>
        rw [(item.setField_eq_none sIdSet).mp hnext] at hfield
        rw [hfield] at hset ⊢
        have := hrefused hset
        simp only [List.forall_mem_cons] at this
        rw [this]
        exact .inl ⟨nofun, rfl⟩
      | some next =>
        obtain ⟨set, next⟩ := next
        cases field with
        | none => cases hnext
        | some field =>
          have hhandled : handledField label = some field := by
            rw [hfield, Option.filter_eq_some_iff]
            exact ⟨rfl, by simpa using item.mem_handled sIdSet hnext⟩
          rw [hhandled] at hset ⊢
          have hsettings : settings (arg :: argv) = (field, value) :: settings argv := by
            rw [settings, hset]
            rfl
          rw [hsettings, ← item.storedFrom_cons sIdSet hnext]
          simpa only [hset, Option.map_some, Option.isSome_some, true_and, if_true] using
            ih set next

/-! ## The options

The labels that are looked up are those up to the first option that is refused. -/

section

variable (decodeparam : CString → List CString) (item : RsmpContext) (options : CString)

/-- Every label that is looked up is the name of an early field. -/
def OptionsFit : Prop := ∀ label ∈ labels (decodeparam options), IsEarly label

/-- **The options are stored exactly** where every name that is looked up is an early one. -/
theorem storesOptions_iff :
    StoresOptions decodeparam item options ↔ OptionsFit decodeparam options := by
  rw [StoresOptions]
  rcases optionsLoop_decides (decodeparam options) false item with ⟨hfit, hloop⟩ | ⟨hfit, hloop⟩
  · exact ⟨fun _ => hfit, fun _ => hloop⟩
  · refine ⟨fun h => ?_, fun h => absurd h hfit⟩
    rw [rsmpContextFromStr, hloop] at h
    cases h

end

-- `vers` and `xNId` are never set
example : handled.filter (· ∈ early) = [.sId, .SXL, .ntsOId, .cId] := by decide

/-- An option that sets the version: its name comes after the first missing entry. -/
theorem vers_not_stored : ¬ StoresOptions (fun options => (options.val.splitOn 0x2C).map .ofBytes)
    ⟨[], [], none, none, none, none, none⟩ (.ofBytes (ascii "vers:3.2.1")) := by
  intro h
  have hfault : rsmpContextFromStr (fun options => (options.val.splitOn 0x2C).map .ofBytes)
      ⟨[], [], none, none, none, none, none⟩ (.ofBytes (ascii "vers:3.2.1")) = .fault := by
    decide +kernel
  rw [StoresOptions, hfault] at h
  cases h

end RsmpGateway.Rsmp
