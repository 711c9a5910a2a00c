import RsmpGateway.Rsmp.DispRoundTrip

/-!
# The capabilities of a display

The decoders of `S10` and `S20` leave members out that the encoders write, and the one of a zone
reads a member that is never written. What is decoded is the value exactly where the members that
are left out have the value of an empty structure (`capabilities_round_trip_iff`).

The values are all those that fit their structures. What is compared is the whole structure, with
the numbers, the lists and the texts of each zone and template.
-/

namespace RsmpGateway.Rsmp.Disp

open RsmpGateway.Lib

/-! ## What is left of a value

The decoder starts from a cleared structure, and sets the members that it reads. -/

/-- The answer without its size, its text mode and its groups. -/
def DispS10StatusResponse.left (res : DispS10StatusResponse Buffer) :
    DispS10StatusResponse Lib.CharArray :=
  { res.padded with
    size := ⟨0, 0⟩
    textDisplayable := 0
    predefinedGroups := []
    predefinedGroupCount := 0 }

/-- The identifier and the type of a zone. -/
def ZoneObject.left (zone : ZoneObject Buffer) : ZoneObject Lib.CharArray where
  zoneId := Disp.padded zone.zoneId
  supportedColors := []
  colorCount := 0
  position := ⟨0, 0, 0⟩
  zoneType := Disp.padded zone.zoneType
  textOptions := none
  graphicOptions := none
  predefinedOptions := none
  customOptions := none

def TemplateObject.left (tpl : TemplateObject Buffer) : TemplateObject Lib.CharArray :=
  { tpl.padded with zones := tpl.zones.map .left }

def DispS20StatusResponse.left (res : DispS20StatusResponse Buffer) :
    DispS20StatusResponse Lib.CharArray :=
  { res.padded with templates := res.templates.map .left }

section Left

variable {J : JsonLib} {R : JsonReads}

theorem s10_keys (res : DispS10StatusResponse Buffer) : (encodeDispS10StatusResponse res).keys =
    [ascii "displayType", ascii "templateType", ascii "minDisplayTime", ascii "maxObjectIdSize",
      ascii "maxSupportedTemplate", ascii "maxSupportedZone", ascii "maxSupportedSequence",
      ascii "maxSupportedAnimation", ascii "maxSupportedAvailableMsg",
      ascii "maxSupportedDisplayPool", ascii "maxScrollSpeed", ascii "size",
      ascii "textDisplayable", ascii "predefinedGroups"] := rfl

theorem s10_keys_nodup (res : DispS10StatusResponse Buffer) :
    (encodeDispS10StatusResponse res).keys.Nodup := by
  rw [s10_keys]
  decide +kernel

/-- What is decoded of an encoded `S10`. -/
theorem decodeTypes_encode (res : DispS10StatusResponse Buffer) :
    decodeTypes J R (encodeDispS10StatusResponse res) = .ok res.left := by
  have hget {key : Bytes} {v : Json} (h : (key, v) ∈ _) :
      (encodeDispS10StatusResponse res).get? key = some v := Json.get?_of_mem (s10_keys_nodup res) h
  have hint (key : Bytes) (n : UInt32)
      (h : (encodeDispS10StatusResponse res).get? key = some (jsonObjectNewInt n.toInt32)) :
      (getIntMember R (encodeDispS10StatusResponse res) key 0).toUInt32 = n := by
    rw [getIntMember_newInt h, UInt32.toUInt32_toInt32]
  rw [decodeTypes,
    copyMember_newString (by decide) (Nat.lt_succ_iff.mp res.displayType.2) (hget (by simp)),
    Outcome.ok_bind,
    copyMember_newString (by decide) (Nat.lt_succ_iff.mp res.templateType.2) (hget (by simp)),
    Outcome.ok_bind]
  simp only [hint (ascii "minDisplayTime") res.minDisplayTime (hget (by simp)),
    hint (ascii "maxObjectIdSize") res.maxObjectIdSize (hget (by simp)),
    hint (ascii "maxSupportedTemplate") res.maxSupportedTemplate (hget (by simp)),
    hint (ascii "maxSupportedZone") res.maxSupportedZone (hget (by simp)),
    hint (ascii "maxSupportedSequence") res.maxSupportedSequence (hget (by simp)),
    hint (ascii "maxSupportedAnimation") res.maxSupportedAnimation (hget (by simp)),
    hint (ascii "maxSupportedAvailableMsg") res.maxSupportedAvailableMsg (hget (by simp)),
    hint (ascii "maxSupportedDisplayPool") res.maxSupportedDisplayPool (hget (by simp)),
    hint (ascii "maxScrollSpeed") res.maxScrollSpeed (hget (by simp))]
  rfl

/-! ### Zones and templates

Of a zone the identifier, the type and the number of its colours are asked for, the last one
under a name that is not written. A template has its identifier and its zones. -/

theorem zone_keys (zone : ZoneObject Buffer) : zone.encode.keys =
    [ascii "zoneId", ascii "supportedColors", ascii "position", ascii "zoneType",
      ascii "textOptions", ascii "graphicOptions", ascii "predefinedOptions",
      ascii "customOptions"] := rfl

theorem zone_keys_nodup (zone : ZoneObject Buffer) : zone.encode.keys.Nodup := by
  rw [zone_keys]
  decide +kernel

/-- No zone is written with the number of its colours. -/
theorem colorCount_not_mem (zone : ZoneObject Buffer) : ascii "colorCount" ∉ zone.encode.keys := by
  rw [zone_keys]
  decide +kernel

/-- What is decoded of an encoded zone. -/
theorem decodeZone_encode (zone : ZoneObject Buffer) :
    decodeZone J R zone.encode = .ok zone.left := by
  have hget {key : Bytes} {v : Json} (h : (key, v) ∈ _) : zone.encode.get? key = some v :=
    Json.get?_of_mem (zone_keys_nodup zone) h
  rw [decodeZone,
    copyMember_newString (by decide) (Nat.lt_succ_iff.mp zone.zoneId.2) (hget (by simp)),
    Outcome.ok_bind,
    copyMember_newString (by decide) (Nat.lt_succ_iff.mp zone.zoneType.2) (hget (by simp)),
    Outcome.ok_bind, getIntMember_none (Json.get?_eq_none (colorCount_not_mem zone))]
  rfl

theorem template_keys (tpl : TemplateObject Buffer) :
    tpl.encode.keys = [ascii "templateId", ascii "readonly", ascii "zones"] := rfl

theorem template_keys_nodup (tpl : TemplateObject Buffer) : tpl.encode.keys.Nodup := by
  rw [template_keys]
  decide +kernel

/-- A count that is that of a list. -/
theorem take_ofNat {α : Type} {count : Int32} {l : List α} (h : count.toInt = l.length) :
    Int32.ofNat l.length = count ∧ l.take count.toNatClampNeg = l := by
  constructor
  · rw [← Int32.ofInt_toInt count, h]
    rfl
  · have hcount : count.toNatClampNeg = l.length := by
      rw [Int32.toNatClampNeg, h, Int.toNat_natCast]
    rw [hcount, List.take_length]

/-- What is decoded of an encoded template. -/
theorem decodeTemplate_encode {tpl : TemplateObject Buffer} (htpl : tpl.Valid) :
    decodeTemplate J R tpl.encode = .ok tpl.left := by
  obtain ⟨hcount, htake⟩ := take_ofNat htpl.1
  have hget {key : Bytes} {v : Json} (h : (key, v) ∈ _) : tpl.encode.get? key = some v :=
    Json.get?_of_mem (template_keys_nodup tpl) h
  have hzones : tpl.encode.get? (ascii "zones") =
      some (.arr (tpl.zones.map ZoneObject.encode)) := by
    rw [← htake]
    exact hget (by simp [htake])
  have hreadonly : tpl.encode.get? (ascii "readonly") = some (.bool tpl.readonly) :=
    hget (by simp)
  have hdecode : decodeZones J R tpl.encode = .ok (tpl.zones.map .left, tpl.zoneCount) := by
    unfold decodeZones
    rw [hzones]
    simp only [List.length_map, hcount]
    rw [← List.map_take, htake, Outcome.mapM_map_eq_ok fun zone _ => decodeZone_encode zone]
    rfl
  rw [decodeTemplate,
    copyMember_newString (by decide) (Nat.lt_succ_iff.mp tpl.templateId.2) (hget (by simp)),
    Outcome.ok_bind, hreadonly, hdecode, Outcome.ok_bind]
  rfl

/-- What is decoded of an encoded `S20`. -/
theorem decodeTemplates_encode {res : DispS20StatusResponse Buffer} (hres : res.Valid) :
    decodeTemplates J R (encodeDispS20StatusResponse res) = .ok res.left := by
  obtain ⟨hcount, htake⟩ := take_ofNat hres.1
  have hnonneg : ¬ res.templateCount < 0 := by
    rw [Int32.lt_iff_toInt_lt, hres.1]
    exact not_lt.mpr (Int.natCast_nonneg _)
  rw [encodeDispS20StatusResponse, htake, decodeTemplates, Json.get?_obj_cons, if_pos rfl]
  simp only [List.length_map, hcount]
  rw [if_neg hnonneg, ← List.map_take, htake,
    Outcome.mapM_map_eq_ok fun tpl htpl => decodeTemplate_encode (hres.2 tpl htpl)]
  rfl

/-- `S10`: what the text of the value gives. -/
theorem decode_encode_s10 (hJ : J.Lawful) (res : DispS10StatusResponse Buffer) {text : Bytes}
    (hprint : J.print (encodeDispS10StatusResponse res) = some text) :
    decodeDispS10StatusResponse J R (text ++ [0]) = .ok res.left := by
  have hroot : jsonTokenerParse J (text ++ [0]) = .ok (encodeDispS10StatusResponse res) :=
    parse_print_obj hJ hprint
  rw [decodeDispS10StatusResponse, hroot, Outcome.ok_bind, decodeTypes_encode]

/-- `S20`: what the text of the value gives. -/
theorem decode_encode_s20 (hJ : J.Lawful) {res : DispS20StatusResponse Buffer} (hres : res.Valid)
    {text : Bytes} (hprint : J.print (encodeDispS20StatusResponse res) = some text) :
    decodeDispS20StatusResponse J R (text ++ [0]) = .ok res.left := by
  have hroot : jsonTokenerParse J (text ++ [0]) = .ok (encodeDispS20StatusResponse res) :=
    parse_print_obj hJ hprint
  rw [decodeDispS20StatusResponse, hroot, Outcome.ok_bind, decodeTemplates_encode hres]

end Left

/-! ## When nothing is lost

The members that are not read must be those of the cleared structure. -/

/-- There is nothing in the members that are left out. -/
def DispS10StatusResponse.Plain (res : DispS10StatusResponse Buffer) : Prop :=
  res.size = ⟨0, 0⟩ ∧ res.textDisplayable = 0 ∧ res.predefinedGroups = []

/-- A zone without colours and options, at the origin. -/
structure ZoneObject.Plain (zone : ZoneObject Buffer) : Prop where
  supportedColors : zone.supportedColors = []
  position : zone.position = ⟨0, 0, 0⟩
  textOptions : zone.textOptions = none
  graphicOptions : zone.graphicOptions = none
  predefinedOptions : zone.predefinedOptions = none
  customOptions : zone.customOptions = none

theorem DispS10StatusResponse.left_eq_padded_iff {res : DispS10StatusResponse Buffer}
    (hres : res.Valid) : res.left = res.padded ↔ res.Plain := by
  obtain ⟨hcount, -⟩ := hres
  constructor
  · intro h
    rw [left, padded, mk.injEq] at h
    obtain ⟨-, -, -, -, -, -, -, -, -, -, -, hsize, htext, hgroups, -⟩ := h
    exact ⟨hsize.symm, htext.symm, List.map_eq_nil_iff.mp hgroups.symm⟩
  · rintro ⟨hsize, htext, hgroups⟩
    have hzero : res.predefinedGroupCount = 0 := by
      rw [hgroups] at hcount
      exact UInt32.toNat_inj.mp hcount
    rw [left, padded, hsize, htext, hgroups, hzero]
    rfl

theorem ZoneObject.left_eq_padded_iff {zone : ZoneObject Buffer} (hzone : zone.Valid) :
    zone.left = zone.padded ↔ zone.Plain := by
  obtain ⟨hcount, -⟩ := hzone
  constructor
  · intro h
    rw [left, padded, mk.injEq] at h
    obtain ⟨-, hcolors, -, hposition, -, htext, hgraphic, hpredefined, hcustom⟩ := h
    exact ⟨List.map_eq_nil_iff.mp hcolors.symm, hposition.symm,
      Option.map_eq_none_iff.mp htext.symm, Option.map_eq_none_iff.mp hgraphic.symm,
      Option.map_eq_none_iff.mp hpredefined.symm, hcustom.symm⟩
  · intro h
    have hzero : zone.colorCount = 0 := by
      rw [h.supportedColors] at hcount
      exact Int32.toInt_inj.mp hcount
    rw [left, padded, h.supportedColors, hzero, h.position, h.textOptions, h.graphicOptions,
      h.predefinedOptions, h.customOptions]
    rfl

theorem TemplateObject.left_eq_padded_iff {tpl : TemplateObject Buffer} (htpl : tpl.Valid) :
    tpl.left = tpl.padded ↔ ∀ zone ∈ tpl.zones, zone.Plain := by
  rw [left, padded, mk.injEq]
  simp only [true_and, and_true]
  rw [List.map_inj_left]
  exact forall₂_congr fun zone hzone => ZoneObject.left_eq_padded_iff (htpl.2 zone hzone)

theorem DispS20StatusResponse.left_eq_padded_iff {res : DispS20StatusResponse Buffer}
    (hres : res.Valid) :
    res.left = res.padded ↔ ∀ tpl ∈ res.templates, ∀ zone ∈ tpl.zones, zone.Plain := by
  rw [left, padded, mk.injEq]
  simp only [and_true]
  rw [List.map_inj_left]
  exact forall₂_congr fun tpl htpl => TemplateObject.left_eq_padded_iff (hres.2 tpl htpl)

/-! ## The names

The names of the members, as the encoder writes them and as the decoder asks for them. -/

section Names

variable (J : JsonLib) (R : JsonReads)

/-- The members of these names are those that the function reads. -/
def NamesAgree {α : Type} (decode : Json → Outcome α) (obj : Json) : Prop :=
  ∀ key, key ∈ obj.keys ↔ Json.Reads decode key

/-- The names of the root. -/
def S10NamesAgree (res : DispS10StatusResponse Buffer) : Prop :=
  NamesAgree (decodeTypes J R) (encodeDispS10StatusResponse res)

/-- The names of the root, of the templates and of the zones. -/
structure S20NamesAgree (res : DispS20StatusResponse Buffer) : Prop where
  root : NamesAgree (decodeTemplates J R) (encodeDispS20StatusResponse res)
  templates : ∀ tpl ∈ res.templates, NamesAgree (decodeTemplate J R) tpl.encode
  zones : ∀ tpl ∈ res.templates, ∀ zone ∈ tpl.zones, NamesAgree (decodeZone J R) zone.encode

theorem decodeTypes_readsOnly : Json.ReadsOnly (decodeTypes J R)
    [ascii "displayType", ascii "templateType", ascii "minDisplayTime", ascii "maxObjectIdSize",
      ascii "maxSupportedTemplate", ascii "maxSupportedZone", ascii "maxSupportedSequence",
      ascii "maxSupportedAnimation", ascii "maxSupportedAvailableMsg",
      ascii "maxSupportedDisplayPool", ascii "maxScrollSpeed"] := by
  intro j k h
  simp only [List.forall_mem_cons] at h
  obtain ⟨h1, h2, h3, h4, h5, h6, h7, h8, h9, h10, h11, -⟩ := h
  simp only [decodeTypes, copyMember, getIntMember, h1, h2, h3, h4, h5, h6, h7, h8, h9, h10, h11]

/-- **The size is written and not read.** -/
theorem not_s10NamesAgree (res : DispS10StatusResponse Buffer) : ¬ S10NamesAgree J R res := by
  intro h
  have hwritten : ascii "size" ∈ (encodeDispS10StatusResponse res).keys := by
    rw [s10_keys]
    simp
  have hread := (decodeTypes_readsOnly J R).mem ((h (ascii "size")).mp hwritten)
  revert hread
  decide +kernel

/-! ### A name that is not written

To read a member means that there are two objects that differ in it alone and that are decoded
differently. -/

/-- The number of the colours is read. -/
theorem reads_colorCount : Json.Reads (decodeZone J R) (ascii "colorCount") := by
  refine ⟨_, _, Json.sameBut_empty _ (.int 1), fun h => ?_⟩
  have hcount := congrArg ZoneObject.colorCount (Outcome.ok.inj h)
  revert hcount
  show ¬ (1 : Int32) = 0
  decide

/-- **The number of the colours is read and not written.** -/
theorem zone_not_namesAgree (zone : ZoneObject Buffer) :
    ¬ NamesAgree (decodeZone J R) zone.encode :=
  fun h => colorCount_not_mem zone ((h _).mpr (reads_colorCount J R))

theorem template_namesAgree (tpl : TemplateObject Buffer) :
    NamesAgree (decodeTemplate J R) tpl.encode := by
  intro key
  rw [template_keys]
  constructor
  · intro h
    simp only [List.mem_cons, List.not_mem_nil, or_false] at h
    rcases h with rfl | rfl | rfl
    · refine ⟨_, _, Json.sameBut_empty _ (.str (ascii "a")), fun h => ?_⟩
      have hid : (CharArray.zero.strncpy (.ofBytes (ascii "a")) (show 63 ≤ 64 by decide) :
          Lib.CharArray 64) = .zero := congrArg TemplateObject.templateId (Outcome.ok.inj h)
      exact absurd (congrArg (fun a => a.val.head?) hid) (by decide)
    · refine ⟨_, _, Json.sameBut_empty _ (.bool true), fun h => ?_⟩
      have hreadonly := congrArg TemplateObject.readonly (Outcome.ok.inj h)
      exact Bool.noConfusion hreadonly
    · refine ⟨_, _, Json.sameBut_empty _ (.arr [.null]), fun h => ?_⟩
      have hcount : (1 : Int32) = 0 := congrArg TemplateObject.zoneCount (Outcome.ok.inj h)
      exact absurd hcount (by decide)
  · refine Json.ReadsOnly.mem fun j k h => ?_
    simp only [List.forall_mem_cons] at h
    obtain ⟨hid, hreadonly, hzones, -⟩ := h
    simp only [decodeTemplate, copyMember, decodeZones, hid, hreadonly, hzones]

theorem root_namesAgree (res : DispS20StatusResponse Buffer) :
    NamesAgree (decodeTemplates J R) (encodeDispS20StatusResponse res) := by
  intro key
  show key ∈ [ascii "templates"] ↔ _
  constructor
  · intro h
    obtain rfl := List.mem_singleton.mp h
    exact ⟨_, _, Json.sameBut_empty _ (.arr []), nofun⟩
  · refine Json.ReadsOnly.mem fun j k h => ?_
    simp only [decodeTemplates, h _ (List.mem_singleton_self _)]

/-- The names of an `S20` agree exactly where there is no zone. -/
theorem s20NamesAgree_iff (res : DispS20StatusResponse Buffer) :
    S20NamesAgree J R res ↔ ∀ tpl ∈ res.templates, tpl.zones = [] := by
  constructor
  · intro h tpl htpl
    cases hzones : tpl.zones with
    | nil => rfl
    | cons zone zones =>
      refine absurd (h.zones tpl htpl zone ?_) (zone_not_namesAgree J R zone)
      rw [hzones]
      exact List.mem_cons_self
  · intro h
    refine ⟨root_namesAgree J R res, fun tpl _ => template_namesAgree J R tpl, ?_⟩
    intro tpl htpl zone hzone
    rw [h tpl htpl] at hzone
    cases hzone

end Names

/-! ## The capabilities

The two capabilities, each with its condition. -/

section Capabilities

variable {J : JsonLib}

/-- **What is decoded is the value** exactly where there is nothing in the members that are left
out; the names that are read are those that are written for no `S10`, and for an `S20` without zones
only. -/
theorem capabilities_round_trip_iff (hJ : J.Lawful) (R : JsonReads) :
    (∀ (res : DispS10StatusResponse Buffer) (text : Bytes), res.Valid →
      J.print (encodeDispS10StatusResponse res) = some text →
        (decodeDispS10StatusResponse J R (text ++ [0]) = .ok res.padded ↔ res.Plain) ∧
        ¬ S10NamesAgree J R res) ∧
    ∀ (res : DispS20StatusResponse Buffer) (text : Bytes), res.Valid →
      J.print (encodeDispS20StatusResponse res) = some text →
        (decodeDispS20StatusResponse J R (text ++ [0]) = .ok res.padded ↔
          ∀ tpl ∈ res.templates, ∀ zone ∈ tpl.zones, zone.Plain) ∧
        (S20NamesAgree J R res ↔ ∀ tpl ∈ res.templates, tpl.zones = []) := by
  constructor
  · intro res text hres hprint
    refine ⟨?_, not_s10NamesAgree J R res⟩
    rw [decode_encode_s10 hJ res hprint, Outcome.ok.injEq]
    exact DispS10StatusResponse.left_eq_padded_iff hres
  · intro res text hres hprint
    refine ⟨?_, s20NamesAgree_iff J R res⟩
    rw [decode_encode_s20 hJ hres hprint, Outcome.ok.injEq]
    exact DispS20StatusResponse.left_eq_padded_iff hres

end Capabilities

/-! ### A template with a zone

A zone with a colour, which is written under a name that the decoder does not ask for. -/

/-- A line of text in one colour. -/
def yellowLine : ZoneObject Buffer where
  zoneId := ⟨⟨ascii "LIGNE_1", by decide⟩, by decide⟩
  supportedColors := [⟨⟨ascii "yellow", by decide⟩, by decide⟩]
  colorCount := 1
  position := ⟨1, 1, 0⟩
  zoneType := ⟨⟨ascii "Text", by decide⟩, by decide⟩
  textOptions := none
  graphicOptions := none
  predefinedOptions := none
  customOptions := none

/-- A template with some zones. -/
def template (zones : List (ZoneObject Buffer)) : DispS20StatusResponse Buffer :=
  ⟨[⟨welcome, true, zones, .ofNat zones.length⟩], 1⟩

/-- A display of a size. -/
def sizedDisplay : DispS10StatusResponse Buffer :=
  ⟨noText (by decide), noText (by decide), 1000, 16, 2, 5, 5, 5, 5, 255, 15, ⟨340, 80⟩, 1, [], 0⟩

/-- json-c for them. -/
def capabilityLib : JsonLib :=
  .ofValues [encodeDispS20StatusResponse (template [yellowLine]),
    encodeDispS20StatusResponse (template []), encodeDispS10StatusResponse sizedDisplay]

theorem capabilityLib_lawful : capabilityLib.Lawful := by
  refine JsonLib.ofTable_lawful ?_ ?_
  · decide +kernel
  · decide +kernel

theorem template_valid {zones : List (ZoneObject Buffer)} (hlength : zones.length ≤ 5)
    (hzones : ∀ zone ∈ zones, zone.Valid) : (template zones).Valid := by
  refine ⟨rfl, ?_⟩
  rintro tpl htpl
  obtain rfl := List.mem_singleton.mp htpl
  exact ⟨Int32.toInt_ofNat_of_lt (by omega), hzones⟩

/-- The size of a display is lost, and a template without zones is given back. -/
theorem capabilities_round_trip_two :
    decodeDispS10StatusResponse capabilityLib noReads
        ((encodeDispS10StatusResponse sizedDisplay).toText ++ [0]) ≠ .ok sizedDisplay.padded ∧
      decodeDispS20StatusResponse capabilityLib noReads
        ((encodeDispS20StatusResponse (template [])).toText ++ [0]) =
          .ok (template []).padded := by
  obtain ⟨hs10, hs20⟩ := capabilities_round_trip_iff capabilityLib_lawful noReads
  constructor
  · intro h
    have hplain := (hs10 sizedDisplay _ ⟨rfl, nofun⟩ rfl).1.mp h
    exact absurd (congrArg SizeWebObject.width hplain.1) (by decide)
  · refine (hs20 (template []) _ (template_valid (by decide) nofun) rfl).1.mpr ?_
    intro tpl htpl
    obtain rfl := List.mem_singleton.mp htpl
    exact nofun

/-- The colour and the position of a zone are lost. -/
theorem zone_not_given_back :
    capabilityLib.Lawful ∧ (template [yellowLine]).Valid ∧
      capabilityLib.print (encodeDispS20StatusResponse (template [yellowLine])) =
        some (encodeDispS20StatusResponse (template [yellowLine])).toText ∧
      decodeDispS20StatusResponse capabilityLib noReads
          ((encodeDispS20StatusResponse (template [yellowLine])).toText ++ [0]) ≠
        .ok (template [yellowLine]).padded := by
  have hzone : yellowLine.Valid := ⟨rfl, by decide⟩
  have hvalid : (template [yellowLine]).Valid :=
    template_valid (by decide) (List.forall_mem_singleton.mpr hzone)
  refine ⟨capabilityLib_lawful, hvalid, rfl, fun h => ?_⟩
  rw [decode_encode_s20 capabilityLib_lawful hvalid rfl, Outcome.ok.injEq,
    DispS20StatusResponse.left_eq_padded_iff hvalid] at h
  have hplain := h _ (List.mem_singleton_self _) yellowLine (List.mem_singleton_self _)
  exact List.cons_ne_nil _ _ hplain.supportedColors

end RsmpGateway.Rsmp.Disp
