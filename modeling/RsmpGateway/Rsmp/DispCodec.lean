import RsmpGateway.Lib.Members
import RsmpGateway.Rsmp.DispRequest

/-!
# The structures of the DISP answers

The answers with all their members, their encoders and their decoders. A text is a C string that
fits its array where a structure is a value, and the array itself where it is what a decoder
leaves.

`Rsmp/Display.lean` has of the same decoders what the handlers need of them. Here nothing is left
out, since round trips are about whole values; that both agree is shown at the end of
`Rsmp/DispDecode.lean`.
-/

namespace RsmpGateway.Rsmp.Disp

open RsmpGateway.Lib

/-! ## json-c

Numbers and booleans, as `json_object_get_int` and `json_object_get_boolean` read them of any
value. -/

/-- What json-c makes of a string or of a double where a number or a boolean is asked for. -/
structure JsonReads where
  parseInt : Bytes → Int32
  truncate : Bytes → Int32
  nonzero : Bytes → Bool

section Accessors

variable (R : JsonReads)

/-- `json_object_get_int` -/
def jsonObjectGetInt : Json → Int32
  | .int n => .ofInt (max (-2 ^ 31) (min n (2 ^ 31 - 1)))
  | .bool b => if b then 1 else 0
  | .str s => R.parseInt s
  | .double text => R.truncate text
  | _ => 0

/-- `json_object_get_boolean` -/
def jsonObjectGetBoolean : Json → Bool
  | .bool b => b
  | .int n => n ≠ 0
  | .str s => s ≠ []
  | .double text => R.nonzero text
  | _ => false

end Accessors

/-- `json_object_new_boolean` -/
def jsonObjectNewBoolean (n : Int32) : Json := .bool (n ≠ 0)

/-- The array of a string, padded with NULs. -/
def padded {n : Nat} (s : Buffer n) : Lib.CharArray n :=
  CharArray.zero.strncpy s.val le_rfl

/-! ## S30 and S40

Lists of identifiers, and of the messages of the pool. -/

/-- `DispS30StatusResponse` -/
structure DispS30StatusResponse where
  msgIdList : List CString
  msgIdCount : UInt64

/-- The count is that of the list. -/
def DispS30StatusResponse.Valid (res : DispS30StatusResponse) : Prop :=
  res.msgIdCount.toNat = res.msgIdList.length

/-- `DisplayPoolElementObject` -/
structure DisplayPoolElementObject (Text : Nat → Type) where
  msgId : Text 64
  maxWaitTime : UInt32
  maxWaitTimeRemain : UInt32
  displayDuration : UInt32
  displayDurationRemain : UInt32
  displayPriority : UInt32
  dynamicData : Text 128

/-- `DispS40StatusResponse` -/
structure DispS40StatusResponse (Text : Nat → Type) where
  displayPoolList : List (DisplayPoolElementObject Text)
  displayPoolCount : UInt32

namespace DispS40StatusResponse

variable {Text : Nat → Type}

/-- The count is that of the list. -/
def Valid (res : DispS40StatusResponse Text) : Prop :=
  res.displayPoolCount.toNat = res.displayPoolList.length

end DispS40StatusResponse

/-- The element with its arrays. -/
def DisplayPoolElementObject.padded (elem : DisplayPoolElementObject Buffer) :
    DisplayPoolElementObject Lib.CharArray :=
  { elem with msgId := Disp.padded elem.msgId, dynamicData := Disp.padded elem.dynamicData }

/-- The answer with its arrays. -/
def DispS40StatusResponse.padded (res : DispS40StatusResponse Buffer) :
    DispS40StatusResponse Lib.CharArray :=
  { res with displayPoolList := res.displayPoolList.map .padded }

/-- `encode_disp_s30_status_response` -/
def encodeDispS30StatusResponse (res : DispS30StatusResponse) : Json :=
  .obj [(ascii "msgIdList",
    .arr ((res.msgIdList.take res.msgIdCount.toNat).map jsonObjectNewString))]

/-- An element of `displayPoolList`. An `unsigned int` is given for an `int`. -/
def DisplayPoolElementObject.encode (elem : DisplayPoolElementObject Buffer) : Json :=
  .obj [(ascii "msgId", jsonObjectNewString elem.msgId.val),
    (ascii "maxWaitTime", jsonObjectNewInt elem.maxWaitTime.toInt32),
    (ascii "maxWaitTimeRemain", jsonObjectNewInt elem.maxWaitTimeRemain.toInt32),
    (ascii "displayDuration", jsonObjectNewInt elem.displayDuration.toInt32),
    (ascii "displayDurationRemain", jsonObjectNewInt elem.displayDurationRemain.toInt32),
    (ascii "displayPriority", jsonObjectNewInt elem.displayPriority.toInt32),
    (ascii "dynamicData", jsonObjectNewString elem.dynamicData.val)]

/-- `encode_disp_s40_status_response` -/
def encodeDispS40StatusResponse (res : DispS40StatusResponse Buffer) : Json :=
  .obj [(ascii "displayPoolList",
    .arr ((res.displayPoolList.take res.displayPoolCount.toNat).map
      DisplayPoolElementObject.encode))]

section Decoders

variable (J : JsonLib) (R : JsonReads)

/-! ### Their decoders

The decoder takes the counts from the lengths of the arrays, and copies each text into the array
of its structure. -/

/-- `json_object_object_get_ex`, and `json_object_get_int` of a member that is there; else what is
there already. -/
def getIntMember (obj : Json) (key : Bytes) (old : Int32) : Int32 :=
  match obj.get? key with
  | none => old
  | some value => jsonObjectGetInt R value

/-- `decode_disp_s30_status_response` -/
def decodeDispS30StatusResponse (jsonStr : Bytes) : Outcome DispS30StatusResponse := do
  let root ← jsonTokenerParse J jsonStr
  let list ← Outcome.ofOption (root.get? (ascii "msgIdList"))
  let items ← jsonObjectArray list
  let msgIdList ← items.mapM (strdupText J)
  return ⟨msgIdList, .ofNat items.length⟩

/-- An element of `displayPoolList`, from what `calloc` leaves. -/
def decodeDisplayPoolElement (elem : Json) :
    Outcome (DisplayPoolElementObject Lib.CharArray) := do
  let msgId ← copyMember J fills64 elem (ascii "msgId") .zero
  let dynamicData ← copyMember J fills128 elem (ascii "dynamicData") .zero
  return {
    msgId
    maxWaitTime := (getIntMember R elem (ascii "maxWaitTime") 0).toUInt32
    maxWaitTimeRemain := (getIntMember R elem (ascii "maxWaitTimeRemain") 0).toUInt32
    displayDuration := (getIntMember R elem (ascii "displayDuration") 0).toUInt32
    displayDurationRemain := (getIntMember R elem (ascii "displayDurationRemain") 0).toUInt32
    displayPriority := (getIntMember R elem (ascii "displayPriority") 0).toUInt32
    dynamicData }

/-- `decode_disp_s40_status_response` of the root. The length is cut to an `unsigned int`. -/
def decodeDisplayPool (root : Json) : Outcome (DispS40StatusResponse Lib.CharArray) := do
  let list ← Outcome.ofOption (root.get? (ascii "displayPoolList"))
  let items ← jsonObjectArray list
  let count : UInt32 := .ofNat items.length
  let displayPoolList ← (items.take count.toNat).mapM (decodeDisplayPoolElement J R)
  return ⟨displayPoolList, count⟩

/-- `decode_disp_s40_status_response` -/
def decodeDispS40StatusResponse (jsonStr : Bytes) :
    Outcome (DispS40StatusResponse Lib.CharArray) := do
  let root ← jsonTokenerParse J jsonStr
  decodeDisplayPool J R root

end Decoders

/-! ## S10

The types and the groups of a display. -/

/-- `SizeWebObject` -/
structure SizeWebObject where
  width : UInt32
  height : UInt32

/-- `PredefinedGroupObject`, with the values that count of `supportedEnum[10]`. -/
structure PredefinedGroupObject (Text : Nat → Type) where
  predefinedGroupId : Text 64
  supportedEnum : List (Text 32)
  enumCount : UInt32

/-- `DispS10StatusResponse` -/
structure DispS10StatusResponse (Text : Nat → Type) where
  displayType : Text 32
  templateType : Text 32
  minDisplayTime : UInt32
  maxObjectIdSize : UInt32
  maxSupportedTemplate : UInt32
  maxSupportedZone : UInt32
  maxSupportedSequence : UInt32
  maxSupportedAnimation : UInt32
  maxSupportedAvailableMsg : UInt32
  maxSupportedDisplayPool : UInt32
  maxScrollSpeed : UInt32
  size : SizeWebObject
  textDisplayable : Int32
  predefinedGroups : List (PredefinedGroupObject Text)
  predefinedGroupCount : UInt32

/-- The counts are those of the lists, and the values fit their array. -/
def PredefinedGroupObject.Valid {Text : Nat → Type} (group : PredefinedGroupObject Text) : Prop :=
  group.enumCount.toNat = group.supportedEnum.length ∧ group.supportedEnum.length ≤ 10

def DispS10StatusResponse.Valid {Text : Nat → Type} (res : DispS10StatusResponse Text) : Prop :=
  res.predefinedGroupCount.toNat = res.predefinedGroups.length ∧
    ∀ group ∈ res.predefinedGroups, group.Valid

def PredefinedGroupObject.padded (group : PredefinedGroupObject Buffer) :
    PredefinedGroupObject Lib.CharArray :=
  { group with
    predefinedGroupId := Disp.padded group.predefinedGroupId
    supportedEnum := group.supportedEnum.map Disp.padded }

/-- The answer with its arrays. -/
def DispS10StatusResponse.padded (res : DispS10StatusResponse Buffer) :
    DispS10StatusResponse Lib.CharArray :=
  { res with
    displayType := Disp.padded res.displayType
    templateType := Disp.padded res.templateType
    predefinedGroups := res.predefinedGroups.map .padded }

/-- An element of `predefinedGroups`. -/
def PredefinedGroupObject.encode (group : PredefinedGroupObject Buffer) : Json :=
  .obj [(ascii "predefinedGroupId", jsonObjectNewString group.predefinedGroupId.val),
    (ascii "supportedPredefined", .arr ((group.supportedEnum.take group.enumCount.toNat).map
      fun value => jsonObjectNewString value.val))]

/-- `encode_disp_s10_status_response` -/
def encodeDispS10StatusResponse (res : DispS10StatusResponse Buffer) : Json :=
  .obj [(ascii "displayType", jsonObjectNewString res.displayType.val),
    (ascii "templateType", jsonObjectNewString res.templateType.val),
    (ascii "minDisplayTime", jsonObjectNewInt res.minDisplayTime.toInt32),
    (ascii "maxObjectIdSize", jsonObjectNewInt res.maxObjectIdSize.toInt32),
    (ascii "maxSupportedTemplate", jsonObjectNewInt res.maxSupportedTemplate.toInt32),
    (ascii "maxSupportedZone", jsonObjectNewInt res.maxSupportedZone.toInt32),
    (ascii "maxSupportedSequence", jsonObjectNewInt res.maxSupportedSequence.toInt32),
    (ascii "maxSupportedAnimation", jsonObjectNewInt res.maxSupportedAnimation.toInt32),
    (ascii "maxSupportedAvailableMsg", jsonObjectNewInt res.maxSupportedAvailableMsg.toInt32),
    (ascii "maxSupportedDisplayPool", jsonObjectNewInt res.maxSupportedDisplayPool.toInt32),
    (ascii "maxScrollSpeed", jsonObjectNewInt res.maxScrollSpeed.toInt32),
    (ascii "size", .obj [(ascii "width", jsonObjectNewInt res.size.width.toInt32),
      (ascii "height", jsonObjectNewInt res.size.height.toInt32)]),
    (ascii "textDisplayable", jsonObjectNewBoolean res.textDisplayable),
    (ascii "predefinedGroups",
      if 0 < res.predefinedGroupCount ∧ res.predefinedGroups ≠ [] then
        .arr ((res.predefinedGroups.take res.predefinedGroupCount.toNat).map
          PredefinedGroupObject.encode)
      else .null)]

section Decoders

variable (J : JsonLib) (R : JsonReads)

/-- `decode_disp_s10_status_response` of the root: the answer is filled with zeros first. -/
def decodeTypes (root : Json) : Outcome (DispS10StatusResponse Lib.CharArray) := do
  let displayType ← copyMember J keeps32 root (ascii "displayType") .zero
  let templateType ← copyMember J keeps32 root (ascii "templateType") .zero
  -- a member that is missing is a null pointer, of which 0 is read
  let int (key : Bytes) : UInt32 := (getIntMember R root key 0).toUInt32
  return {
    displayType
    templateType
    minDisplayTime := int (ascii "minDisplayTime")
    maxObjectIdSize := int (ascii "maxObjectIdSize")
    maxSupportedTemplate := int (ascii "maxSupportedTemplate")
    maxSupportedZone := int (ascii "maxSupportedZone")
    maxSupportedSequence := int (ascii "maxSupportedSequence")
    maxSupportedAnimation := int (ascii "maxSupportedAnimation")
    maxSupportedAvailableMsg := int (ascii "maxSupportedAvailableMsg")
    maxSupportedDisplayPool := int (ascii "maxSupportedDisplayPool")
    maxScrollSpeed := int (ascii "maxScrollSpeed")
    size := ⟨0, 0⟩
    textDisplayable := 0
    predefinedGroups := []
    predefinedGroupCount := 0 }

/-- `decode_disp_s10_status_response` -/
def decodeDispS10StatusResponse (jsonStr : Bytes) :
    Outcome (DispS10StatusResponse Lib.CharArray) := do
  let root ← jsonTokenerParse J jsonStr
  decodeTypes J R root

end Decoders

/-! ## S20

Templates, with their zones; members that are optional are written when they are set. -/

/-- `TextOptions` -/
structure TextOptions (Text : Nat → Type) where
  type : Text 32
  textColor : Text 32
  backgroundColor : Text 32
  font : Text 32
  horizontalAlign : Text 32
  verticalAlign : Text 32
  orientation : Text 32

/-- The size of `GraphicOptions` and of `PredefinedOptions`. -/
structure OptionsSize where
  w : Int32
  h : Int32

/-- `GraphicOptions` -/
structure GraphicOptions (Text : Nat → Type) where
  negotiation : Text 32
  size : OptionsSize

/-- `PredefinedOptions` -/
structure PredefinedOptions (Text : Nat → Type) where
  predefinedGroupId : Text 32
  size : OptionsSize

/-- The position of a zone. -/
structure Position where
  x : Int32
  y : Int32
  z : Int32

/-- `ZoneObject`, with the colours that are set of `supportedColors[5]`. Options may be absent; the
custom ones have no members. -/
structure ZoneObject (Text : Nat → Type) where
  zoneId : Text 32
  supportedColors : List (Text 16)
  colorCount : Int32
  position : Position
  zoneType : Text 32
  textOptions : Option (TextOptions Text)
  graphicOptions : Option (GraphicOptions Text)
  predefinedOptions : Option (PredefinedOptions Text)
  customOptions : Option Unit

/-- `TemplateObject` -/
structure TemplateObject (Text : Nat → Type) where
  templateId : Text 64
  readonly : Bool
  zones : List (ZoneObject Text)
  zoneCount : Int32

/-- `DispS20StatusResponse` -/
structure DispS20StatusResponse (Text : Nat → Type) where
  templates : List (TemplateObject Text)
  templateCount : Int32

section Valid

variable {Text : Nat → Type}

/-- The counts are those of the lists, and the colours fit their array. -/
def ZoneObject.Valid (zone : ZoneObject Text) : Prop :=
  zone.colorCount.toInt = zone.supportedColors.length ∧ zone.supportedColors.length ≤ 5

def TemplateObject.Valid (tpl : TemplateObject Text) : Prop :=
  tpl.zoneCount.toInt = tpl.zones.length ∧ ∀ zone ∈ tpl.zones, zone.Valid

def DispS20StatusResponse.Valid (res : DispS20StatusResponse Text) : Prop :=
  res.templateCount.toInt = res.templates.length ∧ ∀ tpl ∈ res.templates, tpl.Valid

end Valid

def TextOptions.padded (text : TextOptions Buffer) : TextOptions Lib.CharArray where
  type := Disp.padded text.type
  textColor := Disp.padded text.textColor
  backgroundColor := Disp.padded text.backgroundColor
  font := Disp.padded text.font
  horizontalAlign := Disp.padded text.horizontalAlign
  verticalAlign := Disp.padded text.verticalAlign
  orientation := Disp.padded text.orientation

def GraphicOptions.padded (g : GraphicOptions Buffer) : GraphicOptions Lib.CharArray :=
  { g with negotiation := Disp.padded g.negotiation }

def PredefinedOptions.padded (p : PredefinedOptions Buffer) : PredefinedOptions Lib.CharArray :=
  { p with predefinedGroupId := Disp.padded p.predefinedGroupId }

def ZoneObject.padded (zone : ZoneObject Buffer) : ZoneObject Lib.CharArray :=
  { zone with
    zoneId := Disp.padded zone.zoneId
    supportedColors := zone.supportedColors.map Disp.padded
    zoneType := Disp.padded zone.zoneType
    textOptions := zone.textOptions.map .padded
    graphicOptions := zone.graphicOptions.map .padded
    predefinedOptions := zone.predefinedOptions.map .padded }

def TemplateObject.padded (tpl : TemplateObject Buffer) : TemplateObject Lib.CharArray :=
  { tpl with templateId := Disp.padded tpl.templateId, zones := tpl.zones.map .padded }

/-- The answer with its arrays. -/
def DispS20StatusResponse.padded (res : DispS20StatusResponse Buffer) :
    DispS20StatusResponse Lib.CharArray :=
  { res with templates := res.templates.map .padded }

/-- The member `textOptions`. -/
def TextOptions.encode (text : TextOptions Buffer) : Json :=
  .obj [(ascii "type", jsonObjectNewString text.type.val),
    (ascii "textColor", jsonObjectNewString text.textColor.val),
    (ascii "backgroundColor", jsonObjectNewString text.backgroundColor.val),
    (ascii "font", jsonObjectNewString text.font.val),
    (ascii "horizontalAlign", jsonObjectNewString text.horizontalAlign.val),
    (ascii "verticalAlign", jsonObjectNewString text.verticalAlign.val),
    (ascii "orientation", jsonObjectNewString text.orientation.val)]

/-- The member `size` of options. -/
def OptionsSize.encode (size : OptionsSize) : Json :=
  .obj [(ascii "w", jsonObjectNewInt size.w), (ascii "h", jsonObjectNewInt size.h)]

/-- The member `graphicOptions`. -/
def GraphicOptions.encode (g : GraphicOptions Buffer) : Json :=
  .obj [(ascii "sizeNegotiation", jsonObjectNewString g.negotiation.val),
    (ascii "size", g.size.encode)]

/-- The member `predefinedOptions`. -/
def PredefinedOptions.encode (p : PredefinedOptions Buffer) : Json :=
  .obj [(ascii "predefinedGroupId", jsonObjectNewString p.predefinedGroupId.val),
    (ascii "size", p.size.encode)]

/-- Options that are absent are `null`. -/
def encodeOptional {α : Type} (encode : α → Json) : Option α → Json
  | some options => encode options
  | none => .null

/-- An element of `zones`. -/
def ZoneObject.encode (zone : ZoneObject Buffer) : Json :=
  .obj [(ascii "zoneId", jsonObjectNewString zone.zoneId.val),
    (ascii "supportedColors",
      .arr ((zone.supportedColors.take zone.colorCount.toNatClampNeg).map
        fun color => jsonObjectNewString color.val)),
    (ascii "position", .obj [(ascii "x", jsonObjectNewInt zone.position.x),
      (ascii "y", jsonObjectNewInt zone.position.y),
      (ascii "z", jsonObjectNewInt zone.position.z)]),
    (ascii "zoneType", jsonObjectNewString zone.zoneType.val),
    (ascii "textOptions", encodeOptional TextOptions.encode zone.textOptions),
    (ascii "graphicOptions", encodeOptional GraphicOptions.encode zone.graphicOptions),
    (ascii "predefinedOptions", encodeOptional PredefinedOptions.encode zone.predefinedOptions),
    (ascii "customOptions", encodeOptional (fun _ => .obj []) zone.customOptions)]

/-- An element of `templates`. -/
def TemplateObject.encode (tpl : TemplateObject Buffer) : Json :=
  .obj [(ascii "templateId", jsonObjectNewString tpl.templateId.val),
    (ascii "readonly", .bool tpl.readonly),
    (ascii "zones", .arr ((tpl.zones.take tpl.zoneCount.toNatClampNeg).map ZoneObject.encode))]

/-- `encode_disp_s20_status_response` -/
def encodeDispS20StatusResponse (res : DispS20StatusResponse Buffer) : Json :=
  .obj [(ascii "templates", .arr ((res.templates.take res.templateCount.toNatClampNeg).map
    TemplateObject.encode))]

section Decoders

variable (J : JsonLib) (R : JsonReads)

/-- An element of `zones`, from what `calloc` leaves. -/
def decodeZone (zone : Json) : Outcome (ZoneObject Lib.CharArray) := do
  let zoneId ← copyMember J keeps32 zone (ascii "zoneId") .zero
  let zoneType ← copyMember J keeps32 zone (ascii "zoneType") .zero
  return {
    zoneId
    supportedColors := []
    colorCount := getIntMember R zone (ascii "colorCount") 0
    position := ⟨0, 0, 0⟩
    zoneType
    textOptions := none
    graphicOptions := none
    predefinedOptions := none
    customOptions := none }

/-- The member `zones` of a template, with its length cut to an `int`: nothing is read where this is
negative. -/
def decodeZones (template : Json) : Outcome (List (ZoneObject Lib.CharArray) × Int32) :=
  match template.get? (ascii "zones") with
  | some (.arr zones) => do
    let zoneCount : Int32 := .ofNat zones.length
    let zones ← (zones.take zoneCount.toNatClampNeg).mapM (decodeZone J R)
    return (zones, zoneCount)
  | _ => return ([], 0)

/-- An element of `templates`. -/
def decodeTemplate (template : Json) : Outcome (TemplateObject Lib.CharArray) := do
  let templateId ← copyMember J keeps64 template (ascii "templateId") .zero
  let readonly := match template.get? (ascii "readonly") with
    | none => false
    | some readonly => jsonObjectGetBoolean R readonly
  let (zones, zoneCount) ← decodeZones J R template
  return { templateId, readonly, zones, zoneCount }

/-- `decode_disp_s20_status_response` of the root: `calloc` refuses a negative count. -/
def decodeTemplates (root : Json) : Outcome (DispS20StatusResponse Lib.CharArray) :=
  match root.get? (ascii "templates") with
  | some (.arr templates) => do
    let templateCount : Int32 := .ofNat templates.length
    if templateCount < 0 then .err
    else do
      let templates ← (templates.take templateCount.toNatClampNeg).mapM (decodeTemplate J R)
      return ⟨templates, templateCount⟩
  | _ => .err

/-- `decode_disp_s20_status_response` -/
def decodeDispS20StatusResponse (jsonStr : Bytes) :
    Outcome (DispS20StatusResponse Lib.CharArray) := do
  let root ← jsonTokenerParse J jsonStr
  decodeTemplates J R root

end Decoders

end RsmpGateway.Rsmp.Disp
