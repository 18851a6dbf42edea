import Mathlib.Data.String.Basic

/-! Editorial documents as they are stored and read: JSON values, and the decoders that accept the
shape of a document down to the evidence and the facts in it. A stored value has no getters, no
prototypes and no holes, so what the decoders test of these never fails. -/

namespace Houndfe.CatalogEditorial

/-- A JSON value that was read; its numbers are finite doubles. -/
inductive JsonValue where
  | null
  | bool (value : Bool)
  | number (value : Rat)
  | string (value : String)
  | array (items : List JsonValue)
  | object (entries : List (String × JsonValue))

namespace JsonValue

/-- The own property of an object. -/
def get? (input : JsonValue) (key : String) : Option JsonValue :=
  match input with
  | .object entries => entries.lookup key
  | .null | .bool _ | .number _ | .string _ | .array _ => none

def string? : JsonValue → Option String
  | .string value => some value
  | .null | .bool _ | .number _ | .array _ | .object _ => none

def isNull : JsonValue → Bool
  | .null => true
  | .bool _ | .number _ | .string _ | .array _ | .object _ => false

end JsonValue

/-- `EditorialDocumentShapeError`. -/
structure ShapeError where
  message : String
  deriving DecidableEq, Repr

abbrev Shape := Except ShapeError

/-! ### What the decoders share -/

section

variable {α : Type} (invalid : ShapeError)

/-- The fields of an object with these keys and no others. -/
def record (input : JsonValue) (keys : List String) : Shape (String → JsonValue) :=
  match input with
  | .object entries =>
      if entries.length = keys.length ∧ ∀ key ∈ keys, (entries.lookup key).isSome then
        .ok fun key => (entries.lookup key).getD .null
      else .error invalid
  | .null | .bool _ | .number _ | .string _ | .array _ => .error invalid

def array (parse : JsonValue → Shape α) : JsonValue → Shape (List α)
  | .array items => items.mapM parse
  | .null | .bool _ | .number _ | .string _ | .object _ => .error invalid

def text : JsonValue → Shape String
  | .string value => .ok value
  | .null | .bool _ | .number _ | .array _ | .object _ => .error invalid

def nullableText : JsonValue → Shape (Option String)
  | .null => .ok none
  | .string value => .ok (some value)
  | .bool _ | .number _ | .array _ | .object _ => .error invalid

def boolean : JsonValue → Shape Bool
  | .bool value => .ok value
  | .null | .number _ | .string _ | .array _ | .object _ => .error invalid

def finite : JsonValue → Shape Rat
  | .number value => .ok value
  | .null | .bool _ | .string _ | .array _ | .object _ => .error invalid

/-- `null`, or what the decoder accepts. -/
def nullable (parse : JsonValue → Shape α) (input : JsonValue) : Shape (Option α) :=
  if input.isNull then .ok none else (parse input).map some

end

/-! ### Evidence and payloads -/

structure Evidence where
  sourceRef : String
  verifiedOn : String
  deriving DecidableEq, Repr

def invalidEvidence : ShapeError := ⟨"Expected an evidence shape V2"⟩

def parseEvidenceShape (input : JsonValue) : Shape Evidence := do
  let data ← record invalidEvidence input ["sourceRef", "verifiedOn"]
  let sourceRef ← text invalidEvidence (data "sourceRef")
  let verifiedOn ← text invalidEvidence (data "verifiedOn")
  return ⟨sourceRef, verifiedOn⟩

inductive KnownPayload where
  | text (value : String)
  | single (value : String)
  | boolean (value : Bool)
  | number (value : Rat) (unit : Option String)
  | multi (value : List String)
  | range (min max : Rat) (unit : String)
  deriving DecidableEq, Repr

def invalidPayload : ShapeError := ⟨"Expected a known payload shape V2"⟩

def parseKnownPayloadShape (input : JsonValue) : Shape KnownPayload :=
  match (input.get? "type").bind JsonValue.string? with
  | some "text" => do
      let data ← record invalidPayload input ["type", "value"]
      return .text (← text invalidPayload (data "value"))
  | some "single" => do
      let data ← record invalidPayload input ["type", "value"]
      return .single (← text invalidPayload (data "value"))
  | some "boolean" => do
      let data ← record invalidPayload input ["type", "value"]
      return .boolean (← boolean invalidPayload (data "value"))
  | some "number" => do
      let data ← record invalidPayload input ["type", "value", "unit"]
      let value ← finite invalidPayload (data "value")
      let unit ← nullableText invalidPayload (data "unit")
      return .number value unit
  | some "multi" => do
      let data ← record invalidPayload input ["type", "value"]
      return .multi (← array invalidPayload (text invalidPayload) (data "value"))
  | some "range" => do
      let data ← record invalidPayload input ["type", "min", "max", "unit"]
      let min ← finite invalidPayload (data "min")
      let max ← finite invalidPayload (data "max")
      let unit ← text invalidPayload (data "unit")
      return .range min max unit
  | _ => .error invalidPayload

/-! ### Values -/

inductive Owner where
  | product
  | sellable
  deriving DecidableEq, Repr

inductive ValueState where
  | known (payload : KnownPayload) (evidence : Option Evidence)
  | unknown
  | notApplicable
  deriving DecidableEq, Repr

structure Value where
  code : String
  owner : Owner
  variantId : Option String
  state : ValueState
  deriving DecidableEq, Repr

def invalidValue : ShapeError := ⟨"Expected a value shape V2"⟩

def parseOwner (input : JsonValue) : Shape Owner :=
  match input.string? with
  | some "product" => .ok .product
  | some "sellable" => .ok .sellable
  | _ => .error invalidValue

/-- The keys of a value in any state, of which a known value has one more. -/
def valueKeys : List String := ["code", "owner", "variantId", "state", "evidence"]

/-- A value without a payload has no evidence. -/
def parseMarker (state : ValueState) (input : JsonValue) : Shape Value := do
  let data ← record invalidValue input valueKeys
  let code ← text invalidValue (data "code")
  let owner ← parseOwner (data "owner")
  let variantId ← nullableText invalidValue (data "variantId")
  if (data "evidence").isNull then return ⟨code, owner, variantId, state⟩
  else throw invalidValue

def parseValueShape (input : JsonValue) : Shape Value :=
  match (input.get? "state").bind JsonValue.string? with
  | some "known" => do
      let data ← record invalidValue input (valueKeys ++ ["payload"])
      let code ← text invalidValue (data "code")
      let owner ← parseOwner (data "owner")
      let variantId ← nullableText invalidValue (data "variantId")
      let payload ← parseKnownPayloadShape (data "payload")
      let evidence ← nullable parseEvidenceShape (data "evidence")
      return ⟨code, owner, variantId, .known payload evidence⟩
  | some "unknown" => parseMarker .unknown input
  | some "not_applicable" => parseMarker .notApplicable input
  | _ => .error invalidValue

/-! ### Facts -/

inductive DeclarationKey where
  | contentMagnitude
  | consumable
  | animalApplied
  | fitDeterminesChoice
  | capacityDeterminesChoice
  | electricalApplies
  | relevantDimensionCodes
  | relevantFitCodes
  | relevantCapacityCodes
  | relevantEquipmentCodes
  | presentationKind
  | optionalNonpertinenceCodes
  deriving DecidableEq, Repr

def DeclarationKey.ofText : String → Option DeclarationKey
  | "contentMagnitude" => some .contentMagnitude
  | "consumable" => some .consumable
  | "animalApplied" => some .animalApplied
  | "fitDeterminesChoice" => some .fitDeterminesChoice
  | "capacityDeterminesChoice" => some .capacityDeterminesChoice
  | "electricalApplies" => some .electricalApplies
  | "relevantDimensionCodes" => some .relevantDimensionCodes
  | "relevantFitCodes" => some .relevantFitCodes
  | "relevantCapacityCodes" => some .relevantCapacityCodes
  | "relevantEquipmentCodes" => some .relevantEquipmentCodes
  | "presentationKind" => some .presentationKind
  | "optionalNonpertinenceCodes" => some .optionalNonpertinenceCodes
  | _ => none

inductive DeclarationValue where
  | flag (value : Bool)
  | codes (codes : List String)
  | dimensions (codes toyTypes : List String)
  | token (value : String)
  deriving DecidableEq, Repr

inductive Declaration where
  | unknown (key : DeclarationKey)
  | known (key : DeclarationKey) (value : DeclarationValue) (evidence : Evidence) (basis : String)
  deriving DecidableEq, Repr

def invalidDeclaration : ShapeError := ⟨"Expected a declaration shape V2"⟩

def parseCodes : JsonValue → Shape (List String) :=
  array invalidDeclaration (text invalidDeclaration)

def parseToken (tokens : List String) (input : JsonValue) : Shape DeclarationValue := do
  let value ← text invalidDeclaration input
  if value ∈ tokens then return .token value else throw invalidDeclaration

/-- The value that a declaration of the key has. -/
def parseDeclarationValue (key : DeclarationKey) (input : JsonValue) : Shape DeclarationValue :=
  match key with
  | .consumable | .animalApplied | .fitDeterminesChoice | .capacityDeterminesChoice
  | .electricalApplies => return .flag (← boolean invalidDeclaration input)
  | .relevantFitCodes | .relevantCapacityCodes | .relevantEquipmentCodes
  | .optionalNonpertinenceCodes => return .codes (← parseCodes input)
  | .relevantDimensionCodes => do
      let dimension ← record invalidDeclaration input ["codes", "toyTypes"]
      let codes ← parseCodes (dimension "codes")
      let toyTypes ← parseCodes (dimension "toyTypes")
      return .dimensions codes toyTypes
  | .contentMagnitude => parseToken ["mass", "volume", "count", "length", "area"] input
  | .presentationKind => parseToken ["formulation", "device", "packaging"] input

def parseDeclarationKey (input : JsonValue) : Shape DeclarationKey :=
  match input.string?.bind DeclarationKey.ofText with
  | some key => .ok key
  | none => .error invalidDeclaration

def parseDeclarationShape (input : JsonValue) : Shape Declaration :=
  match (input.get? "state").bind JsonValue.string? with
  | some "unknown" => do
      let data ← record invalidDeclaration input ["key", "state", "evidence"]
      let key ← parseDeclarationKey (data "key")
      if (data "evidence").isNull then return .unknown key else throw invalidDeclaration
  | some "known" => do
      let data ← record invalidDeclaration input ["key", "state", "value", "evidence", "basis"]
      let key ← parseDeclarationKey (data "key")
      let basis ← text invalidDeclaration (data "basis")
      if (data "evidence").isNull then throw invalidDeclaration
      let value ← parseDeclarationValue key (data "value")
      let evidence ← parseEvidenceShape (data "evidence")
      return .known key value evidence basis
  | _ => .error invalidDeclaration

inductive Disposition where
  | satisfied
  | notApplicable
  | unresolved
  | conflicting
  deriving DecidableEq, Repr

inductive Disclosure where
  | privateOnly
  | publicRequired
  | unresolved
  deriving DecidableEq, Repr

structure CareRequirement where
  key : String
  description : String
  disposition : Disposition
  evidence : List Evidence
  basis : String
  deriving DecidableEq, Repr

structure CareWarning where
  key : String
  requirementKeys : List String
  text : String
  disclosure : Disclosure
  evidence : List Evidence
  handlingBasis : String
  deriving DecidableEq, Repr

def invalidCareEntry : ShapeError := ⟨"Expected a care entry shape V2"⟩

def parseDisposition (input : JsonValue) : Shape Disposition :=
  match input.string? with
  | some "satisfied" => .ok .satisfied
  | some "not_applicable" => .ok .notApplicable
  | some "unresolved" => .ok .unresolved
  | some "conflicting" => .ok .conflicting
  | _ => .error invalidCareEntry

def parseDisclosure (input : JsonValue) : Shape Disclosure :=
  match input.string? with
  | some "private_only" => .ok .privateOnly
  | some "public_required" => .ok .publicRequired
  | some "unresolved" => .ok .unresolved
  | _ => .error invalidCareEntry

def parseCareRequirementShape (input : JsonValue) : Shape CareRequirement := do
  let data ← record invalidCareEntry input
    ["key", "description", "disposition", "evidence", "basis"]
  let disposition ← parseDisposition (data "disposition")
  let key ← text invalidCareEntry (data "key")
  let description ← text invalidCareEntry (data "description")
  let evidence ← array invalidCareEntry parseEvidenceShape (data "evidence")
  let basis ← text invalidCareEntry (data "basis")
  return ⟨key, description, disposition, evidence, basis⟩

def parseCareWarningShape (input : JsonValue) : Shape CareWarning := do
  let data ← record invalidCareEntry input
    ["key", "requirementKeys", "text", "disclosure", "evidence", "handlingBasis"]
  let disclosure ← parseDisclosure (data "disclosure")
  let key ← text invalidCareEntry (data "key")
  let requirementKeys ← array invalidCareEntry (text invalidCareEntry) (data "requirementKeys")
  let warning ← text invalidCareEntry (data "text")
  let evidence ← array invalidCareEntry parseEvidenceShape (data "evidence")
  let handlingBasis ← text invalidCareEntry (data "handlingBasis")
  return ⟨key, requirementKeys, warning, disclosure, evidence, handlingBasis⟩

inductive Determination where
  | identified
  | noneApplicable
  deriving DecidableEq, Repr

inductive CareReview where
  | unknown
  | prepared (jurisdiction intendedUse : String) (determination : Determination)
      (evidence : List Evidence) (basis : String) (requirements : List CareRequirement)
      (warnings : List CareWarning)
  deriving DecidableEq, Repr

def invalidCareCapture : ShapeError := ⟨"Expected a care capture shape V2"⟩

def parseDetermination (input : JsonValue) : Shape Determination :=
  match input.string? with
  | some "identified" => .ok .identified
  | some "none_applicable" => .ok .noneApplicable
  | _ => .error invalidCareCapture

def parseCareCaptureShape (input : JsonValue) : Shape CareReview :=
  match (input.get? "state").bind JsonValue.string? with
  | some "unknown" => do
      let _ ← record invalidCareCapture input ["state"]
      return .unknown
  | some "prepared" => do
      let data ← record invalidCareCapture input ["state", "jurisdiction", "intendedUse",
        "determination", "evidence", "basis", "requirements", "warnings"]
      let jurisdiction ← text invalidCareCapture (data "jurisdiction")
      let intendedUse ← text invalidCareCapture (data "intendedUse")
      let basis ← text invalidCareCapture (data "basis")
      let determination ← parseDetermination (data "determination")
      let evidence ← array invalidCareCapture parseEvidenceShape (data "evidence")
      let requirements ← array invalidCareCapture parseCareRequirementShape (data "requirements")
      let warnings ← array invalidCareCapture parseCareWarningShape (data "warnings")
      return .prepared jurisdiction intendedUse determination evidence basis requirements warnings
  | _ => .error invalidCareCapture

structure SellableFacts where
  variantId : Option String
  presentation : String
  declarations : List Declaration
  careReview : Option CareReview
  deriving DecidableEq, Repr

def invalidFacts : ShapeError := ⟨"Expected a sellable facts shape V2"⟩

def parseSellableFactsShape (input : JsonValue) : Shape SellableFacts := do
  let data ← record invalidFacts input ["variantId", "presentation", "declarations", "careReview"]
  let variantId ← nullableText invalidFacts (data "variantId")
  let presentation ← text invalidFacts (data "presentation")
  let declarations ← array invalidFacts parseDeclarationShape (data "declarations")
  let careReview ← nullable parseCareCaptureShape (data "careReview")
  return ⟨variantId, presentation, declarations, careReview⟩

/-! ### The document -/

structure DocumentShape where
  commercialTitle : Option String
  description : Option String
  mediaRefs : List String
  familyCode : Option String
  values : List Value
  facts : List SellableFacts
  deriving DecidableEq, Repr

def invalidDocument : ShapeError := ⟨"Expected a document shape V2"⟩

def documentKeys : List String :=
  ["schemaVersion", "commercialTitle", "description", "mediaRefs", "familyCode", "values", "facts"]

def parseSchemaVersion : JsonValue → Shape Unit
  | .number value => if value = 2 then .ok () else .error invalidDocument
  | .null | .bool _ | .string _ | .array _ | .object _ => .error invalidDocument

def parseDocumentShape (input : JsonValue) : Shape DocumentShape := do
  let data ← record invalidDocument input documentKeys
  parseSchemaVersion (data "schemaVersion")
  let commercialTitle ← nullableText invalidDocument (data "commercialTitle")
  let description ← nullableText invalidDocument (data "description")
  let familyCode ← nullableText invalidDocument (data "familyCode")
  let mediaRefs ← array invalidDocument (text invalidDocument) (data "mediaRefs")
  let values ← array invalidDocument parseValueShape (data "values")
  let facts ← array invalidDocument parseSellableFactsShape (data "facts")
  return ⟨commercialTitle, description, mediaRefs, familyCode, values, facts⟩

end Houndfe.CatalogEditorial
