import Houndfe.CatalogEditorial.Document

/-! What the public sees of a published document: its title, its description and the known values
whose binding is public, under the labels of the vocabulary. -/

namespace Houndfe.CatalogEditorial

/-! ### Sections -/

inductive SectionCode where
  | paraQuien
  | queEs
  | caracteristicas
  | formula
  | medidasAjuste
  | medidas
  | equipoElectrico
  | contenidoEmpaque
  | uso
  deriving DecidableEq, Repr

def SectionCode.text : SectionCode → String
  | .paraQuien => "para-quien"
  | .queEs => "que-es"
  | .caracteristicas => "caracteristicas"
  | .formula => "formula"
  | .medidasAjuste => "medidas-ajuste"
  | .medidas => "medidas"
  | .equipoElectrico => "equipo-electrico"
  | .contenidoEmpaque => "contenido-empaque"
  | .uso => "uso"

/-- `SECTION_LABELS`. -/
def SectionCode.label : SectionCode → String
  | .paraQuien => "Para quién"
  | .queEs => "Qué es"
  | .caracteristicas => "Características"
  | .formula => "Fórmula"
  | .medidasAjuste => "Talla y ajuste"
  | .medidas => "Medidas"
  | .equipoElectrico => "Equipo eléctrico"
  | .contenidoEmpaque => "Contenido y empaque"
  | .uso => "Uso"

structure ProductionSection where
  code : SectionCode
  definitionCodes : List String
  deriving DecidableEq, Repr

def packageCodes : List String :=
  ["content.kind", "measure.net_mass", "measure.net_volume", "measure.content_count",
    "measure.pack_count", "pack.form", "pack.sale"]

/-- The same block with the coverage measures. -/
def packageWithCoverageCodes : List String :=
  ["content.kind", "measure.net_mass", "measure.net_volume", "measure.content_count",
    "measure.coverage.length", "measure.coverage.area", "measure.pack_count", "pack.form",
    "pack.sale"]

def dimensionCodes : List String :=
  ["measure.dimensions.external_length", "measure.dimensions.external_width",
    "measure.dimensions.external_height", "measure.dimensions.external_diameter",
    "measure.dimensions.internal_length", "measure.dimensions.internal_width",
    "measure.dimensions.internal_height", "measure.dimensions.internal_diameter"]

def equipmentCodes : List String :=
  ["measure.equipment.power", "measure.equipment.voltage", "measure.equipment.frequency",
    "measure.equipment.flow", "measure.equipment.temperature"]

def featureCodes : List String :=
  ["feature.washable", "feature.reusable", "feature.waterproof"]

/-- `FAMILY_SECTIONS`, for the production families. -/
def familySections : String → Option (List ProductionSection)
  | "food" => some [
      ⟨.paraQuien, ["animal.target", "life.stage", "size.animal", "measure.animal_mass"]⟩,
      ⟨.queEs, ["food.format", "food.role", "food.texture", "food.process",
        "text.protein_origin", "food.aquatic"]⟩,
      ⟨.formula, ["text.ingredients", "text.composition", "text.clinical_analysis"]⟩,
      ⟨.contenidoEmpaque, packageCodes⟩,
      ⟨.uso, ["text.instructions"]⟩]
  | "treat" => some [
      ⟨.paraQuien, ["animal.target", "life.stage", "size.animal", "measure.animal_mass"]⟩,
      ⟨.queEs, ["treat.form", "treat.base", "food.texture", "food.process",
        "text.protein_origin"]⟩,
      ⟨.formula, ["text.ingredients", "text.composition", "text.clinical_analysis"]⟩,
      ⟨.contenidoEmpaque, packageCodes⟩,
      ⟨.uso, ["text.instructions"]⟩]
  | "toy" => some [
      ⟨.paraQuien, ["animal.target", "life.stage", "size.animal", "measure.animal_mass"]⟩,
      ⟨.queEs, ["toy.type", "material", "color.base"]⟩,
      ⟨.caracteristicas, ["toy.feature"]⟩,
      ⟨.medidas, "size.label" :: dimensionCodes⟩,
      ⟨.contenidoEmpaque, packageCodes⟩,
      ⟨.uso, ["text.instructions", "text.manufacturer_care"]⟩]
  | "hygiene" => some [
      ⟨.paraQuien, ["animal.target", "life.stage", "measure.animal_mass"]⟩,
      ⟨.queEs, ["hygiene.type", "hygiene.form", "hygiene.litter", "hygiene.scent", "material"]⟩,
      ⟨.caracteristicas, featureCodes⟩,
      ⟨.medidas, dimensionCodes⟩,
      ⟨.contenidoEmpaque, packageWithCoverageCodes⟩,
      ⟨.uso, ["text.instructions", "text.manufacturer_care"]⟩]
  | "accessory" => some [
      ⟨.paraQuien, ["animal.target", "life.stage", "size.animal", "measure.animal_mass"]⟩,
      ⟨.queEs, ["accessory.type", "material", "color.base"]⟩,
      ⟨.caracteristicas, ["accessory.closure", "accessory.feature"] ++ featureCodes⟩,
      ⟨.medidasAjuste, ["size.label", "measure.fit.neck", "measure.fit.chest",
        "measure.fit.back_length"]⟩,
      ⟨.medidas, dimensionCodes ++ ["measure.capacity.container"]⟩,
      ⟨.equipoElectrico, equipmentCodes⟩,
      ⟨.contenidoEmpaque, packageCodes⟩,
      ⟨.uso, ["text.instructions", "text.manufacturer_care"]⟩]
  | "habitat" => some [
      ⟨.paraQuien, ["animal.target", "life.stage", "measure.animal_mass"]⟩,
      ⟨.queEs, ["habitat.type", "habitat.environment", "habitat.substrate", "material",
        "color.base"]⟩,
      ⟨.caracteristicas, "habitat.component" :: featureCodes⟩,
      ⟨.medidas, dimensionCodes ++ ["measure.capacity.container",
        "measure.capacity.habitat_usable_volume"]⟩,
      ⟨.equipoElectrico, equipmentCodes⟩,
      ⟨.contenidoEmpaque, packageWithCoverageCodes⟩,
      ⟨.uso, ["text.instructions", "text.manufacturer_care"]⟩]
  | "care" => some [
      ⟨.paraQuien, ["animal.target", "life.stage", "measure.animal_mass"]⟩,
      ⟨.queEs, ["care.type", "care.form", "care.device"]⟩,
      ⟨.formula, ["text.composition", "text.concentration", "text.clinical_analysis"]⟩,
      ⟨.medidas, dimensionCodes⟩,
      ⟨.contenidoEmpaque, packageCodes⟩,
      ⟨.uso, ["text.instructions", "text.manufacturer_care", "text.regulatory_warnings"]⟩]
  | _ => none

/-- The place of a definition in the sections of a family. -/
structure Place where
  sectionIndex : Nat
  definitionIndex : Nat
  sectionCode : SectionCode
  deriving DecidableEq, Repr

def placesOf (sections : List ProductionSection) : List (String × Place) :=
  sections.zipIdx.flatMap fun (row, s) =>
    row.definitionCodes.zipIdx.map fun (definitionCode, d) => (definitionCode, ⟨s, d, row.code⟩)

/-- The map that is filled section by section; a later place replaces an earlier one. -/
def placeOf (familyCode : Option String) (code : String) : Option Place :=
  ((familyCode.bind familySections).map placesOf).bind fun places => places.reverse.lookup code

/-! ### The vocabulary -/

inductive Exposure where
  | facet
  | detail
  | internal
  deriving DecidableEq, Repr

structure EditorialDefinition where
  code : String
  label : String
  type : String
  options : List (String × String)
  units : List (Option String × Option String)
  deriving DecidableEq, Repr

/-- A row of the global vocabulary. -/
structure EditorialBinding where
  familyCode : String
  definition : EditorialDefinition
  exposure : Exposure
  sortOrder : Int
  deriving DecidableEq, Repr

/-- A public binding of a family: a facet, or else a detail. -/
structure PublicVocabularyBinding where
  definitionCode : String
  label : String
  type : String
  isFacet : Bool
  sortOrder : Int
  options : List (String × String)
  units : List (String × Option String)
  deriving DecidableEq, Repr

abbrev PublicVocabulary := String → Option (String → Option PublicVocabularyBinding)

/-- The entry of a map that is filled from a list of pairs. -/
def mapGet? {α : Type} (entries : List (String × α)) (key : String) : Option α :=
  entries.reverse.lookup key

def EditorialBinding.toPublic (binding : EditorialBinding) : PublicVocabularyBinding where
  definitionCode := binding.definition.code
  label := binding.definition.label
  type := binding.definition.type
  isFacet := binding.exposure = .facet
  sortOrder := binding.sortOrder
  options := binding.definition.options
  units := binding.definition.units.filterMap fun (code, label) => code.map fun code => (code, label)

/-- `readEditorialPublicVocabularyV2`: internal bindings are not read. -/
def readEditorialPublicVocabulary (bindings : List EditorialBinding) (familyCodes : List String) :
    PublicVocabulary := fun familyCode =>
  let rows := bindings.filter fun binding =>
    binding.exposure ≠ .internal ∧ binding.familyCode ∈ familyCodes ∧
      binding.familyCode = familyCode
  if rows = [] then none
  else some (mapGet? (rows.map fun binding => (binding.definition.code, binding.toPublic)))

/-! ### The projection -/

structure CodeLabel where
  code : String
  label : String
  deriving DecidableEq, Repr

inductive PublicValue where
  | text (text : String)
  | boolean (value : Bool)
  | single (option : CodeLabel)
  | multi (options : List CodeLabel)
  | number (value : Rat) (unit : Option CodeLabel)
  | range (min max : Rat) (unit : CodeLabel)
  deriving DecidableEq, Repr

structure PublicAttribute where
  (code label : String)
  (facet : Bool)
  (section? : Option CodeLabel)
  (value : PublicValue)
  (display : String)
  deriving DecidableEq, Repr

structure PublicProjection where
  commercialTitle : Option String
  description : Option String
  attributes : List PublicAttribute
  variantAttributes : List (String × List PublicAttribute)
  deriving DecidableEq, Repr

def KnownPayload.type : KnownPayload → String
  | .text _ => "text"
  | .single _ => "single"
  | .boolean _ => "boolean"
  | .number _ _ => "number"
  | .multi _ => "multi"
  | .range _ _ _ => "range"

def unitOf (binding : PublicVocabularyBinding) (code : String) : Option CodeLabel :=
  (mapGet? binding.units code).map fun label => ⟨code, label.getD code⟩

def optionOf (binding : PublicVocabularyBinding) (code : String) : Option CodeLabel :=
  (mapGet? binding.options code).map fun label => ⟨code, label⟩

section

-- How JavaScript writes a number.
variable (numberText : Rat → String)

/-- The public value of a payload with its text. -/
def valueOf (binding : PublicVocabularyBinding) (payload : KnownPayload) :
    Option (PublicValue × String) :=
  if payload.type ≠ binding.type then none
  else
    match payload with
    | .text value => some (.text value, value)
    | .boolean value => some (.boolean value, if value then "Sí" else "No")
    | .single value => (optionOf binding value).map fun option => (.single option, option.label)
    | .multi value =>
        match value.filterMap (optionOf binding) with
        | [] => none
        | options => some (.multi options, ", ".intercalate (options.map (·.label)))
    | .number value none => some (.number value none, numberText value)
    | .number value (some unit) => (unitOf binding unit).map fun unit =>
        (.number value (some unit), numberText value ++ " " ++ unit.label)
    | .range min max unit => (unitOf binding unit).map fun unit =>
        (.range min max unit, numberText min ++ "–" ++ numberText max ++ " " ++ unit.label)

/-- An attribute with its rank and the variant it belongs to. -/
structure Ranked where
  variantId : Option String
  rank : Int × Int × Int
  shown : PublicAttribute
  deriving DecidableEq

/-- `Number.MAX_SAFE_INTEGER`, the rank of what has no place. -/
def maxSafeInteger : Int := 9007199254740991

def rankOf (binding : PublicVocabularyBinding) : Option Place → Int × Int × Int
  | some place => (place.sectionIndex, place.definitionIndex, binding.sortOrder)
  | none => (maxSafeInteger, binding.sortOrder, binding.sortOrder)

/-- A known payload under a binding of the family. -/
def rankPayload (familyCode : Option String) (family : String → Option PublicVocabularyBinding)
    (code : String) (variantId : Option String) (payload : KnownPayload) : Option Ranked := do
  let binding ← family code
  let (value, display) ← valueOf numberText binding payload
  let place := placeOf familyCode code
  return {
    variantId := variantId
    rank := rankOf binding place
    shown := {
      code := binding.definitionCode
      label := binding.label
      facet := binding.isFacet, section? := place.map fun place =>
        ⟨place.sectionCode.text, place.sectionCode.label⟩
      value := value
      display := display } }

def rankValue (vocabulary : PublicVocabulary) (familyCode : Option String) (value : Value) :
    Option Ranked :=
  match value.state with
  | .known payload _ => do
      let family ← familyCode.bind vocabulary
      rankPayload numberText familyCode family value.code value.variantId payload
  | .unknown | .notApplicable => none

/-- `a.rank[0] - b.rank[0] || a.rank[1] - b.rank[1] || a.rank[2] - b.rank[2]`, not positive. -/
def rankLe (a b : Ranked) : Bool :=
  a.rank.1 < b.rank.1 || (a.rank.1 = b.rank.1 &&
    (a.rank.2.1 < b.rank.2.1 || (a.rank.2.1 = b.rank.2.1 && a.rank.2.2 ≤ b.rank.2.2)))

/-- The entry of a map whose lists grow at their ends; keys stay where they were set first. -/
def pushAttribute (lists : List (String × List PublicAttribute)) (variantId : String)
    (shown : PublicAttribute) : List (String × List PublicAttribute) :=
  match lists with
  | [] => [(variantId, [shown])]
  | (id, list) :: rest =>
      if id = variantId then (id, list ++ [shown]) :: rest
      else (id, list) :: pushAttribute rest variantId shown

/-- The ranked attributes of the whole and of each variant. -/
def groupRanked (ranked : List Ranked) :
    List PublicAttribute × List (String × List PublicAttribute) :=
  ranked.foldl (fun (attributes, variants) item =>
    match item.variantId with
    | none => (attributes ++ [item.shown], variants)
    | some variantId => (attributes, pushAttribute variants variantId item.shown)) ([], [])

def projectDocument (vocabulary : PublicVocabulary) (parsed : DocumentShape) : PublicProjection :=
  let ranked := (parsed.values.filterMap
    (rankValue numberText vocabulary parsed.familyCode)).mergeSort rankLe
  let grouped := groupRanked ranked
  ⟨parsed.commercialTitle, parsed.description, grouped.1, grouped.2⟩

/-- `projectPublishedEditorialV2`. -/
def projectPublishedEditorial (vocabulary : PublicVocabulary) (document : JsonValue) :
    Shape PublicProjection := do
  let parsed ← parseDocumentShape document
  return projectDocument numberText vocabulary parsed

end

end Houndfe.CatalogEditorial
