import Houndfe.Base.Traverse
import Houndfe.CatalogEditorial.PublicProjection
import Houndfe.Shared.DomainError

/-! How the public readers read publications: the test that runs in the database, the coverage of a
publication, and the choices that the attribute facets count. The test is no stricter than the
decoder. -/

namespace Houndfe.CatalogEditorial

/-! ### The test in the database -/

/-- `COALESCE(jsonb_typeof(…), '')`. -/
def jsonbTypeof : Option JsonValue → String
  | none => ""
  | some .null => "null"
  | some (.bool _) => "boolean"
  | some (.number _) => "number"
  | some (.string _) => "string"
  | some (.array _) => "array"
  | some (.object _) => "object"

/-- What `->>` gives, as far as it is compared with tokens: no other value reads as one. -/
def tokenOf (input : Option JsonValue) : Option String :=
  input.bind JsonValue.string?

/-- `count(*)` of `jsonb_object_keys`. -/
def keyCount : JsonValue → Nat
  | .object entries => entries.length
  | .null | .bool _ | .number _ | .string _ | .array _ => 0

def JsonValue.items : JsonValue → List JsonValue
  | .array items => items
  | .null | .bool _ | .number _ | .string _ | .object _ => []

def isTwo : Option JsonValue → Bool
  | some (.number value) => value = 2
  | _ => false

def isJsonNull : Option JsonValue → Bool
  | some value => value.isNull
  | none => false

/-- The key set of a value element by its state. -/
def stateV2Sql (v : JsonValue) : Bool :=
  match tokenOf (v.get? "state") with
  | some "known" =>
      keyCount v = 6 && jsonbTypeof (v.get? "payload") = "object" &&
        (jsonbTypeof (v.get? "evidence") = "object" || jsonbTypeof (v.get? "evidence") = "null")
  | some "unknown" => keyCount v = 5 && isJsonNull (v.get? "evidence")
  | some "not_applicable" => keyCount v = 5 && isJsonNull (v.get? "evidence")
  | _ => false

/-- The type of a nullable text. -/
def isNullableText (input : Option JsonValue) : Bool :=
  jsonbTypeof input = "string" || jsonbTypeof input = "null"

/-- The test of a value element. -/
def valueV2Sql (v : JsonValue) : Bool :=
  jsonbTypeof (some v) = "object" && jsonbTypeof (v.get? "code") = "string" &&
    (tokenOf (v.get? "owner") = some "product" || tokenOf (v.get? "owner") = some "sellable") &&
    isNullableText (v.get? "variantId") && stateV2Sql v

/-- `publishedDocumentV2Sql`. -/
def publishedDocumentV2Sql (document : JsonValue) : Bool :=
  jsonbTypeof (some document) = "object" && jsonbTypeof (document.get? "values") = "array" &&
    jsonbTypeof (document.get? "facts") = "array" &&
    jsonbTypeof (document.get? "mediaRefs") = "array" &&
    isTwo (document.get? "schemaVersion") && keyCount document = 7 &&
    isNullableText (document.get? "commercialTitle") &&
    isNullableText (document.get? "description") && isNullableText (document.get? "familyCode") &&
    ((document.get? "mediaRefs").getD .null).items.all (fun m => jsonbTypeof (some m) = "string") &&
    ((document.get? "facts").getD .null).items.all (fun f => jsonbTypeof (some f) = "object") &&
    ((document.get? "values").getD .null).items.all valueV2Sql

/-! ### Coverage -/

/-- A current publication: its revision, the subjects that publishing recorded and its document.
Subjects are variants of the product, or `none` for its simple presentation. -/
structure Publication where
  publishedRevision : Int
  publishedSubjects : Option (List (Option String))
  publishedDocument : JsonValue

structure PublishedCoverage where
  publishedRevision : Int
  subjects : Option (List (Option String))
  deriving DecidableEq, Repr

def Publication.coverage (publication : Publication) : PublishedCoverage :=
  ⟨publication.publishedRevision, publication.publishedSubjects⟩

/-- `coversPublishedSubjectV2`, of a coverage that is there. -/
def PublishedCoverage.covers (coverage : PublishedCoverage) (variantId : Option String) : Bool :=
  match coverage.subjects with
  | none => true
  | some subjects => variantId ∈ subjects

/-- The coverage of a publication that is read whole: none where the document is not readable. -/
def readPublishedCoverage (publication : Publication) : Option PublishedCoverage :=
  match parseDocumentShape publication.publishedDocument with
  | .ok _ => some publication.coverage
  | .error _ => none

/-! ### Choices -/

structure FacetChoice where
  code : String
  variantId : Option String
  options : List String
  deriving DecidableEq, Repr

/-- The `TypeError` of the facet reader. -/
structure FacetSourceError where
  message : String
  deriving DecidableEq, Repr

def invalidFacetSource : FacetSourceError := ⟨"Expected published facet sources V2"⟩

/-- `typeof input === 'string'` for every element. -/
def allStrings? (items : List JsonValue) : Option (List String) :=
  items.mapM JsonValue.string?

/-- `choiceOf`. -/
def choiceOf (code variantId payload : Option JsonValue) : Except FacetSourceError FacetChoice :=
  match code, variantId, payload with
  | some (.string code), some variantId, some (.object entries) =>
      match (if variantId.isNull then some none else variantId.string?.map some) with
      | none => .error invalidFacetSource
      | some variantId =>
          match tokenOf (entries.lookup "type"), entries.lookup "value" with
          | some "single", some (.string value) => .ok ⟨code, variantId, [value]⟩
          | some "multi", some (.array items) =>
              match allStrings? items with
              | some options => .ok ⟨code, variantId, options⟩
              | none => .error invalidFacetSource
          | _, _ => .error invalidFacetSource
  | _, _, _ => .error invalidFacetSource

/-- The known choices, as the query selects them. -/
def isKnownChoice (v : JsonValue) : Bool :=
  tokenOf (v.get? "state") = some "known" &&
    (tokenOf ((v.get? "payload").bind (·.get? "type")) = some "single" ||
      tokenOf ((v.get? "payload").bind (·.get? "type")) = some "multi")

def readChoices (document : JsonValue) : Except FacetSourceError (List FacetChoice) :=
  (((document.get? "values").getD .null).items.filter isKnownChoice).mapM fun v =>
    choiceOf (v.get? "code") (v.get? "variantId") (v.get? "payload")

structure FacetSource where
  coverage : PublishedCoverage
  familyCode : Option String
  choices : List FacetChoice
  deriving DecidableEq, Repr

/-- A row of `readEditorialTenantPublishedFacetSourcesV2`: a document that fails the test counts as
not published, and choices that cannot be read fail the whole read. -/
def readFacetSource (publication : Publication) : Except FacetSourceError (Option FacetSource) :=
  if publishedDocumentV2Sql publication.publishedDocument then do
    let choices ← readChoices publication.publishedDocument
    return some ⟨publication.coverage, tokenOf (publication.publishedDocument.get? "familyCode"),
      choices⟩
  else .ok none

/-! ### The values of the facets -/

structure FacetDefinition where
  label : String
  options : List (String × String)
  deriving DecidableEq, Repr

structure PublicFacetVocabulary where
  definitions : List (String × FacetDefinition)
  byFamily : List (String × String)
  deriving DecidableEq, Repr

/-- `readEditorialPublicFacetVocabularyV2`: facets with a single or multiple choice. -/
def readEditorialPublicFacetVocabulary (bindings : List EditorialBinding) :
    PublicFacetVocabulary :=
  let rows := bindings.filter fun binding => binding.exposure = .facet ∧
    (binding.definition.type = "single" ∨ binding.definition.type = "multi")
  { definitions := rows.map fun binding =>
      (binding.definition.code, ⟨binding.definition.label, binding.definition.options⟩)
    byFamily := rows.map fun binding => (binding.familyCode, binding.definition.code) }

/-- The held options of each definition, in the order in which they were added. -/
abbrev FacetValues := List (String × List String)

/-- A set that keeps the order of its first additions. -/
def addAll (held added : List String) : List String :=
  added.foldl (fun held option => if option ∈ held then held else held ++ [option]) held

/-- The entry of a map of sets, extended. -/
def FacetValues.hold (values : FacetValues) (code : String) (options : List String) :
    FacetValues :=
  match values with
  | [] => [(code, addAll [] options)]
  | (other, held) :: rest =>
      if other = code then (other, addAll held options) :: rest
      else (other, held) :: FacetValues.hold rest code options

/-- The values of one subject of a document that are facets of its family. -/
def facetValuesOf (source : FacetSource) (vocabulary : PublicFacetVocabulary)
    (variantId : Option String) : FacetValues :=
  source.choices.foldl (fun values choice =>
    match source.familyCode, mapGet? vocabulary.definitions choice.code with
    | some familyCode, some definition =>
        let known := choice.options.filter fun option =>
          (mapGet? definition.options option).isSome
        if choice.variantId = variantId ∧ (familyCode, choice.code) ∈ vocabulary.byFamily ∧
            known ≠ [] then
          FacetValues.hold values choice.code known
        else values
    | _, _ => values) []

/-- `facetValuesBySubjectV2`: a variant has the values of the product too. -/
def facetValuesBySubject (source : FacetSource) (vocabulary : PublicFacetVocabulary) :
    Option String → FacetValues
  | none => facetValuesOf source vocabulary none
  | some variantId =>
      (facetValuesOf source vocabulary (some variantId)).foldl
        (fun values (code, options) => FacetValues.hold values code options)
        (facetValuesOf source vocabulary none)

end Houndfe.CatalogEditorial

/-! ### The test and the decoder

What the decoder accepts passes the test, and its choices can be read. -/

namespace Houndfe.CatalogEditorial

open Traverse

section

variable {α : Type} {invalid : ShapeError} {input : JsonValue}

theorem record_eq_ok {keys : List String} {data : String → JsonValue}
    (h : record invalid input keys = .ok data) :
    jsonbTypeof (some input) = "object" ∧ keyCount input = keys.length ∧
      ∀ key ∈ keys, input.get? key = some (data key) := by
  unfold record at h
  split at h
  · next entries =>
      split at h
      · next hKeys =>
          cases h
          refine ⟨rfl, hKeys.1, fun key hKey => ?_⟩
          obtain ⟨value, hValue⟩ := Option.isSome_iff_exists.mp (hKeys.2 key hKey)
          simp [JsonValue.get?, hValue]
      · cases h
  all_goals cases h

theorem text_eq_ok {value : String} (h : text invalid input = .ok value) : input = .string value := by
  unfold text at h
  split at h <;> cases h
  rfl

theorem nullableText_eq_ok {value : Option String} (h : nullableText invalid input = .ok value) :
    value = none ∧ input = .null ∨ ∃ text, value = some text ∧ input = .string text := by
  unfold nullableText at h
  split at h <;> cases h
  · exact Or.inl ⟨rfl, rfl⟩
  · exact Or.inr ⟨_, rfl, rfl⟩

theorem array_eq_ok {parse : JsonValue → Shape α} {values : List α}
    (h : array invalid parse input = .ok values) :
    ∃ items, input = .array items ∧ items.mapM parse = .ok values := by
  unfold array at h
  split at h
  · exact ⟨_, rfl, h⟩
  all_goals cases h

theorem isNull_eq_true (h : input.isNull = true) : input = .null := by
  cases input <;> first | rfl | cases h

theorem isNullableText_of_ok {value : Option String} (h : nullableText invalid input = .ok value) :
    isNullableText (some input) = true := by
  rcases nullableText_eq_ok h with ⟨_, rfl⟩ | ⟨_, _, rfl⟩ <;> rfl

end

section

variable {input : JsonValue}

theorem typeof_of_parseEvidence {evidence : Evidence} (h : parseEvidenceShape input = .ok evidence) :
    jsonbTypeof (some input) = "object" := by
  obtain ⟨data, hData, _⟩ := bind_eq_ok.mp h
  exact (record_eq_ok hData).1

/-- What the decoder of payloads accepts is an object with the type and the value of a choice
where it is one. -/
theorem parseKnownPayload_cases {payload : KnownPayload}
    (h : parseKnownPayloadShape input = .ok payload) :
    ∃ entries, input = .object entries ∧
      (tokenOf (entries.lookup "type") = some "single" →
        ∃ value, entries.lookup "value" = some (.string value)) ∧
      (tokenOf (entries.lookup "type") = some "multi" →
        ∃ items values, entries.lookup "value" = some (.array items) ∧
          items.mapM (text invalidPayload) = .ok values) := by
  unfold parseKnownPayloadShape at h
  cases input with
  | object entries =>
      refine ⟨entries, rfl, fun hSingle => ?_, fun hMulti => ?_⟩
      · rw [show (JsonValue.get? (.object entries) "type").bind JsonValue.string? = some "single"
          from hSingle] at h
        obtain ⟨data, hData, hRest⟩ := bind_eq_ok.mp h
        obtain ⟨value, hValue, _⟩ := bind_eq_ok.mp hRest
        have hGet := (record_eq_ok hData).2.2 "value" (by simp)
        rw [text_eq_ok hValue] at hGet
        exact ⟨value, hGet⟩
      · rw [show (JsonValue.get? (.object entries) "type").bind JsonValue.string? = some "multi"
          from hMulti] at h
        obtain ⟨data, hData, hRest⟩ := bind_eq_ok.mp h
        obtain ⟨values, hValues, _⟩ := bind_eq_ok.mp hRest
        obtain ⟨items, hItems, hTexts⟩ := array_eq_ok hValues
        have hGet := (record_eq_ok hData).2.2 "value" (by simp)
        rw [hItems] at hGet
        exact ⟨items, values, hGet, hTexts⟩
  | null => cases h
  | bool value => cases h
  | number value => cases h
  | string value => cases h
  | array items => cases h

theorem parseOwner_eq_ok {owner : Owner} (h : parseOwner input = .ok owner) :
    tokenOf (some input) = some "product" ∨ tokenOf (some input) = some "sellable" := by
  unfold parseOwner at h
  split at h
  · next hProduct => exact Or.inl hProduct
  · next hSellable => exact Or.inr hSellable
  · cases h

theorem valueV2Sql_of_fields {keys : List String} {data : String → JsonValue} {code : String}
    {owner : Owner} {variantId : Option String} (hData : record invalidValue input keys = .ok data)
    (hKeys : valueKeys ⊆ keys) (hCode : text invalidValue (data "code") = .ok code)
    (hOwner : parseOwner (data "owner") = .ok owner)
    (hVariant : nullableText invalidValue (data "variantId") = .ok variantId)
    (hState : stateV2Sql input = true) : valueV2Sql input = true := by
  obtain ⟨hObject, _, hGet⟩ := record_eq_ok hData
  have hField : ∀ key ∈ valueKeys, input.get? key = some (data key) := fun key hKey =>
    hGet key (hKeys hKey)
  rw [valueV2Sql, hObject, hField "code" (by simp [valueKeys]), hField "owner" (by simp [valueKeys]),
    hField "variantId" (by simp [valueKeys]), isNullableText_of_ok hVariant, text_eq_ok hCode, hState]
  rcases parseOwner_eq_ok hOwner with hProduct | hSellable
  · simp [jsonbTypeof, hProduct]
  · simp [jsonbTypeof, hSellable]

theorem valueV2Sql_of_parseMarker {state : ValueState} {value : Value}
    (hToken : tokenOf (input.get? "state") = some "unknown" ∨
      tokenOf (input.get? "state") = some "not_applicable")
    (h : parseMarker state input = .ok value) : valueV2Sql input = true := by
  simp only [parseMarker, bind_eq_ok] at h
  obtain ⟨data, hData, code, hCode, owner, hOwner, variantId, hVariant, hEvidence⟩ := h
  obtain ⟨_, hCount, hGet⟩ := record_eq_ok hData
  refine valueV2Sql_of_fields hData (List.Subset.refl _) hCode hOwner hVariant ?_
  split at hEvidence
  · next hNull =>
      have hJson : isJsonNull (input.get? "evidence") = true := by
        rw [hGet "evidence" (by simp [valueKeys])]
        exact hNull
      have hFive : keyCount input = 5 := hCount
      rcases hToken with hToken | hToken <;> simp [stateV2Sql, hToken, hFive, hJson]
  · cases hEvidence

theorem valueV2Sql_of_parse {value : Value} (h : parseValueShape input = .ok value) :
    valueV2Sql input = true := by
  unfold parseValueShape at h
  split at h
  · next hToken =>
      simp only [bind_eq_ok] at h
      obtain ⟨data, hData, code, hCode, owner, hOwner, variantId, hVariant, payload, hPayload,
        evidence, hEvidence, _⟩ := h
      obtain ⟨_, hCount, hGet⟩ := record_eq_ok hData
      refine valueV2Sql_of_fields hData (List.subset_append_left _ _) hCode hOwner hVariant ?_
      obtain ⟨entries, hEntries, _⟩ := parseKnownPayload_cases hPayload
      have hSix : keyCount input = 6 := hCount
      have hEvidenceType : jsonbTypeof (some (data "evidence")) = "object" ∨
          jsonbTypeof (some (data "evidence")) = "null" := by
        unfold nullable at hEvidence
        split at hEvidence
        · next hNull =>
            rw [isNull_eq_true hNull]
            exact Or.inr rfl
        · cases hParsed : parseEvidenceShape (data "evidence") with
          | ok parsed => exact Or.inl (typeof_of_parseEvidence hParsed)
          | error error =>
              rw [hParsed] at hEvidence
              cases hEvidence
      have hPayloadType : jsonbTypeof (input.get? "payload") = "object" := by
        rw [hGet "payload" (by simp), hEntries]
        rfl
      have hKnown : tokenOf (input.get? "state") = some "known" := hToken
      rw [← hGet "evidence" (by simp [valueKeys])] at hEvidenceType
      simp [stateV2Sql, hKnown, hSix, hPayloadType, hEvidenceType]
  · next hToken => exact valueV2Sql_of_parseMarker (Or.inl hToken) h
  · next hToken => exact valueV2Sql_of_parseMarker (Or.inr hToken) h
  · cases h

/-! ### The whole document -/

theorem typeof_of_parseFacts {facts : SellableFacts} (h : parseSellableFactsShape input = .ok facts) :
    jsonbTypeof (some input) = "object" := by
  obtain ⟨data, hData, _⟩ := bind_eq_ok.mp h
  exact (record_eq_ok hData).1

theorem all_of_array {α : Type} {invalid : ShapeError} {parse : JsonValue → Shape α}
    {values : List α} (test : JsonValue → Bool) (h : array invalid parse input = .ok values)
    (hTest : ∀ item value, parse item = .ok value → test item = true) :
    jsonbTypeof (some input) = "array" ∧ input.items.all test = true := by
  obtain ⟨items, rfl, hItems⟩ := array_eq_ok h
  refine ⟨rfl, List.all_eq_true.mpr fun item hItem => ?_⟩
  obtain ⟨value, _, hValue⟩ := mem_of_mapM hItems hItem
  exact hTest item value hValue

theorem isTwo_of_parse {u : Unit} (h : parseSchemaVersion input = .ok u) :
    isTwo (some input) = true := by
  unfold parseSchemaVersion at h
  split at h
  · split at h
    · next hTwo => simp [isTwo, hTwo]
    · cases h
  all_goals cases h

/-- What the decoder accepts passes the test in the database. -/
theorem publishedDocumentV2Sql_of_parse {parsed : DocumentShape}
    (h : parseDocumentShape input = .ok parsed) : publishedDocumentV2Sql input = true := by
  simp only [parseDocumentShape, bind_eq_ok] at h
  obtain ⟨data, hData, _, hVersion, title, hTitle, description, hDescription, family, hFamily,
    media, hMedia, values, hValues, facts, hFacts, _⟩ := h
  obtain ⟨hObject, hCount, hGet⟩ := record_eq_ok hData
  have hSeven : keyCount input = 7 := hCount
  obtain ⟨hMediaType, hMediaAll⟩ := all_of_array (fun m => jsonbTypeof (some m) = "string")
    hMedia fun item value hText => by simp [text_eq_ok hText, jsonbTypeof]
  obtain ⟨hValuesType, hValuesAll⟩ := all_of_array valueV2Sql hValues fun _ _ => valueV2Sql_of_parse
  obtain ⟨hFactsType, hFactsAll⟩ := all_of_array (fun f => jsonbTypeof (some f) = "object")
    hFacts fun item value hFact => by simp [typeof_of_parseFacts hFact]
  have hField : ∀ key ∈ documentKeys, input.get? key = some (data key) := hGet
  rw [publishedDocumentV2Sql, hObject, hSeven, hField "values" (by simp [documentKeys]),
    hField "facts" (by simp [documentKeys]), hField "mediaRefs" (by simp [documentKeys]),
    hField "schemaVersion" (by simp [documentKeys]),
    hField "commercialTitle" (by simp [documentKeys]),
    hField "description" (by simp [documentKeys]), hField "familyCode" (by simp [documentKeys]),
    hValuesType, hFactsType, hMediaType, isTwo_of_parse hVersion, isNullableText_of_ok hTitle,
    isNullableText_of_ok hDescription, isNullableText_of_ok hFamily]
  simp only [Option.getD_some, hMediaAll, hFactsAll, hValuesAll]
  rfl

theorem allStrings?_of_texts {invalid : ShapeError} {items : List JsonValue} {values : List String}
    (h : items.mapM (text invalid) = .ok values) : allStrings? items = some values := by
  induction items generalizing values with
  | nil =>
      cases h
      rfl
  | cons item rest ih =>
      obtain ⟨value, tail, hText, hRest, rfl⟩ := mapM_cons_eq_ok.mp h
      have hTail := ih hRest
      unfold allStrings? at hTail ⊢
      rw [List.mapM_cons, text_eq_ok hText, hTail]
      rfl

theorem choiceOf_of_parse {value : Value} (h : parseValueShape input = .ok value)
    (hChoice : isKnownChoice input = true) : ∃ choice,
      choiceOf (input.get? "code") (input.get? "variantId") (input.get? "payload") = .ok choice := by
  simp only [isKnownChoice, Bool.and_eq_true, Bool.or_eq_true, decide_eq_true_eq] at hChoice
  obtain ⟨hState, hType⟩ := hChoice
  rw [parseValueShape, show (input.get? "state").bind JsonValue.string? = some "known" from hState]
    at h
  simp only [bind_eq_ok] at h
  obtain ⟨data, hData, code, hCode, owner, hOwner, variantId, hVariant, payload, hPayload, _⟩ := h
  obtain ⟨_, _, hGet⟩ := record_eq_ok hData
  obtain ⟨entries, hEntries, hSingle, hMulti⟩ := parseKnownPayload_cases hPayload
  have hPayloadGet : input.get? "payload" = some (.object entries) := by
    rw [hGet "payload" (by simp), hEntries]
  have hVariantId : ∃ id, (if (data "variantId").isNull then some none
      else (data "variantId").string?.map some) = some id := by
    rcases nullableText_eq_ok hVariant with ⟨_, hNull⟩ | ⟨text, _, hText⟩
    · exact ⟨none, by rw [hNull]; rfl⟩
    · exact ⟨some text, by rw [hText]; rfl⟩
  obtain ⟨id, hId⟩ := hVariantId
  rw [hPayloadGet] at hType ⊢
  rw [hGet "code" (by simp [valueKeys]), hGet "variantId" (by simp [valueKeys]), text_eq_ok hCode]
  simp only [choiceOf, hId]
  rcases hType with hToken | hToken
  · have hToken : tokenOf (entries.lookup "type") = some "single" := hToken
    obtain ⟨chosen, hChosen⟩ := hSingle hToken
    rw [hToken, hChosen]
    exact ⟨_, rfl⟩
  · have hToken : tokenOf (entries.lookup "type") = some "multi" := hToken
    obtain ⟨items, values, hItems, hTexts⟩ := hMulti hToken
    rw [hToken, hItems]
    simp only [allStrings?_of_texts hTexts]
    exact ⟨_, rfl⟩

theorem readChoices_of_parse {parsed : DocumentShape} (h : parseDocumentShape input = .ok parsed) :
    ∃ choices, readChoices input = .ok choices := by
  simp only [parseDocumentShape, bind_eq_ok] at h
  obtain ⟨data, hData, _, _, _, _, _, _, _, _, _, _, values, hValues, _⟩ := h
  obtain ⟨_, _, hGet⟩ := record_eq_ok hData
  obtain ⟨items, hItems, hParsed⟩ := array_eq_ok hValues
  rw [readChoices, hGet "values" (by simp [documentKeys]), Option.getD_some, hItems]
  apply mapM_isOk_iff.mpr
  intro item hItem
  obtain ⟨hMem, hChoice⟩ := List.mem_filter.mp hItem
  obtain ⟨value, _, hValue⟩ := mem_of_mapM hParsed hMem
  exact choiceOf_of_parse hValue hChoice

end

end Houndfe.CatalogEditorial
