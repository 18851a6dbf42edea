import Houndfe.CatalogEditorial.PublicProjection
import Mathlib.Data.List.Induction

/-! What the public projection depends on: the title, the description, the family and the known
values of public bindings in their order. Nothing else of a document can be told from it. -/

namespace Houndfe.CatalogEditorial

/-- The binding that the public vocabulary has for a code in the selected family. -/
def publicBinding (vocabulary : PublicVocabulary) (familyCode : Option String) (code : String) :
    Option PublicVocabularyBinding :=
  (familyCode.bind vocabulary).bind fun family => family code

/-- A value that is known: its code, its variant and its payload. -/
structure KnownValue where
  code : String
  variantId : Option String
  payload : KnownPayload
  deriving DecidableEq, Repr

def Value.known? (value : Value) : Option KnownValue :=
  match value.state with
  | .known payload _ => some ⟨value.code, value.variantId, payload⟩
  | .unknown | .notApplicable => none

/-- The known values of the public bindings, in their order. -/
def DocumentShape.knownPublic (vocabulary : PublicVocabulary) (document : DocumentShape) :
    List KnownValue :=
  (document.values.filterMap Value.known?).filter fun known =>
    (publicBinding vocabulary document.familyCode known.code).isSome

section

variable {numberText : Rat → String} {vocabulary : PublicVocabulary}

/-- What a known value is ranked as. -/
def rankKnown (numberText : Rat → String) (vocabulary : PublicVocabulary)
    (familyCode : Option String) (known : KnownValue) : Option Ranked :=
  (familyCode.bind vocabulary).bind fun family =>
    rankPayload numberText familyCode family known.code known.variantId known.payload

theorem rankValue_eq (familyCode : Option String) (value : Value) :
    rankValue numberText vocabulary familyCode value =
      value.known?.bind (rankKnown numberText vocabulary familyCode) := by
  cases hState : value.state with
  | known payload evidence => simp [rankValue, Value.known?, hState, rankKnown]
  | unknown => simp [rankValue, Value.known?, hState]
  | notApplicable => simp [rankValue, Value.known?, hState]

/-- What is ranked has a public binding, with whose value it is shown. -/
theorem rankKnown_eq_some {familyCode : Option String} {known : KnownValue} {item : Ranked}
    (h : rankKnown numberText vocabulary familyCode known = some item) :
    ∃ binding, publicBinding vocabulary familyCode known.code = some binding ∧
      item.variantId = known.variantId ∧ item.shown.code = binding.definitionCode ∧
        valueOf numberText binding known.payload = some (item.shown.value, item.shown.display) := by
  obtain ⟨family, hFamily, hRank⟩ := Option.bind_eq_some_iff.mp h
  obtain ⟨binding, hBinding, hRest⟩ := Option.bind_eq_some_iff.mp hRank
  obtain ⟨shown, hShown, hItem⟩ := Option.bind_eq_some_iff.mp hRest
  cases hItem
  refine ⟨binding, ?_, rfl, rfl, hShown⟩
  rw [publicBinding, hFamily, Option.bind_some, hBinding]

/-- The values without a public binding leave no trace among the ranked. -/
theorem ranked_eq (document : DocumentShape) :
    document.values.filterMap (rankValue numberText vocabulary document.familyCode) =
      (document.knownPublic vocabulary).filterMap
        (rankKnown numberText vocabulary document.familyCode) := by
  have hValue : rankValue numberText vocabulary document.familyCode = fun value =>
      value.known?.bind (rankKnown numberText vocabulary document.familyCode) :=
    funext (rankValue_eq document.familyCode)
  rw [hValue, ← List.filterMap_filterMap, DocumentShape.knownPublic, List.filterMap_filter]
  refine List.filterMap_congr fun known _ => ?_
  split
  · rfl
  · next hNone =>
      cases hRank : rankKnown numberText vocabulary document.familyCode known with
      | none => rfl
      | some item =>
          obtain ⟨binding, hBinding, _⟩ := rankKnown_eq_some hRank
          rw [hBinding] at hNone
          exact absurd rfl hNone

theorem projectDocument_congr {first second : DocumentShape}
    (hTitle : first.commercialTitle = second.commercialTitle)
    (hDescription : first.description = second.description)
    (hFamily : first.familyCode = second.familyCode)
    (hKnown : first.knownPublic vocabulary = second.knownPublic vocabulary) :
    projectDocument numberText vocabulary first = projectDocument numberText vocabulary second := by
  have hRanked : first.values.filterMap (rankValue numberText vocabulary first.familyCode) =
      second.values.filterMap (rankValue numberText vocabulary second.familyCode) := by
    rw [ranked_eq, ranked_eq, hKnown, hFamily]
  rw [projectDocument, projectDocument, hRanked, hTitle, hDescription]

/-! ### Where the attributes come from -/

theorem mem_pushAttribute {lists : List (String × List PublicAttribute)} {variantId id : String}
    {shown other : PublicAttribute} {list : List PublicAttribute}
    (h : (id, list) ∈ pushAttribute lists variantId shown) (hMem : other ∈ list) :
    id = variantId ∧ other = shown ∨ ∃ old, (id, old) ∈ lists ∧ other ∈ old := by
  induction lists with
  | nil =>
      cases List.mem_singleton.mp h
      exact Or.inl ⟨rfl, List.mem_singleton.mp hMem⟩
  | cons entry rest ih =>
      obtain ⟨key, old⟩ := entry
      rw [pushAttribute] at h
      split at h
      · next hKey =>
          rcases List.mem_cons.mp h with hHead | hRest
          · cases hHead
            rcases List.mem_append.mp hMem with hOld | hNew
            · exact Or.inr ⟨old, List.mem_cons_self, hOld⟩
            · exact Or.inl ⟨hKey, List.mem_singleton.mp hNew⟩
          · exact Or.inr ⟨list, List.mem_cons_of_mem _ hRest, hMem⟩
      · rcases List.mem_cons.mp h with hHead | hRest
        · obtain ⟨rfl, rfl⟩ := Prod.mk.inj hHead
          exact Or.inr ⟨list, List.mem_cons_self, hMem⟩
        · rcases ih hRest with hNew | ⟨found, hFound, hOther⟩
          · exact Or.inl hNew
          · exact Or.inr ⟨found, List.mem_cons_of_mem _ hFound, hOther⟩

theorem groupRanked_append (ranked : List Ranked) (item : Ranked) :
    groupRanked (ranked ++ [item]) =
      match item.variantId with
      | none => ((groupRanked ranked).1 ++ [item.shown], (groupRanked ranked).2)
      | some variantId =>
          ((groupRanked ranked).1, pushAttribute (groupRanked ranked).2 variantId item.shown) := by
  rw [groupRanked, List.foldl_append]
  rfl

theorem mem_groupRanked_fst {ranked : List Ranked} {shown : PublicAttribute}
    (h : shown ∈ (groupRanked ranked).1) :
    ∃ item ∈ ranked, item.variantId = none ∧ item.shown = shown := by
  induction ranked using List.reverseRecOn with
  | nil => cases h
  | append_singleton rest item ih =>
      have hOld : shown ∈ (groupRanked rest).1 →
          ∃ found ∈ rest ++ [item], found.variantId = none ∧ found.shown = shown := by
        intro hRest
        obtain ⟨found, hFound, hShown⟩ := ih hRest
        exact ⟨found, List.mem_append_left _ hFound, hShown⟩
      rw [groupRanked_append] at h
      cases hVariant : item.variantId with
      | none =>
          rw [hVariant] at h
          rcases List.mem_append.mp h with hRest | hNew
          · exact hOld hRest
          · exact ⟨item, by simp, hVariant, (List.mem_singleton.mp hNew).symm⟩
      | some variantId =>
          rw [hVariant] at h
          exact hOld h

theorem mem_groupRanked_snd {ranked : List Ranked} {variantId : String}
    {list : List PublicAttribute} {shown : PublicAttribute}
    (h : (variantId, list) ∈ (groupRanked ranked).2) (hMem : shown ∈ list) :
    ∃ item ∈ ranked, item.variantId = some variantId ∧ item.shown = shown := by
  induction ranked using List.reverseRecOn generalizing list with
  | nil => cases h
  | append_singleton rest item ih =>
      have hOld : ∀ old, (variantId, old) ∈ (groupRanked rest).2 → shown ∈ old →
          ∃ found ∈ rest ++ [item], found.variantId = some variantId ∧ found.shown = shown := by
        intro old hList hShown
        obtain ⟨found, hFound, hFoundShown⟩ := ih hList hShown
        exact ⟨found, List.mem_append_left _ hFound, hFoundShown⟩
      rw [groupRanked_append] at h
      cases hVariant : item.variantId with
      | none =>
          rw [hVariant] at h
          exact hOld list h hMem
      | some id =>
          rw [hVariant] at h
          rcases mem_pushAttribute h hMem with ⟨rfl, rfl⟩ | ⟨old, hList, hShown⟩
          · exact ⟨item, by simp, hVariant, rfl⟩
          · exact hOld old hList hShown

end

/-- The attribute shows a known value of the document, with a public binding of its family. -/
def Shows (numberText : Rat → String) (vocabulary : PublicVocabulary) (document : DocumentShape)
    (variantId : Option String) (shown : PublicAttribute) : Prop :=
  ∃ value ∈ document.values, ∃ payload evidence binding,
    value.state = .known payload evidence ∧ value.variantId = variantId ∧
      publicBinding vocabulary document.familyCode value.code = some binding ∧
        shown.code = binding.definitionCode ∧
          valueOf numberText binding payload = some (shown.value, shown.display)

section

variable {numberText : Rat → String} {vocabulary : PublicVocabulary} {document : DocumentShape}
  {shown : PublicAttribute}

theorem shows_of_mem_ranked {item : Ranked} (h : item ∈ (document.values.filterMap
    (rankValue numberText vocabulary document.familyCode)).mergeSort rankLe) :
    Shows numberText vocabulary document item.variantId item.shown := by
  obtain ⟨value, hValue, hRank⟩ := List.mem_filterMap.mp (List.mem_mergeSort.mp h)
  rw [rankValue_eq] at hRank
  obtain ⟨known, hKnown, hItem⟩ := Option.bind_eq_some_iff.mp hRank
  obtain ⟨binding, hBinding, hVariant, hCode, hShown⟩ := rankKnown_eq_some hItem
  cases hState : value.state with
  | known payload evidence =>
      rw [Value.known?, hState] at hKnown
      cases hKnown
      exact ⟨value, hValue, payload, evidence, binding, hState, hVariant.symm, hBinding, hCode,
        hShown⟩
  | unknown =>
      rw [Value.known?, hState] at hKnown
      cases hKnown
  | notApplicable =>
      rw [Value.known?, hState] at hKnown
      cases hKnown

end

/-- Accepted documents that agree on what is public have one projection, and all that it shows are
known values of public bindings. -/
theorem internal_data_not_projected (numberText : Rat → String) (vocabulary : PublicVocabulary)
    (first second : JsonValue) (parsed parsed' : DocumentShape)
    (hFirst : parseDocumentShape first = .ok parsed)
    (hSecond : parseDocumentShape second = .ok parsed')
    (hTitle : parsed.commercialTitle = parsed'.commercialTitle)
    (hDescription : parsed.description = parsed'.description)
    (hFamily : parsed.familyCode = parsed'.familyCode)
    (hKnown : parsed.knownPublic vocabulary = parsed'.knownPublic vocabulary) :
    ∃ projection, projectPublishedEditorial numberText vocabulary first = .ok projection ∧
      projectPublishedEditorial numberText vocabulary second = .ok projection ∧
        (∀ shown ∈ projection.attributes, Shows numberText vocabulary parsed none shown) ∧
          ∀ entry ∈ projection.variantAttributes, ∀ shown ∈ entry.2,
            Shows numberText vocabulary parsed (some entry.1) shown := by
  refine ⟨projectDocument numberText vocabulary parsed, ?_, ?_, ?_, ?_⟩
  · rw [projectPublishedEditorial, hFirst]
    rfl
  · rw [projectPublishedEditorial, hSecond,
      projectDocument_congr hTitle hDescription hFamily hKnown]
    rfl
  · intro shown hShown
    obtain ⟨item, hItem, hVariant, rfl⟩ := mem_groupRanked_fst hShown
    rw [← hVariant]
    exact shows_of_mem_ranked hItem
  · rintro ⟨variantId, list⟩ hEntry shown hShown
    obtain ⟨item, hItem, hVariant, rfl⟩ := mem_groupRanked_snd hEntry hShown
    rw [← hVariant]
    exact shows_of_mem_ranked hItem

/-! ### Two documents of one public face -/

namespace InternalData

/-- A text value of the product. -/
def textValue (code value : String) (evidence : JsonValue) : JsonValue :=
  .object [("code", .string code), ("owner", .string "product"), ("variantId", .null),
    ("state", .string "known"), ("evidence", evidence),
    ("payload", .object [("type", .string "text"), ("value", .string value)])]

def document (values media : List JsonValue) : JsonValue :=
  .object [("schemaVersion", .number 2), ("commercialTitle", .string "Croquetas"),
    ("description", .null), ("mediaRefs", .array media), ("familyCode", .string "food"),
    ("values", .array values), ("facts", .array [])]

/-- Its evidence, its internal value and its media differ from those of the other. -/
def rich : JsonValue :=
  document [textValue "supplier.cost" "12.50" .null,
    textValue "text.ingredients" "Pollo" (.object [("sourceRef", .string "empaque"),
      ("verifiedOn", .string "2026-01-31")])] [.string "img-1"]

def plain : JsonValue :=
  document [textValue "text.ingredients" "Pollo" .null] []

def vocabulary : PublicVocabulary :=
  readEditorialPublicVocabulary [
    ⟨"food", ⟨"text.ingredients", "Ingredientes", "text", [], []⟩, .detail, 1⟩,
    ⟨"food", ⟨"supplier.cost", "Costo", "text", [], []⟩, .internal, 2⟩] ["food"]

end InternalData

open InternalData in
theorem internal_data_not_projected_of_rich :
    ∃ projection, projectPublishedEditorial (fun _ => "") vocabulary rich = .ok projection ∧
      projectPublishedEditorial (fun _ => "") vocabulary plain = .ok projection := by
  obtain ⟨projection, hRich, hPlain, _⟩ := internal_data_not_projected (fun _ => "") vocabulary rich
    plain _ _ rfl rfl rfl rfl rfl (by decide)
  exact ⟨projection, hRich, hPlain⟩

end Houndfe.CatalogEditorial
