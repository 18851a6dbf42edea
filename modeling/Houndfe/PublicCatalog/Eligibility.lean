import Houndfe.PublicCatalog.Requests

/-! What a read may show of a product depends on the product and on its own publication alone: each
scope that a read builds from the coverage of many products follows the standing of the one it is
asked about. -/

namespace Houndfe.PublicCatalog

open CatalogEditorial

theorem lookup_eq_some_iff {α : Type} {entries : List (String × α)}
    (hKeys : (entries.map Prod.fst).Nodup) {key : String} {value : α} :
    entries.lookup key = some value ↔ (key, value) ∈ entries := by
  induction entries with
  | nil => simp
  | cons entry rest ih =>
      obtain ⟨other, held⟩ := entry
      obtain ⟨hFirst, hRest⟩ := List.nodup_cons.mp hKeys
      rw [List.lookup_cons, List.mem_cons, Prod.mk.injEq]
      by_cases hSame : key = other
      · subst hSame
        have hNot : (key, value) ∉ rest := fun hMem =>
          hFirst (List.mem_map.mpr ⟨(key, value), hMem, rfl⟩)
        simp [hNot, eq_comm]
      · have hBeq : (key == other) = false := beq_false_of_ne hSame
        simp only [hBeq, hSame, false_and, false_or]
        exact ih hRest

theorem mapGet?_eq_some_iff {α : Type} {entries : List (String × α)}
    (hKeys : (entries.map Prod.fst).Nodup) {key : String} {value : α} :
    mapGet? entries key = some value ↔ (key, value) ∈ entries := by
  have hReverse : (entries.reverse.map Prod.fst).Nodup := by
    rw [List.map_reverse]
    exact List.nodup_reverse.mpr hKeys
  rw [mapGet?, lookup_eq_some_iff hReverse, List.mem_reverse]

/-! ### Standing -/

/-- How a product stands where a publication may be required: free of it, or under the coverage of
its own publication, if there is one. -/
inductive Standing where
  | free
  | under (own : Option PublishedCoverage)
  deriving DecidableEq, Repr

def Standing.isPresent : Standing → Bool
  | .free => true
  | .under own => own.isSome

def Standing.covers : Standing → Option String → Bool
  | .free, _ => true
  | .under own, subject => own.any (·.covers subject)

/-- The coverage of a publication that passes the test in the database. -/
def ProductRow.testedCoverage (product : ProductRow) : Option PublishedCoverage :=
  product.published.bind fun publication =>
    if publishedDocumentV2Sql publication.publishedDocument then some publication.coverage else none

/-- The coverage of a publication that is read whole. -/
def ProductRow.readCoverage (product : ProductRow) : Option PublishedCoverage :=
  product.published.bind readPublishedCoverage

def ResolvedPublicCatalogContext.standing (context : ResolvedPublicCatalogContext)
    (own : Option PublishedCoverage) : Standing :=
  if context.requiresPublishedEditorial then .under own else .free

/-- A scope treats a product and its variants as its standing says. -/
structure Follows (scope : Option EditorialScope) (product : ProductRow) (standing : Standing) :
    Prop where
  products : inScope scope product =
    (standing.isPresent && (product.hasVariants || standing.covers none))
  variants : ∀ variant ∈ product.variants.rows, ∀ tenantId,
    publicVariantWhere tenantId scope product.id variant =
      (variant.tenantId = tenantId && variant.catalogPublishMode ≠ .off &&
        standing.covers (some variant.id))

theorem follows_free (product : ProductRow) : Follows none product .free := by
  refine ⟨?_, fun variant _ tenantId => ?_⟩
  · simp [inScope, Standing.isPresent, Standing.covers]
  · simp [publicVariantWhere, Standing.covers]

/-- A coverage list records for a product what it owns, and no other entry names its variants. -/
structure Records (coverage : List (String × PublishedCoverage)) (product : ProductRow)
    (own : Option PublishedCoverage) : Prop where
  mem : ∀ covering, (product.id, covering) ∈ coverage ↔ own = some covering
  apart : ∀ entry ∈ coverage, entry.1 ≠ product.id → ∀ variant ∈ product.variants.rows,
    some variant.id ∉ entry.2.subjects.getD []

section

variable {coverage : List (String × PublishedCoverage)} {product : ProductRow}
  {own : Option PublishedCoverage}

theorem covers_eq (covering : PublishedCoverage) (subject : Option String) :
    covering.covers subject =
      (decide (covering.subjects = none) || decide (subject ∈ covering.subjects.getD [])) := by
  unfold PublishedCoverage.covers
  cases hSubjects : covering.subjects <;> simp

theorem Records.mem_fst (h : Records coverage product own)
    {p : String × PublishedCoverage → Bool} :
    product.id ∈ (coverage.filter p).map Prod.fst ↔ own.any (fun c => p (product.id, c)) = true := by
  rw [List.mem_map, Option.any_eq_true]
  constructor
  · rintro ⟨⟨id, covering⟩, hMem, rfl⟩
    obtain ⟨hIn, hHolds⟩ := List.mem_filter.mp hMem
    exact ⟨covering, (h.mem covering).mp hIn, hHolds⟩
  · rintro ⟨covering, hOwn, hHolds⟩
    exact ⟨(product.id, covering), List.mem_filter.mpr ⟨(h.mem covering).mpr hOwn, hHolds⟩, rfl⟩

theorem Records.covered (h : Records coverage product own) {variant : VariantRow}
    (hVariant : variant ∈ product.variants.rows) :
    variant.id ∈ coverage.flatMap (fun (_, c) => (c.subjects.getD []).filterMap id) ↔
      own.any (fun c => some variant.id ∈ c.subjects.getD []) = true := by
  rw [List.mem_flatMap, Option.any_eq_true]
  constructor
  · rintro ⟨⟨entryId, covering⟩, hMem, hIn⟩
    have hSubject : some variant.id ∈ covering.subjects.getD [] := by simpa using hIn
    have hId : entryId = product.id := by
      by_contra hOther
      exact h.apart _ hMem hOther variant hVariant hSubject
    subst hId
    exact ⟨covering, (h.mem covering).mp hMem, decide_eq_true hSubject⟩
  · rintro ⟨covering, hOwn, hIn⟩
    refine ⟨(product.id, covering), (h.mem covering).mpr hOwn, ?_⟩
    simpa using hIn

/-- The scope of a coverage list asks a product only for its own coverage. -/
theorem follows_editorialScope (h : Records coverage product own) :
    Follows (some (editorialScope coverage)) product (.under own) := by
  refine ⟨?_, fun variant hVariant tenantId => ?_⟩
  · have hSimple := h.mem_fst (p := fun (_, c) => c.covers none)
    have hKeys : product.id ∈ coverage.map Prod.fst ↔ own.isSome = true := by
      have hAll := h.mem_fst (p := fun _ => true)
      rw [List.filter_true] at hAll
      rw [hAll]
      cases own <;> simp
    simp only [inScope, editorialScope, hSimple, hKeys, Bool.decide_eq_true, Standing.isPresent,
      Standing.covers]
    cases own <;> cases product.hasVariants <;> simp
  · have hUnrecorded := h.mem_fst (p := fun (_, c) => c.subjects = none)
    have hCovered := h.covered hVariant
    simp only [publicVariantWhere, editorialScope, hUnrecorded, hCovered, Bool.decide_eq_true,
      Standing.covers]
    cases own with
    | none => simp
    | some covering => simp [covers_eq]

end

/-! ### Coverage of a tenant -/

section

variable {catalog : Catalog} {tenantId : String} {product : ProductRow}

theorem mem_publications {entry : String × Publication} :
    entry ∈ catalog.publications tenantId ↔
      ∃ product ∈ catalog.products.rows, product.tenantId = tenantId ∧
        product.published = some entry.2 ∧ product.id = entry.1 := by
  unfold Catalog.publications
  rw [List.mem_filterMap]
  constructor
  · rintro ⟨product, hMem, hEntry⟩
    obtain ⟨publication, hPublished, rfl⟩ := Option.map_eq_some_iff.mp hEntry
    obtain ⟨hIn, hTenant⟩ := List.mem_filter.mp hMem
    exact ⟨product, hIn, of_decide_eq_true hTenant, hPublished, rfl⟩
  · rintro ⟨product, hIn, hTenant, hPublished, hId⟩
    refine ⟨product, List.mem_filter.mpr ⟨hIn, decide_eq_true hTenant⟩, ?_⟩
    rw [hPublished, Option.map_some, hId]

theorem nodup_publications : ((catalog.publications tenantId).map Prod.fst).Nodup := by
  have hKeys := (List.filter_sublist (p := fun product : ProductRow =>
    decide (product.tenantId = tenantId)) (l := catalog.products.rows)).map ProductRow.id |>.nodup
      catalog.products.distinct
  refine Keyed.nodup_filterMap ?_ hKeys
  intro product entry hEntry
  obtain ⟨publication, _, rfl⟩ := Option.map_eq_some_iff.mp hEntry
  rfl

theorem mem_publications_of (hMem : product ∈ catalog.products.rows)
    (hTenant : product.tenantId = tenantId) {publication : Publication} :
    (product.id, publication) ∈ catalog.publications tenantId ↔
      product.published = some publication := by
  rw [mem_publications]
  constructor
  · rintro ⟨other, hOther, _, hPublished, hId⟩
    rw [← Keyed.Rows.eq_of_key hOther hMem hId]
    exact hPublished
  · intro hPublished
    exact ⟨product, hMem, hTenant, hPublished, rfl⟩

/-- What a reader keeps of each publication. -/
def keptOf {α : Type} (catalog : Catalog) (tenantId : String) (read : Publication → Option α) :
    List (String × α) :=
  (catalog.publications tenantId).filterMap fun (productId, publication) =>
    (read publication).map fun kept => (productId, kept)

theorem nodup_keptOf {α : Type} {read : Publication → Option α} :
    ((keptOf catalog tenantId read).map Prod.fst).Nodup := by
  refine Keyed.nodup_filterMap ?_ nodup_publications
  rintro ⟨productId, publication⟩ entry hEntry
  obtain ⟨kept, _, rfl⟩ := Option.map_eq_some_iff.mp hEntry
  rfl

theorem mem_keptOf {α : Type} {read : Publication → Option α}
    (hMem : product ∈ catalog.products.rows) (hTenant : product.tenantId = tenantId) {kept : α} :
    (product.id, kept) ∈ keptOf catalog tenantId read ↔
      product.published.bind read = some kept := by
  unfold keptOf
  rw [List.mem_filterMap]
  constructor
  · rintro ⟨⟨productId, publication⟩, hIn, hEntry⟩
    obtain ⟨value, hValue, hPair⟩ := Option.map_eq_some_iff.mp hEntry
    cases hPair
    rw [(mem_publications_of hMem hTenant).mp hIn, Option.bind_some, hValue]
  · intro hKept
    obtain ⟨publication, hPublished, hRead⟩ := Option.bind_eq_some_iff.mp hKept
    refine ⟨(product.id, publication), (mem_publications_of hMem hTenant).mpr hPublished, ?_⟩
    show (read publication).map (fun kept => (product.id, kept)) = _
    rw [hRead, Option.map_some]

theorem mapGet?_keptOf {α : Type} {read : Publication → Option α}
    (hMem : product ∈ catalog.products.rows) (hTenant : product.tenantId = tenantId) :
    mapGet? (keptOf catalog tenantId read) product.id = product.published.bind read := by
  apply Option.ext
  intro kept
  rw [mapGet?_eq_some_iff nodup_keptOf, mem_keptOf hMem hTenant]

/-- A coverage that keeps the recorded subjects names variants of its own product only. -/
theorem records_keptOf {read : Publication → Option PublishedCoverage}
    (hRead : ∀ publication covering, read publication = some covering →
      covering.subjects = publication.publishedSubjects)
    (hMem : product ∈ catalog.products.rows) (hTenant : product.tenantId = tenantId) :
    Records (keptOf catalog tenantId read) product (product.published.bind read) := by
  refine ⟨fun covering => mem_keptOf hMem hTenant, ?_⟩
  rintro ⟨otherId, covering⟩ hEntry hOther variant hVariant hSubject
  obtain ⟨⟨productId, publication⟩, hIn, hKept⟩ := List.mem_filterMap.mp hEntry
  obtain ⟨value, hValue, hPair⟩ := Option.map_eq_some_iff.mp hKept
  cases hPair
  obtain ⟨other, hOtherMem, _, hPublished, rfl⟩ := mem_publications.mp hIn
  apply catalog.ownSubjects other hOtherMem product hMem hOther variant hVariant
  rw [ProductRow.recordedSubjects, hPublished, Option.bind_some, ← hRead _ _ hValue]
  exact hSubject

end

/-! ### The scope of each read -/

section

variable {catalog : Catalog} {tenantId : String} {context : ResolvedPublicCatalogContext}
  {product : ProductRow} {sources : Option (List (String × FacetSource))}

/-- What the list keeps of a publication whose choices are readable. -/
def facetSource? (publication : Publication) : Option FacetSource :=
  (readFacetSource publication).toOption.join

theorem facetSource?_of_ok {publication : Publication} {source : Option FacetSource}
    (h : readFacetSource publication = .ok source) : facetSource? publication = source := by
  rw [facetSource?, h]
  rfl

/-- The choices of a publication can be read, unless the test turns it away first. -/
def ChoicesRead (publication : Publication) : Prop :=
  ∃ source, readFacetSource publication = .ok source

/-- The list can read the choices of every publication of the tenant. -/
def Catalog.choicesRead (catalog : Catalog) (tenantId : String) : Prop :=
  ∀ entry ∈ catalog.publications tenantId, ChoicesRead entry.2

theorem readTenantFacetSources_of_read (h : catalog.choicesRead tenantId) :
    readTenantFacetSources catalog tenantId = .ok (keptOf catalog tenantId facetSource?) := by
  have hEach : ∀ entry ∈ catalog.publications tenantId, (do
      let source ← readFacetSource entry.2
      return source.map fun source => (entry.1, source) :
        Except FacetSourceError (Option (String × FacetSource))) =
      .ok ((facetSource? entry.2).map fun source => (entry.1, source)) := by
    intro entry hEntry
    obtain ⟨source, hSource⟩ := h entry hEntry
    rw [facetSource?_of_ok hSource]
    exact bind_eq_ok.mpr ⟨source, hSource, rfl⟩
  have hRows := Traverse.mapM_eq_ok_map hEach
  refine bind_eq_ok.mpr ⟨_, hRows, ?_⟩
  rw [List.filterMap_map, Function.id_comp]
  rfl

theorem choicesRead_of_ok {kept : List (String × FacetSource)}
    (h : readTenantFacetSources catalog tenantId = .ok kept) : catalog.choicesRead tenantId := by
  unfold readTenantFacetSources at h
  obtain ⟨rows, hRows, _⟩ := bind_eq_ok.mp h
  intro entry hEntry
  obtain ⟨row, hRow⟩ := Traverse.mapM_isOk_iff.mp ⟨rows, hRows⟩ entry hEntry
  obtain ⟨source, hSource, _⟩ := bind_eq_ok.mp hRow
  exact ⟨source, hSource⟩

theorem readSources_eq_ok : readSources catalog tenantId context = .ok sources ↔
    (context.requiresPublishedEditorial = false ∧ sources = none) ∨
      (context.requiresPublishedEditorial = true ∧ catalog.choicesRead tenantId ∧
        sources = some (keptOf catalog tenantId facetSource?)) := by
  unfold readSources
  cases hRequired : context.requiresPublishedEditorial with
  | false => simp [eq_comm]
  | true =>
      rw [if_pos rfl]
      constructor
      · intro h
        refine Or.inr ⟨rfl, ?_⟩
        cases hRead : readTenantFacetSources catalog tenantId with
        | error error => rw [hRead] at h; cases h
        | ok kept =>
            have hChoices := choicesRead_of_ok hRead
            rw [readTenantFacetSources_of_read hChoices] at h
            cases h
            exact ⟨hChoices, rfl⟩
      · rintro (⟨hNot, _⟩ | ⟨_, hChoices, rfl⟩)
        · cases hNot
        · rw [readTenantFacetSources_of_read hChoices]

theorem facetSource?_eq_some {publication : Publication} {source : FacetSource}
    (h : facetSource? publication = some source) :
    publishedDocumentV2Sql publication.publishedDocument = true ∧
      source.coverage = publication.coverage := by
  have hRead : readFacetSource publication = .ok (some source) := by
    unfold facetSource? at h
    cases hResult : readFacetSource publication with
    | error error => rw [hResult] at h; cases h
    | ok kept => rw [hResult] at h; exact congrArg Except.ok h
  unfold readFacetSource at hRead
  split at hRead
  · next hTest =>
      obtain ⟨choices, _, hSome⟩ := bind_eq_ok.mp hRead
      cases hSome
      exact ⟨hTest, rfl⟩
  · cases hRead

theorem coverage_facetSource? {publication : Publication} (h : ChoicesRead publication) :
    (facetSource? publication).map (·.coverage) =
      if publishedDocumentV2Sql publication.publishedDocument then some publication.coverage
      else none := by
  obtain ⟨source, hSource⟩ := h
  rw [facetSource?_of_ok hSource]
  unfold readFacetSource at hSource
  split at hSource
  · next hTest =>
      obtain ⟨choices, _, hSome⟩ := bind_eq_ok.mp hSource
      cases hSome
      rw [if_pos hTest, Option.map_some]
  · next hTest =>
      cases hSource
      rw [if_neg hTest, Option.map_none]

theorem scopeOfSources_keptOf : scopeOfSources (keptOf catalog tenantId facetSource?) =
    editorialScope (keptOf catalog tenantId fun publication =>
      (facetSource? publication).map (·.coverage)) := by
  unfold scopeOfSources keptOf
  rw [List.map_filterMap]
  congr 1
  apply List.filterMap_congr
  rintro ⟨productId, publication⟩ _
  simp [Option.map_map, Function.comp_def]

/-- The list goes by the publications that pass the test in the database. -/
theorem follows_list (hSources : readSources catalog tenantId context = .ok sources)
    (hMem : product ∈ catalog.products.rows) (hTenant : product.tenantId = tenantId) :
    Follows (sources.map scopeOfSources) product (context.standing product.testedCoverage) := by
  unfold ResolvedPublicCatalogContext.standing
  rcases readSources_eq_ok.mp hSources with ⟨hFree, rfl⟩ | ⟨hRequired, hChoices, rfl⟩
  · rw [hFree]
    exact follows_free product
  · rw [hRequired, if_pos rfl, Option.map_some, scopeOfSources_keptOf]
    have hOwn : product.published.bind (fun publication =>
        (facetSource? publication).map (·.coverage)) = product.testedCoverage := by
      unfold ProductRow.testedCoverage
      cases hPublished : product.published with
      | none => rfl
      | some publication =>
          have hIn := (mem_publications_of hMem hTenant).mpr hPublished
          rw [Option.bind_some, Option.bind_some, coverage_facetSource? (hChoices _ hIn)]
    rw [← hOwn]
    apply follows_editorialScope
    apply records_keptOf _ hMem hTenant
    intro publication covering hCovering
    obtain ⟨source, hSource, rfl⟩ := Option.map_eq_some_iff.mp hCovering
    rw [(facetSource?_eq_some hSource).2]
    rfl

theorem follows_own {own : PublishedCoverage} :
    Follows (some (editorialScope [(product.id, own)])) product (.under (some own)) := by
  apply follows_editorialScope
  refine ⟨fun covering => ?_, ?_⟩
  · simp [eq_comm]
  · rintro entry hEntry hOther
    rw [List.mem_singleton.mp hEntry] at hOther
    exact absurd rfl hOther

/-- The detail and the cart go by the publications that are read whole. -/
theorem mapGet?_readPublishedCoverages {productIds : List String}
    (hMem : product ∈ catalog.products.rows) (hTenant : product.tenantId = tenantId)
    (hAsked : product.id ∈ productIds) :
    mapGet? (readPublishedCoverages catalog tenantId productIds) product.id =
      product.readCoverage := by
  have hKeys : ((readPublishedCoverages catalog tenantId productIds).map Prod.fst).Nodup := by
    refine Keyed.nodup_filterMap ?_ nodup_publications
    rintro ⟨productId, publication⟩ entry hEntry
    dsimp only at hEntry
    split at hEntry
    · obtain ⟨kept, _, rfl⟩ := Option.map_eq_some_iff.mp hEntry
      rfl
    · cases hEntry
  apply Option.ext
  intro covering
  rw [mapGet?_eq_some_iff hKeys]
  have hKept : (product.id, covering) ∈ keptOf catalog tenantId readPublishedCoverage ↔
      product.published.bind readPublishedCoverage = some covering := mem_keptOf hMem hTenant
  rw [ProductRow.readCoverage, ← hKept, readPublishedCoverages, keptOf, List.mem_filterMap,
    List.mem_filterMap]
  constructor
  · rintro ⟨entry, hIn, hEntry⟩
    dsimp only at hEntry
    split at hEntry
    · exact ⟨entry, hIn, hEntry⟩
    · cases hEntry
  · rintro ⟨entry, hIn, hEntry⟩
    obtain ⟨kept, hRead, hPair⟩ := Option.map_eq_some_iff.mp hEntry
    have hId : entry.1 = product.id := congrArg Prod.fst hPair
    refine ⟨entry, hIn, ?_⟩
    show (if entry.1 ∈ productIds then _ else none) = _
    rw [if_pos (hId ▸ hAsked)]
    exact hEntry

end

end Houndfe.PublicCatalog
