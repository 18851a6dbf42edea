import Houndfe.Base.StableSort
import Houndfe.PublicCatalog.Eligibility

/-! Each public read in terms of the rows: the list filters the rows of a tenant, the detail and a
line of the cart are functions of one row. Catalogs whose rows correspond list alike. -/

namespace Houndfe.PublicCatalog

open CatalogEditorial

/-! ### What a standing shows and offers -/

section

variable (tenantId globalPriceListId : String) (standing : Standing)

def isShownVariant (variant : VariantRow) : Bool :=
  variant.tenantId = tenantId && variant.catalogPublishMode ≠ .off &&
    standing.covers (some variant.id)

/-- The publication gate: a simple product by itself, the others by one of their variants. -/
def isShown (product : ProductRow) : Bool :=
  product.tenantId = tenantId && product.includeInOnlineCatalog && product.type = .product &&
    standing.isPresent &&
    if product.hasVariants then product.variants.rows.any (isShownVariant tenantId standing)
    else standing.covers none

/-- The price gate, which a hidden price passes. -/
def isOffered (product : ProductRow) : Bool :=
  product.isEffectivelyPriceHidden ||
    (allowedIn tenantId globalPriceListId product &&
      (product.priceIn tenantId globalPriceListId).isSome &&
      (!product.hasVariants || product.variants.rows.any fun variant =>
        isShownVariant tenantId standing variant &&
          (variant.priceIn tenantId globalPriceListId).isSome))

/-- What the list counts and the detail answers, filters apart. -/
def isEligible (product : ProductRow) : Bool :=
  isShown tenantId standing product && isOffered tenantId globalPriceListId standing product

end

section

variable {runtime : Runtime} {tenantId globalPriceListId : String} {scope : Option EditorialScope}
  {product : ProductRow} {standing : Standing} {filters : ListProductsInput}

variable (tenantId) in
theorem any_publicVariantWhere (h : Follows scope product standing) (p : VariantRow → Bool) :
    product.variants.rows.any (fun variant =>
        publicVariantWhere tenantId scope product.id variant && p variant) =
      product.variants.rows.any fun variant => isShownVariant tenantId standing variant && p variant := by
  rw [Bool.eq_iff_iff, List.any_eq_true, List.any_eq_true]
  apply exists_congr
  intro variant
  apply and_congr_right
  intro hVariant
  rw [h.variants variant hVariant tenantId, isShownVariant]

theorem publicVariants_eq (h : Follows scope product standing) :
    publicVariants tenantId scope product =
      product.variants.rows.filter (isShownVariant tenantId standing) := by
  apply List.filter_congr
  intro variant hVariant
  rw [h.variants variant hVariant tenantId, isShownVariant]

theorem survivesForTenant_eq (h : Follows scope product standing) :
    survivesForTenant tenantId scope product =
      (!product.hasVariants || product.variants.rows.any (isShownVariant tenantId standing)) := by
  have hAny := any_publicVariantWhere tenantId h fun _ => true
  simp only [Bool.and_true] at hAny
  rw [survivesForTenant, hAny]

theorem survives_of_shown (h : product.variants.rows.any (isShownVariant tenantId standing) = true) :
    product.survives = true := by
  obtain ⟨variant, hVariant, hShown⟩ := List.any_eq_true.mp h
  have hOn : decide (variant.catalogPublishMode ≠ .off) = true := by
    unfold isShownVariant at hShown
    simp only [Bool.and_eq_true] at hShown
    exact hShown.1.2
  rw [ProductRow.survives, Bool.or_eq_true]
  exact Or.inr (List.any_eq_true.mpr ⟨variant, hVariant, hOn⟩)

/-- The gates of the list are the publication gate and the filters. -/
theorem baseWhere_eq (h : Follows scope product standing) :
    baseWhere runtime tenantId scope filters product =
      (isShown tenantId standing product &&
        matchesFilters runtime tenantId scope filters product) := by
  unfold baseWhere gatesWhere isShown
  rw [h.products, survivesForTenant_eq h]
  cases hVariants : product.hasVariants with
  | false =>
      simp only [ProductRow.survives, hVariants, Bool.not_false, Bool.true_or, Bool.false_or,
        Bool.true_and, Bool.and_assoc, if_neg Bool.false_ne_true]
  | true =>
      cases hAny : product.variants.rows.any (isShownVariant tenantId standing) with
      | false => simp
      | true =>
          simp only [survives_of_shown hAny, Bool.not_true, Bool.false_or, Bool.true_or,
            Bool.true_and, Bool.and_true, Bool.and_assoc, if_true]

theorem isSome_find?_map {α β : Type} {p : α → Bool} {f : α → β} {rows : List α} :
    ((rows.find? p).map f).isSome = rows.any p := by
  rw [Option.isSome_map, List.isSome_find?]

theorem offeredIn_eq (h : Follows scope product standing) :
    offeredIn tenantId globalPriceListId scope product =
      isOffered tenantId globalPriceListId standing product := by
  unfold offeredIn pricedIn isOffered
  rw [any_publicVariantWhere tenantId h]
  simp only [ProductRow.priceIn, VariantRow.priceIn, isSome_find?_map,
    ProductRow.isEffectivelyPriceHidden]
  cases product.hidePriceInOnlineCatalog <;> cases product.requiresPrescription <;>
    cases product.hasVariants <;> simp [Bool.and_assoc]

variable (tenantId globalPriceListId) in
theorem detailWhere_eq (h : Follows scope product standing) :
    detailWhere tenantId globalPriceListId product.id scope product =
      isEligible tenantId globalPriceListId standing product := by
  unfold detailWhere isEligible isShown
  rw [h.products, survivesForTenant_eq h, offeredIn_eq h]
  cases product.hasVariants <;> cases standing.isPresent <;> simp [Bool.and_assoc]

end

/-! ### The list -/

/-- Some subject of the candidate matches the whole selection, if there is one. -/
def facetsMatch (selection : FacetSelection) (candidate : FacetCandidate) : Bool :=
  selection = [] || candidate.subjects.any fun subject => subjectMatches subject selection none

theorem selectMatched_eq (selection : FacetSelection) {candidate : ProductRow → FacetCandidate}
    (hId : ∀ product, (candidate product).id = product.id) {base : List ProductRow}
    (hKeys : (base.map ProductRow.id).Nodup) :
    selectMatched (if selection = [] then none
      else some (matchFacetSelection (base.map candidate) selection)) base =
      base.filter fun product => facetsMatch selection (candidate product) := by
  by_cases hEmpty : selection = []
  · simp [hEmpty, selectMatched, facetsMatch]
  · rw [if_neg hEmpty, selectMatched]
    apply List.filter_congr
    intro product hMem
    rw [Bool.eq_iff_iff, decide_eq_true_iff, matchFacetSelection, List.mem_map]
    simp only [facetsMatch, hEmpty, decide_false, Bool.false_or]
    constructor
    · rintro ⟨matched, hMatched, hSame⟩
      obtain ⟨hIn, hHolds⟩ := List.mem_filter.mp hMatched
      obtain ⟨other, hOther, rfl⟩ := List.mem_map.mp hIn
      rw [hId] at hSame
      rwa [List.inj_on_of_nodup_map hKeys hOther hMem hSame] at hHolds
    · intro hHolds
      exact ⟨candidate product, List.mem_filter.mpr ⟨List.mem_map_of_mem hMem, hHolds⟩,
        hId product⟩

section

variable (runtime : Runtime) (bindings : List EditorialBinding) (tenantId : String)
  (sources : Option (List (String × FacetSource))) (filters : ListProductsInput)

def sourceCandidate (kept : List (String × FacetSource)) (product : ProductRow) : FacetCandidate :=
  candidateOf tenantId (some (scopeOfSources kept)) (readEditorialPublicFacetVocabulary bindings)
    kept product

/-- The facet filter of the list, on one row. -/
def matchesFacets (product : ProductRow) : Bool :=
  match sources with
  | none => true
  | some kept => facetsMatch (toFacetSelection filters.attributeFacets)
      (sourceCandidate bindings tenantId kept product)

def attributesOf (eligible : List ProductRow) : Option (List PublicCatalogAttributeFacet) :=
  sources.map fun kept =>
    countFacets runtime (eligible.map (sourceCandidate bindings tenantId kept))
      (toFacetSelection filters.attributeFacets)
      (readEditorialPublicFacetVocabulary bindings).definitions

/-- The part of the selection that the list refuses. -/
def unknownFacet : Option String :=
  sources.bind fun _ => unknownFacetSelection (toFacetSelection filters.attributeFacets)
    (readEditorialPublicFacetVocabulary bindings).definitions

end

section

variable {runtime : Runtime} {catalog : Catalog} {tenantId : String}
  {context : ResolvedPublicCatalogContext} {sources : Option (List (String × FacetSource))}
  {filters : ListProductsInput}

/-- The list, once its sources are read: gates, facets and prices are filters on the rows. -/
theorem listPublicProducts_of_sources (h : readSources catalog tenantId context = .ok sources) :
    listPublicProducts runtime catalog tenantId context filters =
      match unknownFacet catalog.bindings sources filters with
      | some unknown => .error (.facetNotAvailable unknown)
      | none =>
          let scope := sources.map scopeOfSources
          let base := catalog.products.rows.filter (baseWhere runtime tenantId scope filters)
          .ok (listingOf runtime catalog tenantId context scope filters
            (base.filter (matchesFacets catalog.bindings tenantId sources filters))
            (attributesOf runtime catalog.bindings tenantId sources filters
              (base.filter (offeredIn tenantId context.globalPriceListId scope)))) := by
  have hKeys := (List.filter_sublist (p := baseWhere runtime tenantId
    (sources.map scopeOfSources) filters) (l := catalog.products.rows)).map ProductRow.id |>.nodup
      catalog.products.distinct
  unfold listPublicProducts
  rw [h]
  show (readFacets _ _ _ _ _ _ _ >>= fun facets => _) = _
  unfold readFacets unknownFacet
  cases sources with
  | none =>
      have hAll : (catalog.products.rows.filter (baseWhere runtime tenantId none filters)).filter
          (matchesFacets catalog.bindings tenantId none filters) =
            catalog.products.rows.filter (baseWhere runtime tenantId none filters) :=
        List.filter_eq_self.mpr fun _ _ => rfl
      show Except.ok _ = Except.ok _
      rw [Option.map_none, hAll]
      rfl
  | some kept =>
      simp only [Option.bind_some]
      cases hUnknown : unknownFacetSelection (toFacetSelection filters.attributeFacets)
          (readEditorialPublicFacetVocabulary catalog.bindings).definitions with
      | some unknown => rfl
      | none =>
          have hOwnId : ∀ product, (sourceCandidate catalog.bindings tenantId kept product).id =
              product.id := fun _ => rfl
          have hSelected := selectMatched_eq (toFacetSelection filters.attributeFacets) hOwnId hKeys
          show Except.ok _ = Except.ok (listingOf _ _ _ _ _ _ (List.filter
            (fun product => facetsMatch (toFacetSelection filters.attributeFacets)
              (sourceCandidate catalog.bindings tenantId kept product)) _) _)
          rw [← hSelected]
          rfl

end

/-- A list without search, category or facets. -/
def ListProductsInput.IsUnfiltered (filters : ListProductsInput) : Prop :=
  filters.q = none ∧ filters.categoryId = none ∧ filters.attributeFacets = none

section

variable {runtime : Runtime} {catalog : Catalog} {tenantId : String}
  {context : ResolvedPublicCatalogContext} {sources : Option (List (String × FacetSource))}
  {filters : ListProductsInput} {product : ProductRow} {scope : Option EditorialScope}

theorem baseWhere_of_other (h : product.tenantId ≠ tenantId) :
    baseWhere runtime tenantId scope filters product = false := by
  simp [baseWhere, h]

variable (runtime) in
/-- Without filters the list counts the eligible rows, each by its own tested publication. -/
theorem eligible_unfiltered (hSources : readSources catalog tenantId context = .ok sources)
    (hUnfiltered : filters.IsUnfiltered) :
    ((catalog.products.rows.filter (baseWhere runtime tenantId (sources.map scopeOfSources)
        filters)).filter (matchesFacets catalog.bindings tenantId sources filters)).filter
        (offeredIn tenantId context.globalPriceListId (sources.map scopeOfSources)) =
      catalog.products.rows.filter fun product =>
        isEligible tenantId context.globalPriceListId (context.standing product.testedCoverage)
          product := by
  obtain ⟨hQ, hCategory, hFacets⟩ := hUnfiltered
  have hAll : ∀ product, matchesFacets catalog.bindings tenantId sources filters product = true := by
    intro product
    unfold matchesFacets
    rw [hFacets]
    cases sources <;> rfl
  rw [List.filter_filter, List.filter_filter]
  apply List.filter_congr
  intro product hMem
  rw [hAll, Bool.and_true]
  by_cases hTenant : product.tenantId = tenantId
  · have h := follows_list hSources hMem hTenant
    have hMatches : matchesFilters runtime tenantId (sources.map scopeOfSources) filters product =
        true := by
      rw [matchesFilters, hQ, hCategory]
      rfl
    rw [baseWhere_eq h, offeredIn_eq h, hMatches, Bool.and_true, isEligible, Bool.and_comm]
  · rw [baseWhere_of_other hTenant]
    simp [isEligible, isShown, hTenant]

variable (runtime) in
theorem listPublicProducts_unfiltered (hSources : readSources catalog tenantId context = .ok sources)
    (hUnfiltered : filters.IsUnfiltered) :
    listPublicProducts runtime catalog tenantId context filters =
      .ok (listingOf runtime catalog tenantId context (sources.map scopeOfSources) filters
        ((catalog.products.rows.filter (baseWhere runtime tenantId (sources.map scopeOfSources)
          filters)).filter (matchesFacets catalog.bindings tenantId sources filters))
        (attributesOf runtime catalog.bindings tenantId sources filters
          ((catalog.products.rows.filter (baseWhere runtime tenantId (sources.map scopeOfSources)
            filters)).filter
              (offeredIn tenantId context.globalPriceListId (sources.map scopeOfSources))))) := by
  have hKnown : unknownFacet catalog.bindings sources filters = none := by
    unfold unknownFacet
    rw [hUnfiltered.2.2]
    cases sources <;> rfl
  rw [listPublicProducts_of_sources hSources, hKnown]

end

/-! ### The detail -/

/-- The row of a product of a tenant. -/
def Catalog.row (catalog : Catalog) (tenantId productId : String) : Option ProductRow :=
  (catalog.products.find productId).filter (·.tenantId = tenantId)

section

variable (runtime : Runtime) (bindings : List EditorialBinding)
  (context : ResolvedPublicCatalogContext)

/-- What the detail shows of an eligible row under a coverage. -/
def shownDetail (coverage : Option PublishedCoverage) (product : ProductRow) :
    Option (ProductProjection × Option PublicProjection) :=
  let scope := coverage.map fun own => editorialScope [(product.id, own)]
  detailEditorial runtime bindings scope (narrowDetail coverage
    (project context.tenantId context.globalPriceListId scope product))

/-- The detail of a row, by its own publication. -/
def rowDetail (product : ProductRow) : Option (ProductProjection × Option PublicProjection) :=
  let standing := context.standing product.readCoverage
  if isEligible context.tenantId context.globalPriceListId standing product then
    shownDetail runtime bindings context
      (if context.requiresPublishedEditorial then product.readCoverage else none) product
  else none

end

section

variable {runtime : Runtime} {catalog : Catalog} {tenantId productId : String}
  {context : ResolvedPublicCatalogContext} {product : ProductRow}

theorem row_eq_some : catalog.row tenantId productId = some product ↔
    product ∈ catalog.products.rows ∧ product.tenantId = tenantId ∧ product.id = productId := by
  rw [Catalog.row, Option.filter_eq_some_iff, Keyed.Rows.find_eq_some_iff, decide_eq_true_iff]
  constructor
  · rintro ⟨⟨hMem, hId⟩, hTenant⟩
    exact ⟨hMem, hTenant, hId⟩
  · rintro ⟨hMem, hTenant, hId⟩
    exact ⟨⟨hMem, hId⟩, hTenant⟩

/-- The detail under a coverage looks at the row of the product and asks for its eligibility. -/
theorem detailUnder_of_row {coverage : Option PublishedCoverage} {standing : Standing}
    (hRow : catalog.row context.tenantId productId = some product)
    (hFollows : Follows (coverage.map fun own => editorialScope [(product.id, own)]) product
      standing) :
    detailUnder runtime catalog context.tenantId productId context coverage =
      if isEligible context.tenantId context.globalPriceListId standing product then
        shownDetail runtime catalog.bindings context coverage product
      else none := by
  obtain ⟨hMem, hTenant, rfl⟩ := row_eq_some.mp hRow
  have hWhere := detailWhere_eq context.tenantId context.globalPriceListId hFollows
  have hFind : catalog.products.rows.find? (detailWhere context.tenantId
      context.globalPriceListId product.id
      (coverage.map fun own => editorialScope [(product.id, own)])) =
        if isEligible context.tenantId context.globalPriceListId standing product then some product
        else none := by
    have hSplit : detailWhere context.tenantId context.globalPriceListId product.id
        (coverage.map fun own => editorialScope [(product.id, own)]) = fun row =>
          decide (row.id = product.id) && detailWhere context.tenantId context.globalPriceListId
            row.id (coverage.map fun own => editorialScope [(product.id, own)]) row := by
      funext row
      by_cases hId : row.id = product.id <;> simp [detailWhere, hId]
    rw [hSplit, Keyed.Rows.find?_key_and, Keyed.Rows.find_of_mem hMem, Option.filter_some, hWhere]
  unfold detailUnder
  dsimp only
  rw [hFind]
  split <;> rfl

theorem detailUnder_of_no_row {coverage : Option PublishedCoverage}
    (hRow : catalog.row context.tenantId productId = none) :
    detailUnder runtime catalog context.tenantId productId context coverage = none := by
  have hFind : catalog.products.rows.find? (detailWhere context.tenantId
      context.globalPriceListId productId
      (coverage.map fun own => editorialScope [(productId, own)])) = none := by
    rw [List.find?_eq_none]
    intro row hMem hWhere
    simp only [detailWhere, Bool.and_eq_true, decide_eq_true_eq] at hWhere
    obtain ⟨⟨⟨⟨⟨⟨hId, hTenant⟩, _⟩, _⟩, _⟩, _⟩, _⟩ := hWhere
    rw [row_eq_some.mpr ⟨hMem, hTenant, hId⟩] at hRow
    cases hRow
  unfold detailUnder
  dsimp only
  rw [hFind]
  rfl

/-- The detail is a function of the row of the product. -/
theorem getPublicProductDetail_eq :
    getPublicProductDetail runtime catalog context.tenantId productId context =
      (catalog.row context.tenantId productId).bind
        (rowDetail runtime catalog.bindings context) := by
  unfold getPublicProductDetail
  rw [if_neg (by simp)]
  cases hRow : catalog.row context.tenantId productId with
  | none =>
      rw [detailUnder_of_no_row hRow, Option.bind_none]
      split
      · split
        · rfl
        · exact detailUnder_of_no_row hRow
      · rfl
  | some product =>
      obtain ⟨hMem, hTenant, rfl⟩ := row_eq_some.mp hRow
      rw [Option.bind_some, rowDetail]
      unfold ResolvedPublicCatalogContext.standing
      cases hRequired : context.requiresPublishedEditorial with
      | false =>
          simp only [Bool.false_eq_true, if_false]
          exact detailUnder_of_row hRow (follows_free product)
      | true =>
          simp only [if_true, mapGet?_readPublishedCoverages hMem hTenant List.mem_cons_self]
          cases hOwn : product.readCoverage with
          | none => simp [isEligible, isShown, Standing.isPresent]
          | some own => exact detailUnder_of_row hRow follows_own

end

/-! ### The cart -/

section

variable {catalog : Catalog} {context : ResolvedPublicCatalogContext}
  {productIds variantIds : List String} {productId : String} {line : CartLine}

/-- What the cart loads of a row. -/
def rowCandidate (context : ResolvedPublicCatalogContext) (variantIds : List String)
    (product : ProductRow) : PublicCartCandidate :=
  cartCandidate context.tenantId context.globalPriceListId variantIds
    (if context.requiresPublishedEditorial then product.readCoverage else none) product

theorem findPublicCartCandidates_eq :
    findPublicCartCandidates catalog context.tenantId context productIds variantIds =
      (catalog.products.rows.filter fun product =>
        product.tenantId = context.tenantId ∧ product.id ∈ productIds).map
          (rowCandidate context variantIds) := by
  unfold findPublicCartCandidates
  rw [if_neg (by simp)]
  apply List.map_congr_left
  intro product hProduct
  obtain ⟨hMem, hAsked⟩ := List.mem_filter.mp hProduct
  obtain ⟨hTenant, hId⟩ := of_decide_eq_true hAsked
  unfold rowCandidate
  cases context.requiresPublishedEditorial with
  | false => rfl
  | true =>
      simp only [if_true]
      rw [mapGet?_readPublishedCoverages hMem hTenant (List.mem_map_of_mem hProduct)]

/-- A line is reconciled by the row of its product. -/
theorem reconcile_eq (hAsked : line.productId ∈ productIds) :
    ValidatePublicCart.reconcile context
      (findPublicCartCandidates catalog context.tenantId context productIds variantIds) line =
      ValidatePublicCart.reconcileCandidate context
        ((catalog.row context.tenantId line.productId).map (rowCandidate context variantIds))
        line := by
  unfold ValidatePublicCart.reconcile
  congr 1
  rw [findPublicCartCandidates_eq]
  have hKeys := (List.filter_sublist (p := fun product : ProductRow =>
    decide (product.tenantId = context.tenantId ∧ product.id ∈ productIds))
      (l := catalog.products.rows)).map ProductRow.id |>.nodup catalog.products.distinct
  apply Option.ext
  intro candidate
  rw [mapGet?_eq_some_iff (by simpa [Function.comp_def, rowCandidate, cartCandidate] using hKeys),
    Option.map_eq_some_iff]
  simp only [List.mem_map, List.mem_filter, row_eq_some, Prod.mk.injEq, decide_eq_true_eq]
  constructor
  · rintro ⟨_, ⟨product, ⟨hMem, hTenant, _⟩, rfl⟩, hId, rfl⟩
    exact ⟨product, ⟨hMem, hTenant, hId⟩, rfl⟩
  · rintro ⟨product, ⟨hMem, hTenant, hId⟩, rfl⟩
    exact ⟨_, ⟨product, ⟨hMem, hTenant, hId ▸ hAsked⟩, rfl⟩, hId, rfl⟩

end

/-! ### Answers -/

section

variable {runtime : Runtime} {catalog : Catalog} {tenantId globalPriceListId : String}
  {context : ResolvedPublicCatalogContext} {scope : Option EditorialScope}
  {filters : ListProductsInput} {product : ProductRow} {bindings : List EditorialBinding}
  {items : List ProductProjection} {item : ProductProjection × Option PublicProjection}

/-- A product that passes the gates has a participant in its stock. -/
theorem productStock_project {defaults : StockPresentationDefaults}
    (h : survivesForTenant tenantId scope product = true) :
    ∃ stock, productStock (project tenantId globalPriceListId scope product) defaults =
      some stock := by
  unfold productStock
  cases hVariants : product.hasVariants with
  | false => simp [project, hVariants]
  | true =>
      rw [survivesForTenant, hVariants, Bool.not_true, Bool.false_or, List.any_eq_true] at h
      obtain ⟨variant, hMem, hPublic⟩ := h
      have hShown : variant ∈ publicVariants tenantId scope product :=
        List.mem_filter.mpr ⟨hMem, hPublic⟩
      have hSome : publicVariants tenantId scope product ≠ [] := List.ne_nil_of_mem hShown
      simp [project, hVariants, participantsOf, mapPublicAggregateVariantStockPresentation, hSome]

theorem survivesForTenant_of_base (h : baseWhere runtime tenantId scope filters product = true) :
    survivesForTenant tenantId scope product = true := by
  simp only [baseWhere, gatesWhere, Bool.and_eq_true] at h
  exact h.2.1.1.2

theorem mem_withEditorial (h : item ∈ withEditorial runtime bindings items) : item.1 ∈ items := by
  obtain ⟨product, hMem, hItem⟩ := List.mem_filterMap.mp h
  split at hItem
  · cases hItem
  · split at hItem <;> cases hItem
    exact hMem

theorem mem_withEditorialIf (h : item ∈ withEditorialIf runtime bindings scope items) :
    item.1 ∈ items := by
  cases scope with
  | none =>
      obtain ⟨product, hMem, rfl⟩ := List.mem_map.mp h
      exact hMem
  | some scope => exact mem_withEditorial h

theorem mem_sortByPriceIfNeeded {sort : ProductSort} {shown : ProductProjection} :
    shown ∈ sortByPriceIfNeeded runtime sort items ↔ shown ∈ items := by
  cases sort <;> first | exact Iff.rfl | exact List.mem_insertionSort _

theorem mem_of_mem_pageOf {rows : List ProductRow} (h : product ∈ pageOf filters rows) :
    product ∈ rows :=
  (List.mem_insertionSort _).mp (List.mem_of_mem_drop (List.mem_of_mem_take h))

/-- A listing whose products have a stock to show is answered. -/
theorem response_of_stock {listing : ProductListing}
    (h : ∀ item ∈ listing.items, ∃ stock,
      productStock item.1 context.stockPresentationDefaults = some stock) :
    ∃ list, ListPublicProducts.response context filters listing = .ok list ∧
      list.total = listing.total ∧ list.items.map (·.id) = listing.items.map (·.1.id) := by
  have hCards : ∀ item ∈ listing.items, ∃ card,
      toPublicProductCardForContext context.stockPresentationDefaults item = .ok card := by
    intro item hItem
    obtain ⟨stock, hStock⟩ := h item hItem
    exact ⟨_, by rw [toPublicProductCardForContext, hStock]⟩
  obtain ⟨cards, hAll⟩ := Traverse.mapM_isOk_iff.mpr hCards
  refine ⟨_, bind_eq_ok.mpr ⟨cards, hAll, rfl⟩, rfl, ?_⟩
  refine Traverse.map_eq_of_mapM (fun item _ card hCard => ?_) hAll
  unfold toPublicProductCardForContext at hCard
  dsimp only at hCard
  split at hCard <;> cases hCard
  rfl

variable (runtime catalog) in
/-- The answer of a list has the total of its eligible rows and the ids of its items. -/
theorem response_listingOf {base : List ProductRow}
    {attributes : Option (List PublicCatalogAttributeFacet)}
    (hBase : ∀ product ∈ base, baseWhere runtime tenantId scope filters product = true) :
    ∃ list, ListPublicProducts.response context filters
        (listingOf runtime catalog tenantId context scope filters base attributes) = .ok list ∧
      list.total = (base.filter (offeredIn tenantId context.globalPriceListId scope)).length ∧
      list.items.map (·.id) = (listingOf runtime catalog tenantId context scope filters base
        attributes).items.map (·.1.id) := by
  apply response_of_stock
  intro item hItem
  have hSorted := mem_sortByPriceIfNeeded.mp (mem_withEditorialIf hItem)
  obtain ⟨product, hPage, hShown⟩ := List.mem_map.mp hSorted
  rw [← hShown]
  have hMem := (List.mem_filter.mp (mem_of_mem_pageOf hPage)).1
  exact productStock_project (survivesForTenant_of_base (hBase product hMem))

/-- The sources of a list can be read when the choices of a required publication can. -/
theorem exists_sources
    (h : context.requiresPublishedEditorial = true → catalog.choicesRead tenantId) :
    ∃ sources, readSources catalog tenantId context = .ok sources ∧
      (sources.map scopeOfSources).isSome = context.requiresPublishedEditorial := by
  cases hRequired : context.requiresPublishedEditorial with
  | false => exact ⟨none, readSources_eq_ok.mpr (Or.inl ⟨hRequired, rfl⟩), rfl⟩
  | true => exact ⟨_, readSources_eq_ok.mpr (Or.inr ⟨hRequired, h hRequired, rfl⟩), rfl⟩

variable {tenant : PublicTenant} {sources : Option (List (String × FacetSource))}

variable (runtime) in
/-- A list without filters is answered from the eligible rows. -/
theorem executeList_unfiltered (hTenant : context.isOf tenant = true)
    (hSources : readSources catalog tenant.id context = .ok sources)
    (hUnfiltered : filters.IsUnfiltered) :
    ∃ base attributes list,
      ListPublicProducts.executeForContext runtime catalog tenant context filters = .ok list ∧
      base.filter (offeredIn tenant.id context.globalPriceListId (sources.map scopeOfSources)) =
        (catalog.products.rows.filter fun product =>
          isEligible tenant.id context.globalPriceListId (context.standing product.testedCoverage)
            product) ∧
      list.total = (catalog.products.rows.filter fun product =>
        isEligible tenant.id context.globalPriceListId (context.standing product.testedCoverage)
          product).length ∧
      list.items.map (·.id) = (listingOf runtime catalog tenant.id context
        (sources.map scopeOfSources) filters base attributes).items.map (·.1.id) := by
  have hEligible := eligible_unfiltered runtime hSources hUnfiltered
  obtain ⟨list, hList, hTotal, hIds⟩ := response_listingOf runtime catalog
    fun row hRow => (List.mem_filter.mp (List.mem_filter.mp hRow).1).2
  rw [hEligible] at hTotal
  refine ⟨_, _, list, ?_, hEligible, hTotal, hIds⟩
  have hFree : refusedFacet context filters = none := by
    rw [refusedFacet, hUnfiltered.2.2]
    split <;> rfl
  unfold ListPublicProducts.executeForContext
  simp only [hTenant, hFree, Bool.not_true, Bool.false_eq_true, if_false]
  rw [listPublicProducts_unfiltered runtime hSources hUnfiltered]
  exact hList

end

end Houndfe.PublicCatalog

/-! ### Listings of catalogs whose rows correspond

Where the rows that count look the same, so does the listing. -/

namespace Houndfe.PublicCatalog

open CatalogEditorial

/-- A listing without the count of the excluded products. -/
def ProductListing.uncounted (listing : ProductListing) : ProductListing :=
  { listing with excludedCount := 0 }

def PublicProductList.uncounted (list : PublicProductList) : PublicProductList :=
  { list with excludedCount := 0 }

section

variable {runtime : Runtime} {catalog catalog' : Catalog} {tenantId : String}
  {context : ResolvedPublicCatalogContext} {filters : ListProductsInput}
  {scope scope' : Option EditorialScope} {base base' : List ProductRow} {g : ProductRow → ProductRow}
  {attributes : Option (List PublicCatalogAttributeFacet)}

theorem pageOf_map (hCreated : ∀ product, (g product).createdAt = product.createdAt)
    (rows : List ProductRow) : pageOf filters (rows.map g) = (pageOf filters rows).map g := by
  have hSort : newestFirst (rows.map g) = (newestFirst rows).map g := by
    apply StableSort.map_insertionSort
    exact List.pairwise_of_forall fun a b => by rw [hCreated, hCreated]
  rw [pageOf, pageOf, hSort, List.map_take, List.map_drop]

theorem toCategoryFacets_map {categories : List Category}
    (hCategory : ∀ product, (g product).category = product.category) (rows : List ProductRow) :
    toCategoryFacets runtime categories (rows.map g) = toCategoryFacets runtime categories rows := by
  unfold toCategoryFacets
  rw [List.filterMap_map]
  simp only [Function.comp_def, hCategory]

theorem withEditorialIf_congr {bindings : List EditorialBinding} {items : List ProductProjection}
    (hScope : scope'.isSome = scope.isSome) :
    withEditorialIf runtime bindings scope' items = withEditorialIf runtime bindings scope items := by
  cases scope <;> cases scope' <;> first | rfl | cases hScope

theorem listingOf_map (hCategories : catalog'.categories = catalog.categories)
    (hBindings : catalog'.bindings = catalog.bindings)
    (hCreated : ∀ product, (g product).createdAt = product.createdAt)
    (hCategory : ∀ product, (g product).category = product.category)
    (hScope : scope'.isSome = scope.isSome)
    (hEligible : base'.filter (offeredIn tenantId context.globalPriceListId scope') =
      (base.filter (offeredIn tenantId context.globalPriceListId scope)).map g)
    (hProject : ∀ product ∈ base.filter (offeredIn tenantId context.globalPriceListId scope),
      project tenantId context.globalPriceListId scope' (g product) =
        project tenantId context.globalPriceListId scope product) :
    (listingOf runtime catalog' tenantId context scope' filters base' attributes).uncounted =
      (listingOf runtime catalog tenantId context scope filters base attributes).uncounted := by
  have hItems : (pageOf filters (base'.filter (offeredIn tenantId context.globalPriceListId
      scope'))).map (project tenantId context.globalPriceListId scope') =
      (pageOf filters (base.filter (offeredIn tenantId context.globalPriceListId scope))).map
        (project tenantId context.globalPriceListId scope) := by
    rw [hEligible, pageOf_map hCreated, List.map_map]
    exact List.map_congr_left fun product hMem => hProject product (mem_of_mem_pageOf hMem)
  unfold listingOf ProductListing.uncounted
  simp only [hItems, withEditorialIf_congr hScope, hCategories, hBindings]
  rw [hEligible, List.length_map, toCategoryFacets_map hCategory]

end

section

variable {runtime : Runtime} {catalog catalog' : Catalog} {tenantId : String}
  {context : ResolvedPublicCatalogContext} {filters : ListProductsInput}
  {sources sources' : Option (List (String × FacetSource))} {g : ProductRow → ProductRow}

theorem filter_map_of {p p' : ProductRow → Bool} {rows : List ProductRow}
    (h : ∀ product ∈ rows, p' (g product) = p product) :
    (rows.map g).filter p' = (rows.filter p).map g := by
  rw [List.filter_map]
  congr 1
  exact List.filter_congr h

/-- The rows of two catalogs that a list counts correspond, and look the same to it. -/
structure Corresponds (runtime : Runtime) (catalog catalog' : Catalog) (tenantId : String)
    (context : ResolvedPublicCatalogContext) (filters : ListProductsInput)
    (sources sources' : Option (List (String × FacetSource))) (g : ProductRow → ProductRow) :
    Prop where
  rows : catalog'.products.rows = catalog.products.rows.map g
  categories : catalog'.categories = catalog.categories
  bindings : catalog'.bindings = catalog.bindings
  createdAt : ∀ product, (g product).createdAt = product.createdAt
  category : ∀ product, (g product).category = product.category
  isSome : sources'.isSome = sources.isSome
  eligible : ∀ product ∈ catalog.products.rows,
    (baseWhere runtime tenantId (sources'.map scopeOfSources) filters (g product) &&
      offeredIn tenantId context.globalPriceListId (sources'.map scopeOfSources) (g product)) =
    (baseWhere runtime tenantId (sources.map scopeOfSources) filters product &&
      offeredIn tenantId context.globalPriceListId (sources.map scopeOfSources) product)
  looks : ∀ product ∈ catalog.products.rows,
    baseWhere runtime tenantId (sources.map scopeOfSources) filters product = true →
    offeredIn tenantId context.globalPriceListId (sources.map scopeOfSources) product = true →
    project tenantId context.globalPriceListId (sources'.map scopeOfSources) (g product) =
        project tenantId context.globalPriceListId (sources.map scopeOfSources) product ∧
      sources'.map (fun kept => sourceCandidate catalog.bindings tenantId kept (g product)) =
        sources.map fun kept => sourceCandidate catalog.bindings tenantId kept product

theorem matchesFacets_eq {bindings : List EditorialBinding} {product product' : ProductRow}
    (h : sources'.map (fun kept => sourceCandidate bindings tenantId kept product') =
      sources.map fun kept => sourceCandidate bindings tenantId kept product) :
    matchesFacets bindings tenantId sources' filters product' =
      matchesFacets bindings tenantId sources filters product := by
  cases sources <;> cases sources' <;> simp_all [matchesFacets]

variable (runtime filters) in
theorem attributesOf_eq {bindings : List EditorialBinding} {eligible : List ProductRow}
    (hSome : sources'.isSome = sources.isSome)
    (h : ∀ product ∈ eligible,
      sources'.map (fun kept => sourceCandidate bindings tenantId kept (g product)) =
        sources.map fun kept => sourceCandidate bindings tenantId kept product) :
    attributesOf runtime bindings tenantId sources' filters (eligible.map g) =
      attributesOf runtime bindings tenantId sources filters eligible := by
  cases sources with
  | none =>
      cases sources' with
      | none => rfl
      | some kept' => cases hSome
  | some kept =>
      cases sources' with
      | none => cases hSome
      | some kept' =>
          have hCandidates : (eligible.map g).map (sourceCandidate bindings tenantId kept') =
              eligible.map (sourceCandidate bindings tenantId kept) := by
            rw [List.map_map]
            exact List.map_congr_left fun product hMem => Option.some.inj (h product hMem)
          rw [attributesOf, attributesOf, Option.map_some, Option.map_some, hCandidates]

/-- Catalogs that correspond have the same listing, the excluded products apart. -/
theorem Corresponds.listPublicProducts
    (h : Corresponds runtime catalog catalog' tenantId context filters sources sources' g)
    (hSources : readSources catalog tenantId context = .ok sources)
    (hSources' : readSources catalog' tenantId context = .ok sources') :
    (listPublicProducts runtime catalog' tenantId context filters).map ProductListing.uncounted =
      (listPublicProducts runtime catalog tenantId context filters).map
        ProductListing.uncounted := by
  have hUnknown : unknownFacet catalog'.bindings sources' filters =
      unknownFacet catalog.bindings sources filters := by
    rw [h.bindings]
    have hSome := h.isSome
    cases sources <;> cases sources' <;> first | rfl | cases hSome
  have hScope : (sources'.map scopeOfSources).isSome = (sources.map scopeOfSources).isSome := by
    rw [Option.isSome_map, Option.isSome_map, h.isSome]
  rw [listPublicProducts_of_sources hSources, listPublicProducts_of_sources hSources', hUnknown]
  cases unknownFacet catalog.bindings sources filters with
  | some unknown => rfl
  | none =>
      have hBase : (catalog'.products.rows.filter (baseWhere runtime tenantId
            (sources'.map scopeOfSources) filters)).filter
              (offeredIn tenantId context.globalPriceListId (sources'.map scopeOfSources)) =
          ((catalog.products.rows.filter (baseWhere runtime tenantId
            (sources.map scopeOfSources) filters)).filter
              (offeredIn tenantId context.globalPriceListId (sources.map scopeOfSources))).map g := by
        rw [h.rows, List.filter_filter, List.filter_filter]
        apply filter_map_of
        intro product hMem
        rw [Bool.and_comm, h.eligible product hMem, Bool.and_comm]
      have hLooks : ∀ product ∈ (catalog.products.rows.filter (baseWhere runtime tenantId
            (sources.map scopeOfSources) filters)).filter
              (offeredIn tenantId context.globalPriceListId (sources.map scopeOfSources)),
          _ := fun product hMem => by
        obtain ⟨hIn, hOffered⟩ := List.mem_filter.mp hMem
        obtain ⟨hRow, hGate⟩ := List.mem_filter.mp hIn
        exact h.looks product hRow hGate hOffered
      have hAttributes := attributesOf_eq runtime filters h.isSome
        fun product hMem => (hLooks product hMem).2
      have hFinal : ((catalog'.products.rows.filter (baseWhere runtime tenantId
            (sources'.map scopeOfSources) filters)).filter
              (matchesFacets catalog'.bindings tenantId sources' filters)).filter
              (offeredIn tenantId context.globalPriceListId (sources'.map scopeOfSources)) =
          (((catalog.products.rows.filter (baseWhere runtime tenantId
            (sources.map scopeOfSources) filters)).filter
              (matchesFacets catalog.bindings tenantId sources filters)).filter
              (offeredIn tenantId context.globalPriceListId (sources.map scopeOfSources))).map
                g := by
        rw [List.filter_comm, hBase, h.bindings, List.filter_comm
          (l := catalog.products.rows.filter (baseWhere runtime tenantId
            (sources.map scopeOfSources) filters))]
        apply filter_map_of
        intro product hMem
        exact matchesFacets_eq (hLooks product hMem).2
      refine congrArg Except.ok ?_
      rw [hBase, h.bindings, hAttributes]
      apply listingOf_map h.categories h.bindings h.createdAt h.category hScope
      · rw [h.bindings] at hFinal
        exact hFinal
      · intro product hMem
        obtain ⟨hIn, hOffered⟩ := List.mem_filter.mp hMem
        exact (hLooks product (List.mem_filter.mpr ⟨(List.mem_filter.mp hIn).1, hOffered⟩)).1

end

end Houndfe.PublicCatalog
