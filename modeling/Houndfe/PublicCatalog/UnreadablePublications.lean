import Mathlib.Data.List.Dedup
import Houndfe.PublicCatalog.OwnReads

/-! Products whose publication cannot be read: whether the public reads treat them as products that
have none. -/

namespace Houndfe.PublicCatalog

open CatalogEditorial

/-! ### Taking a publication away -/

def ProductRow.unpublished (product : ProductRow) : ProductRow :=
  { product with published := none }

def withdrawn (productId : String) (product : ProductRow) : ProductRow :=
  if product.id = productId then product.unpublished else product

section

variable {productId : String} {product : ProductRow}

@[simp] theorem withdrawn_id : (withdrawn productId product).id = product.id := by
  unfold withdrawn
  split <;> rfl

@[simp] theorem withdrawn_variants : (withdrawn productId product).variants = product.variants := by
  unfold withdrawn
  split <;> rfl

theorem withdrawn_of_ne (h : product.id ≠ productId) : withdrawn productId product = product :=
  if_neg h

theorem recordedSubjects_withdrawn {subject : Option String}
    (h : subject ∈ (withdrawn productId product).recordedSubjects) :
    subject ∈ product.recordedSubjects := by
  unfold withdrawn at h
  split at h
  · simp [ProductRow.recordedSubjects, ProductRow.unpublished] at h
  · exact h

end

/-- The catalog in which a product has no published version. -/
def Catalog.unpublish (catalog : Catalog) (productId : String) : Catalog where
  products := catalog.products.mapRows (withdrawn productId) fun _ => withdrawn_id
  categories := catalog.categories
  bindings := catalog.bindings
  ownSubjects := by
    intro product hProduct other hOther hNe variant hVariant hSubject
    obtain ⟨before, hBefore, rfl⟩ := List.mem_map.mp hProduct
    obtain ⟨otherBefore, hOtherBefore, rfl⟩ := List.mem_map.mp hOther
    rw [withdrawn_id, withdrawn_id] at hNe
    rw [withdrawn_variants] at hVariant
    exact catalog.ownSubjects before hBefore otherBefore hOtherBefore hNe variant hVariant
      (recordedSubjects_withdrawn hSubject)

/-! ### The rows of both catalogs -/

/-- The row that is asked for, where the rows of a catalog change one by one. -/
theorem row_map {catalog catalog' : Catalog} {change : ProductRow → ProductRow}
    {tenantId asked : String} (hRows : catalog'.products.rows = catalog.products.rows.map change)
    (hTenant : ∀ product, (change product).tenantId = product.tenantId)
    (hId : ∀ product, (change product).id = product.id) :
    catalog'.row tenantId asked = (catalog.row tenantId asked).map change := by
  apply Option.ext
  intro row
  rw [row_eq_some, Option.map_eq_some_iff, hRows]
  constructor
  · rintro ⟨hMem, hOf, hAsked⟩
    obtain ⟨before, hBefore, rfl⟩ := List.mem_map.mp hMem
    rw [hTenant] at hOf
    rw [hId] at hAsked
    exact ⟨before, row_eq_some.mpr ⟨hBefore, hOf, hAsked⟩, rfl⟩
  · rintro ⟨before, hBefore, rfl⟩
    obtain ⟨hMem, hOf, hAsked⟩ := row_eq_some.mp hBefore
    exact ⟨List.mem_map_of_mem hMem, (hTenant before).trans hOf, (hId before).trans hAsked⟩

section

variable {catalog : Catalog} {tenantId productId : String}
  {context : ResolvedPublicCatalogContext} {product : ProductRow}

variable (productId) in
theorem mem_unpublish (h : product ∈ catalog.products.rows) :
    withdrawn productId product ∈ (catalog.unpublish productId).products.rows :=
  List.mem_map_of_mem h

theorem withdrawn_tenantId : (withdrawn productId product).tenantId = product.tenantId := by
  unfold withdrawn
  split <;> rfl

variable (productId) in
/-- Taking a publication away leaves fewer choices to read. -/
theorem choicesRead_unpublish (h : catalog.choicesRead tenantId) :
    (catalog.unpublish productId).choicesRead tenantId := by
  intro entry hEntry
  obtain ⟨after, hAfter, hTenant, hPublished, hId⟩ := mem_publications.mp hEntry
  obtain ⟨before, hBefore, rfl⟩ := List.mem_map.mp hAfter
  rw [withdrawn_id] at hId
  rw [withdrawn_tenantId] at hTenant
  by_cases hSame : before.id = productId
  · rw [withdrawn, if_pos hSame] at hPublished
    cases hPublished
  · rw [withdrawn_of_ne hSame] at hPublished
    exact h entry (mem_publications.mpr ⟨before, hBefore, hTenant, hPublished, hId⟩)

/-- What is shown depends on the publication through the standing alone. -/
theorem isShown_withdrawn {standing : Standing} :
    isShown tenantId standing (withdrawn productId product) = isShown tenantId standing product := by
  unfold withdrawn
  split <;> rfl

theorem isOffered_withdrawn {globalPriceListId : String} {standing : Standing} :
    isOffered tenantId globalPriceListId standing (withdrawn productId product) =
      isOffered tenantId globalPriceListId standing product := by
  unfold withdrawn
  split <;> rfl

theorem isEligible_withdrawn {globalPriceListId : String} {standing : Standing} :
    isEligible tenantId globalPriceListId standing (withdrawn productId product) =
      isEligible tenantId globalPriceListId standing product := by
  rw [isEligible, isEligible, isShown_withdrawn, isOffered_withdrawn]

theorem row_unpublish {asked : String} : (catalog.unpublish productId).row tenantId asked =
    (catalog.row tenantId asked).map (withdrawn productId) :=
  row_map rfl (fun _ => withdrawn_tenantId) (fun _ => withdrawn_id)

end

/-! ### What the reads ask of an unreadable publication -/

/-- The decoder rejects the document of the publication. -/
def Rejected (publication : Publication) : Prop :=
  ∀ parsed, parseDocumentShape publication.publishedDocument ≠ .ok parsed

/-- The product has a published version that cannot be read. -/
def ProductRow.IsUnreadable (product : ProductRow) : Prop :=
  ∃ publication, product.published = some publication ∧ Rejected publication

/-- Every rejected document of the tenant fails the test in the database too, or else its choices
can be read and its product is not offered anyway. -/
def Catalog.Confined (catalog : Catalog) (tenantId globalPriceListId : String) : Prop :=
  ∀ product ∈ catalog.products.rows, product.tenantId = tenantId →
    ∀ publication, product.published = some publication → Rejected publication →
      publishedDocumentV2Sql publication.publishedDocument = true →
        (∃ choices, readChoices publication.publishedDocument = .ok choices) ∧
          isEligible tenantId globalPriceListId (.under (some publication.coverage)) product = false

section

variable {catalog : Catalog} {tenantId productId : String}
  {context : ResolvedPublicCatalogContext} {product : ProductRow} {publication : Publication}

theorem readCoverage_of_unreadable (h : product.IsUnreadable) : product.readCoverage = none := by
  obtain ⟨publication, hPublished, hRejected⟩ := h
  rw [ProductRow.readCoverage, hPublished, Option.bind_some, readPublishedCoverage]
  split
  · next parsed hParsed => exact absurd hParsed (hRejected parsed)
  · rfl

theorem readCoverage_withdrawn (h : product.id = productId → product.IsUnreadable) :
    (withdrawn productId product).readCoverage = product.readCoverage := by
  by_cases hSame : product.id = productId
  · rw [readCoverage_of_unreadable (h hSame), withdrawn, if_pos hSame]
    rfl
  · rw [withdrawn_of_ne hSame]

theorem choicesRead_iff : ChoicesRead publication ↔
    (publishedDocumentV2Sql publication.publishedDocument = true →
      ∃ choices, readChoices publication.publishedDocument = .ok choices) := by
  unfold ChoicesRead readFacetSource
  split
  · next hTest =>
      constructor
      · rintro ⟨source, hSource⟩ _
        obtain ⟨choices, hChoices, _⟩ := bind_eq_ok.mp hSource
        exact ⟨choices, hChoices⟩
      · intro h
        obtain ⟨choices, hChoices⟩ := h hTest
        exact ⟨_, bind_eq_ok.mpr ⟨choices, hChoices, rfl⟩⟩
  · next hTest => exact ⟨fun _ h => absurd h hTest, fun _ => ⟨none, rfl⟩⟩

/-- What the decoder accepts can be read, and what it rejects is confined. -/
theorem choicesRead_of_confined {globalPriceListId : String}
    (h : catalog.Confined tenantId globalPriceListId) : catalog.choicesRead tenantId := by
  intro entry hEntry
  obtain ⟨product, hMem, hTenant, hPublished, _⟩ := mem_publications.mp hEntry
  rw [choicesRead_iff]
  intro hTest
  by_cases hRejected : Rejected entry.2
  · exact (h product hMem hTenant entry.2 hPublished hRejected hTest).1
  · unfold Rejected at hRejected
    push Not at hRejected
    obtain ⟨parsed, hParsed⟩ := hRejected
    exact readChoices_of_parse hParsed

theorem not_eligible_of_confined {globalPriceListId : String}
    (h : catalog.Confined tenantId globalPriceListId) (hMem : product ∈ catalog.products.rows)
    (hTenant : product.tenantId = tenantId) (hUnreadable : product.IsUnreadable) :
    isEligible tenantId globalPriceListId (.under product.testedCoverage) product = false := by
  obtain ⟨publication, hPublished, hRejected⟩ := hUnreadable
  rw [ProductRow.testedCoverage, hPublished, Option.bind_some]
  split
  · next hTest => exact (h product hMem hTenant publication hPublished hRejected hTest).2
  · simp [isEligible, isShown, Standing.isPresent]

end

/-! ### The list without the publication -/

section

variable {runtime : Runtime} {catalog catalog' : Catalog} {tenantId productId : String}
  {context : ResolvedPublicCatalogContext} {filters : ListProductsInput} {product : ProductRow}
  {scope scope' : Option EditorialScope} {standing : Standing} {globalPriceListId : String}

/-- Under two scopes that it follows alike, a product looks the same. -/
theorem project_congr (h : Follows scope product standing) (h' : Follows scope' product standing)
    (hSome : scope'.isSome = scope.isSome) :
    project tenantId globalPriceListId scope' product =
      project tenantId globalPriceListId scope product := by
  unfold project
  rw [publicVariants_eq h, publicVariants_eq h']
  cases scope <;> cases scope' <;> first | rfl | cases hSome

theorem sourceCandidate_congr {bindings : List EditorialBinding}
    {kept kept' : List (String × FacetSource)}
    (h : Follows (some (scopeOfSources kept)) product standing)
    (h' : Follows (some (scopeOfSources kept')) product standing)
    (hSource : mapGet? kept' product.id = mapGet? kept product.id) :
    sourceCandidate bindings tenantId kept' product =
      sourceCandidate bindings tenantId kept product := by
  unfold sourceCandidate candidateOf
  rw [hSource, publicVariants_eq h, publicVariants_eq h']

theorem withdrawn_createdAt : (withdrawn productId product).createdAt = product.createdAt := by
  unfold withdrawn
  split <;> rfl

theorem withdrawn_category : (withdrawn productId product).category = product.category := by
  unfold withdrawn
  split <;> rfl

/-- Where no publication is required the list reads none. -/
theorem corresponds_free : Corresponds runtime catalog (catalog.unpublish productId) tenantId context
    filters none none (withdrawn productId) where
  rows := rfl
  categories := rfl
  bindings := rfl
  createdAt _ := withdrawn_createdAt
  category _ := withdrawn_category
  isSome := rfl
  eligible product _ := by
    unfold withdrawn
    split <;> rfl
  looks product _ _ _ := by
    refine ⟨?_, rfl⟩
    unfold withdrawn
    split <;> rfl

/-- Where one is required, the list counts the same rows when the product is not eligible under
its own publication. -/
theorem corresponds_required
    (hRequired : context.requiresPublishedEditorial = true)
    (hChoices : catalog.choicesRead tenantId)
    (hQuiet : ∀ product ∈ catalog.products.rows, product.tenantId = tenantId →
      product.id = productId →
      isEligible tenantId context.globalPriceListId (.under product.testedCoverage) product =
        false) :
    Corresponds runtime catalog (catalog.unpublish productId) tenantId context filters
      (some (keptOf catalog tenantId facetSource?))
      (some (keptOf (catalog.unpublish productId) tenantId facetSource?))
      (withdrawn productId) := by
  have hStanding : ∀ own, context.standing own = .under own := fun own => if_pos hRequired
  have hFollows : ∀ product ∈ catalog.products.rows, product.tenantId = tenantId →
      Follows (some (scopeOfSources (keptOf catalog tenantId facetSource?))) product
        (.under product.testedCoverage) := by
    intro product hMem hTenant
    have hRead : readSources catalog tenantId context =
        .ok (some (keptOf catalog tenantId facetSource?)) :=
      readSources_eq_ok.mpr (Or.inr ⟨hRequired, hChoices, rfl⟩)
    rw [← hStanding]
    exact follows_list hRead hMem hTenant
  have hFollows' : ∀ product ∈ catalog.products.rows, product.tenantId = tenantId →
      Follows (some (scopeOfSources (keptOf (catalog.unpublish productId) tenantId facetSource?)))
        (withdrawn productId product) (.under (withdrawn productId product).testedCoverage) := by
    intro product hMem hTenant
    have hRead : readSources (catalog.unpublish productId) tenantId context =
        .ok (some (keptOf (catalog.unpublish productId) tenantId facetSource?)) :=
      readSources_eq_ok.mpr (Or.inr ⟨hRequired, choicesRead_unpublish productId hChoices, rfl⟩)
    rw [← hStanding]
    exact follows_list hRead (mem_unpublish productId hMem) (withdrawn_tenantId.trans hTenant)
  -- a row that the list counts is not the withdrawn one
  have hOther : ∀ product ∈ catalog.products.rows,
      baseWhere runtime tenantId (some (scopeOfSources (keptOf catalog tenantId facetSource?)))
        filters product = true →
      offeredIn tenantId context.globalPriceListId
        (some (scopeOfSources (keptOf catalog tenantId facetSource?))) product = true →
      product.tenantId = tenantId ∧ product.id ≠ productId := by
    intro product hMem hBase hOffered
    have hTenant : product.tenantId = tenantId := by
      by_contra hNot
      rw [baseWhere_of_other hNot] at hBase
      cases hBase
    refine ⟨hTenant, fun hId => ?_⟩
    have h := hFollows product hMem hTenant
    rw [baseWhere_eq h, Bool.and_eq_true] at hBase
    rw [offeredIn_eq h] at hOffered
    have hNot := hQuiet product hMem hTenant hId
    rw [isEligible, hBase.1, hOffered] at hNot
    cases hNot
  refine ⟨rfl, rfl, rfl, fun _ => withdrawn_createdAt, fun _ => withdrawn_category, rfl, ?_, ?_⟩
  · intro product hMem
    by_cases hTenant : product.tenantId = tenantId
    · have h := hFollows product hMem hTenant
      have h' := hFollows' product hMem hTenant
      rw [Option.map_some, Option.map_some, baseWhere_eq h, baseWhere_eq h', offeredIn_eq h,
        offeredIn_eq h']
      by_cases hId : product.id = productId
      · have hNot := hQuiet product hMem hTenant hId
        have hGone : (withdrawn productId product).testedCoverage = none := by
          rw [withdrawn, if_pos hId]
          rfl
        rw [isEligible] at hNot
        rw [hGone, isShown_withdrawn, Bool.and_right_comm, Bool.and_right_comm
          (isShown tenantId (.under product.testedCoverage) product), hNot]
        simp [isShown, Standing.isPresent]
      · rw [withdrawn_of_ne hId]
        rfl
    · rw [baseWhere_of_other hTenant,
        baseWhere_of_other (fun h => hTenant (withdrawn_tenantId.symm.trans h))]
      rfl
  · intro product hMem hBase hOffered
    obtain ⟨hTenant, hId⟩ := hOther product hMem hBase hOffered
    have h := hFollows product hMem hTenant
    have h' := hFollows' product hMem hTenant
    rw [withdrawn_of_ne hId] at h'
    rw [withdrawn_of_ne hId]
    refine ⟨project_congr h h' rfl, congrArg some (sourceCandidate_congr h h' ?_)⟩
    have hAfter : product ∈ (catalog.unpublish productId).products.rows := by
      have hSame := mem_unpublish productId hMem
      rwa [withdrawn_of_ne hId] at hSame
    rw [mapGet?_keptOf hMem hTenant, mapGet?_keptOf hAfter hTenant]

end

/-! ### The requests -/

/-- An unreadable publication counts as not published: the list never fails on its choices, and
each read answers as if the product had no published version. -/
structure CountsAsNotPublished (runtime : Runtime) (catalog : Catalog) (tenant : PublicTenant)
    (context : ResolvedPublicCatalogContext) : Prop where
  accepts : ∀ document parsed, parseDocumentShape document = .ok parsed →
    publishedDocumentV2Sql document = true
  neverFails : ∀ filters error,
    ListPublicProducts.executeForContext runtime catalog tenant context filters ≠
      .error (.facetSource error)
  list : ∀ product ∈ catalog.products.rows, product.tenantId = tenant.id → product.IsUnreadable →
    ∀ filters,
      (ListPublicProducts.executeForContext runtime catalog tenant context filters).map
          PublicProductList.uncounted =
        (ListPublicProducts.executeForContext runtime (catalog.unpublish product.id) tenant context
          filters).map PublicProductList.uncounted
  detail : ∀ product ∈ catalog.products.rows, product.tenantId = tenant.id →
    product.IsUnreadable → ∀ productId,
      GetPublicProductDetail.executeForContext runtime catalog tenant context productId =
        GetPublicProductDetail.executeForContext runtime (catalog.unpublish product.id) tenant
          context productId
  cart : ∀ product ∈ catalog.products.rows, product.tenantId = tenant.id → product.IsUnreadable →
    ∀ lines,
      ValidatePublicCart.executeForContext catalog tenant context lines =
        ValidatePublicCart.executeForContext (catalog.unpublish product.id) tenant context lines

section

variable {runtime : Runtime} {catalog : Catalog} {tenant : PublicTenant}
  {context : ResolvedPublicCatalogContext} {filters : ListProductsInput} {product : ProductRow}

theorem isOf_iff : context.isOf tenant = true ↔
    tenant.id = context.tenantId ∧ tenant.slug = context.tenantSlug := by
  simp [ResolvedPublicCatalogContext.isOf]

/-- The answer of a list shows its listing, the count of the excluded products apart. -/
theorem response_uncounted {listing listing' : ProductListing}
    (h : listing.uncounted = listing'.uncounted) :
    (ListPublicProducts.response context filters listing).map PublicProductList.uncounted =
      (ListPublicProducts.response context filters listing').map PublicProductList.uncounted := by
  have hItems : listing.items = listing'.items := congrArg (fun l => l.items) h
  have hTotal : listing.total = listing'.total := congrArg (fun l => l.total) h
  have hCategories : listing.categories = listing'.categories := congrArg (fun l => l.categories) h
  have hAttributes : listing.attributes = listing'.attributes := congrArg (fun l => l.attributes) h
  unfold ListPublicProducts.response
  rw [hItems, hTotal, hCategories, hAttributes]
  cases listing'.items.mapM (toPublicProductCardForContext context.stockPresentationDefaults) <;>
    rfl

theorem executeList_uncounted {catalog' : Catalog}
    (h : (listPublicProducts runtime catalog tenant.id context filters).map
        ProductListing.uncounted =
      (listPublicProducts runtime catalog' tenant.id context filters).map
        ProductListing.uncounted) :
    (ListPublicProducts.executeForContext runtime catalog tenant context filters).map
        PublicProductList.uncounted =
      (ListPublicProducts.executeForContext runtime catalog' tenant context filters).map
        PublicProductList.uncounted := by
  unfold ListPublicProducts.executeForContext
  split
  · rfl
  · split
    · rfl
    · cases hFirst : listPublicProducts runtime catalog tenant.id context filters with
      | error error =>
          cases hSecond : listPublicProducts runtime catalog' tenant.id context filters with
          | error error' =>
              rw [hFirst, hSecond] at h
              cases h
              rfl
          | ok listing' =>
              rw [hFirst, hSecond] at h
              cases h
      | ok listing =>
          cases hSecond : listPublicProducts runtime catalog' tenant.id context filters with
          | error error' =>
              rw [hFirst, hSecond] at h
              cases h
          | ok listing' =>
              rw [hFirst, hSecond] at h
              exact response_uncounted (Except.ok.inj h)

/-- Once its sources are read, a list does not fail on them. -/
theorem executeList_ne_facetSource {sources : Option (List (String × FacetSource))}
    (hSources : readSources catalog tenant.id context = .ok sources) (error : FacetSourceError) :
    ListPublicProducts.executeForContext runtime catalog tenant context filters ≠
      .error (.facetSource error) := by
  unfold ListPublicProducts.executeForContext
  split
  · simp
  · split
    · simp
    · rw [listPublicProducts_of_sources hSources]
      split
      · intro h
        cases h
      · intro h
        have hBase : ∀ row ∈ (catalog.products.rows.filter (baseWhere runtime tenant.id
            (sources.map scopeOfSources) filters)).filter
              (matchesFacets catalog.bindings tenant.id sources filters),
            baseWhere runtime tenant.id (sources.map scopeOfSources) filters row = true :=
          fun row hRow => (List.mem_filter.mp (List.mem_filter.mp hRow).1).2
        obtain ⟨list, hList, _⟩ := response_listingOf runtime catalog hBase
        have hSame : ListPublicProducts.response context filters _ = _ := h
        rw [hList] at hSame
        cases hSame

variable (runtime filters) in
/-- A list whose sources cannot be read fails on them. -/
theorem executeList_of_unread (hTenant : context.isOf tenant = true)
    (hRequired : context.requiresPublishedEditorial = true)
    (hUnread : ¬ catalog.choicesRead tenant.id) :
    ∃ error, ListPublicProducts.executeForContext runtime catalog tenant context filters =
      .error (.facetSource error) := by
  cases hRead : readTenantFacetSources catalog tenant.id with
  | ok kept => exact absurd (choicesRead_of_ok hRead) hUnread
  | error error =>
      refine ⟨error, ?_⟩
      unfold ListPublicProducts.executeForContext listPublicProducts readSources refusedFacet
      simp only [hTenant, hRequired, hRead, Bool.not_true, Bool.false_eq_true, if_false, if_true]
      rfl

/-- The detail is a matter of the row that is asked for. -/
theorem executeDetail_congr {catalog' : Catalog} {asked : String}
    (hBindings : catalog'.bindings = catalog.bindings)
    (hRow : (catalog'.row context.tenantId asked).bind
        (rowDetail runtime catalog.bindings context) =
      (catalog.row context.tenantId asked).bind (rowDetail runtime catalog.bindings context)) :
    GetPublicProductDetail.executeForContext runtime catalog' tenant context asked =
      GetPublicProductDetail.executeForContext runtime catalog tenant context asked := by
  unfold GetPublicProductDetail.executeForContext
  cases hTenant : context.isOf tenant with
  | false => rfl
  | true =>
      rw [(isOf_iff.mp hTenant).1, getPublicProductDetail_eq, getPublicProductDetail_eq, hBindings,
        hRow]

/-- The cart is a matter of the rows of its lines. -/
theorem executeCart_congr {catalog' : Catalog} {lines : List CartLine}
    (hRows : ∀ line ∈ lines, ∀ variantIds,
      ValidatePublicCart.reconcileCandidate context
          ((catalog'.row context.tenantId line.productId).map (rowCandidate context variantIds))
          line =
        ValidatePublicCart.reconcileCandidate context
          ((catalog.row context.tenantId line.productId).map (rowCandidate context variantIds))
          line) :
    ValidatePublicCart.executeForContext catalog' tenant context lines =
      ValidatePublicCart.executeForContext catalog tenant context lines := by
  unfold ValidatePublicCart.executeForContext
  cases hTenant : context.isOf tenant with
  | false => rfl
  | true =>
      rw [(isOf_iff.mp hTenant).1]
      have hLines : lines.map (ValidatePublicCart.reconcile context
            (findPublicCartCandidates catalog' context.tenantId context
              (lines.map (·.productId)).dedup (lines.filterMap (·.variantId)).dedup)) =
          lines.map (ValidatePublicCart.reconcile context
            (findPublicCartCandidates catalog context.tenantId context
              (lines.map (·.productId)).dedup (lines.filterMap (·.variantId)).dedup)) := by
        apply List.map_congr_left
        intro line hLine
        have hAsked : line.productId ∈ (lines.map (·.productId)).dedup :=
          List.mem_dedup.mpr (List.mem_map_of_mem hLine)
        rw [reconcile_eq hAsked, reconcile_eq hAsked, hRows line hLine]
      simp only [hLines]

/-- A rejected publication never reaches the detail. -/
theorem rowDetail_withdrawn {runtime : Runtime} {bindings : List EditorialBinding}
    {productId : String} (h : product.id = productId → product.IsUnreadable) :
    rowDetail runtime bindings context (withdrawn productId product) =
      rowDetail runtime bindings context product := by
  by_cases hSame : product.id = productId
  · unfold rowDetail
    dsimp only
    rw [readCoverage_withdrawn h, isEligible_withdrawn, readCoverage_of_unreadable (h hSame)]
    cases hRequired : context.requiresPublishedEditorial with
    | true =>
        have hGone : isEligible context.tenantId context.globalPriceListId
            (context.standing none) product = false := by
          simp [isEligible, isShown, ResolvedPublicCatalogContext.standing, hRequired,
            Standing.isPresent]
        simp [hGone]
    | false =>
        have hShown : shownDetail runtime bindings context none (withdrawn productId product) =
            shownDetail runtime bindings context none product := by
          unfold withdrawn
          split <;> rfl
        simp only [Bool.false_eq_true, if_false, hShown]
  · rw [withdrawn_of_ne hSame]

theorem executeDetail_unpublish {productId asked : String}
    (h : ∀ product ∈ catalog.products.rows, product.id = productId → product.IsUnreadable) :
    GetPublicProductDetail.executeForContext runtime (catalog.unpublish productId) tenant context
        asked =
      GetPublicProductDetail.executeForContext runtime catalog tenant context asked := by
  refine executeDetail_congr rfl ?_
  rw [row_unpublish]
  cases hAsked : catalog.row context.tenantId asked with
  | none => rfl
  | some product => exact rowDetail_withdrawn (h product (row_eq_some.mp hAsked).1)

theorem cartCandidate_withdrawn {tenantId globalPriceListId productId : String}
    {variantIds : List String} {coverage : Option PublishedCoverage} :
    cartCandidate tenantId globalPriceListId variantIds coverage (withdrawn productId product) =
      cartCandidate tenantId globalPriceListId variantIds coverage product := by
  unfold withdrawn
  split <;> rfl

theorem executeCart_unpublish {productId : String} {lines : List CartLine}
    (h : ∀ product ∈ catalog.products.rows, product.id = productId → product.IsUnreadable) :
    ValidatePublicCart.executeForContext (catalog.unpublish productId) tenant context lines =
      ValidatePublicCart.executeForContext catalog tenant context lines := by
  refine executeCart_congr fun line hLine variantIds => ?_
  rw [row_unpublish]
  congr 1
  cases hRow : catalog.row context.tenantId line.productId with
  | none => rfl
  | some product =>
      have hCoverage := readCoverage_withdrawn (h product (row_eq_some.mp hRow).1)
      rw [Option.map_some, Option.map_some, Option.map_some, rowCandidate, rowCandidate,
        hCoverage, cartCandidate_withdrawn]

end

end Houndfe.PublicCatalog
