import Houndfe.PublicCatalog.Confinement
import Houndfe.PublicCatalog.DetailOffer

/-! The cart, the detail and the list on one product: when they offer the same. -/

namespace Houndfe.PublicCatalog

open CatalogEditorial

/-! ### The pages of the list -/

section

variable {runtime : Runtime} {catalog : Catalog} {tenantId productId : String}
  {context : ResolvedPublicCatalogContext} {filters : ListProductsInput} {product : ProductRow}
  {scope : Option EditorialScope} {bindings : List EditorialBinding}

/-- What is read whole passes the test in the database. -/
theorem testedCoverage_of_read {own : PublishedCoverage} (h : product.readCoverage = some own) :
    product.testedCoverage = some own := by
  obtain ⟨publication, hPublished, parsed, hParsed⟩ := parse_of_readCoverage h
  have hOwn : publication.coverage = own := by
    rw [ProductRow.readCoverage, hPublished, Option.bind_some, readPublishedCoverage, hParsed] at h
    exact Option.some.inj h
  rw [ProductRow.testedCoverage, hPublished, Option.bind_some,
    if_pos (publishedDocumentV2Sql_of_parse hParsed), hOwn]

theorem exists_page {α : Type} {rows : List α} {row : α} {limit : Nat} (hLimit : 1 ≤ limit)
    (h : row ∈ rows) : ∃ page, 1 ≤ page ∧ row ∈ (rows.drop ((page - 1) * limit)).take limit := by
  obtain ⟨index, hIndex, rfl⟩ := List.mem_iff_getElem.mp h
  refine ⟨index / limit + 1, Nat.le_add_left _ _, ?_⟩
  have hSplit : index / limit * limit + index % limit = index := by
    rw [Nat.mul_comm]
    exact Nat.div_add_mod index limit
  rw [List.mem_iff_getElem]
  refine ⟨index % limit, ?_, ?_⟩
  · have hRest := Nat.mod_lt index hLimit
    rw [List.length_take, List.length_drop, Nat.add_sub_cancel]
    omega
  · rw [List.getElem_take, List.getElem_drop]
    simp only [Nat.add_sub_cancel, hSplit]

theorem eq_of_mem_zip_map {α β : Type} {f : α → β} {rows : List α} {row : α} {answer : β}
    (h : (row, answer) ∈ rows.zip (rows.map f)) : answer = f row := by
  have hPairs : rows.zip (rows.map f) = rows.map fun row => (row, f row) := by
    rw [← List.zip_map', List.map_id']
  rw [hPairs] at h
  obtain ⟨_, _, hPair⟩ := List.mem_map.mp h
  cases hPair
  rfl

theorem exists_withEditorial {items : List ProductProjection} {shown : ProductProjection}
    {document : JsonValue} {parsed : DocumentShape} (hMem : shown ∈ items)
    (hDocument : shown.publishedDocument = some document)
    (hParsed : parseDocumentShape document = .ok parsed) :
    ∃ item ∈ withEditorial runtime bindings items, item.1 = shown := by
  have hKept : (shown, some (projectDocument runtime.numberText (readEditorialPublicVocabulary
      bindings (items.filterMap fun item => item.publishedDocument.bind fun document =>
        tokenOf (document.get? "familyCode"))) parsed)) ∈ withEditorial runtime bindings items := by
    refine List.mem_filterMap.mpr ⟨shown, hMem, ?_⟩
    simp only [hDocument, projectPublishedEditorial_of_parse hParsed]
  exact ⟨_, hKept, rfl⟩

/-- The list keeps the readable rows of its page. -/
theorem mem_listing_ids {base : List ProductRow}
    {attributes : Option (List PublicCatalogAttributeFacet)} :
    productId ∈ (listingOf runtime catalog tenantId context scope filters base
        attributes).items.map (·.1.id) ↔
      ∃ product ∈ pageOf filters (base.filter (offeredIn tenantId context.globalPriceListId scope)),
        product.id = productId ∧ (scope.isSome = true → product.readCoverage.isSome = true) := by
  have hShown : ∀ shown, shown ∈ sortByPriceIfNeeded runtime filters.sort
      ((pageOf filters (base.filter (offeredIn tenantId context.globalPriceListId scope))).map
        (project tenantId context.globalPriceListId scope)) ↔
      ∃ product ∈ pageOf filters (base.filter (offeredIn tenantId context.globalPriceListId scope)),
        project tenantId context.globalPriceListId scope product = shown := by
    intro shown
    rw [mem_sortByPriceIfNeeded, List.mem_map]
  unfold listingOf
  dsimp only
  cases scope with
  | none =>
      rw [withEditorialIf, List.map_map, List.mem_map]
      constructor
      · rintro ⟨shown, hMem, hId⟩
        obtain ⟨product, hProduct, rfl⟩ := (hShown shown).mp hMem
        exact ⟨product, hProduct, hId, fun h => absurd h Bool.false_ne_true⟩
      · rintro ⟨product, hProduct, hId, _⟩
        exact ⟨_, (hShown _).mpr ⟨product, hProduct, rfl⟩, hId⟩
  | some scope =>
      rw [withEditorialIf, List.mem_map]
      constructor
      · rintro ⟨item, hItem, hId⟩
        obtain ⟨shown, hMem, hKept⟩ := List.mem_filterMap.mp hItem
        obtain ⟨product, hProduct, rfl⟩ := (hShown shown).mp hMem
        split at hKept
        · cases hKept
        · next document hDocument =>
            split at hKept <;> cases hKept
            next editorial hEditorial =>
              obtain ⟨publication, hPublished, rfl⟩ := Option.map_eq_some_iff.mp hDocument
              obtain ⟨parsed, hParsed, _⟩ := bind_eq_ok.mp hEditorial
              exact ⟨product, hProduct, hId, fun _ =>
                readCoverage_isSome_iff.mpr ⟨publication, hPublished, parsed, hParsed⟩⟩
      · rintro ⟨product, hProduct, hId, hRead⟩
        obtain ⟨publication, hPublished, parsed, hParsed⟩ :=
          readCoverage_isSome_iff.mp (hRead rfl)
        have hDocument : (project tenantId context.globalPriceListId (some scope)
            product).publishedDocument = some publication.publishedDocument := by
          rw [project, hPublished]
          rfl
        obtain ⟨item, hItem, hFirst⟩ := exists_withEditorial
          ((hShown _).mpr ⟨product, hProduct, rfl⟩) hDocument hParsed
        refine ⟨item, hItem, ?_⟩
        rw [hFirst]
        exact hId

end

/-! ### One line under the three reads -/

/-- The cart offers a line exactly as the detail shows it, and the product is on some page of the
list without filters exactly when it has a detail. -/
structure OffersAlike (runtime : Runtime) (catalog : Catalog) (tenant : PublicTenant)
    (context : ResolvedPublicCatalogContext) (line : CartLine) : Prop where
  cart : ∀ lines response, line ∈ lines →
    ValidatePublicCart.executeForContext catalog tenant context lines = .ok response →
      ∀ item, (line, item) ∈ lines.zip response.items →
        item.offeredPrice = shownPrice runtime catalog tenant context line
  list : ∀ sort limit, 1 ≤ limit →
    ((∃ filters response, filters.IsUnfiltered ∧ filters.sort = sort ∧ filters.limit = limit ∧
        ListPublicProducts.executeForContext runtime catalog tenant context filters =
          .ok response ∧ ∃ card ∈ response.items, card.id = line.productId) ↔
      ∃ detail, GetPublicProductDetail.executeForContext runtime catalog tenant context
        line.productId = .ok detail)

section

variable {runtime : Runtime} {catalog : Catalog} {tenant : PublicTenant}
  {context : ResolvedPublicCatalogContext} {line : CartLine} {product : ProductRow}
  {filters : ListProductsInput}

theorem executeDetail_eq (hTenant : context.isOf tenant = true) (productId : String) :
    GetPublicProductDetail.executeForContext runtime catalog tenant context productId =
      match (catalog.row context.tenantId productId).bind
        (rowDetail runtime catalog.bindings context) with
      | none => .error .notFound
      | some item => toPublicProductDetailForContext tenant context item := by
  unfold GetPublicProductDetail.executeForContext
  rw [hTenant, (isOf_iff.mp hTenant).1, getPublicProductDetail_eq]
  rfl

variable (runtime) in
/-- An eligible row has a detail, which shows what the row offers. -/
theorem executeDetail_of_eligible (hTenant : context.isOf tenant = true)
    (hRow : catalog.row context.tenantId line.productId = some product)
    (hEligible : isEligible context.tenantId context.globalPriceListId
      (context.standing product.readCoverage) product = true) :
    ∃ detail, GetPublicProductDetail.executeForContext runtime catalog tenant context
        line.productId = .ok detail ∧
      detail.priceOf line = detailOffer context.tenantId context.globalPriceListId
        (context.standing product.readCoverage) product (truthy line.variantId) := by
  have hShown : isShown context.tenantId (context.standing product.readCoverage) product = true := by
    rw [isEligible, Bool.and_eq_true] at hEligible
    exact hEligible.1
  have hPresent : (context.standing product.readCoverage).isPresent = true := by
    simp only [isShown, Bool.and_eq_true] at hShown
    exact hShown.1.2
  obtain ⟨editorial, hDetail⟩ := shownDetail_some runtime catalog.bindings hPresent
  obtain ⟨stock, hStock⟩ := productStock_detail context.stockPresentationDefaults hShown
  have hRead : rowDetail runtime catalog.bindings context product =
      some (detailProjection context product, editorial) := by
    unfold rowDetail
    dsimp only
    rw [if_pos hEligible]
    exact hDetail
  have hAnswer : ∃ detail, toPublicProductDetailForContext tenant context
      (detailProjection context product, editorial) = .ok detail :=
    ⟨_, by rw [toPublicProductDetailForContext, hStock]⟩
  obtain ⟨detail, hOk⟩ := hAnswer
  refine ⟨detail, ?_, priceOf_detail hEligible hOk⟩
  rw [executeDetail_eq hTenant, hRow, Option.bind_some, hRead]
  exact hOk

theorem executeDetail_of_not (hTenant : context.isOf tenant = true)
    (h : ∀ product, catalog.row context.tenantId line.productId = some product →
      isEligible context.tenantId context.globalPriceListId
        (context.standing product.readCoverage) product = false) :
    GetPublicProductDetail.executeForContext runtime catalog tenant context line.productId =
      .error .notFound := by
  rw [executeDetail_eq hTenant]
  cases hRow : catalog.row context.tenantId line.productId with
  | none => rfl
  | some product =>
      have hNone : rowDetail runtime catalog.bindings context product = none := by
        unfold rowDetail
        dsimp only
        rw [h product hRow]
        rfl
      rw [Option.bind_some, hNone]

theorem shownPrice_eq (hTenant : context.isOf tenant = true)
    (hRow : catalog.row context.tenantId line.productId = some product) :
    shownPrice runtime catalog tenant context line =
      detailOffer context.tenantId context.globalPriceListId
        (context.standing product.readCoverage) product (truthy line.variantId) := by
  unfold shownPrice
  cases hEligible : isEligible context.tenantId context.globalPriceListId
      (context.standing product.readCoverage) product with
  | true =>
      obtain ⟨detail, hDetail, hPrice⟩ := executeDetail_of_eligible runtime hTenant hRow
        hEligible
      rw [hDetail]
      exact hPrice
  | false =>
      rw [executeDetail_of_not hTenant fun other hOther => by
        rw [hRow] at hOther
        rw [← Option.some.inj hOther]
        exact hEligible]
      simp [detailOffer, hEligible]

/-- The list without filters shows the readable eligible rows, once it can be read at all. -/
theorem listed_iff (hTenant : context.isOf tenant = true) {sort : ProductSort} {limit : Nat}
    (hLimit : 1 ≤ limit) :
    (∃ filters response, filters.IsUnfiltered ∧ filters.sort = sort ∧ filters.limit = limit ∧
        ListPublicProducts.executeForContext runtime catalog tenant context filters =
          .ok response ∧ ∃ card ∈ response.items, card.id = line.productId) ↔
      (context.requiresPublishedEditorial = true → catalog.choicesRead tenant.id) ∧
        ∃ product, catalog.row context.tenantId line.productId = some product ∧
          isEligible context.tenantId context.globalPriceListId
            (context.standing product.readCoverage) product = true := by
  have hOwn := (isOf_iff.mp hTenant).1
  -- a row is eligible for the list and readable exactly when it is eligible for the detail
  have hStanding : ∀ product : ProductRow,
      (isEligible context.tenantId context.globalPriceListId
          (context.standing product.testedCoverage) product = true ∧
        (context.requiresPublishedEditorial = true → product.readCoverage.isSome = true)) ↔
      isEligible context.tenantId context.globalPriceListId
        (context.standing product.readCoverage) product = true := by
    intro product
    cases hRequired : context.requiresPublishedEditorial with
    | false => simp [ResolvedPublicCatalogContext.standing, hRequired]
    | true =>
        cases hRead : product.readCoverage with
        | none =>
            simp [ResolvedPublicCatalogContext.standing, hRequired, isEligible, isShown,
              Standing.isPresent]
        | some own =>
            rw [testedCoverage_of_read hRead]
            simp
  constructor
  · rintro ⟨filters, response, hUnfiltered, rfl, rfl, hList, card, hCard, hId⟩
    have hChoices : context.requiresPublishedEditorial = true → catalog.choicesRead tenant.id := by
      intro hRequired
      by_contra hUnread
      obtain ⟨error, hError⟩ := executeList_of_unread runtime filters hTenant hRequired hUnread
      rw [hError] at hList
      cases hList
    refine ⟨hChoices, ?_⟩
    obtain ⟨sources, hSources, hSome⟩ := exists_sources hChoices
    obtain ⟨base, attributes, list, hOk, hBase, _, hIds⟩ := executeList_unfiltered runtime hTenant
      hSources hUnfiltered
    rw [hList] at hOk
    cases hOk
    have hMem : line.productId ∈ response.items.map (·.id) := List.mem_map.mpr ⟨card, hCard, hId⟩
    rw [hIds, mem_listing_ids, hBase, hSome] at hMem
    obtain ⟨product, hPage, hProductId, hRead⟩ := hMem
    obtain ⟨hIn, hEligible⟩ := List.mem_filter.mp (mem_of_mem_pageOf hPage)
    have hTenantId : product.tenantId = tenant.id := by
      by_contra hOther
      simp [isEligible, isShown, hOther] at hEligible
    rw [hOwn] at hTenantId hEligible
    exact ⟨product, row_eq_some.mpr ⟨hIn, hTenantId, hProductId⟩,
      (hStanding product).mp ⟨hEligible, hRead⟩⟩
  · rintro ⟨hChoices, product, hRow, hEligible⟩
    obtain ⟨hMem, _, hProductId⟩ := row_eq_some.mp hRow
    obtain ⟨hTested, hRead⟩ := (hStanding product).mpr hEligible
    obtain ⟨sources, hSources, hSome⟩ := exists_sources hChoices
    have hIn : product ∈ newestFirst (catalog.products.rows.filter fun product =>
        isEligible tenant.id context.globalPriceListId (context.standing product.testedCoverage)
          product) := by
      rw [hOwn]
      exact (List.mem_insertionSort _).mpr (List.mem_filter.mpr ⟨hMem, hTested⟩)
    obtain ⟨page, hPage, hOnPage⟩ := exists_page hLimit hIn
    have hUnfiltered : ListProductsInput.IsUnfiltered
        ⟨none, none, sort, page, limit, none, hPage, hLimit⟩ := ⟨rfl, rfl, rfl⟩
    obtain ⟨base, attributes, list, hOk, hBase, _, hIds⟩ := executeList_unfiltered runtime hTenant
      hSources hUnfiltered
    have hListed : line.productId ∈ list.items.map (·.id) := by
      rw [hIds, mem_listing_ids, hBase, hSome]
      exact ⟨product, hOnPage, hProductId, hRead⟩
    obtain ⟨card, hCard, hId⟩ := List.mem_map.mp hListed
    exact ⟨_, list, ⟨rfl, rfl, rfl⟩, rfl, rfl, hOk, card, hCard, hId⟩

/-- The line that a cart answers with is what the row of its product offers. -/
theorem cart_item_eq (hTenant : context.isOf tenant = true) {lines : List CartLine}
    {response : ValidatePublicCart.CartValidationResponse} (hLine : line ∈ lines)
    (hCart : ValidatePublicCart.executeForContext catalog tenant context lines = .ok response)
    {item : CartValidatedItem} (hItem : (line, item) ∈ lines.zip response.items) :
    item.offeredPrice = (catalog.row context.tenantId line.productId).bind fun product =>
      cartOffer context.tenantId context.globalPriceListId
        (context.standing product.readCoverage) product (truthy line.variantId) := by
  unfold ValidatePublicCart.executeForContext at hCart
  rw [hTenant, (isOf_iff.mp hTenant).1] at hCart
  cases hCart
  rw [eq_of_mem_zip_map hItem,
    reconcile_eq (List.mem_dedup.mpr (List.mem_map_of_mem hLine))]
  cases hRow : catalog.row context.tenantId line.productId with
  | none => exact offeredPrice_redacted (by decide)
  | some product =>
      rw [Option.map_some, Option.bind_some]
      apply offeredPrice_reconcile
      intro variantId hVariant
      exact List.mem_dedup.mpr (List.mem_filterMap.mpr ⟨line, hLine, hVariant⟩)

/-- The three reads agree on a line exactly when the cart does not sell what the detail does not
show, and no unreadable choice of another publication keeps the list from being read. -/
theorem offersAlike_iff (runtime : Runtime) (catalog : Catalog) (tenant : PublicTenant)
    (context : ResolvedPublicCatalogContext) (line : CartLine) :
    OffersAlike runtime catalog tenant context line ↔
      (context.isOf tenant = true → ∀ product,
        catalog.row context.tenantId line.productId = some product →
          ¬ SellsUnlisted context.tenantId context.globalPriceListId
            (context.standing product.readCoverage) product (truthy line.variantId) ∧
          ¬ SellsWhole context.tenantId context.globalPriceListId
            (context.standing product.readCoverage) product (truthy line.variantId) ∧
          (context.requiresPublishedEditorial = true →
            isEligible context.tenantId context.globalPriceListId
              (context.standing product.readCoverage) product = true →
            catalog.choicesRead tenant.id)) := by
  cases hTenant : context.isOf tenant with
  | false =>
      refine ⟨fun _ h => absurd h Bool.false_ne_true, fun _ => ⟨?_, ?_⟩⟩
      · intro lines response _ hCart
        simp [ValidatePublicCart.executeForContext, hTenant] at hCart
      · intro sort limit _
        simp [ListPublicProducts.executeForContext, GetPublicProductDetail.executeForContext,
          hTenant]
  | true =>
      constructor
      · intro h _ product hRow
        obtain ⟨_, hOwn, _⟩ := row_eq_some.mp hRow
        have hAnswer : ∃ item, ValidatePublicCart.executeForContext catalog tenant context [line] =
            .ok (ValidatePublicCart.response context [item]) :=
          ⟨_, by rw [ValidatePublicCart.executeForContext, hTenant]; rfl⟩
        obtain ⟨item, hCart⟩ := hAnswer
        have hItem : (line, item) ∈ [line].zip (ValidatePublicCart.response context [item]).items :=
          List.mem_singleton_self _
        have hOffer := h.cart [line] _ (List.mem_singleton_self line) hCart item hItem
        rw [cart_item_eq hTenant (List.mem_singleton_self line) hCart hItem,
          shownPrice_eq hTenant hRow, hRow, Option.bind_some] at hOffer
        obtain ⟨hUnlisted, hWhole⟩ := (cartOffer_eq_iff hOwn).mp hOffer
        refine ⟨hUnlisted, hWhole, ?_⟩
        intro hRequired hEligible
        obtain ⟨detail, hDetail, _⟩ := executeDetail_of_eligible runtime hTenant hRow hEligible
        have hListed := (h.list .newest 1 (Nat.le_refl 1)).mpr ⟨detail, hDetail⟩
        exact ((listed_iff hTenant (Nat.le_refl 1)).mp hListed).1 hRequired
      · intro h
        refine ⟨?_, ?_⟩
        · intro lines response hLine hCart item hItem
          rw [cart_item_eq hTenant hLine hCart hItem]
          cases hRow : catalog.row context.tenantId line.productId with
          | none =>
              unfold shownPrice
              rw [executeDetail_of_not hTenant fun product hOther => by
                rw [hRow] at hOther
                cases hOther]
              rfl
          | some product =>
              obtain ⟨hUnlisted, hWhole, _⟩ := h rfl product hRow
              obtain ⟨_, hOwn, _⟩ := row_eq_some.mp hRow
              rw [Option.bind_some, shownPrice_eq hTenant hRow]
              exact (cartOffer_eq_iff hOwn).mpr ⟨hUnlisted, hWhole⟩
        · intro sort limit hLimit
          rw [listed_iff hTenant hLimit]
          constructor
          · rintro ⟨_, product, hRow, hEligible⟩
            obtain ⟨detail, hDetail, _⟩ := executeDetail_of_eligible runtime hTenant hRow hEligible
            exact ⟨detail, hDetail⟩
          · rintro ⟨detail, hDetail⟩
            by_contra hNot
            rw [executeDetail_of_not hTenant] at hDetail
            · cases hDetail
            · intro product hRow
              cases hEligible : isEligible context.tenantId context.globalPriceListId
                  (context.standing product.readCoverage) product with
              | false => rfl
              | true =>
                  exact absurd ⟨fun hRequired => (h rfl product hRow).2.2 hRequired hEligible,
                    product, hRow, hEligible⟩ hNot

/-- A priced variant of a product whose own price in the list is still zero. -/
def unlistedRow : ProductRow :=
  { simpleRow with
    hasVariants := true
    priceLists := [⟨"tenant", "list", 0⟩]
    variants := ⟨[⟨"variant", "tenant", "3 kg", none, none, 1, 0, .inherit, ⟨none, none⟩, [],
      [⟨"tenant", "tenant", "list", 100⟩]⟩], by simp⟩ }

theorem cart_sells_unlisted_variant :
    ¬ OffersAlike plainRuntime (.single unlistedRow) sampleTenant
      { sampleContext with requiresPublishedEditorial := false }
      ⟨"product", some "variant", 1⟩ := by
  intro h
  have hOffer := h.cart [⟨"product", some "variant", 1⟩] _ (List.mem_singleton_self _) rfl _
    (List.mem_singleton_self _)
  exact absurd hOffer (by decide)

end

end Houndfe.PublicCatalog
