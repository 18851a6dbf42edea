import Houndfe.PublicCatalog.HiddenPrices

/-! When a list tells hidden prices: exactly when two rows that it shows can change places under its
price sort. -/

namespace Houndfe.PublicCatalog

open CatalogEditorial

/-! ### Two rows of a page -/

/-- Under a price sort, a price of a hidden product decides which of two rows comes first: of two
hidden ones always, and beside a visible one unless that costs a single cent and its name settles
the tie as the missing price does. -/
def CanPass (runtime : Runtime) (tenantId globalPriceListId : String) (descending : Bool)
    (first second : ProductRow) : Prop :=
  match first.isEffectivelyPriceHidden, second.isEffectivelyPriceHidden with
  | false, false => False
  | true, true => True
  | true, false => second.priceIn tenantId globalPriceListId ≠ some 1 ∨
      runtime.nameLe first.name second.name ≠ descending
  | false, true => first.priceIn tenantId globalPriceListId ≠ some 1 ∨
      runtime.nameLe first.name second.name = descending

/-- Of the hidden products only one has a price in the list, of a cent. -/
def oneCentFor (tenantId globalPriceListId productId : String) (product : ProductRow) :
    ProductRow :=
  if product.isEffectivelyPriceHidden then
    { product with
      priceLists := if product.id = productId then [⟨tenantId, globalPriceListId, 1⟩] else [] }
  else product

section

variable {runtime : Runtime} {tenantId globalPriceListId productId : String} {descending : Bool}
  {first second product : ProductRow} {scope : Option EditorialScope}

variable (tenantId globalPriceListId productId) in
theorem keepsRedacted_oneCentFor :
    KeepsRedacted (oneCentFor tenantId globalPriceListId productId) := by
  intro product
  unfold oneCentFor
  split
  · next hHidden =>
      rw [redacted_of_hidden hHidden]
      exact if_pos hHidden
  · rfl

theorem priceIn_oneCentFor_hidden (h : product.isEffectivelyPriceHidden = true) :
    (oneCentFor tenantId globalPriceListId productId product).priceIn tenantId globalPriceListId =
      if product.id = productId then some 1 else none := by
  unfold oneCentFor ProductRow.priceIn
  rw [if_pos h]
  by_cases hId : product.id = productId <;> simp [hId, priceListWhere]

theorem oneCentFor_visible (h : product.isEffectivelyPriceHidden = false) :
    oneCentFor tenantId globalPriceListId productId product = product := by
  unfold oneCentFor
  rw [h]
  exact if_neg Bool.false_ne_true

theorem oneCentFor_name :
    (oneCentFor tenantId globalPriceListId productId product).name = product.name := by
  unfold oneCentFor
  split <;> rfl

theorem priceIn_pos {cents : Int}
    (h : product.priceIn tenantId globalPriceListId = some cents) : 0 < cents := by
  rw [← filter_priceIn, Option.filter_eq_some_iff, decide_eq_true_iff] at h
  exact h.2

/-- A visible row that is offered has a price. -/
theorem priced_of_visible (hVisible : product.isEffectivelyPriceHidden = false)
    (h : offeredIn tenantId globalPriceListId scope product = true) :
    ∃ cents, product.priceIn tenantId globalPriceListId = some cents ∧ 0 < cents := by
  have hShown : (product.hidePriceInOnlineCatalog || product.requiresPrescription) = false :=
    hVisible
  rw [offeredIn, hShown, Bool.false_or, Bool.and_eq_true] at h
  have hAny : product.priceLists.any (priceListWhere tenantId globalPriceListId) = true := by
    have hPriced := h.2
    rw [pricedIn] at hPriced
    cases hVariants : product.hasVariants <;> simp [hVariants] at hPriced
    · simpa using hPriced
    · simpa using hPriced.1
  have hSome : (product.priceIn tenantId globalPriceListId).isSome = true := by
    rw [ProductRow.priceIn, isSome_find?_map]
    exact hAny
  obtain ⟨cents, hCents⟩ := Option.isSome_iff_exists.mp hSome
  exact ⟨cents, hCents, priceIn_pos hCents⟩

/-- The comparison of two rows, by their prices and their names. -/
def rowLe (runtime : Runtime) (tenantId globalPriceListId : String) (descending : Bool)
    (first second : ProductRow) : Bool :=
  match first.priceIn tenantId globalPriceListId, second.priceIn tenantId globalPriceListId with
  | none, none => true
  | none, some _ => descending
  | some _, none => !descending
  | some priceA, some priceB =>
      if priceA = priceB then runtime.nameLe first.name second.name
      else if descending then priceB < priceA
      else priceA < priceB

theorem priceLe_project : priceLe runtime descending
    (project tenantId globalPriceListId scope first)
    (project tenantId globalPriceListId scope second) =
      rowLe runtime tenantId globalPriceListId descending first second := rfl

/-- Rows that can pass stand either way, by the row that has the cent. -/
theorem rowLe_of_canPass (hNe : first.id ≠ second.id)
    (hFirst : offeredIn tenantId globalPriceListId scope first = true)
    (hSecond : offeredIn tenantId globalPriceListId scope second = true)
    (hPass : CanPass runtime tenantId globalPriceListId descending first second) :
    rowLe runtime tenantId globalPriceListId descending
        (oneCentFor tenantId globalPriceListId second.id first)
        (oneCentFor tenantId globalPriceListId second.id second) = descending ∧
      rowLe runtime tenantId globalPriceListId descending
        (oneCentFor tenantId globalPriceListId first.id first)
        (oneCentFor tenantId globalPriceListId first.id second) = !descending := by
  unfold CanPass at hPass
  unfold rowLe
  simp only [oneCentFor_name]
  cases hFirstHidden : first.isEffectivelyPriceHidden with
  | true =>
      simp only [priceIn_oneCentFor_hidden hFirstHidden, hNe, if_false, if_true]
      cases hSecondHidden : second.isEffectivelyPriceHidden with
      | true => simp [priceIn_oneCentFor_hidden hSecondHidden, Ne.symm hNe]
      | false =>
          obtain ⟨cents, hCents, hPositive⟩ := priced_of_visible hSecondHidden hSecond
          simp only [oneCentFor_visible hSecondHidden, hCents]
          simp only [hFirstHidden, hSecondHidden, hCents, ne_eq, Option.some.injEq] at hPass
          refine ⟨trivial, ?_⟩
          by_cases hOne : 1 = cents
          · rw [if_pos hOne]
            have hName := hPass.resolve_left (not_not_intro hOne.symm)
            cases descending <;> simpa using hName
          · rw [if_neg hOne]
            cases descending <;> simp <;> omega
  | false =>
      obtain ⟨cents, hCents, hPositive⟩ := priced_of_visible hFirstHidden hFirst
      simp only [oneCentFor_visible hFirstHidden, hCents]
      cases hSecondHidden : second.isEffectivelyPriceHidden with
      | false => simp [hFirstHidden, hSecondHidden] at hPass
      | true =>
          simp only [priceIn_oneCentFor_hidden hSecondHidden, Ne.symm hNe, if_false, if_true]
          simp only [hFirstHidden, hSecondHidden, hCents, ne_eq, Option.some.injEq] at hPass
          refine ⟨?_, trivial⟩
          by_cases hOne : cents = 1
          · rw [if_pos hOne]
            exact hPass.resolve_left (not_not_intro hOne)
          · rw [if_neg hOne]
            cases descending <;> simp <;> omega

theorem priceIn_redacted_hidden (h : product.isEffectivelyPriceHidden = true) :
    product.redacted.priceIn tenantId globalPriceListId = none := by
  rw [redacted_of_hidden h]
  rfl

/-- Rows that cannot pass stand as they do without hidden prices. -/
theorem rowLe_redacted
    (hPass : ¬ CanPass runtime tenantId globalPriceListId descending first second) :
    rowLe runtime tenantId globalPriceListId descending first second =
      rowLe runtime tenantId globalPriceListId descending first.redacted second.redacted := by
  unfold CanPass at hPass
  unfold rowLe
  simp only [redacted_name]
  cases hFirstHidden : first.isEffectivelyPriceHidden with
  | true =>
      cases hSecondHidden : second.isEffectivelyPriceHidden with
      | true => simp [hFirstHidden, hSecondHidden] at hPass
      | false =>
          simp only [hFirstHidden, hSecondHidden, not_or, ne_eq, not_not] at hPass
          obtain ⟨hOne, hName⟩ := hPass
          simp only [priceIn_redacted_hidden hFirstHidden, redacted_of_visible hSecondHidden, hOne,
            hName]
          cases hPrice : first.priceIn tenantId globalPriceListId with
          | none => rfl
          | some cents =>
              have hPositive := priceIn_pos hPrice
              dsimp only
              split
              · rfl
              · cases descending <;> simp <;> omega
  | false =>
      cases hSecondHidden : second.isEffectivelyPriceHidden with
      | false => rw [redacted_of_visible hFirstHidden, redacted_of_visible hSecondHidden]
      | true =>
          simp only [hFirstHidden, hSecondHidden, not_or, ne_eq, not_not] at hPass
          obtain ⟨hOne, hName⟩ := hPass
          have hOpposite : runtime.nameLe first.name second.name = !descending := by
            cases descending <;> simpa using hName
          simp only [priceIn_redacted_hidden hSecondHidden, redacted_of_visible hFirstHidden, hOne,
            hOpposite]
          cases hPrice : second.priceIn tenantId globalPriceListId with
          | none => rfl
          | some cents =>
              have hPositive := priceIn_pos hPrice
              dsimp only
              split
              · rfl
              · cases descending <;> simp <;> omega

end

/-! ### Two reads -/

/-- Whatever the price rows of hidden products are, the reads of a request stay the same. -/
structure HidesPrices (runtime : Runtime) (catalog : Catalog) (tenant : PublicTenant)
    (context : ResolvedPublicCatalogContext) (filters : ListProductsInput) : Prop where
  list : ∀ other : Catalog, other.redacted = catalog.redacted →
    ListPublicProducts.executeForContext runtime other tenant context filters =
      ListPublicProducts.executeForContext runtime catalog tenant context filters
  detail : ∀ other : Catalog, other.redacted = catalog.redacted → ∀ productId,
    GetPublicProductDetail.executeForContext runtime other tenant context productId =
      GetPublicProductDetail.executeForContext runtime catalog tenant context productId
  cart : ∀ other : Catalog, other.redacted = catalog.redacted → ∀ lines,
    ValidatePublicCart.executeForContext other tenant context lines =
      ValidatePublicCart.executeForContext catalog tenant context lines

/-- No two rows that the list shows can pass each other under its sort. -/
def KeepsOrder (runtime : Runtime) (catalog : Catalog) (tenant : PublicTenant)
    (context : ResolvedPublicCatalogContext) (filters : ListProductsInput) : Prop :=
  ∀ sources descending, IsListed catalog tenant context filters sources →
    filters.sort.priceOrder = some descending →
      (shownRows runtime catalog tenant.id context filters sources).Pairwise fun first second =>
        ¬ CanPass runtime tenant.id context.globalPriceListId descending first second

section

variable {runtime : Runtime} {catalog : Catalog} {tenant : PublicTenant}
  {context : ResolvedPublicCatalogContext} {filters : ListProductsInput}
  {sources : Option (List (String × FacetSource))} {first second : ProductRow} {descending : Bool}

theorem canPass_redacted {tenantId globalPriceListId : String} :
    CanPass runtime tenantId globalPriceListId descending first.redacted second.redacted ↔
      CanPass runtime tenantId globalPriceListId descending first second := by
  unfold CanPass
  simp only [redacted_isEffectivelyPriceHidden, redacted_name]
  cases hFirst : first.isEffectivelyPriceHidden <;>
    cases hSecond : second.isEffectivelyPriceHidden
  · exact Iff.rfl
  · simp only [redacted_of_visible hFirst]
  · simp only [redacted_of_visible hSecond]
  · exact Iff.rfl

theorem keepsOrder_redacted : KeepsOrder runtime catalog.redacted tenant context filters ↔
    KeepsOrder runtime catalog tenant context filters := by
  have hKeeps : KeepsRedacted ProductRow.redacted := fun _ => redacted_redacted
  have hRows : ∀ sources, shownRows runtime catalog.redacted tenant.id context filters sources =
      (shownRows runtime catalog tenant.id context filters sources).map ProductRow.redacted :=
    fun _ => shownRows_mapHidden hKeeps
  have hListed : ∀ sources, IsListed catalog.redacted tenant context filters sources ↔
      IsListed catalog tenant context filters sources := fun _ => isListed_mapHidden hKeeps
  unfold KeepsOrder
  simp only [hListed, hRows, List.pairwise_map, canPass_redacted]

/-! ### The list that tells nothing -/

/-- The card of a product shows no hidden price. -/
theorem card_redacted (item : ProductProjection × Option PublicProjection) :
    toPublicProductCardForContext context.stockPresentationDefaults (item.1.redacted, item.2) =
      toPublicProductCardForContext context.stockPresentationDefaults item := by
  obtain ⟨product, editorial⟩ := item
  unfold ProductProjection.redacted
  split
  · next hHidden =>
      have hAfter : ProductProjection.isEffectivelyPriceHidden { product with
          priceCents := none
          variants := product.variants.map ProjectedVariant.withoutPrice } = true := hHidden
      unfold toPublicProductCardForContext
      simp only [hAfter, hHidden, if_true]
      rfl
  · rfl

theorem redacted_publishedDocument (item : ProductProjection) :
    item.redacted.publishedDocument = item.publishedDocument := by
  unfold ProductProjection.redacted
  split <;> rfl

theorem shownItem_redacted {vocabulary : PublicVocabulary} {scope : Option EditorialScope}
    (item : ProductProjection) : shownItem runtime vocabulary scope item.redacted =
      (shownItem runtime vocabulary scope item).map fun shown => (shown.1.redacted, shown.2) := by
  unfold shownItem
  cases scope with
  | none => rfl
  | some kept =>
      simp only [redacted_publishedDocument]
      cases item.publishedDocument with
      | none => rfl
      | some document =>
          dsimp only
          cases projectPublishedEditorial runtime.numberText vocabulary document <;> rfl

theorem shownProjections_redacted :
    shownProjections runtime catalog.redacted tenant.id context filters sources =
      (shownProjections runtime catalog tenant.id context filters sources).map
        ProductProjection.redacted := by
  have hRows : shownRows runtime catalog.redacted tenant.id context filters sources =
      (shownRows runtime catalog tenant.id context filters sources).map ProductRow.redacted :=
    shownRows_mapHidden fun _ => redacted_redacted
  unfold shownProjections
  rw [hRows, List.map_map, List.map_map]
  exact List.map_congr_left fun product _ => project_redacted (ignoresPrices_sources sources)

theorem vocabularyOf_redacted {bindings : List EditorialBinding} (items : List ProductProjection) :
    vocabularyOf bindings (items.map ProductProjection.redacted) = vocabularyOf bindings items := by
  unfold vocabularyOf
  rw [List.filterMap_map]
  simp only [Function.comp_def, redacted_publishedDocument]

/-- Where no row can pass another, the sort finds the order that the names and the visible prices
give. -/
theorem sorted_redacted (hOrder : KeepsOrder runtime catalog tenant context filters)
    (hListed : IsListed catalog tenant context filters sources) :
    sortByPriceIfNeeded runtime filters.sort
        ((shownProjections runtime catalog tenant.id context filters sources).map
          ProductProjection.redacted) =
      (sortByPriceIfNeeded runtime filters.sort
        (shownProjections runtime catalog tenant.id context filters sources)).map
          ProductProjection.redacted := by
  cases hSort : filters.sort.priceOrder with
  | none => rw [sortByPriceIfNeeded_of_none _ hSort, sortByPriceIfNeeded_of_none _ hSort]
  | some descending =>
      rw [sortByPriceIfNeeded_of_order _ hSort, sortByPriceIfNeeded_of_order _ hSort]
      apply StableSort.map_insertionSort
      unfold shownProjections
      rw [List.pairwise_map]
      refine (hOrder sources descending hListed hSort).imp fun {first second} hPass => ?_
      rw [← project_redacted (ignoresPrices_sources sources),
        ← project_redacted (ignoresPrices_sources sources), priceLe_project, priceLe_project,
        rowLe_redacted hPass]

theorem executeList_redacted (hOrder : KeepsOrder runtime catalog tenant context filters) :
    ListPublicProducts.executeForContext runtime catalog.redacted tenant context filters =
      ListPublicProducts.executeForContext runtime catalog tenant context filters := by
  have hKeeps : KeepsRedacted ProductRow.redacted := fun _ => redacted_redacted
  by_cases hAny : ∃ sources, IsListed catalog tenant context filters sources
  · obtain ⟨sources, hListed⟩ := hAny
    have hAfter : IsListed catalog.redacted tenant context filters sources :=
      (isListed_mapHidden hKeeps).mpr hListed
    have hOwn : ownListing runtime catalog.redacted tenant.id context filters sources =
        { ownListing runtime catalog tenant.id context filters sources with
          items := listedItems runtime catalog.redacted tenant.id context filters sources } :=
      ownListing_mapHidden hKeeps
    have hPage : (pageOf filters (eligibleRows runtime catalog.redacted tenant.id context filters
          sources)).map (project tenant.id context.globalPriceListId (sources.map scopeOfSources)) =
        ((pageOf filters (eligibleRows runtime catalog tenant.id context filters sources)).map
          (project tenant.id context.globalPriceListId (sources.map scopeOfSources))).map
            ProductProjection.redacted := by
      have hEligible : eligibleRows runtime catalog.redacted tenant.id context filters sources =
          _ := eligibleRows_mapHidden runtime catalog tenant.id context filters sources hKeeps
      rw [hEligible, pageOf_mapHidden hKeeps, List.map_map, List.map_map]
      exact List.map_congr_left fun product _ => project_redacted (ignoresPrices_sources sources)
    have hItems : listedItems runtime catalog.redacted tenant.id context filters sources =
        (listedItems runtime catalog tenant.id context filters sources).map fun shown =>
          (shown.1.redacted, shown.2) := by
      unfold listedItems
      rw [shownProjections_redacted, sorted_redacted hOrder hListed, hPage, vocabularyOf_redacted,
        List.filterMap_map, List.map_filterMap]
      apply List.filterMap_congr
      intro item _
      exact shownItem_redacted item
    rw [executeList_of_listed hAfter, executeList_of_listed hListed, hOwn, hItems]
    unfold ListPublicProducts.response
    have hCards : ((listedItems runtime catalog tenant.id context filters sources).map
          fun shown => (shown.1.redacted, shown.2)).mapM
            (toPublicProductCardForContext context.stockPresentationDefaults) =
        (ownListing runtime catalog tenant.id context filters sources).items.mapM
          (toPublicProductCardForContext context.stockPresentationDefaults) := by
      rw [ownListing_items, List.mapM_map]
      exact congrArg (fun card => List.mapM card _) (funext card_redacted)
    rw [hCards]
  · exact executeList_of_not_listed hKeeps (not_exists.mp hAny)

/-! ### The list that tells -/

theorem not_both_orders {α : Type} {l : List α} {a b : α} (hNodup : l.Nodup) (hNe : a ≠ b)
    (hFirst : [a, b].Sublist l) (hSecond : [b, a].Sublist l) : False := by
  induction l with
  | nil => cases hFirst
  | cons x rest ih =>
      obtain ⟨hNot, hRest⟩ := List.nodup_cons.mp hNodup
      cases hFirst with
      | cons _ hFirst =>
          cases hSecond with
          | cons _ hSecond => exact ih hRest hFirst hSecond
          | cons_cons _ hSecond => exact hNot (hFirst.subset (List.mem_cons_of_mem _ List.mem_cons_self))
      | cons_cons _ hFirst =>
          cases hSecond with
          | cons _ hSecond => exact hNot (hSecond.subset (List.mem_cons_of_mem _ List.mem_cons_self))
          | cons_cons _ hSecond => exact hNe rfl

theorem nodup_shownRows :
    ((shownRows runtime catalog tenant.id context filters sources).map (·.id)).Nodup := by
  have hEligible : ((eligibleRows runtime catalog tenant.id context filters sources).map
      ProductRow.id).Nodup :=
    ((List.filter_sublist.trans (List.filter_sublist.trans List.filter_sublist)).map
      ProductRow.id).nodup catalog.products.distinct
  have hNewest : ((newestFirst (eligibleRows runtime catalog tenant.id context filters
      sources)).map ProductRow.id).Nodup :=
    ((List.perm_insertionSort _ _).map ProductRow.id).nodup_iff.mpr hEligible
  exact ((List.filter_sublist.trans ((List.take_sublist _ _).trans
    (List.drop_sublist _ _))).map ProductRow.id).nodup hNewest

theorem offeredIn_of_shown
    (h : first ∈ shownRows runtime catalog tenant.id context filters sources) :
    offeredIn tenant.id context.globalPriceListId (sources.map scopeOfSources) first = true :=
  (List.mem_filter.mp (mem_of_mem_pageOf (List.mem_filter.mp h).1)).2

/-- The order in which the list shows two rows when one hidden product costs a cent. -/
theorem ids_oneCentFor (productId : String)
    (hListed : IsListed catalog tenant context filters sources)
    (hSort : filters.sort.priceOrder = some descending)
    (hSub : [first, second].Sublist
      (shownRows runtime catalog tenant.id context filters sources)) :
    ∃ list, ListPublicProducts.executeForContext runtime (catalog.mapHidden _
        (keepsRedacted_oneCentFor tenant.id context.globalPriceListId productId)) tenant context
          filters = .ok list ∧
      (if rowLe runtime tenant.id context.globalPriceListId descending
          (oneCentFor tenant.id context.globalPriceListId productId first)
          (oneCentFor tenant.id context.globalPriceListId productId second)
        then [first.id, second.id] else [second.id, first.id]).Sublist
          (list.items.map (·.id)) := by
  have hKeeps := keepsRedacted_oneCentFor tenant.id context.globalPriceListId productId
  obtain ⟨list, hList, hIds⟩ := executeList_ids ((isListed_mapHidden hKeeps).mpr hListed)
  refine ⟨list, hList, ?_⟩
  have hId : ∀ product : ProductRow, (project tenant.id context.globalPriceListId
      (sources.map scopeOfSources)
      (oneCentFor tenant.id context.globalPriceListId productId product)).id = product.id :=
    fun product => hKeeps.apply (fun _ => redacted_id) product
  have hShown : ([first, second].map fun product => project tenant.id context.globalPriceListId
        (sources.map scopeOfSources)
        (oneCentFor tenant.id context.globalPriceListId productId product)).Sublist
      (shownProjections runtime (catalog.mapHidden _ hKeeps) tenant.id context filters
        sources) := by
    unfold shownProjections
    rw [shownRows_mapHidden hKeeps, List.map_map]
    exact hSub.map _
  rw [List.map_cons, List.map_singleton] at hShown
  rw [hIds]
  split
  · next hLe =>
      rw [← priceLe_project] at hLe
      have hSorted := (sublist_sortByPrice hSort hLe hShown).map (·.id)
      simpa only [List.map_cons, List.map_nil, hId] using hSorted
  · next hNot =>
      rw [← priceLe_project] at hNot
      have hSorted := (sublist_sortByPrice_turned hSort hNot hShown).map (·.id)
      simpa only [List.map_cons, List.map_nil, hId] using hSorted

theorem keepsOrder_of_hidden
    (h : ∀ other : Catalog, other.redacted = catalog.redacted →
      ListPublicProducts.executeForContext runtime other tenant context filters =
        ListPublicProducts.executeForContext runtime catalog tenant context filters) :
    KeepsOrder runtime catalog tenant context filters := by
  intro sources descending hListed hSort
  rw [List.pairwise_iff_forall_sublist]
  intro first second hSub hPass
  have hNodup : [first.id, second.id].Nodup :=
    (hSub.map ProductRow.id).nodup nodup_shownRows
  have hNe : first.id ≠ second.id := by simpa using hNodup
  obtain ⟨hUp, hDown⟩ := rowLe_of_canPass hNe
    (offeredIn_of_shown (hSub.subset List.mem_cons_self))
    (offeredIn_of_shown (hSub.subset (List.mem_cons_of_mem _ List.mem_cons_self))) hPass
  obtain ⟨listUp, hListUp, hIdsUp⟩ := ids_oneCentFor second.id hListed hSort hSub
  obtain ⟨listDown, hListDown, hIdsDown⟩ := ids_oneCentFor first.id hListed hSort hSub
  rw [h _ (Catalog.redacted_mapHidden _ _)] at hListUp hListDown
  rw [hListUp] at hListDown
  cases hListDown
  obtain ⟨list, hList, hIds⟩ := executeList_ids hListed
  rw [hListUp] at hList
  cases hList
  have hDistinct : (listUp.items.map (·.id)).Nodup := by
    rw [hIds, sortByPriceIfNeeded_of_order _ hSort]
    refine ((List.perm_insertionSort _ _).map _).nodup_iff.mpr ?_
    unfold shownProjections
    rw [List.map_map]
    exact nodup_shownRows
  rw [hUp] at hIdsUp
  rw [hDown] at hIdsDown
  cases descending with
  | false => exact not_both_orders hDistinct hNe hIdsDown hIdsUp
  | true => exact not_both_orders hDistinct hNe hIdsUp hIdsDown

/-- The reads hide the prices exactly when the price sort of the list cannot turn two of the rows
that it shows by a hidden price. -/
theorem hidesPrices_iff (runtime : Runtime) (catalog : Catalog) (tenant : PublicTenant)
    (context : ResolvedPublicCatalogContext) (filters : ListProductsInput) :
    HidesPrices runtime catalog tenant context filters ↔
      KeepsOrder runtime catalog tenant context filters := by
  constructor
  · intro h
    exact keepsOrder_of_hidden h.list
  · intro hOrder
    refine ⟨?_, ?_, ?_⟩
    · intro other hSame
      have hOther : KeepsOrder runtime other tenant context filters := by
        rw [← keepsOrder_redacted, hSame, keepsOrder_redacted]
        exact hOrder
      rw [← executeList_redacted hOther, hSame, executeList_redacted hOrder]
    · intro other hSame productId
      rw [← executeDetail_redacted, hSame, executeDetail_redacted]
    · intro other hSame lines
      rw [← executeCart_redacted, hSame, executeCart_redacted]

end

/-! ### Two hidden products -/

def hiddenRow (id : String) (priceCents : Int) : ProductRow :=
  { simpleRow with
    id
    hidePriceInOnlineCatalog := true
    priceLists := [⟨"tenant", "list", priceCents⟩] }

/-- A catalog of two products whose prices are hidden. -/
def hiddenPair (firstCents secondCents : Int) : Catalog where
  products := ⟨[hiddenRow "first" firstCents, hiddenRow "second" secondCents], by simp [hiddenRow]⟩
  categories := []
  bindings := []
  ownSubjects := by
    intro product hProduct _ _ _ _ _ hSubject
    rcases List.mem_pair.mp hProduct with rfl | rfl <;>
      exact absurd hSubject List.not_mem_nil

/-- The first page from the lowest price. -/
def cheapest : ListProductsInput :=
  { everything with
    sort := .priceAsc
    limit := 2
    limit_pos := by decide }

theorem list_tells_cheaper :
    ¬ HidesPrices plainRuntime (hiddenPair 100 200) sampleTenant
      { sampleContext with requiresPublishedEditorial := false } cheapest := by
  intro h
  exact absurd (h.list (hiddenPair 200 100) rfl) (by decide +kernel)

end Houndfe.PublicCatalog
