import Houndfe.PublicCatalog.DetailOffer
import Houndfe.PublicCatalog.PriceOrder

/-! The reads of two catalogs that differ in hidden prices alone: the list tells them apart exactly
when a price sort orders two readable rows of its page by a hidden price. -/

namespace Houndfe.PublicCatalog

open CatalogEditorial

/-! ### The items of a listing -/

/-- The labels that the families of the items read. -/
def vocabularyOf (bindings : List EditorialBinding) (items : List ProductProjection) :
    PublicVocabulary :=
  readEditorialPublicVocabulary bindings (items.filterMap fun item =>
    item.publishedDocument.bind fun document => tokenOf (document.get? "familyCode"))

def isReadable (scope : Option EditorialScope) (item : ProductProjection) : Bool :=
  scope.isNone || item.publishedDocument.any fun document => (parseDocumentShape document).isOk

/-- What the list shows of an item, if it can be read. -/
def shownItem (runtime : Runtime) (vocabulary : PublicVocabulary) (scope : Option EditorialScope)
    (item : ProductProjection) : Option (ProductProjection × Option PublicProjection) :=
  match scope with
  | none => some (item, none)
  | some _ =>
      match item.publishedDocument with
      | none => none
      | some document =>
          match projectPublishedEditorial runtime.numberText vocabulary document with
          | .ok editorial => some (item, some editorial)
          | .error _ => none

section

variable {runtime : Runtime} {bindings : List EditorialBinding} {scope : Option EditorialScope}
  {items items' : List ProductProjection} {item : ProductProjection} {vocabulary : PublicVocabulary}
  {tenantId globalPriceListId : String} {product : ProductRow} {sort : ProductSort}

theorem vocabularyOf_congr (h : ∀ item, item ∈ items ↔ item ∈ items') :
    vocabularyOf bindings items = vocabularyOf bindings items' := by
  unfold vocabularyOf readEditorialPublicVocabulary
  funext familyCode
  simp only [List.mem_filterMap, h]

theorem shownItem_of_unreadable (h : isReadable scope item = false) :
    shownItem runtime vocabulary scope item = none := by
  cases scope with
  | none => cases h
  | some kept =>
      unfold shownItem isReadable at *
      cases hDocument : item.publishedDocument with
      | none => rfl
      | some document =>
          rw [hDocument] at h
          cases hParsed : parseDocumentShape document with
          | ok parsed => simp [hParsed, Except.isOk, Except.toBool] at h
          | error error =>
              simp only [projectPublishedEditorial, hParsed]
              rfl

variable (runtime vocabulary) in
theorem shownItem_of_readable (h : isReadable scope item = true) :
    ∃ editorial, shownItem runtime vocabulary scope item = some (item, editorial) := by
  cases scope with
  | none => exact ⟨none, rfl⟩
  | some kept =>
      unfold shownItem isReadable at *
      cases hDocument : item.publishedDocument with
      | none => simp [hDocument] at h
      | some document =>
          rw [hDocument] at h
          cases hParsed : parseDocumentShape document with
          | ok parsed =>
              simp only [projectPublishedEditorial_of_parse hParsed]
              exact ⟨_, rfl⟩
          | error error => simp [hParsed, Except.isOk, Except.toBool] at h

theorem withEditorialIf_eq : withEditorialIf runtime bindings scope items =
    (items.filter (isReadable scope)).filterMap
      (shownItem runtime (vocabularyOf bindings items) scope) := by
  have hKept : items.filterMap (shownItem runtime (vocabularyOf bindings items) scope) =
      (items.filter (isReadable scope)).filterMap
        (shownItem runtime (vocabularyOf bindings items) scope) := by
    rw [List.filterMap_filter]
    apply List.filterMap_congr
    intro item _
    cases hReadable : isReadable scope item with
    | false => exact shownItem_of_unreadable hReadable
    | true => rfl
  rw [← hKept]
  cases scope with
  | none => exact (congrFun List.filterMap_eq_map items).symm
  | some kept => rfl

/-- Sorting before the unreadable items are dropped sorts those that remain. -/
theorem withEditorialIf_sorted :
    withEditorialIf runtime bindings scope (sortByPriceIfNeeded runtime sort items) =
      (sortByPriceIfNeeded runtime sort (items.filter (isReadable scope))).filterMap
        (shownItem runtime (vocabularyOf bindings items) scope) := by
  have hVocabulary : vocabularyOf bindings (sortByPriceIfNeeded runtime sort items) =
      vocabularyOf bindings items :=
    vocabularyOf_congr fun _ => mem_sortByPriceIfNeeded
  rw [withEditorialIf_eq, hVocabulary, filter_sortByPriceIfNeeded]

theorem map_id_filterMap_shownItem (h : ∀ item ∈ items, isReadable scope item = true) :
    (items.filterMap (shownItem runtime vocabulary scope)).map (·.1.id) = items.map (·.id) := by
  induction items with
  | nil => rfl
  | cons first rest ih =>
      obtain ⟨editorial, hShown⟩ := shownItem_of_readable runtime vocabulary
        (h first List.mem_cons_self)
      rw [List.filterMap_cons_some hShown, List.map_cons, List.map_cons,
        ih fun item hItem => h item (List.mem_cons_of_mem _ hItem)]

theorem isReadable_project : isReadable scope (project tenantId globalPriceListId scope product) =
    (scope.isNone || product.readCoverage.isSome) := by
  cases scope with
  | none => rfl
  | some kept =>
      rw [isReadable, Bool.eq_iff_iff]
      simp only [Option.isNone_some, Bool.false_or, readCoverage_isSome_iff, project,
        Option.bind_some, Option.any_eq_true, Option.map_eq_some_iff]
      constructor
      · rintro ⟨_, ⟨publication, hPublished, rfl⟩, hOk⟩
        cases hParsed : parseDocumentShape publication.publishedDocument with
        | ok parsed => exact ⟨publication, hPublished, parsed, hParsed⟩
        | error error => simp [hParsed, Except.isOk, Except.toBool] at hOk
      · rintro ⟨publication, hPublished, parsed, hParsed⟩
        exact ⟨_, ⟨publication, hPublished, rfl⟩, by rw [hParsed]; rfl⟩

end

/-! ### The answer of a list -/

/-- The list is answered from the rows: nothing of the request is refused before. -/
structure IsListed (catalog : Catalog) (tenant : PublicTenant)
    (context : ResolvedPublicCatalogContext) (filters : ListProductsInput)
    (sources : Option (List (String × FacetSource))) : Prop where
  ofTenant : context.isOf tenant = true
  unrefused : refusedFacet context filters = none
  read : readSources catalog tenant.id context = .ok sources
  known : unknownFacet catalog.bindings sources filters = none

section

variable (runtime : Runtime) (catalog : Catalog) (tenantId : String)
  (context : ResolvedPublicCatalogContext) (filters : ListProductsInput)
  (sources : Option (List (String × FacetSource)))

def shownProjections : List ProductProjection :=
  (shownRows runtime catalog tenantId context filters sources).map
    (project tenantId context.globalPriceListId (sources.map scopeOfSources))

def listedItems : List (ProductProjection × Option PublicProjection) :=
  (sortByPriceIfNeeded runtime filters.sort
    (shownProjections runtime catalog tenantId context filters sources)).filterMap
      (shownItem runtime (vocabularyOf catalog.bindings
        ((pageOf filters (eligibleRows runtime catalog tenantId context filters sources)).map
          (project tenantId context.globalPriceListId (sources.map scopeOfSources))))
        (sources.map scopeOfSources))

def ownListing : ProductListing :=
  let scope := sources.map scopeOfSources
  let base := catalog.products.rows.filter (baseWhere runtime tenantId scope filters)
  listingOf runtime catalog tenantId context scope filters
    (base.filter (matchesFacets catalog.bindings tenantId sources filters))
    (attributesOf runtime catalog.bindings tenantId sources filters
      (base.filter (offeredIn tenantId context.globalPriceListId scope)))

end

section

variable {runtime : Runtime} {catalog : Catalog} {tenant : PublicTenant} {tenantId : String}
  {context : ResolvedPublicCatalogContext} {filters : ListProductsInput}
  {sources : Option (List (String × FacetSource))} {change : ProductRow → ProductRow}

theorem executeList_of_listed (h : IsListed catalog tenant context filters sources) :
    ListPublicProducts.executeForContext runtime catalog tenant context filters =
      ListPublicProducts.response context filters
        (ownListing runtime catalog tenant.id context filters sources) := by
  unfold ListPublicProducts.executeForContext
  simp only [h.ofTenant, h.unrefused, Bool.not_true, Bool.false_eq_true, if_false]
  rw [listPublicProducts_of_sources h.read, h.known]
  rfl

theorem isReadable_shown : ∀ item ∈ shownProjections runtime catalog tenantId context filters
    sources, isReadable (sources.map scopeOfSources) item = true := by
  intro item hItem
  obtain ⟨product, hProduct, rfl⟩ := List.mem_map.mp hItem
  rw [isReadable_project, Option.isNone_map]
  exact (List.mem_filter.mp hProduct).2

variable (runtime catalog tenantId context filters sources) in
theorem ownListing_items : (ownListing runtime catalog tenantId context filters sources).items =
    listedItems runtime catalog tenantId context filters sources := by
  have hRows : ((pageOf filters (eligibleRows runtime catalog tenantId context filters
      sources)).map (project tenantId context.globalPriceListId
        (sources.map scopeOfSources))).filter (isReadable (sources.map scopeOfSources)) =
      shownProjections runtime catalog tenantId context filters sources := by
    unfold shownProjections shownRows
    rw [List.filter_map]
    congr 2
    funext product
    rw [Function.comp_apply, isReadable_project, Option.isNone_map]
  unfold listedItems
  rw [← hRows, ← withEditorialIf_sorted]
  rfl

/-- The list shows the readable rows of its page, in the order of the sort. -/
theorem executeList_ids (h : IsListed catalog tenant context filters sources) :
    ∃ list, ListPublicProducts.executeForContext runtime catalog tenant context filters =
        .ok list ∧
      list.items.map (·.id) = (sortByPriceIfNeeded runtime filters.sort
        (shownProjections runtime catalog tenant.id context filters sources)).map (·.id) := by
  have hAnswer : ∃ list, ListPublicProducts.response context filters
        (ownListing runtime catalog tenant.id context filters sources) = .ok list ∧ _ ∧
      list.items.map (·.id) = (ownListing runtime catalog tenant.id context filters
        sources).items.map (·.1.id) :=
    response_listingOf runtime catalog fun row hRow =>
      (List.mem_filter.mp (List.mem_filter.mp hRow).1).2
  obtain ⟨list, hList, _, hIds⟩ := hAnswer
  refine ⟨list, (executeList_of_listed h).trans hList, ?_⟩
  have hItems := ownListing_items runtime catalog tenant.id context filters sources
  rw [hIds]
  refine (congrArg (List.map (·.1.id)) hItems).trans (map_id_filterMap_shownItem ?_)
  intro item hItem
  exact isReadable_shown item (mem_sortByPriceIfNeeded.mp hItem)

/-! ### Hidden prices in a listing -/

variable (hKeeps : KeepsRedacted change)

include hKeeps

theorem isListed_mapHidden : IsListed (catalog.mapHidden change hKeeps) tenant context filters
    sources ↔ IsListed catalog tenant context filters sources := by
  constructor
  · intro h
    exact ⟨h.ofTenant, h.unrefused, readSources_mapHidden hKeeps ▸ h.read, h.known⟩
  · intro h
    exact ⟨h.ofTenant, h.unrefused, (readSources_mapHidden hKeeps).trans h.read, h.known⟩

/-- A request that is refused is refused whatever the hidden prices are. -/
theorem executeList_of_not_listed
    (h : ∀ sources, ¬ IsListed catalog tenant context filters sources) :
    ListPublicProducts.executeForContext runtime (catalog.mapHidden change hKeeps) tenant context
        filters =
      ListPublicProducts.executeForContext runtime catalog tenant context filters := by
  unfold ListPublicProducts.executeForContext
  cases hTenant : context.isOf tenant with
  | false => rfl
  | true =>
      simp only [Bool.not_true, Bool.false_eq_true, if_false]
      cases hFacets : refusedFacet context filters with
      | some code => rfl
      | none =>
          dsimp only
          cases hSources : readSources catalog tenant.id context with
          | error error =>
              unfold listPublicProducts
              rw [readSources_mapHidden hKeeps, hSources]
              rfl
          | ok sources =>
              rw [listPublicProducts_of_sources hSources,
                listPublicProducts_of_sources ((readSources_mapHidden hKeeps).trans hSources)]
              cases hKnown : unknownFacet catalog.bindings sources filters with
              | none => exact absurd ⟨hTenant, hFacets, hSources, hKnown⟩ (h sources)
              | some unknown =>
                  have hSame : unknownFacet (catalog.mapHidden change hKeeps).bindings sources
                      filters = some unknown := hKnown
                  rw [hSame]

/-- Hidden prices change nothing in a listing but its items. -/
theorem ownListing_mapHidden :
    ownListing runtime (catalog.mapHidden change hKeeps) tenantId context filters sources =
      { ownListing runtime catalog tenantId context filters sources with
        items := listedItems runtime (catalog.mapHidden change hKeeps) tenantId context filters
          sources } := by
  have hBase := baseRows_mapHidden runtime catalog tenantId filters sources hKeeps
  have hAttributes : attributesOf runtime catalog.bindings tenantId sources filters
      (((catalog.mapHidden change hKeeps).products.rows.filter
        (baseWhere runtime tenantId (sources.map scopeOfSources) filters)).filter
          (offeredIn tenantId context.globalPriceListId (sources.map scopeOfSources))) =
      attributesOf runtime catalog.bindings tenantId sources filters
        ((catalog.products.rows.filter
          (baseWhere runtime tenantId (sources.map scopeOfSources) filters)).filter
            (offeredIn tenantId context.globalPriceListId (sources.map scopeOfSources))) := by
    rw [hBase, filter_map_keeps hKeeps fun _ => offeredIn_redacted]
    apply attributesOf_eq runtime filters rfl
    intro product _
    congr 1
    funext kept
    exact hKeeps.apply (fun _ => sourceCandidate_redacted) product
  have hEligible := eligibleRows_mapHidden runtime catalog tenantId context filters sources hKeeps
  have hItems := ownListing_items runtime (catalog.mapHidden change hKeeps) tenantId context filters
    sources
  have hMatched : ((catalog.mapHidden change hKeeps).products.rows.filter
      (baseWhere runtime tenantId (sources.map scopeOfSources) filters)).filter
        (matchesFacets catalog.bindings tenantId sources filters) =
      ((catalog.products.rows.filter
        (baseWhere runtime tenantId (sources.map scopeOfSources) filters)).filter
          (matchesFacets catalog.bindings tenantId sources filters)).map change := by
    rw [hBase, filter_map_keeps hKeeps (matchesFacets_redacted _)]
  unfold eligibleRows at hEligible
  rw [← hItems]
  unfold ownListing listingOf
  dsimp only
  rw [ProductListing.mk.injEq]
  refine ⟨rfl, ?_, ?_, ?_, hAttributes⟩
  · exact (congrArg List.length hEligible).trans (List.length_map ..)
  · have hTotal := congrArg List.length hEligible
    have hCount := congrArg List.length hMatched
    rw [List.length_map] at hTotal hCount
    exact congrArg₂ (fun a b : Nat => (a : Int) - b) hCount hTotal
  · refine (congrArg (toCategoryFacets runtime catalog.categories) hEligible).trans ?_
    exact toCategoryFacets_map (hKeeps.apply fun _ => redacted_category) _

end

end Houndfe.PublicCatalog
