import Houndfe.Base.Paging
import Houndfe.PublicCatalog.FacetCounts
import Houndfe.PublicCatalog.PriceLeaks

/-! The totals of the list under other selections, which the facets predict, and its pages when
every query sorts anew the rows that were created at one time. -/

namespace Houndfe.PublicCatalog

open CatalogEditorial

/-! ### What the list counts -/

/-- The request with other facets selected. -/
def ListProductsInput.selecting (filters : ListProductsInput)
    (facets : Option (List PublicAttributeFacetSelection)) : ListProductsInput :=
  { filters with attributeFacets := facets }

section

variable (runtime : Runtime) (catalog : Catalog) (tenantId : String)
  (context : ResolvedPublicCatalogContext) (filters : ListProductsInput)
  (sources : Option (List (String × FacetSource)))

/-- The rows that every filter but the selection leaves, with a price to show or a hidden one. -/
def countedRows : List ProductRow :=
  (catalog.products.rows.filter
    (baseWhere runtime tenantId (sources.map scopeOfSources) filters)).filter
      (offeredIn tenantId context.globalPriceListId (sources.map scopeOfSources))

/-- Published and under the filters. -/
def isListed (product : ProductRow) : Bool :=
  baseWhere runtime tenantId (sources.map scopeOfSources) filters product &&
    matchesFacets catalog.bindings tenantId sources filters product

/-- The counts of a listing: the facets tell its totals under other selections. -/
structure PredictsTotals (listing : ProductListing) : Prop where
  option : ∀ facet ∈ listing.attributes.getD [], ∀ option ∈ facet.options, ∀ facets,
    Replaces (toFacetSelection filters.attributeFacets) (toFacetSelection facets) facet.code
      [option.code] →
    ∃ listing', listPublicProducts runtime catalog tenantId context (filters.selecting facets) =
      .ok listing' ∧ listing'.total = option.count
  total : listing.total = catalog.products.rows.countP fun product =>
    isListed runtime catalog tenantId filters sources product &&
      offeredIn tenantId context.globalPriceListId (sources.map scopeOfSources) product
  excluded : 0 ≤ listing.excludedCount ∧ listing.total + listing.excludedCount =
    catalog.products.rows.countP (isListed runtime catalog tenantId filters sources)
  grows : ∀ facets code chosen chosen' listing',
    (toFacetSelection filters.attributeFacets).lookup code = some chosen → chosen ⊆ chosen' →
    Replaces (toFacetSelection filters.attributeFacets) (toFacetSelection facets) code chosen' →
    listPublicProducts runtime catalog tenantId context (filters.selecting facets) =
      .ok listing' → listing.total ≤ listing'.total
  narrows : ∀ facets code chosen listing',
    (toFacetSelection filters.attributeFacets).lookup code = none →
    Replaces (toFacetSelection filters.attributeFacets) (toFacetSelection facets) code chosen →
    listPublicProducts runtime catalog tenantId context (filters.selecting facets) =
      .ok listing' → listing'.total ≤ listing.total

end

section

variable {runtime : Runtime} {catalog : Catalog} {tenantId : String}
  {context : ResolvedPublicCatalogContext} {filters : ListProductsInput}
  {sources : Option (List (String × FacetSource))} {listing : ProductListing}

theorem kept_facetValuesOf (source : FacetSource) (vocabulary : PublicFacetVocabulary)
    (variantId : Option String) : Kept List.Nodup (facetValuesOf source vocabulary variantId) := by
  unfold facetValuesOf
  refine List.foldlRecOn _ _ .nil fun values hValues choice _ => ?_
  dsimp only
  split
  · split
    · exact kept_hold hValues _ _
    · exact hValues
  · exact hValues

theorem kept_subjects (bindings : List EditorialBinding) (kept : List (String × FacetSource))
    (product : ProductRow) :
    ∀ subject ∈ (sourceCandidate bindings tenantId kept product).subjects,
      Kept List.Nodup subject := by
  have hValues : ∀ (source : FacetSource) (subject : Option String), Kept List.Nodup
      (facetValuesBySubject source (readEditorialPublicFacetVocabulary bindings) subject) := by
    intro source subject
    cases subject with
    | none => exact kept_facetValuesOf _ _ _
    | some variantId =>
        exact List.foldlRecOn _ _ (kept_facetValuesOf _ _ _) fun _ h _ _ => kept_hold h _ _
  intro subject hSubject
  unfold sourceCandidate candidateOf at hSubject
  cases hSource : mapGet? kept product.id with
  | none =>
      simp only [hSource] at hSubject
      split at hSubject
      · obtain ⟨_, _, rfl⟩ := List.mem_map.mp hSubject
        exact .nil
      · exact List.mem_singleton.mp hSubject ▸ .nil
  | some source =>
      simp only [hSource] at hSubject
      split at hSubject
      · obtain ⟨_, _, rfl⟩ := List.mem_map.mp hSubject
        exact hValues source _
      · exact List.mem_singleton.mp hSubject ▸ hValues source _


theorem listPublicProducts_eq_ok (hSources : readSources catalog tenantId context = .ok sources) :
    listPublicProducts runtime catalog tenantId context filters = .ok listing ↔
      unknownFacet catalog.bindings sources filters = none ∧
        listing = ownListing runtime catalog tenantId context filters sources := by
  rw [listPublicProducts_of_sources hSources]
  cases unknownFacet catalog.bindings sources filters with
  | some unknown => simp
  | none => simp [ownListing, eq_comm]

theorem total_ownListing : (ownListing runtime catalog tenantId context filters sources).total =
    (countedRows runtime catalog tenantId context filters sources).countP
      (matchesFacets catalog.bindings tenantId sources filters) := by
  rw [List.countP_eq_length_filter, countedRows, List.filter_comm]
  rfl

theorem unknownFacetSelection_eq_none {selection : FacetSelection}
    {definitions : FacetDefinitions} (hSelection : (selection.map Prod.fst).Nodup) :
    unknownFacetSelection selection definitions = none ↔
      ∀ code chosen, selection.lookup code = some chosen →
        ∃ definition, mapGet? definitions code = some definition ∧
          ∀ option ∈ chosen, (mapGet? definition.options option).isSome = true := by
  simp only [unknownFacetSelection, List.findSome?_eq_none_iff, Prod.forall,
    lookup_eq_some_iff hSelection]
  refine forall₃_congr fun code chosen _ => ?_
  cases mapGet? definitions code <;> simp [Option.isSome_iff_ne_none]

/-- The total under another selection, where the list knows it. -/
theorem total_selecting (hSources : readSources catalog tenantId context = .ok sources)
    {facets : Option (List PublicAttributeFacetSelection)} {listing' : ProductListing}
    (hListing : listPublicProducts runtime catalog tenantId context (filters.selecting facets) =
      .ok listing') :
    listing'.total = (countedRows runtime catalog tenantId context filters sources).countP
      (matchesFacets catalog.bindings tenantId sources (filters.selecting facets)) := by
  rw [((listPublicProducts_eq_ok hSources).mp hListing).2, total_ownListing]
  rfl

theorem option_predicts (hSources : readSources catalog tenantId context = .ok sources)
    (hKnown : unknownFacet catalog.bindings sources filters = none)
    {facet : PublicCatalogAttributeFacet}
    (hFacet : facet ∈ (ownListing runtime catalog tenantId context filters sources).attributes.getD
      []) {option : FacetOptionCount} (hOption : option ∈ facet.options)
    {facets : Option (List PublicAttributeFacetSelection)}
    (hReplaces : Replaces (toFacetSelection filters.attributeFacets) (toFacetSelection facets)
      facet.code [option.code]) :
    ∃ listing', listPublicProducts runtime catalog tenantId context (filters.selecting facets) =
      .ok listing' ∧ listing'.total = option.count := by
  have hSelection := (kept_toFacetSelection filters.attributeFacets).keys
  have hSelection' := (kept_toFacetSelection facets).keys
  cases sources with
  | none => cases hFacet
  | some kept =>
      obtain ⟨⟨definition, hDefinition, hLabel⟩, hCount⟩ := count_of_facet hSelection hFacet hOption
      have hKnown' :
          unknownFacet catalog.bindings (some kept) (filters.selecting facets) = none := by
        refine (unknownFacetSelection_eq_none hSelection').mpr fun code chosen hAt => ?_
        by_cases hSame : code = facet.code
        · subst hSame
          obtain rfl := Option.some.inj (hReplaces.self.symm.trans hAt)
          exact ⟨definition, hDefinition, by simpa using hLabel⟩
        · have hOld := hReplaces code
          rw [if_neg hSame] at hOld
          exact (unknownFacetSelection_eq_none hSelection).mp hKnown code chosen (hOld ▸ hAt)
      have hListing : listPublicProducts runtime catalog tenantId context
          (filters.selecting facets) = .ok (ownListing runtime catalog tenantId context
            (filters.selecting facets) (some kept)) :=
        (listPublicProducts_eq_ok hSources).mpr ⟨hKnown', rfl⟩
      refine ⟨_, hListing, ?_⟩
      rw [total_selecting hSources hListing, hCount, List.countP_map]
      refine List.countP_congr fun product _ => ?_
      rw [Function.comp_apply, decide_eq_true_iff]
      exact facetsMatch_one (kept_subjects _ _ product) hSelection hSelection' hReplaces

theorem predictsTotals (hSources : readSources catalog tenantId context = .ok sources)
    (hListing : listPublicProducts runtime catalog tenantId context filters = .ok listing) :
    PredictsTotals runtime catalog tenantId context filters sources listing := by
  obtain ⟨hKnown, rfl⟩ := (listPublicProducts_eq_ok hSources).mp hListing
  have hSelection : ∀ input, ((toFacetSelection input).map Prod.fst).Nodup :=
    fun input => (kept_toFacetSelection input).keys
  refine ⟨fun facet hFacet option hOption facets => option_predicts hSources hKnown hFacet hOption,
    ?_, ?_, ?_, ?_⟩
  · rw [total_ownListing, countedRows, List.countP_filter, List.countP_filter]
    refine List.countP_congr fun product _ => ?_
    simp only [isListed, Bool.and_eq_true]
    tauto
  · have hListed : (((catalog.products.rows.filter (baseWhere runtime tenantId
        (sources.map scopeOfSources) filters)).filter
          (matchesFacets catalog.bindings tenantId sources filters)).length) =
        catalog.products.rows.countP (isListed runtime catalog tenantId filters sources) := by
      rw [← List.countP_eq_length_filter, List.countP_filter]
      refine List.countP_congr fun product _ => ?_
      simp only [isListed, Bool.and_eq_true]
      tauto
    rw [← hListed]
    unfold ownListing listingOf
    dsimp only
    constructor
    · exact Int.sub_nonneg.mpr (Int.ofNat_le.mpr (List.length_filter_le _ _))
    · omega
  · intro facets code chosen chosen' listing' hAt hMore hReplaces hListing'
    rw [total_ownListing, total_selecting hSources hListing']
    refine List.countP_mono_left fun product _ hMatches => ?_
    cases sources with
    | none => exact hMatches
    | some kept =>
        exact facetsMatch_grow (hSelection _) (hSelection _) hAt hReplaces hMore hMatches
  · intro facets code chosen listing' hAt hReplaces hListing'
    rw [total_ownListing, total_selecting hSources hListing']
    refine List.countP_mono_left fun product _ hMatches => ?_
    cases sources with
    | none => exact hMatches
    | some kept => exact facetsMatch_narrow (hSelection _) (hSelection _) hAt hReplaces hMatches

end

/-! ### The pages -/

/-- Every publication of the tenant can be read. -/
def Catalog.WellPublished (catalog : Catalog) (tenantId : String) : Prop :=
  ∀ product ∈ catalog.products.rows, product.tenantId = tenantId →
    product.published.isSome = true → product.readCoverage.isSome = true

def ListProductsInput.onPage (filters : ListProductsInput) (number : Nat) : ListProductsInput :=
  { filters with
    page := number + 1
    page_pos := Nat.le_add_left 1 number }

section

variable (runtime : Runtime) (catalog : Catalog) (tenantId : String)
  (context : ResolvedPublicCatalogContext) (filters : ListProductsInput)
  (sources : Option (List (String × FacetSource)))

/-- The items of a page when the query has sorted the eligible rows like this. -/
def itemsFrom (sorted : List ProductRow) : List (ProductProjection × Option PublicProjection) :=
  let scope := sources.map scopeOfSources
  withEditorialIf runtime catalog.bindings scope (sortByPriceIfNeeded runtime filters.sort
    (((sorted.drop ((filters.page - 1) * filters.limit)).take filters.limit).map
      (project tenantId context.globalPriceListId scope)))

/-- Each page may come from another order of the rows that were created at one time; together the
pages show every eligible product once. -/
def PagesCover : Prop :=
  ∀ reads : Nat → List ProductRow,
    (∀ number, Paging.Arranges ProductRow.createdAt
      (eligibleRows runtime catalog tenantId context filters sources) (reads number)) →
    ((List.range (((eligibleRows runtime catalog tenantId context filters sources).length +
        filters.limit - 1) / filters.limit)).flatMap fun number =>
      (itemsFrom runtime catalog tenantId context (filters.onPage number) sources
        (reads number)).map (·.1.id)).Perm
      ((eligibleRows runtime catalog tenantId context filters sources).map (·.id))

end

section

variable {runtime : Runtime} {catalog : Catalog} {tenantId : String}
  {context : ResolvedPublicCatalogContext} {filters : ListProductsInput}
  {sources : Option (List (String × FacetSource))} {listing : ProductListing}

/-- The list itself reads the rows in one of these orders. -/
theorem items_ownListing : (ownListing runtime catalog tenantId context filters sources).items =
    itemsFrom runtime catalog tenantId context filters sources
      (newestFirst (eligibleRows runtime catalog tenantId context filters sources)) :=
  rfl

theorem arranges_newestFirst (rows : List ProductRow) :
    Paging.Arranges ProductRow.createdAt rows (newestFirst rows) := by
  have hTotal : Std.Total fun a b : ProductRow => b.createdAt ≤ a.createdAt :=
    ⟨fun _ _ => le_total _ _⟩
  have hTrans : IsTrans ProductRow fun a b => b.createdAt ≤ a.createdAt :=
    ⟨fun _ _ _ h h' => le_trans h' h⟩
  exact ⟨List.perm_insertionSort _ rows, List.pairwise_insertionSort _ rows⟩

theorem sortByPriceIfNeeded_perm (runtime : Runtime) (sort : ProductSort)
    (items : List ProductProjection) : (sortByPriceIfNeeded runtime sort items).Perm items := by
  cases sort with
  | priceAsc => exact List.perm_insertionSort _ _
  | priceDesc => exact List.perm_insertionSort _ _
  | _ => exact .refl _

/-- Where every publication can be read, so can that of every eligible row. -/
theorem isReadable_eligible (hWell : catalog.WellPublished tenantId)
    (hSources : readSources catalog tenantId context = .ok sources) {product : ProductRow}
    (hEligible : product ∈ eligibleRows runtime catalog tenantId context filters sources) :
    isReadable (sources.map scopeOfSources)
      (project tenantId context.globalPriceListId (sources.map scopeOfSources) product) = true := by
  obtain ⟨hMatched, _⟩ := List.mem_filter.mp (List.mem_filter.mp hEligible).1
  obtain ⟨hMem, hBase⟩ := List.mem_filter.mp hMatched
  simp only [baseWhere, gatesWhere, Bool.and_eq_true, decide_eq_true_eq] at hBase
  obtain ⟨⟨⟨hTenant, _⟩, _⟩, ⟨_, hScope⟩, _⟩ := hBase
  rw [isReadable_project, Option.isNone_map]
  have hFollows := (follows_list hSources hMem hTenant).products
  rcases readSources_eq_ok.mp hSources with ⟨_, rfl⟩ | ⟨hRequired, _, rfl⟩
  · rfl
  · rw [hScope, ResolvedPublicCatalogContext.standing, if_pos hRequired, eq_comm,
      Bool.and_eq_true] at hFollows
    have hPublished : product.published.isSome = true := by
      cases hNone : product.published with
      | some publication => rfl
      | none => simp [Standing.isPresent, ProductRow.testedCoverage, hNone] at hFollows
    exact hWell product hMem hTenant hPublished

theorem ids_itemsFrom {sorted : List ProductRow}
    (hReadable : ∀ product ∈ sorted, isReadable (sources.map scopeOfSources)
      (project tenantId context.globalPriceListId (sources.map scopeOfSources) product) = true)
    (number : Nat) :
    ((itemsFrom runtime catalog tenantId context (filters.onPage number) sources sorted).map
      (·.1.id)).Perm ((Paging.page filters.limit sorted number).map (·.id)) := by
  have hItems : ∀ item ∈ (Paging.page filters.limit sorted number).map
      (project tenantId context.globalPriceListId (sources.map scopeOfSources)),
      isReadable (sources.map scopeOfSources) item = true := by
    intro item hItem
    obtain ⟨product, hProduct, rfl⟩ := List.mem_map.mp hItem
    exact hReadable product (List.mem_of_mem_drop (List.mem_of_mem_take hProduct))
  have hSorted := sortByPriceIfNeeded_perm runtime filters.sort
    ((Paging.page filters.limit sorted number).map
      (project tenantId context.globalPriceListId (sources.map scopeOfSources)))
  change ((withEditorialIf _ _ _ (sortByPriceIfNeeded runtime filters.sort
    ((Paging.page filters.limit sorted number).map _))).map _).Perm _
  rw [withEditorialIf_sorted, List.filter_eq_self.mpr hItems,
    map_id_filterMap_shownItem fun item hItem => hItems item (hSorted.mem_iff.mp hItem)]
  refine (hSorted.map _).trans ?_
  rw [List.map_map]
  exact .refl _

theorem pagesCover_iff (hWell : catalog.WellPublished tenantId)
    (hSources : readSources catalog tenantId context = .ok sources) :
    PagesCover runtime catalog tenantId context filters sources ↔
      Paging.Uncut ProductRow.createdAt filters.limit
        (newestFirst (eligibleRows runtime catalog tenantId context filters sources)) := by
  have hNewest := arranges_newestFirst
    (eligibleRows runtime catalog tenantId context filters sources)
  have hPages : ∀ total, total ≤ (total + filters.limit - 1) / filters.limit * filters.limit := by
    intro total
    have hSplit := Nat.div_add_mod (total + filters.limit - 1) filters.limit
    have hRest := Nat.mod_lt (total + filters.limit - 1) filters.limit_pos
    rw [Nat.mul_comm] at hSplit
    omega
  have hIds : ∀ reads : Nat → List ProductRow, (∀ number, Paging.Arranges ProductRow.createdAt
      (eligibleRows runtime catalog tenantId context filters sources) (reads number)) →
      ∀ pages, ((List.range pages).flatMap fun number =>
        (itemsFrom runtime catalog tenantId context (filters.onPage number) sources
          (reads number)).map (·.1.id)).Perm
        (((List.range pages).flatMap fun number =>
          Paging.page filters.limit (reads number) number).map (·.id)) := by
    intro reads hReads pages
    rw [List.map_flatMap]
    refine List.Perm.flatMap_left _ fun number _ =>
      ids_itemsFrom (fun product hProduct => ?_) number
    exact isReadable_eligible hWell hSources ((hReads number).perm.mem_iff.mp hProduct)
  have hEnough := hNewest.perm.length_eq.trans_le (hPages _)
  constructor
  · intro hCover
    by_contra hCut
    obtain ⟨reads, hReads, hRepeated⟩ :=
      Paging.exists_repeated hNewest.descending hEnough filters.limit_pos hCut
    have hReads' : ∀ number, Paging.Arranges ProductRow.createdAt
        (eligibleRows runtime catalog tenantId context filters sources) (reads number) :=
      fun number => ⟨(hReads number).perm.trans hNewest.perm, (hReads number).descending⟩
    have hKeys : ((eligibleRows runtime catalog tenantId context filters sources).map
        ProductRow.id).Nodup :=
      ((List.filter_sublist.trans (List.filter_sublist.trans List.filter_sublist)).map
        ProductRow.id).nodup catalog.products.distinct
    have hOnce := (hIds reads hReads' _).symm.trans (hCover reads hReads')
    exact hRepeated (hOnce.nodup_iff.mpr hKeys).of_map
  · intro hUncut reads hReads
    refine (hIds reads hReads _).trans (List.Perm.map _ ?_)
    refine (Paging.pages_perm hNewest.descending hUncut hEnough fun number => ?_).trans
      hNewest.perm
    exact ⟨(hReads number).perm.trans hNewest.perm.symm, (hReads number).descending⟩

/-- The counts always predict the totals; the pages show every eligible product once exactly when
none ends between two of them that were created at one time. -/
theorem predicts_list_iff (hWell : catalog.WellPublished tenantId)
    (hSources : readSources catalog tenantId context = .ok sources)
    (hListing : listPublicProducts runtime catalog tenantId context filters = .ok listing) :
    (PredictsTotals runtime catalog tenantId context filters sources listing ∧
        PagesCover runtime catalog tenantId context filters sources) ↔
      Paging.Uncut ProductRow.createdAt filters.limit
        (newestFirst (eligibleRows runtime catalog tenantId context filters sources)) :=
  (and_iff_right (predictsTotals hSources hListing)).trans (pagesCover_iff hWell hSources)

end

/-! ### Two products of one time -/

/-- The context of a sale that reads products without a publication. -/
def unpublishedContext : ResolvedPublicCatalogContext :=
  { sampleContext with requiresPublishedEditorial := false }

theorem wellPublished_hiddenPair (firstCents secondCents : Int) :
    (hiddenPair firstCents secondCents).WellPublished "tenant" := by
  intro product hProduct _ hPublished
  rcases List.mem_pair.mp hProduct with rfl | rfl <;> exact absurd hPublished Bool.false_ne_true

theorem predicts_list_of_one_page : ∃ listing,
    listPublicProducts plainRuntime (hiddenPair 100 200) "tenant" unpublishedContext cheapest =
      .ok listing ∧
    PredictsTotals plainRuntime (hiddenPair 100 200) "tenant" unpublishedContext cheapest none
        listing ∧
      PagesCover plainRuntime (hiddenPair 100 200) "tenant" unpublishedContext cheapest none := by
  refine ⟨_, rfl, (predicts_list_iff (wellPublished_hiddenPair 100 200) rfl rfl).mpr ?_⟩
  intro number a b _ hb
  obtain ⟨hInside, _⟩ := List.getElem?_eq_some_iff.mp hb
  have hLength : (newestFirst (eligibleRows plainRuntime (hiddenPair 100 200) "tenant"
      unpublishedContext cheapest none)).length = 2 := rfl
  rw [hLength] at hInside
  change (number + 1) * 2 < 2 at hInside
  omega

theorem pages_repeat_twin : ¬ ∀ listing,
    listPublicProducts plainRuntime (hiddenPair 100 200) "tenant" unpublishedContext everything =
      .ok listing →
    PredictsTotals plainRuntime (hiddenPair 100 200) "tenant" unpublishedContext everything none
        listing ∧
      PagesCover plainRuntime (hiddenPair 100 200) "tenant" unpublishedContext everything none := by
  intro h
  have hPages := (h _ rfl).2
  have hUncut := (pagesCover_iff (wellPublished_hiddenPair 100 200) rfl).mp hPages
  exact absurd (hUncut 0 _ _ rfl rfl) (by decide)

end Houndfe.PublicCatalog
