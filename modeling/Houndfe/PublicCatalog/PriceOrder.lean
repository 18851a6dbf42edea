import Houndfe.PublicCatalog.Confinement
import Houndfe.PublicCatalog.Redaction

/-! The list under hidden prices: the price sort of a page tells them, and when it does not. -/

namespace Houndfe.PublicCatalog

open CatalogEditorial

/-! ### The rows of a page -/

section

variable (runtime : Runtime) (catalog : Catalog) (tenantId : String)
  (context : ResolvedPublicCatalogContext) (filters : ListProductsInput)
  (sources : Option (List (String × FacetSource)))

/-- The rows that pass the gates, the selection and the prices. -/
def eligibleRows : List ProductRow :=
  ((catalog.products.rows.filter
      (baseWhere runtime tenantId (sources.map scopeOfSources) filters)).filter
        (matchesFacets catalog.bindings tenantId sources filters)).filter
          (offeredIn tenantId context.globalPriceListId (sources.map scopeOfSources))

/-- The readable rows of the page, newest first. -/
def shownRows : List ProductRow :=
  (pageOf filters (eligibleRows runtime catalog tenantId context filters sources)).filter
    fun product => sources.isNone || product.readCoverage.isSome

end

section

variable {runtime : Runtime} {catalog : Catalog} {tenantId : String}
  {context : ResolvedPublicCatalogContext} {filters : ListProductsInput}
  {sources : Option (List (String × FacetSource))} {product : ProductRow}
  {scope : Option EditorialScope} {change : ProductRow → ProductRow}

theorem inScope_redacted (hScope : IgnoresPrices scope) :
    inScope scope product.redacted = inScope scope product := by
  cases scope with
  | none => rfl
  | some kept => exact hScope.products kept rfl product

theorem searchWhere_redacted (hScope : IgnoresPrices scope) {q : String} :
    searchWhere runtime tenantId scope q product.redacted =
      searchWhere runtime tenantId scope q product := by
  unfold searchWhere
  cases scope with
  | some kept => rw [redacted_published]
  | none =>
      have hBrand : product.redacted.brand = product.brand := by
        unfold ProductRow.redacted
        split <;> rfl
      dsimp only
      rw [redacted_name, hBrand, redacted_id, any_variants_redacted]
      intro variant
      exact congrArg (· && _) (publicVariantWhere_withoutPrices hScope variant)

theorem baseWhere_redacted (hScope : IgnoresPrices scope) (product : ProductRow) :
    baseWhere runtime tenantId scope filters product.redacted =
      baseWhere runtime tenantId scope filters product := by
  have hPlain : (product.redacted.includeInOnlineCatalog && decide (product.redacted.type =
      .product)) = (product.includeInOnlineCatalog && decide (product.type = .product)) := by
    unfold ProductRow.redacted
    split <;> rfl
  unfold baseWhere gatesWhere matchesFilters
  rw [Bool.and_assoc, Bool.and_assoc, ← Bool.and_assoc product.redacted.includeInOnlineCatalog,
    hPlain]
  simp only [redacted_tenantId, survives_redacted, survivesForTenant_redacted hScope,
    inScope_redacted hScope, redacted_category, searchWhere_redacted hScope, Bool.and_assoc]

variable (tenantId product) in
theorem publicVariants_ids_redacted (hScope : IgnoresPrices scope) :
    (publicVariants tenantId scope product.redacted).map (·.id) =
      (publicVariants tenantId scope product).map (·.id) := by
  cases hHidden : product.isEffectivelyPriceHidden with
  | false => rw [redacted_of_visible hHidden]
  | true =>
      rw [redacted_of_hidden hHidden, publicVariants_withoutPrices hScope, List.map_map]
      rfl

def coverageOfSources (kept : List (String × FacetSource)) : List (String × PublishedCoverage) :=
  kept.map fun (productId, source) => (productId, source.coverage)

theorem sourceCandidate_redacted {bindings : List EditorialBinding}
    {kept : List (String × FacetSource)} :
    sourceCandidate bindings tenantId kept product.redacted =
      sourceCandidate bindings tenantId kept product := by
  have hIds := publicVariants_ids_redacted tenantId product
    (ignoresPrices_editorialScope (some kept) coverageOfSources)
  have hSubjects : ∀ values : Option String → FacetValues, ∀ rows : List VariantRow,
      (rows.map fun variant => values (some variant.id)) =
        (rows.map (·.id)).map fun id => values (some id) := by
    intro values rows
    rw [List.map_map]
    rfl
  unfold sourceCandidate candidateOf
  simp only [redacted_id, redacted_hasVariants, hSubjects]
  have hScope : ((some kept).map fun kept => editorialScope (coverageOfSources kept)) =
      some (scopeOfSources kept) := rfl
  rw [← hScope, hIds]

theorem matchesFacets_redacted (bindings : List EditorialBinding) (product : ProductRow) :
    matchesFacets bindings tenantId sources filters product.redacted =
      matchesFacets bindings tenantId sources filters product := by
  cases sources with
  | none => rfl
  | some kept =>
      show facetsMatch _ _ = facetsMatch _ _
      rw [sourceCandidate_redacted]

theorem ignoresPrices_sources (sources : Option (List (String × FacetSource))) :
    IgnoresPrices (sources.map scopeOfSources) :=
  ignoresPrices_editorialScope sources coverageOfSources

variable (hKeeps : KeepsRedacted change)

include hKeeps

/-- A filter that looks at no hidden price leaves the same rows. -/
theorem filter_map_keeps {p : ProductRow → Bool} {rows : List ProductRow}
    (h : ∀ product : ProductRow, p product.redacted = p product) :
    (rows.map change).filter p = (rows.filter p).map change :=
  filter_map_of fun product _ => hKeeps.apply h product

variable (runtime catalog tenantId filters sources) in
theorem baseRows_mapHidden :
    (catalog.mapHidden change hKeeps).products.rows.filter
        (baseWhere runtime tenantId (sources.map scopeOfSources) filters) =
      (catalog.products.rows.filter
        (baseWhere runtime tenantId (sources.map scopeOfSources) filters)).map change :=
  filter_map_keeps hKeeps (baseWhere_redacted (ignoresPrices_sources sources))

variable (runtime catalog tenantId context filters sources) in
theorem eligibleRows_mapHidden :
    eligibleRows runtime (catalog.mapHidden change hKeeps) tenantId context filters sources =
      (eligibleRows runtime catalog tenantId context filters sources).map change := by
  unfold eligibleRows
  rw [baseRows_mapHidden runtime catalog tenantId filters sources hKeeps, filter_map_keeps hKeeps (matchesFacets_redacted _),
    filter_map_keeps hKeeps fun _ => offeredIn_redacted]
  rfl

theorem pageOf_mapHidden (rows : List ProductRow) :
    pageOf filters (rows.map change) = (pageOf filters rows).map change :=
  pageOf_map (hKeeps.apply fun _ => redacted_createdAt) rows

theorem shownRows_mapHidden :
    shownRows runtime (catalog.mapHidden change hKeeps) tenantId context filters sources =
      (shownRows runtime catalog tenantId context filters sources).map change := by
  unfold shownRows
  rw [eligibleRows_mapHidden _ _ _ _ _ _ hKeeps, pageOf_mapHidden hKeeps, filter_map_keeps hKeeps]
  intro product
  rw [redacted_readCoverage]

theorem readSources_mapHidden :
    readSources (catalog.mapHidden change hKeeps) tenantId context =
      readSources catalog tenantId context := by
  rw [← readSources_redacted, Catalog.redacted_mapHidden, readSources_redacted]

end

/-! ### The order of a page -/

/-- Whether a list is sorted by price, and then whether from the highest. -/
def ProductSort.priceOrder : ProductSort → Option Bool
  | .priceAsc => some false
  | .priceDesc => some true
  | .relevance | .newest | .ratingDesc => none

section

variable {runtime : Runtime} {descending : Bool} {a b c : ProductProjection}

theorem priceLe_total (runtime : Runtime) (descending : Bool) (a b : ProductProjection) :
    priceLe runtime descending a b = true ∨ priceLe runtime descending b a = true := by
  unfold priceLe
  cases a.priceCents with
  | none => cases b.priceCents <;> cases descending <;> simp
  | some priceA =>
      cases b.priceCents with
      | none => cases descending <;> simp
      | some priceB =>
          dsimp only
          by_cases hSame : priceA = priceB
          · rw [if_pos hSame, if_pos hSame.symm]
            exact runtime.nameLe_total a.name b.name
          · rw [if_neg hSame, if_neg (Ne.symm hSame)]
            cases descending <;> simp <;> omega

theorem priceLe_trans (hab : priceLe runtime descending a b = true)
    (hbc : priceLe runtime descending b c = true) : priceLe runtime descending a c = true := by
  unfold priceLe at *
  cases ha : a.priceCents with
  | none =>
      cases hb : b.priceCents <;> cases hc : c.priceCents <;>
        cases descending <;> simp_all
  | some priceA =>
      cases hb : b.priceCents with
      | none => cases hc : c.priceCents <;> cases descending <;> simp_all
      | some priceB =>
          cases hc : c.priceCents with
          | none => cases descending <;> simp_all
          | some priceC =>
              simp only [ha, hb, hc] at hab hbc ⊢
              by_cases hFirst : priceA = priceB
              · rw [if_pos hFirst] at hab
                by_cases hSecond : priceB = priceC
                · rw [if_pos hSecond] at hbc
                  rw [if_pos (hFirst.trans hSecond)]
                  exact runtime.nameLe_trans hab hbc
                · rw [if_neg hSecond] at hbc
                  rw [if_neg (hFirst ▸ hSecond), hFirst]
                  exact hbc
              · rw [if_neg hFirst] at hab
                by_cases hSecond : priceB = priceC
                · rw [if_neg (hSecond ▸ hFirst), ← hSecond]
                  exact hab
                · rw [if_neg hSecond] at hbc
                  cases descending <;> simp at hab hbc ⊢ <;> split <;> omega

instance (runtime : Runtime) (descending : Bool) :
    Std.Total fun a b => priceLe runtime descending a b = true :=
  ⟨priceLe_total runtime descending⟩

instance (runtime : Runtime) (descending : Bool) :
    IsTrans ProductProjection fun a b => priceLe runtime descending a b = true :=
  ⟨fun _ _ _ => priceLe_trans⟩

theorem sortByPriceIfNeeded_of_order {sort : ProductSort} (items : List ProductProjection)
    (h : sort.priceOrder = some descending) : sortByPriceIfNeeded runtime sort items =
      items.insertionSort fun a b => priceLe runtime descending a b = true := by
  cases sort <;> cases h <;> rfl

theorem sortByPriceIfNeeded_of_none {sort : ProductSort} (items : List ProductProjection)
    (h : sort.priceOrder = none) : sortByPriceIfNeeded runtime sort items = items := by
  cases sort <;> first | rfl | cases h

theorem filter_sortByPriceIfNeeded {sort : ProductSort} {items : List ProductProjection}
    (p : ProductProjection → Bool) : (sortByPriceIfNeeded runtime sort items).filter p =
      sortByPriceIfNeeded runtime sort (items.filter p) := by
  cases hOrder : sort.priceOrder with
  | none => rw [sortByPriceIfNeeded_of_none _ hOrder, sortByPriceIfNeeded_of_none _ hOrder]
  | some descending =>
      rw [sortByPriceIfNeeded_of_order _ hOrder, sortByPriceIfNeeded_of_order _ hOrder]
      exact StableSort.filter_insertionSort p items

/-- Two items that are in order stay so, and two that are not are turned around. -/
theorem sublist_sortByPrice {sort : ProductSort} {items : List ProductProjection}
    (hSort : sort.priceOrder = some descending) (hLe : priceLe runtime descending a b = true)
    (h : [a, b].Sublist items) : [a, b].Sublist (sortByPriceIfNeeded runtime sort items) := by
  rw [sortByPriceIfNeeded_of_order _ hSort]
  exact List.pair_sublist_insertionSort (r := fun a b => priceLe runtime descending a b = true)
    hLe h

theorem sublist_sortByPrice_turned {sort : ProductSort} {items : List ProductProjection}
    (hSort : sort.priceOrder = some descending) (hNot : ¬ priceLe runtime descending a b = true)
    (h : [a, b].Sublist items) : [b, a].Sublist (sortByPriceIfNeeded runtime sort items) := by
  rw [sortByPriceIfNeeded_of_order _ hSort]
  exact StableSort.turned (r := fun a b => priceLe runtime descending a b = true)
    (h.subset List.mem_cons_self) (h.subset (List.mem_cons_of_mem _ List.mem_cons_self)) hNot

end

end Houndfe.PublicCatalog
