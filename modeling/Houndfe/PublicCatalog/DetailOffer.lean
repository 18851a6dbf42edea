import Houndfe.PublicCatalog.Offers

/-! The detail of an eligible row: it is always answered, and shows for a line what the row offers. -/

namespace Houndfe.PublicCatalog

open CatalogEditorial

section

variable {runtime : Runtime} {bindings : List EditorialBinding}
  {context : ResolvedPublicCatalogContext} {product : ProductRow} {tenant : PublicTenant}
  {line : CartLine}

/-- The coverage that the detail of a product goes by. -/
def detailCoverage (context : ResolvedPublicCatalogContext) (product : ProductRow) :
    Option PublishedCoverage :=
  if context.requiresPublishedEditorial then product.readCoverage else none

def detailScope (context : ResolvedPublicCatalogContext) (product : ProductRow) :
    Option EditorialScope :=
  (detailCoverage context product).map fun own => editorialScope [(product.id, own)]

/-- A publication is there where one is required. -/
theorem readCoverage_of_present
    (h : (context.standing product.readCoverage).isPresent = true)
    (hRequired : context.requiresPublishedEditorial = true) :
    ∃ own, product.readCoverage = some own := by
  rw [ResolvedPublicCatalogContext.standing, if_pos hRequired] at h
  exact Option.isSome_iff_exists.mp h

theorem follows_detail (h : (context.standing product.readCoverage).isPresent = true) :
    Follows (detailScope context product) product (context.standing product.readCoverage) := by
  unfold detailScope detailCoverage
  cases hRequired : context.requiresPublishedEditorial with
  | false =>
      rw [ResolvedPublicCatalogContext.standing, hRequired]
      exact follows_free product
  | true =>
      obtain ⟨own, hOwn⟩ := readCoverage_of_present h hRequired
      rw [ResolvedPublicCatalogContext.standing, hRequired, if_pos rfl, if_pos rfl, hOwn]
      exact follows_own

/-- The defensive filter of the detail leaves the shown variants as they are. -/
theorem coveredVariants_detail (h : (context.standing product.readCoverage).isPresent = true) :
    coveredVariants (detailCoverage context product) (project context.tenantId
        context.globalPriceListId (detailScope context product) product).variants =
      (product.variants.rows.filter (isShownVariant context.tenantId
        (context.standing product.readCoverage))).map
          (projectVariant context.tenantId context.globalPriceListId) := by
  have hVariants : (project context.tenantId context.globalPriceListId
      (detailScope context product) product).variants =
      (product.variants.rows.filter (isShownVariant context.tenantId
        (context.standing product.readCoverage))).map
          (projectVariant context.tenantId context.globalPriceListId) := by
    rw [← publicVariants_eq (follows_detail h)]
    rfl
  rw [hVariants]
  cases hOwn : detailCoverage context product with
  | none => rfl
  | some own =>
      apply List.filter_eq_self.mpr
      intro shown hShown
      obtain ⟨variant, hMem, rfl⟩ := List.mem_map.mp hShown
      have hCovers := (List.mem_filter.mp hMem).2
      simp only [isShownVariant, Bool.and_eq_true] at hCovers
      have hStanding : context.standing product.readCoverage = .under (some own) := by
        unfold detailCoverage at hOwn
        unfold ResolvedPublicCatalogContext.standing
        split at hOwn
        · next hRequired => rw [if_pos hRequired, hOwn]
        · cases hOwn
      rw [hStanding] at hCovers
      exact hCovers.2

/-- The variants of the detail: those shown, with their prices or without any. -/
theorem variants_narrowDetail
    (h : (context.standing product.readCoverage).isPresent = true) :
    (narrowDetail (detailCoverage context product) (project context.tenantId
        context.globalPriceListId (detailScope context product) product)).variants =
      (product.variants.rows.filter (isDetailVariant context.tenantId context.globalPriceListId
        (context.standing product.readCoverage) product)).map fun variant =>
          { projectVariant context.tenantId context.globalPriceListId variant with
            priceCents := if product.isEffectivelyPriceHidden then none
              else variant.priceIn context.tenantId context.globalPriceListId } := by
  unfold narrowDetail
  simp only [coveredVariants_detail h]
  show (if product.isEffectivelyPriceHidden then _ else _ : ProductProjection).variants = _
  unfold isDetailVariant
  cases product.isEffectivelyPriceHidden with
  | true =>
      simp only [if_true, Bool.true_or, Bool.and_true, List.map_map]
      rfl
  | false =>
      simp only [Bool.false_eq_true, if_false, Bool.false_or, List.filter_map, List.filter_filter]
      congr 1
      apply List.filter_congr
      intro variant _
      exact Bool.and_comm _ _

theorem projectPublishedEditorial_of_parse {vocabulary : PublicVocabulary} {document : JsonValue}
    {parsed : DocumentShape} (h : parseDocumentShape document = .ok parsed) :
    projectPublishedEditorial runtime.numberText vocabulary document =
      .ok (projectDocument runtime.numberText vocabulary parsed) := by
  rw [projectPublishedEditorial, h]
  rfl

theorem parse_of_readCoverage {own : PublishedCoverage} (h : product.readCoverage = some own) :
    ∃ publication, product.published = some publication ∧
      ∃ parsed, parseDocumentShape publication.publishedDocument = .ok parsed := by
  obtain ⟨publication, hPublished, hRead⟩ := Option.bind_eq_some_iff.mp h
  refine ⟨publication, hPublished, ?_⟩
  unfold readPublishedCoverage at hRead
  split at hRead
  · next parsed hParsed => exact ⟨parsed, hParsed⟩
  · cases hRead

theorem readCoverage_isSome_iff : product.readCoverage.isSome = true ↔
    ∃ publication, product.published = some publication ∧
      ∃ parsed, parseDocumentShape publication.publishedDocument = .ok parsed := by
  constructor
  · intro h
    obtain ⟨own, hOwn⟩ := Option.isSome_iff_exists.mp h
    exact parse_of_readCoverage hOwn
  · rintro ⟨publication, hPublished, parsed, hParsed⟩
    rw [ProductRow.readCoverage, hPublished, Option.bind_some, readPublishedCoverage, hParsed]
    rfl

variable (runtime bindings) in
theorem shownDetail_some (h : (context.standing product.readCoverage).isPresent = true) :
    ∃ editorial, shownDetail runtime bindings context (detailCoverage context product) product =
      some (narrowDetail (detailCoverage context product) (project context.tenantId
        context.globalPriceListId (detailScope context product) product), editorial) := by
  unfold shownDetail
  rw [← detailScope]
  cases hScope : detailScope context product with
  | none => exact ⟨none, rfl⟩
  | some scope =>
      have hRequired : context.requiresPublishedEditorial = true := by
        by_contra hFree
        simp [detailScope, detailCoverage, hFree] at hScope
      obtain ⟨own, hOwn⟩ := readCoverage_of_present h hRequired
      obtain ⟨publication, hPublished, parsed, hParsed⟩ := parse_of_readCoverage hOwn
      have hDocument : (narrowDetail (detailCoverage context product) (project context.tenantId
          context.globalPriceListId (some scope) product)).publishedDocument =
          some publication.publishedDocument := by
        have hProject : (project context.tenantId context.globalPriceListId (some scope)
            product).publishedDocument = some publication.publishedDocument := by
          rw [project, hPublished]
          rfl
        rw [← hProject]
        unfold narrowDetail
        dsimp only
        split <;> rfl
      rw [detailEditorial, withEditorial, List.filterMap_cons, List.filterMap_nil]
      simp only [hDocument, projectPublishedEditorial_of_parse hParsed, List.head?_cons]
      exact ⟨_, rfl⟩

/-- The projection of a detail, as the answer reads it. -/
def detailProjection (context : ResolvedPublicCatalogContext) (product : ProductRow) :
    ProductProjection :=
  narrowDetail (detailCoverage context product) (project context.tenantId
    context.globalPriceListId (detailScope context product) product)

theorem detailProjection_hidden : (detailProjection context product).isEffectivelyPriceHidden =
    product.isEffectivelyPriceHidden := by
  unfold detailProjection narrowDetail
  dsimp only
  split <;> rfl

theorem detailProjection_hasVariants :
    (detailProjection context product).hasVariants = product.hasVariants := by
  unfold detailProjection narrowDetail
  dsimp only
  split <;> rfl

theorem detailProjection_price : detailPrice product.isEffectivelyPriceHidden
    (detailProjection context product).priceCents =
      detailPrice product.isEffectivelyPriceHidden
        (product.priceIn context.tenantId context.globalPriceListId) := by
  cases hHidden : product.isEffectivelyPriceHidden with
  | true => rfl
  | false =>
      have hNot : ¬ ((project context.tenantId context.globalPriceListId
          (detailScope context product) product).hidePriceInOnlineCatalog ||
          (project context.tenantId context.globalPriceListId
            (detailScope context product) product).requiresPrescription) = true := by
        show ¬ product.isEffectivelyPriceHidden = true
        rw [hHidden]
        exact Bool.false_ne_true
      have hPrice : (detailProjection context product).priceCents =
          product.priceIn context.tenantId context.globalPriceListId := by
        unfold detailProjection narrowDetail
        dsimp only
        rw [if_neg hNot]
        rfl
      rw [hPrice]

/-- Every variant of the detail is on. -/
theorem visibleVariants_detail
    (h : (context.standing product.readCoverage).isPresent = true) :
    visibleVariants (detailProjection context product).variants =
      (detailProjection context product).variants := by
  apply List.filter_eq_self.mpr
  intro shown hShown
  rw [detailProjection, variants_narrowDetail h] at hShown
  obtain ⟨variant, hMem, rfl⟩ := List.mem_map.mp hShown
  have hDetail := (List.mem_filter.mp hMem).2
  simp only [isDetailVariant, isShownVariant, Bool.and_eq_true] at hDetail
  exact hDetail.1.1.2

theorem productStock_detail (defaults : StockPresentationDefaults)
    (h : isShown context.tenantId (context.standing product.readCoverage) product = true) :
    ∃ stock, productStock (detailProjection context product) defaults = some stock := by
  have hPresent : (context.standing product.readCoverage).isPresent = true := by
    simp only [isShown, Bool.and_eq_true] at h
    exact h.1.2
  unfold productStock
  rw [detailProjection_hasVariants]
  cases hVariants : product.hasVariants with
  | false => exact ⟨_, rfl⟩
  | true =>
      have hAny : product.variants.rows.any (isShownVariant context.tenantId
          (context.standing product.readCoverage)) = true := by
        simp only [isShown, hVariants, if_true, Bool.and_eq_true] at h
        exact h.2
      have hParticipants : (detailProjection context product).stockPresentationParticipants =
          ((product.variants.rows.filter (isShownVariant context.tenantId
            (context.standing product.readCoverage))).map
              (projectVariant context.tenantId context.globalPriceListId)).map (·.stock) := by
        rw [← coveredVariants_detail hPresent]
        unfold detailProjection narrowDetail
        dsimp only
        split <;> exact if_pos hVariants
      obtain ⟨variant, hMem, hShown⟩ := List.any_eq_true.mp hAny
      have hSome : (detailProjection context product).stockPresentationParticipants ≠ [] := by
        rw [hParticipants]
        simp only [ne_eq, List.map_eq_nil_iff, List.filter_eq_nil_iff]
        exact fun hNone => hNone variant hMem hShown
      rw [mapPublicAggregateVariantStockPresentation, if_neg hSome]
      exact ⟨_, rfl⟩

theorem priceOf_detail {editorial : Option PublicProjection} {detail : PublicProductDetail}
    (hEligible : isEligible context.tenantId context.globalPriceListId
      (context.standing product.readCoverage) product = true)
    (hDetail : toPublicProductDetailForContext tenant context
      (detailProjection context product, editorial) = .ok detail) :
    detail.priceOf line = detailOffer context.tenantId context.globalPriceListId
      (context.standing product.readCoverage) product (truthy line.variantId) := by
  have hPresent : (context.standing product.readCoverage).isPresent = true := by
    simp only [isEligible, isShown, Bool.and_eq_true] at hEligible
    exact hEligible.1.1.2
  unfold toPublicProductDetailForContext at hDetail
  dsimp only at hDetail
  split at hDetail <;> cases hDetail
  unfold PublicProductDetail.priceOf detailOffer
  rw [if_pos hEligible]
  cases truthy line.variantId with
  | none => simp only [detailProjection_hasVariants, detailProjection_hidden, detailProjection_price]
  | some variantId =>
      dsimp only
      have hVariants : (detailProjection context product).variants = _ :=
        variants_narrowDetail hPresent
      rw [visibleVariants_detail hPresent, List.find?_map, hVariants, List.find?_map,
        List.find?_filter, Option.map_map, Option.map_map, ← Keyed.Rows.find?_key_and]
      have hWhere : (fun variant : VariantRow =>
          decide (isDetailVariant context.tenantId context.globalPriceListId
            (context.standing product.readCoverage) product variant = true ∧
              decide (variant.id = variantId) = true)) = fun variant =>
          decide (variant.id = variantId) && isDetailVariant context.tenantId
            context.globalPriceListId (context.standing product.readCoverage) product variant := by
        funext variant
        by_cases hId : variant.id = variantId <;> simp [hId]
      rw [← hWhere]
      show Option.map _ (product.variants.rows.find? _) = Option.map _ _
      congr 1
      funext variant
      show detailPrice (detailProjection context product).isEffectivelyPriceHidden _ = _
      rw [detailProjection_hidden]
      cases hHidden : product.isEffectivelyPriceHidden <;> simp [detailPrice]

end

end Houndfe.PublicCatalog
