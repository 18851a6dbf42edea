import Houndfe.PublicCatalog.UnreadablePublications

/-! The catalog without the price rows of the products whose price is hidden: the detail and the
cart answer from it as they answer from the stored one. -/

namespace Houndfe.PublicCatalog

open CatalogEditorial

/-! ### Taking the prices away -/

def VariantRow.withoutPrices (variant : VariantRow) : VariantRow :=
  { variant with variantPrices := [] }

def ProductRow.withoutPrices (product : ProductRow) : ProductRow :=
  { product with
    priceLists := []
    variants := product.variants.mapRows VariantRow.withoutPrices fun _ => rfl }

/-- A product whose price is hidden loses its price rows. -/
def ProductRow.redacted (product : ProductRow) : ProductRow :=
  if product.isEffectivelyPriceHidden then product.withoutPrices else product

section

variable {product : ProductRow}

theorem redacted_of_hidden (h : product.isEffectivelyPriceHidden = true) :
    product.redacted = product.withoutPrices :=
  if_pos h

theorem redacted_of_visible (h : product.isEffectivelyPriceHidden = false) :
    product.redacted = product := by
  rw [ProductRow.redacted, h]
  exact if_neg Bool.false_ne_true

@[simp] theorem redacted_id : product.redacted.id = product.id := by
  unfold ProductRow.redacted
  split <;> rfl

@[simp] theorem redacted_tenantId : product.redacted.tenantId = product.tenantId := by
  unfold ProductRow.redacted
  split <;> rfl

@[simp] theorem redacted_createdAt : product.redacted.createdAt = product.createdAt := by
  unfold ProductRow.redacted
  split <;> rfl

@[simp] theorem redacted_category : product.redacted.category = product.category := by
  unfold ProductRow.redacted
  split <;> rfl

@[simp] theorem redacted_published : product.redacted.published = product.published := by
  unfold ProductRow.redacted
  split <;> rfl

@[simp] theorem redacted_name : product.redacted.name = product.name := by
  unfold ProductRow.redacted
  split <;> rfl

@[simp] theorem redacted_hasVariants : product.redacted.hasVariants = product.hasVariants := by
  unfold ProductRow.redacted
  split <;> rfl

@[simp] theorem redacted_isEffectivelyPriceHidden :
    product.redacted.isEffectivelyPriceHidden = product.isEffectivelyPriceHidden := by
  unfold ProductRow.redacted
  split <;> rfl

@[simp] theorem redacted_readCoverage : product.redacted.readCoverage = product.readCoverage := by
  unfold ProductRow.redacted
  split <;> rfl

theorem recordedSubjects_redacted : product.redacted.recordedSubjects = product.recordedSubjects := by
  unfold ProductRow.redacted
  split <;> rfl

theorem variantIds_redacted :
    product.redacted.variants.rows.map (·.id) = product.variants.rows.map (·.id) := by
  unfold ProductRow.redacted
  split
  · show (product.variants.rows.map VariantRow.withoutPrices).map (·.id) = _
    rw [List.map_map]
    rfl
  · rfl

@[simp] theorem redacted_redacted : product.redacted.redacted = product.redacted := by
  cases hHidden : product.isEffectivelyPriceHidden with
  | false => rw [redacted_of_visible hHidden, redacted_of_visible hHidden]
  | true =>
      have hAfter : product.withoutPrices.isEffectivelyPriceHidden = true := hHidden
      rw [redacted_of_hidden hHidden, redacted_of_hidden hAfter]
      unfold ProductRow.withoutPrices
      congr 1
      apply Keyed.Rows.ext
      show (product.variants.rows.map VariantRow.withoutPrices).map VariantRow.withoutPrices = _
      rw [List.map_map]
      rfl

/-- A change of the price rows of a hidden product. -/
def KeepsRedacted (change : ProductRow → ProductRow) : Prop :=
  ∀ product, (change product).redacted = product.redacted

theorem KeepsRedacted.apply {α : Type} {change : ProductRow → ProductRow} {f : ProductRow → α}
    (hKeeps : KeepsRedacted change) (h : ∀ product : ProductRow, f product.redacted = f product)
    (product : ProductRow) : f (change product) = f product := by
  rw [← h, hKeeps, h]

end

/-- The catalog after a change of the price rows of hidden products. -/
def Catalog.mapHidden (catalog : Catalog) (change : ProductRow → ProductRow)
    (hKeeps : KeepsRedacted change) : Catalog where
  products := catalog.products.mapRows change (hKeeps.apply fun _ => redacted_id)
  categories := catalog.categories
  bindings := catalog.bindings
  ownSubjects := by
    intro product hProduct other hOther hNe variant hVariant hSubject
    obtain ⟨before, hBefore, rfl⟩ := List.mem_map.mp hProduct
    obtain ⟨otherBefore, hOtherBefore, rfl⟩ := List.mem_map.mp hOther
    rw [hKeeps.apply fun _ => redacted_id, hKeeps.apply fun _ => redacted_id] at hNe
    rw [hKeeps.apply fun _ => recordedSubjects_redacted] at hSubject
    have hIds : (change otherBefore).variants.rows.map (·.id) =
        otherBefore.variants.rows.map (·.id) :=
      hKeeps.apply (f := fun product => product.variants.rows.map (·.id))
        (fun _ => variantIds_redacted) otherBefore
    obtain ⟨kept, hKept, hSame⟩ := List.mem_map.mp (hIds ▸ List.mem_map_of_mem hVariant)
    rw [← hSame] at hSubject
    exact catalog.ownSubjects before hBefore otherBefore hOtherBefore hNe kept hKept hSubject

/-- What remains of the catalog when the prices that it hides are gone. -/
def Catalog.redacted (catalog : Catalog) : Catalog :=
  catalog.mapHidden ProductRow.redacted fun _ => redacted_redacted

theorem Catalog.redacted_mapHidden (catalog : Catalog) {change : ProductRow → ProductRow}
    (hKeeps : KeepsRedacted change) :
    (catalog.mapHidden change hKeeps).redacted = catalog.redacted := by
  have hRows : (catalog.products.rows.map change).map ProductRow.redacted =
      catalog.products.rows.map ProductRow.redacted := by
    rw [List.map_map]
    exact List.map_congr_left fun product _ => hKeeps product
  unfold Catalog.redacted Catalog.mapHidden Keyed.Rows.mapRows
  simp only [hRows]

/-- A scope that looks at no price. -/
structure IgnoresPrices (scope : Option EditorialScope) : Prop where
  products : ∀ kept, scope = some kept →
    ∀ product : ProductRow, kept.products product.redacted = kept.products product
  variants : ∀ kept, scope = some kept → ∀ productId, ∀ variant : VariantRow,
    kept.variants productId variant.withoutPrices = kept.variants productId variant

theorem ignoresPrices_editorialScope {α : Type} (source : Option α)
    (coverage : α → List (String × PublishedCoverage)) :
    IgnoresPrices (source.map fun kept => editorialScope (coverage kept)) := by
  constructor
  · rintro kept hKept product
    obtain ⟨_, _, rfl⟩ := Option.map_eq_some_iff.mp hKept
    simp only [editorialScope, redacted_hasVariants, redacted_id]
  · rintro kept hKept productId variant
    obtain ⟨_, _, rfl⟩ := Option.map_eq_some_iff.mp hKept
    rfl

/-! ### What the gates see -/

section

variable {tenantId globalPriceListId : String} {scope : Option EditorialScope}
  {standing : Standing} {product : ProductRow} {variantIds : List String}

/-- A question about the variants that asks nothing about their prices. -/
theorem any_variants_redacted {p : VariantRow → Bool}
    (h : ∀ variant : VariantRow, p variant.withoutPrices = p variant) :
    product.redacted.variants.rows.any p = product.variants.rows.any p := by
  unfold ProductRow.redacted
  split
  · show (product.variants.rows.map VariantRow.withoutPrices).any p = _
    rw [List.any_map]
    exact congrArg _ (funext h)
  · rfl

theorem publicVariantWhere_withoutPrices (hScope : IgnoresPrices scope) {productId : String}
    (variant : VariantRow) : publicVariantWhere tenantId scope productId variant.withoutPrices =
      publicVariantWhere tenantId scope productId variant := by
  unfold publicVariantWhere
  cases scope with
  | none => rfl
  | some kept => exact congrArg _ (hScope.variants kept rfl productId variant)

theorem survivesForTenant_redacted (hScope : IgnoresPrices scope) :
    survivesForTenant tenantId scope product.redacted = survivesForTenant tenantId scope product := by
  rw [survivesForTenant, survivesForTenant, redacted_hasVariants, redacted_id,
    any_variants_redacted (publicVariantWhere_withoutPrices hScope)]

theorem survives_redacted : product.redacted.survives = product.survives := by
  rw [ProductRow.survives, ProductRow.survives, redacted_hasVariants,
    any_variants_redacted fun _ => rfl]

theorem isShown_redacted :
    isShown tenantId standing product.redacted = isShown tenantId standing product := by
  have hAny : product.redacted.variants.rows.any (isShownVariant tenantId standing) =
      product.variants.rows.any (isShownVariant tenantId standing) :=
    any_variants_redacted fun _ => rfl
  unfold isShown
  rw [hAny]
  unfold ProductRow.redacted
  split <;> rfl

theorem offeredIn_redacted : offeredIn tenantId globalPriceListId scope product.redacted =
    offeredIn tenantId globalPriceListId scope product := by
  cases hHidden : product.isEffectivelyPriceHidden with
  | false => rw [redacted_of_visible hHidden]
  | true =>
      have hBefore : (product.hidePriceInOnlineCatalog || product.requiresPrescription) = true :=
        hHidden
      rw [redacted_of_hidden hHidden, offeredIn, offeredIn, hBefore, Bool.true_or]
      show ((product.hidePriceInOnlineCatalog || product.requiresPrescription) || _) = true
      rw [hBefore, Bool.true_or]

theorem isEligible_redacted : isEligible tenantId globalPriceListId standing product.redacted =
    isEligible tenantId globalPriceListId standing product := by
  cases hHidden : product.isEffectivelyPriceHidden with
  | false => rw [redacted_of_visible hHidden]
  | true =>
      have hAfter : product.redacted.isEffectivelyPriceHidden = true :=
        redacted_isEffectivelyPriceHidden.trans hHidden
      rw [isEligible, isEligible, isShown_redacted, isOffered, isOffered, hAfter, hHidden,
        Bool.true_or, Bool.true_or]

end

/-! ### The rows of the redacted catalog -/

section

variable {catalog : Catalog} {tenantId productId : String} {context : ResolvedPublicCatalogContext}
  {product : ProductRow}

theorem row_redacted : catalog.redacted.row tenantId productId =
    (catalog.row tenantId productId).map ProductRow.redacted :=
  row_map rfl (fun _ => redacted_tenantId) (fun _ => redacted_id)

theorem publications_redacted :
    catalog.redacted.publications tenantId = catalog.publications tenantId := by
  unfold Catalog.publications
  show ((catalog.products.rows.map ProductRow.redacted).filter _).filterMap _ = _
  rw [filter_map_of fun _ _ => by rw [redacted_tenantId], List.filterMap_map]
  simp only [Function.comp_def, redacted_published, redacted_id]

theorem readSources_redacted :
    readSources catalog.redacted tenantId context = readSources catalog tenantId context := by
  unfold readSources readTenantFacetSources
  rw [publications_redacted]

end

/-! ### What is shown of a row -/

def ProjectedVariant.withoutPrice (variant : ProjectedVariant) : ProjectedVariant :=
  { variant with priceCents := none }

def ProductProjection.redacted (product : ProductProjection) : ProductProjection :=
  if product.isEffectivelyPriceHidden then
    { product with
      priceCents := none
      variants := product.variants.map ProjectedVariant.withoutPrice }
  else product

section

variable {runtime : Runtime} {bindings : List EditorialBinding} {tenantId globalPriceListId : String}
  {scope : Option EditorialScope} {product : ProductRow} {context : ResolvedPublicCatalogContext}
  {variantIds : List String} {line : CartLine}

theorem publicVariants_withoutPrices (hScope : IgnoresPrices scope) :
    publicVariants tenantId scope product.withoutPrices =
      (publicVariants tenantId scope product).map VariantRow.withoutPrices := by
  unfold publicVariants
  show (product.variants.rows.map VariantRow.withoutPrices).filter _ = _
  rw [List.filter_map]
  congr 2
  exact funext (publicVariantWhere_withoutPrices hScope)

theorem project_redacted (hScope : IgnoresPrices scope) :
    project tenantId globalPriceListId scope product.redacted =
      (project tenantId globalPriceListId scope product).redacted := by
  have hSame : (project tenantId globalPriceListId scope product).isEffectivelyPriceHidden =
      product.isEffectivelyPriceHidden := rfl
  cases hHidden : product.isEffectivelyPriceHidden with
  | false =>
      rw [redacted_of_visible hHidden, ProductProjection.redacted, hSame, hHidden]
      exact (if_neg Bool.false_ne_true).symm
  | true =>
      rw [redacted_of_hidden hHidden, ProductProjection.redacted, hSame, hHidden, if_pos rfl]
      unfold project
      simp only [publicVariants_withoutPrices hScope, List.map_map, participantsOf]
      rfl

/-- The detail takes the prices of a hidden product away itself. -/
theorem narrowDetail_redacted (coverage : Option PublishedCoverage)
    (projection : ProductProjection) :
    narrowDetail coverage projection.redacted = narrowDetail coverage projection := by
  unfold ProductProjection.redacted
  split
  · next hHidden =>
      have hCovered : coveredVariants coverage (projection.variants.map
          ProjectedVariant.withoutPrice) =
          (coveredVariants coverage projection.variants).map ProjectedVariant.withoutPrice := by
        cases coverage with
        | none => rfl
        | some coverage => exact List.filter_map
      have hGate : (projection.hidePriceInOnlineCatalog || projection.requiresPrescription) = true :=
        hHidden
      unfold narrowDetail
      simp only [hCovered, hGate, if_true, List.map_map, participantsOf]
      rfl
  · rfl

theorem shownDetail_redacted (coverage : Option PublishedCoverage) :
    shownDetail runtime bindings context coverage product.redacted =
      shownDetail runtime bindings context coverage product := by
  unfold shownDetail
  dsimp only
  rw [redacted_id, project_redacted (ignoresPrices_editorialScope coverage
    fun own => [(product.id, own)]), narrowDetail_redacted]

theorem rowDetail_redacted :
    rowDetail runtime bindings context product.redacted =
      rowDetail runtime bindings context product := by
  unfold rowDetail
  simp only [redacted_readCoverage, isEligible_redacted, shownDetail_redacted]

def CartVariant.withoutPrice (variant : CartVariant) : CartVariant :=
  { variant with priceCents := none }

def PublicCartCandidate.withoutPrices (candidate : PublicCartCandidate) : PublicCartCandidate :=
  { candidate with
    priceCents := none
    variants := candidate.variants.map CartVariant.withoutPrice }

theorem rowCandidate_withoutPrices : rowCandidate context variantIds product.withoutPrices =
    (rowCandidate context variantIds product).withoutPrices := by
  unfold rowCandidate cartCandidate PublicCartCandidate.withoutPrices
  simp only [List.map_map]
  show PublicCartCandidate.mk .. = _
  congr 1
  show List.map _ ((product.variants.rows.map VariantRow.withoutPrices).filter _) = _
  rw [List.filter_map, List.map_map]
  rfl

/-- The cart takes the prices of a hidden product away itself. -/
theorem reconcileCandidate_withoutPrices {candidate : PublicCartCandidate}
    (hHidden : candidate.isEffectivelyPriceHidden = true) :
    ValidatePublicCart.reconcileCandidate context (some candidate.withoutPrices) line =
      ValidatePublicCart.reconcileCandidate context (some candidate) line := by
  have hPriced : ∀ variant : Option CartVariant,
      ValidatePublicCart.pricedItem context line candidate.withoutPrices
          (variant.map CartVariant.withoutPrice) =
        ValidatePublicCart.pricedItem context line candidate variant := by
    intro variant
    have hAfter : candidate.withoutPrices.isEffectivelyPriceHidden = true := hHidden
    unfold ValidatePublicCart.pricedItem
    simp only [hHidden, hAfter, if_true]
    cases variant <;> rfl
  have hMember : ValidatePublicCart.isMember context candidate.withoutPrices =
      ValidatePublicCart.isMember context candidate := rfl
  unfold ValidatePublicCart.reconcileCandidate
  simp only [hMember]
  split
  · rfl
  · split
    · exact hPriced none
    · next variantId _ =>
        have hFind : candidate.withoutPrices.variants.find? (·.id = variantId) =
            (candidate.variants.find? (·.id = variantId)).map CartVariant.withoutPrice :=
          List.find?_map ..
        rw [hFind]
        cases candidate.variants.find? (·.id = variantId) with
        | none => rfl
        | some variant =>
            have hWithdrawn : ValidatePublicCart.isWithdrawn context candidate.withoutPrices
                variant.withoutPrice = ValidatePublicCart.isWithdrawn context candidate variant := rfl
            simp only [Option.map_some, hWithdrawn]
            split
            · rfl
            · exact hPriced (some variant)

theorem reconcile_redacted :
    ValidatePublicCart.reconcileCandidate context
        (some (rowCandidate context variantIds product.redacted)) line =
      ValidatePublicCart.reconcileCandidate context
        (some (rowCandidate context variantIds product)) line := by
  cases hHidden : product.isEffectivelyPriceHidden with
  | false => rw [redacted_of_visible hHidden]
  | true =>
      rw [redacted_of_hidden hHidden, rowCandidate_withoutPrices]
      exact reconcileCandidate_withoutPrices hHidden

end

/-! ### The detail and the cart -/

section

variable {runtime : Runtime} {catalog : Catalog} {tenant : PublicTenant}
  {context : ResolvedPublicCatalogContext}

theorem executeDetail_redacted (productId : String) :
    GetPublicProductDetail.executeForContext runtime catalog.redacted tenant context productId =
      GetPublicProductDetail.executeForContext runtime catalog tenant context productId := by
  refine executeDetail_congr rfl ?_
  rw [row_redacted]
  cases catalog.row context.tenantId productId with
  | none => rfl
  | some product => exact rowDetail_redacted

theorem executeCart_redacted (lines : List CartLine) :
    ValidatePublicCart.executeForContext catalog.redacted tenant context lines =
      ValidatePublicCart.executeForContext catalog tenant context lines := by
  refine executeCart_congr fun line hLine variantIds => ?_
  rw [row_redacted]
  cases catalog.row context.tenantId line.productId with
  | none => rfl
  | some product => exact reconcile_redacted

end

end Houndfe.PublicCatalog
