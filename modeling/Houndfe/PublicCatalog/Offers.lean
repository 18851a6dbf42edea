import Mathlib.Data.List.Dedup
import Houndfe.PublicCatalog.OwnReads

/-! What the cart and the detail offer on a row, when they offer the same, and that the cart does
offer it. -/

namespace Houndfe.PublicCatalog

open CatalogEditorial

/-! ### The price that a read shows for a line -/

/-- The codes under which the catalog does not offer a line. -/
def notOffered : List CartCode :=
  [.notInCatalog, .variantNotFound, .variantNotInCatalog, .priceNotAvailableInContext]

/-- The price of a line that was found, or the mark that it is hidden. -/
def CartValidatedItem.offeredPrice (item : CartValidatedItem) : Option DetailPrice :=
  if item.blockingCodes.any (· ∈ notOffered) then none
  else some ⟨item.unitPriceCents, item.priceHidden⟩

/-- The price that a detail shows for a line: of the variant that it names, or of a simple product
where it names none. -/
def PublicProductDetail.priceOf (detail : PublicProductDetail) (line : CartLine) :
    Option DetailPrice :=
  match truthy line.variantId with
  | none => if detail.hasVariants then none else some detail.price
  | some variantId => (detail.variants.find? (·.id = variantId)).map (·.price)

def shownPrice (runtime : Runtime) (catalog : Catalog) (tenant : PublicTenant)
    (context : ResolvedPublicCatalogContext) (line : CartLine) : Option DetailPrice :=
  match GetPublicProductDetail.executeForContext runtime catalog tenant context line.productId with
  | .ok detail => detail.priceOf line
  | .error _ => none

/-! ### Both as functions of a row -/

section

variable (tenantId globalPriceListId : String) (standing : Standing)

/-- The membership gate of the cart: no variant has to be shown. -/
def isCartMember (product : ProductRow) : Bool :=
  product.type = .product && product.includeInOnlineCatalog && standing.isPresent &&
    (product.hasVariants || standing.covers none)

/-- The price of a row in the cart, hidden or allowed. -/
def cartPriceOf (product : ProductRow) (priceCents : Option Int) : Option DetailPrice :=
  if product.isEffectivelyPriceHidden then some ⟨none, true⟩
  else if allowedIn tenantId globalPriceListId product then
    priceCents.map fun price => ⟨some price, false⟩
  else none

def cartOffer (product : ProductRow) (named : Option String) : Option DetailPrice :=
  if isCartMember standing product then
    match named with
    | none => cartPriceOf tenantId globalPriceListId product
        (product.priceIn tenantId globalPriceListId)
    | some variantId =>
        ((product.variants.find variantId).filter (isShownVariant tenantId standing)).bind
          fun variant => cartPriceOf tenantId globalPriceListId product
            (variant.priceIn tenantId globalPriceListId)
  else none

/-- The detail shows the variants whose price is hidden or there. -/
def isDetailVariant (product : ProductRow) (variant : VariantRow) : Bool :=
  isShownVariant tenantId standing variant &&
    (product.isEffectivelyPriceHidden || (variant.priceIn tenantId globalPriceListId).isSome)

def detailOffer (product : ProductRow) (named : Option String) : Option DetailPrice :=
  if isEligible tenantId globalPriceListId standing product then
    match named with
    | none =>
        if product.hasVariants then none
        else some (detailPrice product.isEffectivelyPriceHidden
          (product.priceIn tenantId globalPriceListId))
    | some variantId =>
        ((product.variants.find variantId).filter
          (isDetailVariant tenantId globalPriceListId standing product)).map fun variant =>
            detailPrice product.isEffectivelyPriceHidden
              (variant.priceIn tenantId globalPriceListId)
  else none

/-- The cart sells a variant of a product that has no price of its own in the list. -/
def SellsUnlisted (product : ProductRow) (named : Option String) : Prop :=
  isCartMember standing product = true ∧ product.isEffectivelyPriceHidden = false ∧
    allowedIn tenantId globalPriceListId product = true ∧
    product.priceIn tenantId globalPriceListId = none ∧
    ∃ variantId, named = some variantId ∧ ∃ variant, product.variants.find variantId = some variant ∧
      isShownVariant tenantId standing variant = true ∧
      (variant.priceIn tenantId globalPriceListId).isSome = true

/-- The cart sells a product with variants as a simple one. -/
def SellsWhole (product : ProductRow) (named : Option String) : Prop :=
  named = none ∧ product.hasVariants = true ∧ isCartMember standing product = true ∧
    (product.isEffectivelyPriceHidden = true ∨
      allowedIn tenantId globalPriceListId product = true ∧
        (product.priceIn tenantId globalPriceListId).isSome = true)

end

section

variable {tenantId globalPriceListId : String} {standing : Standing} {product : ProductRow}
  {named : Option String}

theorem isShown_of_member (hTenant : product.tenantId = tenantId) {variant : VariantRow}
    (hMem : variant ∈ product.variants.rows)
    (hVariant : isShownVariant tenantId standing variant = true) :
    isShown tenantId standing product = isCartMember standing product := by
  have hAny : product.variants.rows.any (isShownVariant tenantId standing) = true :=
    List.any_eq_true.mpr ⟨variant, hMem, hVariant⟩
  unfold isShown isCartMember
  rw [hAny]
  cases product.hasVariants <;> simp [hTenant, Bool.and_comm, Bool.and_left_comm, Bool.and_assoc]

/-- A simple product is shown to both alike. -/
theorem isShown_of_simple (hTenant : product.tenantId = tenantId)
    (hSimple : product.hasVariants = false) :
    isShown tenantId standing product = isCartMember standing product := by
  unfold isShown isCartMember
  simp [hTenant, hSimple, Bool.and_comm, Bool.and_left_comm, Bool.and_assoc]

theorem isOffered_of_priced {variant : VariantRow} (hMem : variant ∈ product.variants.rows)
    (hVariant : isShownVariant tenantId standing variant = true)
    (hPriced : (variant.priceIn tenantId globalPriceListId).isSome = true) :
    isOffered tenantId globalPriceListId standing product =
      (product.isEffectivelyPriceHidden || (allowedIn tenantId globalPriceListId product &&
        (product.priceIn tenantId globalPriceListId).isSome)) := by
  have hAny : (product.variants.rows.any fun variant => isShownVariant tenantId standing variant &&
      (variant.priceIn tenantId globalPriceListId).isSome) = true :=
    List.any_eq_true.mpr ⟨variant, hMem, by rw [hVariant, hPriced]; rfl⟩
  rw [isOffered, hAny, Bool.or_true, Bool.and_true]

/-- The cart and the detail offer the same price for a line, or they are in one of the two cases in
which the cart sells what the detail does not show. -/
theorem cartOffer_eq_iff (hTenant : product.tenantId = tenantId) :
    cartOffer tenantId globalPriceListId standing product named =
        detailOffer tenantId globalPriceListId standing product named ↔
      ¬ SellsUnlisted tenantId globalPriceListId standing product named ∧
        ¬ SellsWhole tenantId globalPriceListId standing product named := by
  cases named with
  | none =>
      have hNot : ¬ SellsUnlisted tenantId globalPriceListId standing product none := by
        rintro ⟨_, _, _, _, _, hNamed, _⟩
        cases hNamed
      simp only [hNot, not_false_eq_true, true_and]
      cases hVariants : product.hasVariants with
      | false =>
          simp only [cartOffer, detailOffer, isEligible, isShown_of_simple hTenant hVariants,
            SellsWhole, isOffered, cartPriceOf, detailPrice, hVariants]
          cases isCartMember standing product <;> cases product.isEffectivelyPriceHidden <;>
            cases allowedIn tenantId globalPriceListId product <;>
            cases product.priceIn tenantId globalPriceListId <;> simp
      | true =>
          simp only [cartOffer, detailOffer, SellsWhole, cartPriceOf, hVariants]
          cases isCartMember standing product <;> cases product.isEffectivelyPriceHidden <;>
            cases allowedIn tenantId globalPriceListId product <;>
            cases product.priceIn tenantId globalPriceListId <;> simp
  | some variantId =>
      have hNot : ¬ SellsWhole tenantId globalPriceListId standing product (some variantId) := by
        rintro ⟨hNamed, _⟩
        cases hNamed
      simp only [hNot, not_false_eq_true, and_true]
      cases hFind : product.variants.find variantId with
      | none =>
          simp [cartOffer, detailOffer, SellsUnlisted, hFind]
      | some variant =>
          have hMem := (Keyed.Rows.find_eq_some_iff.mp hFind).1
          cases hVariant : isShownVariant tenantId standing variant with
          | false =>
              simp [cartOffer, detailOffer, SellsUnlisted, hFind, hVariant, isDetailVariant,
                Option.filter_some]
          | true =>
              have hShown := isShown_of_member hTenant hMem hVariant
              cases hPrice : variant.priceIn tenantId globalPriceListId with
              | none =>
                  simp only [cartOffer, detailOffer, SellsUnlisted, hFind, Option.filter_some,
                    isDetailVariant, isEligible, hShown, hVariant, hPrice, isOffered, cartPriceOf,
                    detailPrice]
                  cases isCartMember standing product <;>
                    cases product.isEffectivelyPriceHidden <;>
                    cases allowedIn tenantId globalPriceListId product <;> simp [hFind, hVariant, hPrice]
              | some price =>
                  have hPriced : (variant.priceIn tenantId globalPriceListId).isSome = true := by
                    rw [hPrice]
                    rfl
                  simp only [cartOffer, detailOffer, SellsUnlisted, hFind, Option.filter_some,
                    isDetailVariant, isEligible, hShown, hVariant, hPriced,
                    isOffered_of_priced hMem hVariant hPriced, cartPriceOf, detailPrice]
                  cases isCartMember standing product <;>
                    cases product.isEffectivelyPriceHidden <;>
                    cases allowedIn tenantId globalPriceListId product <;>
                    cases product.priceIn tenantId globalPriceListId <;> simp [hFind, hVariant, hPrice]

end

/-! ### The cart -/

section

variable {context : ResolvedPublicCatalogContext} {product : ProductRow} {line : CartLine}
  {variantIds : List String} {tenantId globalPriceListId : String}

theorem find?_priceIn_pos {α : Type} {rows : List α} {p : α → Bool} {cents : α → Int}
    (hPositive : ∀ row, p row = true → 0 < cents row) :
    (((rows.find? p).map cents).filter fun price => decide (0 < price)) =
      (rows.find? p).map cents := by
  cases hFind : rows.find? p with
  | none => rfl
  | some row =>
      have hHolds := hPositive row (List.find?_some hFind)
      simp [Option.filter_some, hHolds]

theorem filter_priceIn :
    ((product.priceIn tenantId globalPriceListId).filter fun price => decide (0 < price)) =
      product.priceIn tenantId globalPriceListId := by
  apply find?_priceIn_pos
  intro row hRow
  simp only [priceListWhere, Bool.and_eq_true, decide_eq_true_eq] at hRow
  exact hRow.2

theorem filter_variant_priceIn {variant : VariantRow} :
    ((variant.priceIn tenantId globalPriceListId).filter fun price => decide (0 < price)) =
      variant.priceIn tenantId globalPriceListId := by
  apply find?_priceIn_pos
  intro row hRow
  simp only [variantPriceWhere, Bool.and_eq_true, decide_eq_true_eq] at hRow
  exact hRow.2

/-- The allowed lists that the cart loads decide as the query does. -/
theorem allowlisted_iff :
    ((rowCandidate context variantIds product).catalogPriceLists = [] ∨
      context.globalPriceListId ∈ (rowCandidate context variantIds product).catalogPriceLists) ↔
      allowedIn context.tenantId context.globalPriceListId product = true := by
  simp only [rowCandidate, cartCandidate, List.map_eq_nil_iff, List.filter_eq_nil_iff, List.mem_map,
    List.mem_filter, decide_eq_true_eq, allowedIn, Bool.or_eq_true, Bool.not_eq_true',
    List.any_eq_false, List.any_eq_true, Bool.and_eq_true]
  apply or_congr Iff.rfl
  constructor
  · rintro ⟨row, ⟨hMem, hTenant⟩, hList⟩
    exact ⟨row, hMem, hTenant, hList⟩
  · rintro ⟨row, hMem, hTenant, hList⟩
    exact ⟨row, ⟨hMem, hTenant⟩, hList⟩

theorem offeredPrice_redacted {code : CartCode} (h : code ∈ notOffered) :
    (ValidatePublicCart.redactedItem line code).offeredPrice = none := by
  simp [CartValidatedItem.offeredPrice, ValidatePublicCart.redactedItem, h]

theorem offeredPrice_priced {candidate : PublicCartCandidate} {variant : Option CartVariant} :
    (ValidatePublicCart.pricedItem context line candidate variant).offeredPrice =
      if candidate.isEffectivelyPriceHidden then some ⟨none, true⟩
      else (ValidatePublicCart.unitPrice context candidate variant).map fun price =>
        ⟨some price, false⟩ := by
  unfold CartValidatedItem.offeredPrice ValidatePublicCart.pricedItem
  cases hHidden : candidate.isEffectivelyPriceHidden <;>
    cases hPrice : ValidatePublicCart.unitPrice context candidate variant <;>
    cases hStock : cartAvailability candidate.useStock
      ((variant.map (·.stock)).getD candidate.stock) <;>
    simp [notOffered]

variable (variantIds) in
theorem covers_rowCandidate {subject : Option String} :
    (context.standing product.readCoverage).covers subject =
      (!context.requiresPublishedEditorial ||
        ValidatePublicCart.covers (rowCandidate context variantIds product) subject) := by
  unfold ResolvedPublicCatalogContext.standing ValidatePublicCart.covers rowCandidate cartCandidate
  cases context.requiresPublishedEditorial with
  | false => rfl
  | true => cases product.readCoverage <;> rfl

theorem isMember_rowCandidate :
    ValidatePublicCart.isMember context (rowCandidate context variantIds product) =
      isCartMember (context.standing product.readCoverage) product := by
  rw [isCartMember, covers_rowCandidate variantIds]
  unfold ValidatePublicCart.isMember ResolvedPublicCatalogContext.standing Standing.isPresent
  cases hRequired : context.requiresPublishedEditorial with
  | false => simp [rowCandidate, cartCandidate]
  | true =>
      cases hOwn : product.readCoverage <;> cases hVariants : product.hasVariants <;>
        simp [rowCandidate, cartCandidate, hRequired, hOwn, hVariants]

/-- What the cart loads of a variant. -/
def rowVariant (context : ResolvedPublicCatalogContext) (variant : VariantRow) : CartVariant where
  id := variant.id
  name := variant.name
  catalogPublishMode := variant.catalogPublishMode
  stock := ⟨variant.quantity, variant.minQuantity⟩
  priceCents := variant.priceIn context.tenantId context.globalPriceListId

theorem find?_rowCandidate {variantId : String} (hAsked : variantId ∈ variantIds) :
    (rowCandidate context variantIds product).variants.find? (·.id = variantId) =
      ((product.variants.find variantId).filter (·.tenantId = context.tenantId)).map
        (rowVariant context) := by
  show (List.map (rowVariant context) (List.filter _ _)).find? _ = _
  rw [List.find?_map, List.find?_filter, ← Keyed.Rows.find?_key_and]
  congr 2
  funext variant
  by_cases hId : variant.id = variantId <;> simp [rowVariant, hId, hAsked]

/-- A variant of the tenant is withdrawn from the cart exactly when it is not shown. -/
theorem isWithdrawn_rowCandidate {variant : VariantRow}
    (hTenant : variant.tenantId = context.tenantId) :
    ValidatePublicCart.isWithdrawn context (rowCandidate context variantIds product)
        (rowVariant context variant) =
      !isShownVariant context.tenantId (context.standing product.readCoverage) variant := by
  rw [isShownVariant, covers_rowCandidate variantIds, hTenant]
  unfold ValidatePublicCart.isWithdrawn rowVariant
  by_cases hOff : variant.catalogPublishMode = .off <;> simp [hOff]

theorem offeredPrice_priced_row (variant : Option VariantRow) :
    (ValidatePublicCart.pricedItem context line (rowCandidate context variantIds product)
        (variant.map (rowVariant context))).offeredPrice =
      cartPriceOf context.tenantId context.globalPriceListId product
        (match variant with
          | some variant => variant.priceIn context.tenantId context.globalPriceListId
          | none => product.priceIn context.tenantId context.globalPriceListId) := by
  have hHidden : (rowCandidate context variantIds product).isEffectivelyPriceHidden =
      product.isEffectivelyPriceHidden := rfl
  rw [offeredPrice_priced, hHidden, cartPriceOf]
  congr 1
  simp only [ValidatePublicCart.unitPrice, allowlisted_iff]
  split
  · cases variant with
    | none => exact congrArg (Option.map _) filter_priceIn
    | some variant => exact congrArg (Option.map _) filter_variant_priceIn
  · rfl

theorem offeredPrice_reconcile (hAsked : ∀ variantId, line.variantId = some variantId →
      variantId ∈ variantIds) :
    (ValidatePublicCart.reconcileCandidate context (some (rowCandidate context variantIds product))
        line).offeredPrice =
      cartOffer context.tenantId context.globalPriceListId (context.standing product.readCoverage)
        product (truthy line.variantId) := by
  unfold ValidatePublicCart.reconcileCandidate cartOffer
  simp only [isMember_rowCandidate]
  cases isCartMember (context.standing product.readCoverage) product with
  | false => exact offeredPrice_redacted (by decide)
  | true =>
      simp only [Bool.not_true, Bool.false_eq_true, if_false, if_true]
      cases hNamed : truthy line.variantId with
      | none => exact offeredPrice_priced_row none
      | some variantId =>
          have hIn : variantId ∈ variantIds := by
            apply hAsked
            rw [truthy, Option.filter_eq_some_iff] at hNamed
            exact hNamed.1
          simp only [find?_rowCandidate hIn]
          cases hFind : product.variants.find variantId with
          | none => exact offeredPrice_redacted (by decide)
          | some variant =>
              rw [Option.filter_some, Option.filter_some]
              by_cases hTenant : variant.tenantId = context.tenantId
              · simp only [hTenant, decide_true, if_true, Option.map_some,
                  isWithdrawn_rowCandidate hTenant]
                cases isShownVariant context.tenantId (context.standing product.readCoverage)
                    variant with
                | false => exact offeredPrice_redacted (by decide)
                | true => exact offeredPrice_priced_row (some variant)
              · have hNot : isShownVariant context.tenantId
                    (context.standing product.readCoverage) variant = false := by
                  simp [isShownVariant, hTenant]
                rw [hNot]
                simp only [hTenant, decide_false, Bool.false_eq_true, if_false, Option.map_none]
                exact offeredPrice_redacted (by decide)

end

end Houndfe.PublicCatalog
