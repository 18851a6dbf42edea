import Houndfe.Base.Grouping
import Houndfe.Quotations.Quotation

/-! What a quotation answers with: its lines, the promotions they carry, and the tax of its lines
by classification. The timestamps are left out. -/

namespace Houndfe.Quotations

open Keyed

/-- The classifications of a response; the last is never stored. -/
inductive QuotationIvaClassification where
  | iva16
  | iva8
  | iva0
  | ivaExento
  | notTaxable
  deriving DecidableEq, Repr

def ivaClassificationBucketOrder : List QuotationIvaClassification :=
  [.iva16, .iva8, .iva0, .ivaExento, .notTaxable]

def QuotationIvaRateClassification.toClassification :
    QuotationIvaRateClassification → QuotationIvaClassification
  | .iva16 => .iva16
  | .iva8 => .iva8
  | .iva0 => .iva0
  | .ivaExento => .ivaExento

structure QuotationIvaBreakdownEntry where
  classification : QuotationIvaClassification
  amountCents : Int
  deriving DecidableEq, Repr

structure QuotationAppliedPromotion where
  promotionId : String
  title : String
  discountCents : Int
  deriving DecidableEq, Repr

structure QuotationItemResponse where
  id : String
  quotationId : String
  productId : String
  variantId : Option String
  productName : String
  variantName : Option String
  quantity : Int
  unitPriceCents : Int
  unitPriceCurrency : String
  priceSource : QuotationItemPriceSource
  appliedPriceListId : Option String
  customPriceCents : Option Int
  discountType : Option Houndfe.Sales.DiscountType
  discountValue : Option Int
  discountAmountCents : Int
  discountTitle : Option String
  promotionId : Option String
  subtotalCents : Int
  deriving DecidableEq, Repr

structure QuotationResponse where
  id : String
  sellerUserId : String
  status : QuotationStatus
  customerId : Option String
  globalPriceListId : Option String
  priceListExplicitlySet : Bool
  expiresAt : Option Int
  cancelReason : Option QuotationCancelReason
  canceledAt : Option Int
  totals : QuotationTotals
  manuallyEnded : Bool
  items : List QuotationItemResponse
  appliedPromotions : List QuotationAppliedPromotion
  vetoedPromotionIds : List String
  optedInManualPromotionIds : List String
  customerNotes : Option String
  ivaBreakdown : List QuotationIvaBreakdownEntry
  deriving DecidableEq, Repr

namespace QuotationItem

def subtotalCents (item : QuotationItem) : Int :=
  item.unitPriceCents * item.quantity.val

def hasCompleteTaxSnapshot (item : QuotationItem) : Bool :=
  item.taxableBaseCents.isSome && item.ivaRateClassification.isSome &&
    item.chargeProductTaxesSnapshot.isSome

/-- A product whose tax is not charged is not taxable at any rate. -/
def effectiveIvaClassification (item : QuotationItem) : Option QuotationIvaClassification :=
  match item.ivaRateClassification, item.chargeProductTaxesSnapshot with
  | some rate, some chargeProductTaxes =>
      some (if chargeProductTaxes then rate.toClassification else .notTaxable)
  | _, _ => none

/-- What the line's amount holds beyond its base. -/
def includedIvaCents (item : QuotationItem) : Option Int :=
  if item.hasCompleteTaxSnapshot then
    item.taxableBaseCents.map fun taxableBaseCents => item.subtotalCents - taxableBaseCents
  else none

def toResponse (item : QuotationItem) : QuotationItemResponse where
  id := item.id
  quotationId := item.quotationId
  productId := item.productId
  variantId := item.variantId
  productName := item.productName
  variantName := item.variantName
  quantity := item.quantity.val
  unitPriceCents := item.unitPriceCents
  unitPriceCurrency := item.unitPriceCurrency
  priceSource := item.priceSource
  appliedPriceListId := item.appliedPriceListId
  customPriceCents := item.customPriceCents
  discountType := item.discountType
  discountValue := item.discountValue
  discountAmountCents := item.discountAmountCents
  discountTitle := item.discountTitle
  promotionId := item.promotionId
  subtotalCents := item.subtotalCents

/-- The bucket entry of a line with a complete snapshot. -/
def ivaEntry (item : QuotationItem) : Option QuotationIvaBreakdownEntry :=
  match item.effectiveIvaClassification, item.includedIvaCents with
  | some classification, some amountCents => some ⟨classification, amountCents⟩
  | _, _ => none

/-- The promotion a line carries, under its title if that is known. -/
def appliedPromotion (item : QuotationItem) : Option QuotationAppliedPromotion :=
  (item.promotionId.filter (· ≠ "")).map fun promotionId =>
    ⟨promotionId, item.discountTitle.getD promotionId, item.discountAmountCents⟩

end QuotationItem

def QuotationIvaBreakdownEntry.add (kept entry : QuotationIvaBreakdownEntry) :
    QuotationIvaBreakdownEntry :=
  { kept with amountCents := kept.amountCents + entry.amountCents }

@[simp] theorem add_classification (kept entry : QuotationIvaBreakdownEntry) :
    (kept.add entry).classification = kept.classification := rfl

/-- The first title stays. -/
def QuotationAppliedPromotion.add (kept applied : QuotationAppliedPromotion) :
    QuotationAppliedPromotion :=
  { kept with discountCents := kept.discountCents + applied.discountCents }

@[simp] theorem add_promotionId (kept applied : QuotationAppliedPromotion) :
    (kept.add applied).promotionId = kept.promotionId := rfl

namespace Quotation

/-- The included tax by classification. -/
def ivaBuckets (items : List QuotationItem) : List QuotationIvaBreakdownEntry :=
  groupRows QuotationIvaBreakdownEntry.classification QuotationIvaBreakdownEntry.add
    (items.filterMap QuotationItem.ivaEntry)

/-- All or nothing: one line without its snapshot leaves no breakdown. -/
def computeIvaBreakdown (quotation : Quotation) : List QuotationIvaBreakdownEntry :=
  if quotation.items = [] then []
  else if quotation.items.any fun item => !item.hasCompleteTaxSnapshot then []
  else
    ivaClassificationBucketOrder.filterMap
      (lookup QuotationIvaBreakdownEntry.classification (ivaBuckets quotation.items))

/-- Each promotion once, with what it took off all its lines. -/
def computeAppliedPromotions (quotation : Quotation) : List QuotationAppliedPromotion :=
  groupRows QuotationAppliedPromotion.promotionId QuotationAppliedPromotion.add
    (quotation.items.filterMap QuotationItem.appliedPromotion)

def toResponse (quotation : Quotation) : QuotationResponse where
  id := quotation.id
  sellerUserId := quotation.sellerUserId
  status := quotation.status
  customerId := quotation.customerId
  globalPriceListId := quotation.globalPriceListId
  priceListExplicitlySet := quotation.priceListExplicitlySet
  expiresAt := quotation.expiresAt
  cancelReason := quotation.cancelReason
  canceledAt := quotation.canceledAt
  totals := quotation.recomputeTotals
  manuallyEnded := quotation.manuallyEnded
  items := quotation.items.map QuotationItem.toResponse
  appliedPromotions := quotation.computeAppliedPromotions
  vetoedPromotionIds := quotation.vetoedPromotionIds
  optedInManualPromotionIds := quotation.optedInManualPromotionIds
  customerNotes := quotation.customerNotes
  ivaBreakdown := quotation.computeIvaBreakdown

end Quotation

/-! ### Lines in another order -/

/-- The buckets do not depend on the order of the lines. -/
theorem lookup_ivaBuckets_perm {items items' : List QuotationItem} (hPerm : items.Perm items') :
    lookup QuotationIvaBreakdownEntry.classification (Quotation.ivaBuckets items) =
      lookup QuotationIvaBreakdownEntry.classification (Quotation.ivaBuckets items') := by
  have hFirst : ∀ a b : QuotationIvaBreakdownEntry, a.classification = b.classification →
      a.add b = b.add a := by
    intro a b hSame
    simp only [QuotationIvaBreakdownEntry.add, hSame, Int.add_comm]
  have hLater : ∀ kept a b : QuotationIvaBreakdownEntry,
      (kept.add a).add b = (kept.add b).add a := by
    intro kept a b
    simp only [QuotationIvaBreakdownEntry.add, Int.add_right_comm]
  have hGroups : (Quotation.ivaBuckets items).Perm (Quotation.ivaBuckets items') :=
    groupRows_perm add_classification (hPerm.filterMap _) (fun a _ b _ => hFirst a b) hLater
  exact lookup_perm (nodup_groupRows _) hGroups

theorem computeIvaBreakdown_perm {quotation other : Quotation}
    (hPerm : quotation.items.Perm other.items) :
    quotation.computeIvaBreakdown = other.computeIvaBreakdown := by
  have hEmpty : quotation.items = [] ↔ other.items = [] := by
    rw [← List.length_eq_zero_iff, hPerm.length_eq, List.length_eq_zero_iff]
  unfold Quotation.computeIvaBreakdown
  rw [hPerm.any_eq, lookup_ivaBuckets_perm hPerm]
  simp only [hEmpty]

theorem recomputeTotals_perm {quotation other : Quotation}
    (hPerm : quotation.items.Perm other.items) :
    quotation.recomputeTotals = other.recomputeTotals := by
  have hGross : Quotation.grossCents quotation.items = Quotation.grossCents other.items :=
    (hPerm.map _).sum_eq
  have hNet : Quotation.netCents quotation.items = Quotation.netCents other.items :=
    (hPerm.map _).sum_eq
  simp only [Quotation.recomputeTotals, hGross, hNet]

end Houndfe.Quotations
