import Houndfe.Sales.SaleItem

/-! The line of a quotation. It carries one discount per unit, taken out of the price that it
stores, and the tax snapshot of its product. -/

namespace Houndfe.Quotations

open Rounding
open Houndfe.Sales (DiscountType Quantity checkQuantity)

inductive QuotationItemPriceSource where
  | priceList
  | custom
  deriving DecidableEq, Repr

/-- The rates that a line stores; whether they are charged is a flag of its own. -/
inductive QuotationIvaRateClassification where
  | iva16
  | iva8
  | iva0
  | ivaExento
  deriving DecidableEq, Repr

/-- `IVA_RATE_PERCENT`. -/
def QuotationIvaRateClassification.ratePercent : QuotationIvaRateClassification → Int
  | .iva16 => 16
  | .iva8 => 8
  | .iva0 => 0
  | .ivaExento => 0

/-- The title of the discount is not stored with the line. -/
structure QuotationItem where
  id : String
  quotationId : String
  productId : String
  variantId : Option String
  productName : String
  variantName : Option String
  quantity : Quantity
  unitPriceCents : Int
  unitPriceCurrency : String
  priceSource : QuotationItemPriceSource
  appliedPriceListId : Option String
  customPriceCents : Option Int
  discountType : Option DiscountType
  discountValue : Option Int
  discountAmountCents : Int
  discountTitle : Option String
  promotionId : Option String
  taxableBaseCents : Option Int
  ivaRateClassification : Option QuotationIvaRateClassification
  chargeProductTaxesSnapshot : Option Bool
  deriving DecidableEq, Repr

/-- What the service supplies for a new line. -/
structure QuotationItemProps where
  id : String
  quotationId : String
  productId : String
  variantId : Option String
  productName : String
  variantName : Option String
  quantity : Int
  unitPriceCents : Int
  unitPriceCurrency : String
  priceSource : QuotationItemPriceSource
  ivaRateClassification : QuotationIvaRateClassification
  chargeProductTaxesSnapshot : Bool
  deriving DecidableEq, Repr

structure RepriceQuotationItemInput where
  priceCents : Int
  priceSource : QuotationItemPriceSource
  appliedPriceListId : Option String
  deriving DecidableEq, Repr

structure OverrideQuotationItemPriceInput where
  priceCents : Int
  priceSource : QuotationItemPriceSource
  appliedPriceListId : Option String
  customPriceCents : Option Int
  deriving DecidableEq, Repr

structure ApplyQuotationItemDiscountInput where
  type : DiscountType
  amountCents : Option Int
  percent : Option Int
  discountTitle : Option String
  promotionId : Option String
  deriving DecidableEq, Repr

namespace QuotationItem

def fresh (props : QuotationItemProps) (quantity : Quantity) : QuotationItem where
  id := props.id
  quotationId := props.quotationId
  productId := props.productId
  variantId := props.variantId
  productName := props.productName
  variantName := props.variantName
  quantity := quantity
  unitPriceCents := props.unitPriceCents
  unitPriceCurrency := props.unitPriceCurrency
  priceSource := props.priceSource
  appliedPriceListId := none
  customPriceCents := none
  discountType := none
  discountValue := none
  discountAmountCents := 0
  discountTitle := none
  promotionId := none
  taxableBaseCents := none
  ivaRateClassification := some props.ivaRateClassification
  chargeProductTaxesSnapshot := some props.chargeProductTaxesSnapshot

def create (props : QuotationItemProps) : Except DomainError QuotationItem := do
  throwIf (Text.trim props.id = "") (invalidArgumentError "QuotationItem ID cannot be empty")
  throwIf (Text.trim props.productId = "") (invalidArgumentError "Product ID cannot be empty")
  throwIf (Text.trim props.productName = "")
    (invalidArgumentError "Product name cannot be empty")
  let quantity ← checkQuantity props.quantity
  throwIf (props.unitPriceCents < 0) (invalidArgumentError "Unit price cannot be negative")
  return fresh props quantity

def changeQuantity (item : QuotationItem) (newQuantity : Int) :
    Except DomainError QuotationItem := do
  let quantity ← checkQuantity newQuantity
  return { item with quantity := quantity }

/-- `matches`: the line of this product and variant. -/
def isFor (item : QuotationItem) (productId : String) (variantId : Option String) : Bool :=
  item.productId = productId && item.variantId = variantId

/-- The discount columns; the title stays. -/
def clearDiscountFields (item : QuotationItem) : QuotationItem :=
  { item with
    discountType := none
    discountValue := none
    discountAmountCents := 0
    promotionId := none }

def reprice (item : QuotationItem) (input : RepriceQuotationItemInput) :
    Except DomainError QuotationItem := do
  throwIf (input.priceSource = .custom) (invalidArgumentError "INVALID_REPRICE_INPUT")
  throwIf (input.priceCents < 0) (invalidArgumentError "INVALID_REPRICE_INPUT")
  return { item with
    unitPriceCents := input.priceCents
    priceSource := input.priceSource
    appliedPriceListId := input.appliedPriceListId }

/-- The discount goes with the old price: its columns are cleared, nothing is given back. -/
def overridePrice (item : QuotationItem) (input : OverrideQuotationItemPriceInput) :
    Except DomainError QuotationItem := do
  throwIf (input.priceSource = .priceList ∧
      (input.appliedPriceListId.getD "" = "" ∨ input.customPriceCents ≠ none))
    (invalidArgumentError "INVALID_PRICE_OVERRIDE_INPUT")
  throwIf (input.priceSource = .custom ∧
      (input.customPriceCents.getD 0 = 0 ∨ input.appliedPriceListId ≠ none))
    (invalidArgumentError "INVALID_PRICE_OVERRIDE_INPUT")
  throwIf (input.priceCents < 0) (invalidArgumentError "INVALID_PRICE_OVERRIDE_INPUT")
  return clearDiscountFields { item with
    unitPriceCents := input.priceCents
    priceSource := input.priceSource
    appliedPriceListId := input.appliedPriceListId
    customPriceCents := input.customPriceCents }

/-- At most the whole price; a percentage is brought between 1 and 99 first. -/
def computeDiscountAmountCents (input : ApplyQuotationItemDiscountInput) (baseline : Int) : Int :=
  match input.type with
  | .amount => min (input.amountCents.getD 0) baseline
  | .percentage => roundDiv (baseline * min (max (input.percent.getD 0) 1) 99) 100

def discountValueOf (input : ApplyQuotationItemDiscountInput) : Option Int :=
  match input.type with
  | .amount => input.amountCents
  | .percentage => input.percent

def applyDiscount (item : QuotationItem) (input : ApplyQuotationItemDiscountInput) :
    Except DomainError QuotationItem := do
  throwIf (input.amountCents.isSome = input.percent.isSome)
    (invalidArgumentError "INVALID_DISCOUNT_INPUT")
  throwIf (input.type = .amount ∧ input.amountCents = none)
    (invalidArgumentError "INVALID_DISCOUNT_INPUT")
  throwIf (input.type = .percentage ∧ input.percent = none)
    (invalidArgumentError "INVALID_DISCOUNT_INPUT")
  let baseline := item.unitPriceCents
  let discountAmountCents := computeDiscountAmountCents input baseline
  throwIf (baseline - discountAmountCents < 1) (invalidArgumentError "DISCOUNT_AMOUNT_INVALID")
  return { item with
    discountType := some input.type
    discountValue := discountValueOf input
    discountAmountCents := discountAmountCents
    discountTitle := input.discountTitle
    promotionId := input.promotionId
    unitPriceCents := baseline - discountAmountCents }

def removeDiscount (item : QuotationItem) : QuotationItem :=
  clearDiscountFields { item with
    unitPriceCents :=
      if 0 < item.discountAmountCents then item.unitPriceCents + item.discountAmountCents
      else item.unitPriceCents }

def snapshotTaxClassification (item : QuotationItem) (rate : QuotationIvaRateClassification)
    (chargeProductTaxes : Bool) : QuotationItem :=
  { item with
    ivaRateClassification := some rate
    chargeProductTaxesSnapshot := some chargeProductTaxes }

/-- The base without the tax, from the price after the discount, rounded half up. -/
def recomputeTaxableBase (item : QuotationItem) : Except DomainError QuotationItem :=
  match item.ivaRateClassification, item.chargeProductTaxesSnapshot with
  | some rate, some chargeProductTaxes => do
      let inclusiveLineCents := item.unitPriceCents * item.quantity.val
      throwIf (inclusiveLineCents < 0) (invalidArgumentError "INVALID_INCLUSIVE_LINE_CENTS")
      let divisor := 100 + if chargeProductTaxes then rate.ratePercent else 0
      return { item with
        taxableBaseCents := some ((inclusiveLineCents * 100 + divisor / 2) / divisor) }
  | _, _ => .error (invalidArgumentError "TAX_SNAPSHOT_INCOMPLETE")

/-! ### Prices stay at zero or above -/

/-- No price below zero, before or after the discount, and no discount but a promotion's. -/
structure Priced (item : QuotationItem) : Prop where
  net : 0 ≤ item.unitPriceCents
  gross : 0 ≤ item.unitPriceCents + item.discountAmountCents
  discount : item.promotionId = none → item.discountAmountCents = 0

section

variable {item updated : QuotationItem}

theorem priced_clearDiscountFields (h : 0 ≤ item.unitPriceCents) :
    item.clearDiscountFields.Priced := by
  refine ⟨h, ?_, fun _ => rfl⟩
  show 0 ≤ item.unitPriceCents + 0
  omega

theorem create_priced {props : QuotationItemProps} (h : create props = .ok updated) :
    updated.Priced := by
  replace h := past (past (past h))
  obtain ⟨quantity, _, h⟩ := bind_eq_ok.mp h
  obtain ⟨_, hPrice, h⟩ := bind_eq_ok.mp h
  cases pure_eq_ok.mp h
  have hNonneg : 0 ≤ props.unitPriceCents := Int.not_lt.mp (throwIf_eq_ok.mp hPrice)
  have hFresh : (fresh props quantity).clearDiscountFields.Priced :=
    priced_clearDiscountFields hNonneg
  exact hFresh

theorem changeQuantity_priced {newQuantity : Int} (hPriced : item.Priced)
    (h : item.changeQuantity newQuantity = .ok updated) : updated.Priced := by
  obtain ⟨quantity, _, h⟩ := bind_eq_ok.mp h
  cases pure_eq_ok.mp h
  exact ⟨hPriced.net, hPriced.gross, hPriced.discount⟩

theorem overridePrice_priced {input : OverrideQuotationItemPriceInput}
    (h : item.overridePrice input = .ok updated) : updated.Priced := by
  replace h := past (past h)
  obtain ⟨_, hPrice, h⟩ := bind_eq_ok.mp h
  cases pure_eq_ok.mp h
  exact priced_clearDiscountFields (Int.not_lt.mp (throwIf_eq_ok.mp hPrice))

theorem removeDiscount_priced (hPriced : item.Priced) : item.removeDiscount.Priced := by
  apply priced_clearDiscountFields
  show 0 ≤ if 0 < item.discountAmountCents then _ else _
  split
  · exact hPriced.gross
  · exact hPriced.net

/-- A line without a promotion has no discount for a new price to come after. -/
theorem reprice_priced {input : RepriceQuotationItemInput} (hPriced : item.Priced)
    (hPromotion : item.promotionId = none) (h : item.reprice input = .ok updated) :
    updated.Priced := by
  replace h := past h
  obtain ⟨_, hPrice, h⟩ := bind_eq_ok.mp h
  cases pure_eq_ok.mp h
  have hNonneg : 0 ≤ input.priceCents := Int.not_lt.mp (throwIf_eq_ok.mp hPrice)
  refine ⟨hNonneg, ?_, hPriced.discount⟩
  show 0 ≤ input.priceCents + item.discountAmountCents
  rw [hPriced.discount hPromotion]
  omega

theorem applyDiscount_priced {input : ApplyQuotationItemDiscountInput} (hPriced : item.Priced)
    (hPromotion : input.promotionId ≠ none) (h : item.applyDiscount input = .ok updated) :
    updated.Priced := by
  replace h := past (past (past h))
  obtain ⟨_, hLeft, h⟩ := bind_eq_ok.mp h
  cases pure_eq_ok.mp h
  have hPositive := Int.not_lt.mp (throwIf_eq_ok.mp hLeft)
  have hNet := hPriced.net
  refine ⟨?_, ?_, fun hNone => absurd hNone hPromotion⟩
  · show 0 ≤ item.unitPriceCents - computeDiscountAmountCents input item.unitPriceCents
    omega
  · show 0 ≤ item.unitPriceCents - computeDiscountAmountCents input item.unitPriceCents +
      computeDiscountAmountCents input item.unitPriceCents
    omega

theorem snapshotTaxClassification_priced {rate : QuotationIvaRateClassification}
    {chargeProductTaxes : Bool} (hPriced : item.Priced) :
    (item.snapshotTaxClassification rate chargeProductTaxes).Priced :=
  ⟨hPriced.net, hPriced.gross, hPriced.discount⟩

theorem recomputeTaxableBase_priced (hPriced : item.Priced)
    (h : item.recomputeTaxableBase = .ok updated) : updated.Priced := by
  unfold recomputeTaxableBase at h
  split at h
  · replace h := past h
    cases pure_eq_ok.mp h
    exact ⟨hPriced.net, hPriced.gross, hPriced.discount⟩
  · cases h

end

end QuotationItem

end Houndfe.Quotations
