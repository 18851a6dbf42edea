import Houndfe.Base.Rounding
import Houndfe.Shared.DomainError
import Houndfe.Shared.Text

/-! The line of a sale: its price, its discount columns and the operations that
change them. -/

namespace Houndfe.Sales

open Rounding

inductive PriceSource where
  | default
  | priceList
  | custom
  deriving DecidableEq, Repr

inductive DiscountType where
  | amount
  | percentage
  deriving DecidableEq, Repr

inductive RewardKind where
  | buyXGetY
  | advanced
  deriving DecidableEq, Repr

/-- A line holds at least one unit. -/
abbrev Quantity := { q : Int // 1 ≤ q }

def Quantity.one : Quantity := ⟨1, by decide⟩

def Quantity.two : Quantity := ⟨2, by decide⟩

/-- Prices are cents, instants are milliseconds. -/
structure SaleItem where
  id : String
  saleId : String
  productId : String
  variantId : Option String
  productName : String
  variantName : Option String
  imageUrl : Option String
  quantity : Quantity
  unitPriceCents : Int
  unitPriceCurrency : String
  originalPriceCents : Option Int
  priceSource : PriceSource
  appliedPriceListId : Option String
  customPriceCents : Option Int
  discountType : Option DiscountType
  discountValue : Option Int
  discountAmountCents : Option Int
  prePriceCentsBeforeDiscount : Option Int
  discountTitle : Option String
  discountedAt : Option Int
  promotionId : Option String
  rewardDiscountPercent : Option Int
  rewardKind : Option RewardKind
  deriving DecidableEq, Repr

/-- What a caller supplies for a new line; the discount columns start empty. -/
structure SaleItemProps where
  id : String
  saleId : String
  productId : String
  variantId : Option String
  productName : String
  variantName : Option String
  imageUrl : Option String
  quantity : Int
  unitPriceCents : Int
  unitPriceCurrency : String
  deriving DecidableEq, Repr

structure ApplySaleItemDiscountInput where
  type : DiscountType
  amountCents : Option Int
  percent : Option Int
  discountTitle : Option String
  promotionId : Option String
  deriving DecidableEq, Repr

structure ApplyBuyXGetYRewardInput where
  lineDiscountCents : Int
  perUnitRewardCents : Int
  discountTitle : Option String
  promotionId : String
  getDiscountPercent : Int
  rewardKind : RewardKind
  deriving DecidableEq, Repr

structure OverrideSaleItemPriceInput where
  priceCents : Int
  priceSource : PriceSource
  appliedPriceListId : Option String
  customPriceCents : Option Int
  deriving DecidableEq, Repr

structure RepriceSaleItemInput where
  priceCents : Int
  priceSource : PriceSource
  appliedPriceListId : Option String
  deriving DecidableEq, Repr

/-- What `toResponse` answers for a line. -/
structure SaleItemResponse where
  id : String
  productId : String
  variantId : Option String
  productName : String
  variantName : Option String
  imageUrl : Option String
  quantity : Quantity
  unitPriceCents : Int
  unitPriceCurrency : String
  originalPriceCents : Option Int
  priceSource : PriceSource
  appliedPriceListId : Option String
  customPriceCents : Option Int
  discountType : Option DiscountType
  discountValue : Option Int
  discountAmountCents : Option Int
  prePriceCentsBeforeDiscount : Option Int
  discountTitle : Option String
  discountedAt : Option Int
  promotionId : Option String
  subtotalCents : Int
  rewardKind : Option RewardKind
  rewardDiscountPercent : Option Int
  deriving DecidableEq, Repr

/-- A quantity below one is refused wherever a line takes one. -/
def checkQuantity (quantity : Int) : Except DomainError Quantity :=
  if h : 1 ≤ quantity then .ok ⟨quantity, h⟩
  else .error (invalidArgumentError "Quantity must be at least 1")

namespace SaleItem

/-- The line the constructor builds: no discount, the default price. -/
def fresh (props : SaleItemProps) (quantity : Quantity) : SaleItem where
  id := props.id
  saleId := props.saleId
  productId := props.productId
  variantId := props.variantId
  productName := props.productName
  variantName := props.variantName
  imageUrl := props.imageUrl
  quantity := quantity
  unitPriceCents := props.unitPriceCents
  unitPriceCurrency := props.unitPriceCurrency
  originalPriceCents := none
  priceSource := .default
  appliedPriceListId := none
  customPriceCents := none
  discountType := none
  discountValue := none
  discountAmountCents := none
  prePriceCentsBeforeDiscount := none
  discountTitle := none
  discountedAt := none
  promotionId := none
  rewardDiscountPercent := none
  rewardKind := none

def create (props : SaleItemProps) : Except DomainError SaleItem := do
  throwIf (Text.trim props.productId = "")
    (invalidArgumentError "Product ID cannot be empty")
  throwIf (Text.trim props.productName = "")
    (invalidArgumentError "Product name cannot be empty")
  let quantity ← checkQuantity props.quantity
  throwIf (props.unitPriceCents < 0)
    (invalidArgumentError "Unit price cannot be negative")
  return fresh props quantity

/-- The price a discount is taken from. -/
def baseCents (item : SaleItem) : Int :=
  item.prePriceCentsBeforeDiscount.getD item.unitPriceCents

def subtotalCents (item : SaleItem) : Int :=
  item.unitPriceCents * item.quantity.val

def changeQuantity (item : SaleItem) (newQuantity : Int) : Except DomainError SaleItem := do
  let quantity ← checkQuantity newQuantity
  return { item with quantity := quantity }

/-- `matches`: the line of this product and variant. -/
def isFor (item : SaleItem) (productId : String) (variantId : Option String) : Bool :=
  item.productId = productId && item.variantId = variantId

def clearDiscountFields (item : SaleItem) : SaleItem :=
  { item with
    discountType := none
    discountValue := none
    discountAmountCents := none
    prePriceCentsBeforeDiscount := none
    discountTitle := none
    discountedAt := none
    promotionId := none
    rewardDiscountPercent := none
    rewardKind := none }

def overridePrice (item : SaleItem) (input : OverrideSaleItemPriceInput) :
    Except DomainError SaleItem := do
  throwIf (input.priceSource = .priceList ∧
      (input.appliedPriceListId.getD "" = "" ∨ input.customPriceCents ≠ none))
    (invalidArgumentError "INVALID_PRICE_OVERRIDE_INPUT")
  throwIf (input.priceSource = .custom ∧
      (input.customPriceCents.getD 0 = 0 ∨ input.appliedPriceListId ≠ none))
    (invalidArgumentError "INVALID_PRICE_OVERRIDE_INPUT")
  return clearDiscountFields { item with
    originalPriceCents := some (item.originalPriceCents.getD item.unitPriceCents)
    unitPriceCents := input.priceCents
    priceSource := input.priceSource
    appliedPriceListId := input.appliedPriceListId
    customPriceCents := input.customPriceCents }

def reprice (item : SaleItem) (input : RepriceSaleItemInput) : Except DomainError SaleItem := do
  throwIf (input.priceSource = .custom)
    (invalidArgumentError "INVALID_REPRICE_INPUT")
  throwIf (input.priceCents < 0)
    (invalidArgumentError "INVALID_REPRICE_INPUT")
  return { item with
    unitPriceCents := input.priceCents
    priceSource := input.priceSource
    appliedPriceListId := input.appliedPriceListId }

def computeDiscountAmountCents (input : ApplySaleItemDiscountInput) (baseline : Int) :
    Except DomainError Int :=
  match input.type with
  | .amount =>
      let amountCents := input.amountCents.getD 0
      if amountCents < 1 then .error (invalidArgumentError "DISCOUNT_AMOUNT_INVALID")
      else .ok amountCents
  | .percentage =>
      let percent := input.percent.getD 0
      if percent < 1 ∨ 99 < percent then .error (invalidArgumentError "DISCOUNT_PERCENT_INVALID")
      else .ok (roundDiv (baseline * percent) 100)

/-- The value column of a discount: cents for an amount, the percentage otherwise. -/
def discountValueOf (input : ApplySaleItemDiscountInput) : Option Int :=
  match input.type with
  | .amount => input.amountCents
  | .percentage => input.percent

/-- Per-unit discount. At least one cent of the unit price must remain. -/
def applyDiscount (item : SaleItem) (input : ApplySaleItemDiscountInput) (now : Int) :
    Except DomainError SaleItem := do
  throwIf (input.amountCents.isSome = input.percent.isSome)
    (invalidArgumentError "INVALID_DISCOUNT_INPUT")
  throwIf (input.type = .amount ∧ input.amountCents = none)
    (invalidArgumentError "INVALID_DISCOUNT_INPUT")
  throwIf (input.type = .percentage ∧ input.percent = none)
    (invalidArgumentError "INVALID_DISCOUNT_INPUT")
  let baseline := item.baseCents
  let discountAmountCents ← computeDiscountAmountCents input baseline
  throwIf (baseline - discountAmountCents < 1)
    (invalidArgumentError "DISCOUNT_AMOUNT_INVALID")
  return { item with
    prePriceCentsBeforeDiscount := some baseline
    discountType := some input.type
    discountValue := discountValueOf input
    discountAmountCents := some discountAmountCents
    discountTitle := input.discountTitle
    discountedAt := some now
    unitPriceCents := baseline - discountAmountCents
    promotionId := input.promotionId }

def removeDiscount (item : SaleItem) : SaleItem :=
  clearDiscountFields { item with unitPriceCents := item.baseCents }

/-- Whole-line reward: the unit price stays full and equals the snapshot taken,
which is what `isBuyXGetYReward` recognises. -/
def applyBuyXGetYReward (item : SaleItem) (input : ApplyBuyXGetYRewardInput) (now : Int) :
    Except DomainError SaleItem := do
  throwIf (input.lineDiscountCents ≤ 0)
    (invalidArgumentError
      "BXGY_REWARD_INVALID: lineDiscountCents must be a positive integer")
  throwIf (item.subtotalCents < input.lineDiscountCents)
    (invalidArgumentError
      "BXGY_REWARD_INVALID: lineDiscountCents must be at most unitPriceCents * quantity")
  throwIf (input.promotionId = "")
    (invalidArgumentError "BXGY_REWARD_INVALID: promotionId is required")
  return { item with
    prePriceCentsBeforeDiscount := some item.unitPriceCents
    discountType := some .amount
    discountValue := some input.perUnitRewardCents
    discountAmountCents := some input.lineDiscountCents
    discountTitle := input.discountTitle
    discountedAt := some now
    promotionId := some input.promotionId
    rewardDiscountPercent := some input.getDiscountPercent
    rewardKind := some input.rewardKind }

def isBuyXGetYReward (item : SaleItem) : Bool :=
  item.promotionId.isSome && decide (0 < item.discountAmountCents.getD 0) &&
    item.prePriceCentsBeforeDiscount = some item.unitPriceCents

/-- What a reward takes off the whole line; zero on every other line. -/
def rewardCents (item : SaleItem) : Int :=
  if item.isBuyXGetYReward then item.discountAmountCents.getD 0 else 0

/-- What the customer pays for the line before any order discount. -/
def netCents (item : SaleItem) : Int :=
  item.subtotalCents - item.rewardCents

/-- The line as the draft endpoints answer it. The stored kind of a reward wins
over the kind that the columns suggest; the percent is only shown on a reward. -/
def toResponse (item : SaleItem) : SaleItemResponse where
  id := item.id
  productId := item.productId
  variantId := item.variantId
  productName := item.productName
  variantName := item.variantName
  imageUrl := item.imageUrl
  quantity := item.quantity
  unitPriceCents := item.unitPriceCents
  unitPriceCurrency := item.unitPriceCurrency
  originalPriceCents := item.originalPriceCents
  priceSource := item.priceSource
  appliedPriceListId := item.appliedPriceListId
  customPriceCents := item.customPriceCents
  discountType := item.discountType
  discountValue := item.discountValue
  discountAmountCents := item.discountAmountCents
  prePriceCentsBeforeDiscount := item.prePriceCentsBeforeDiscount
  discountTitle := item.discountTitle
  discountedAt := item.discountedAt
  promotionId := item.promotionId
  subtotalCents := item.unitPriceCents * item.quantity.val - item.rewardCents
  rewardKind := item.rewardKind <|> if item.isBuyXGetYReward then some .buyXGetY else none
  rewardDiscountPercent := if item.isBuyXGetYReward then item.rewardDiscountPercent else none

end SaleItem

end Houndfe.Sales
