import Houndfe.Shared.DomainError
import Houndfe.Shared.Text

/-! The promotion entity: its fields, the checks of `Promotion.create` for each type, its
effective status and the units that its cap leaves. -/

namespace Houndfe.Promotions

inductive PromotionType where
  | productDiscount
  | orderDiscount
  | buyXGetY
  | advanced
  deriving DecidableEq, Repr

def PromotionType.text : PromotionType → String
  | .productDiscount => "PRODUCT_DISCOUNT"
  | .orderDiscount => "ORDER_DISCOUNT"
  | .buyXGetY => "BUY_X_GET_Y"
  | .advanced => "ADVANCED"

inductive PromotionMethod where
  | automatic
  | manual
  deriving DecidableEq, Repr

inductive PromotionStatus where
  | active
  | scheduled
  | ended
  deriving DecidableEq, Repr

inductive PromotionDiscountType where
  | percentage
  | fixed
  deriving DecidableEq, Repr

inductive PromotionTargetType where
  | categories
  | brands
  | products
  | variants
  deriving DecidableEq, Repr

inductive CustomerScope where
  | all
  | registeredOnly
  | specific
  deriving DecidableEq, Repr

inductive DayOfWeek where
  | monday
  | tuesday
  | wednesday
  | thursday
  | friday
  | saturday
  | sunday
  deriving DecidableEq, Repr

inductive TargetSide where
  | default
  | buy
  | get
  deriving DecidableEq, Repr

structure PromotionTargetItemData where
  side : TargetSide
  targetType : PromotionTargetType
  targetId : String
  deriving DecidableEq, Repr

/-- Customers and price lists are kept as the ids they refer to. -/
structure Promotion where
  botEligible : Bool
  id : String
  title : String
  type : PromotionType
  method : PromotionMethod
  manuallyEnded : Bool
  startDate : Option Int
  endDate : Option Int
  customerScope : CustomerScope
  discountType : Option PromotionDiscountType
  discountValue : Option Int
  minPurchaseAmountCents : Option Int
  appliesTo : Option PromotionTargetType
  buyQuantity : Option Int
  getQuantity : Option Int
  getDiscountPercent : Option Int
  buyTargetType : Option PromotionTargetType
  getTargetType : Option PromotionTargetType
  maxProductUnits : Option Int
  consumedProductUnits : Int
  targetItems : List PromotionTargetItemData
  customers : List String
  priceLists : List String
  daysOfWeek : List DayOfWeek
  deriving DecidableEq, Repr

structure CreatePromotionParams where
  botEligible : Bool
  id : String
  title : String
  type : PromotionType
  method : PromotionMethod
  manuallyEnded : Bool
  startDate : Option Int
  endDate : Option Int
  customerScope : CustomerScope
  discountType : Option PromotionDiscountType
  discountValue : Option Int
  minPurchaseAmountCents : Option Int
  appliesTo : Option PromotionTargetType
  buyQuantity : Option Int
  getQuantity : Option Int
  getDiscountPercent : Option Int
  buyTargetType : Option PromotionTargetType
  getTargetType : Option PromotionTargetType
  maxProductUnits : Option Int
  consumedProductUnits : Int
  priceLists : List String
  daysOfWeek : List DayOfWeek
  deriving DecidableEq, Repr

/-! ### The checks -/

def requireField {α : Type} (value : Option α) (fieldName : String) (type : PromotionType) :
    Except DomainError α :=
  match value with
  | some present => .ok present
  | none => .error (invalidArgumentWithCode
      (fieldName ++ " is required for " ++ type.text ++ " type") "MISSING_REQUIRED_FIELD")

def forbidField {α : Type} (value : Option α) (fieldName : String) (type : PromotionType) :
    Except DomainError Unit :=
  throwIf value.isSome (invalidArgumentWithCode
    (fieldName ++ " is not allowed for " ++ type.text ++ " type") "FORBIDDEN_FIELD")

def validateDiscountValue (discountType : PromotionDiscountType) (discountValue : Int) :
    Except DomainError Unit :=
  match discountType with
  | .percentage => throwIf (discountValue < 1 ∨ 100 < discountValue) (invalidArgumentWithCode
      "discountValue must be between 1 and 100 for PERCENTAGE type" "INVALID_FIELD_VALUE")
  | .fixed => throwIf (discountValue ≤ 0) (invalidArgumentWithCode
      "discountValue must be greater than 0 for FIXED type" "INVALID_FIELD_VALUE")

def validateQuantityField (value : Int) (fieldName : String) : Except DomainError Unit :=
  throwIf (value < 1) (invalidArgumentWithCode (fieldName ++ " must be >= 1")
    "INVALID_FIELD_VALUE")

def validateGetDiscountPercent (value : Int) (type : PromotionType) : Except DomainError Unit :=
  throwIf (value < 0 ∨ 100 < value) (invalidArgumentWithCode
    ("getDiscountPercent must be between 0 and 100 for " ++ type.text ++ " type")
    "INVALID_FIELD_VALUE")

def validateDateRange (startDate endDate : Option Int) : Except DomainError Unit :=
  throwIf (∃ start ∈ startDate, ∃ finish ∈ endDate, finish < start)
    (invalidArgumentWithCode "endDate must be >= startDate" "INVALID_DATE_RANGE")

def maxProductUnitsLimit : Int := 2147483647

def validateProductUnitCapacity (maxProductUnits : Option Int) (consumedProductUnits : Int) :
    Except DomainError Unit := do
  throwIf (∃ cap ∈ maxProductUnits, cap < 1 ∨ maxProductUnitsLimit < cap)
    (invalidArgumentWithCode
      "maxProductUnits must be an integer between 1 and 2147483647 or null"
      "INVALID_MAX_PRODUCT_UNITS")
  throwIf (consumedProductUnits < 0 ∨ maxProductUnitsLimit < consumedProductUnits)
    (invalidArgumentWithCode
      "consumedProductUnits must be an integer between 0 and 2147483647"
      "INVALID_CONSUMED_PRODUCT_UNITS")
  throwIf (∃ cap ∈ maxProductUnits, cap < consumedProductUnits)
    (invalidArgumentWithCode "consumedProductUnits cannot exceed maxProductUnits"
      "PRODUCT_UNIT_CAPACITY_EXCEEDED")

/-- The table of bot rules: every type has a row, for automatic promotions only; the rows of
the line types need a target type, and all customer scopes, lists and weekdays are allowed. -/
def unsupportedCondition (params : CreatePromotionParams) : Option String :=
  if params.method ≠ .automatic then some "method"
  else if (params.type = .productDiscount ∨ params.type = .buyXGetY) ∧ params.appliesTo = none then
    some "appliesTo"
  else none

def assertBotEligibilitySupported (params : CreatePromotionParams) : Except DomainError Unit :=
  match unsupportedCondition params with
  | none => .ok ()
  | some condition => .error (invalidArgumentWithCode
      ("Bot eligibility does not support this promotion's " ++ condition)
      "BOT_ELIGIBILITY_UNSUPPORTED")

/-- The value of a discount, which both discount types check the same way. -/
def validateDiscount (params : CreatePromotionParams) : Except DomainError Unit := do
  let discountType ← requireField params.discountType "discountType" params.type
  let discountValue ← requireField params.discountValue "discountValue" params.type
  if params.type = .productDiscount then
    let _ ← requireField params.appliesTo "appliesTo" params.type
  validateDiscountValue discountType discountValue

/-- The quantities of a reward, which both reward types check the same way. -/
def validateReward (params : CreatePromotionParams) : Except DomainError Unit := do
  let buyQuantity ← requireField params.buyQuantity "buyQuantity" params.type
  let getQuantity ← requireField params.getQuantity "getQuantity" params.type
  let getDiscountPercent ← requireField params.getDiscountPercent "getDiscountPercent" params.type
  validateQuantityField buyQuantity "buyQuantity"
  validateQuantityField getQuantity "getQuantity"
  validateGetDiscountPercent getDiscountPercent params.type

def validateByType (params : CreatePromotionParams) : Except DomainError Unit := do
  match params.type with
  | .productDiscount =>
      validateDiscount params
      forbidField params.buyQuantity "buyQuantity" params.type
      forbidField params.getQuantity "getQuantity" params.type
      forbidField params.getDiscountPercent "getDiscountPercent" params.type
      forbidField params.minPurchaseAmountCents "minPurchaseAmountCents" params.type
      forbidField params.buyTargetType "buyTargetType" params.type
      forbidField params.getTargetType "getTargetType" params.type
  | .orderDiscount =>
      validateDiscount params
      forbidField params.appliesTo "appliesTo" params.type
      forbidField params.buyQuantity "buyQuantity" params.type
      forbidField params.getQuantity "getQuantity" params.type
      forbidField params.getDiscountPercent "getDiscountPercent" params.type
      forbidField params.buyTargetType "buyTargetType" params.type
      forbidField params.getTargetType "getTargetType" params.type
  | .buyXGetY =>
      validateReward params
      forbidField params.discountType "discountType" params.type
      forbidField params.discountValue "discountValue" params.type
      forbidField params.minPurchaseAmountCents "minPurchaseAmountCents" params.type
      forbidField params.buyTargetType "buyTargetType" params.type
      forbidField params.getTargetType "getTargetType" params.type
  | .advanced =>
      validateReward params
      forbidField params.appliesTo "appliesTo" params.type
      forbidField params.discountType "discountType" params.type
      forbidField params.discountValue "discountValue" params.type
      forbidField params.minPurchaseAmountCents "minPurchaseAmountCents" params.type

namespace Promotion

/-- The promotion of checked parameters; its relations are attached later. -/
def ofParams (params : CreatePromotionParams) (title : String) : Promotion where
  botEligible := params.botEligible
  id := params.id
  title := title
  type := params.type
  method := params.method
  manuallyEnded := params.manuallyEnded
  startDate := params.startDate
  endDate := params.endDate
  customerScope := params.customerScope
  discountType := params.discountType
  discountValue := params.discountValue
  minPurchaseAmountCents := params.minPurchaseAmountCents
  appliesTo := params.appliesTo
  buyQuantity := params.buyQuantity
  getQuantity := params.getQuantity
  getDiscountPercent := params.getDiscountPercent
  buyTargetType := params.buyTargetType
  getTargetType := params.getTargetType
  maxProductUnits := params.maxProductUnits
  consumedProductUnits := params.consumedProductUnits
  targetItems := []
  customers := []
  priceLists := params.priceLists
  daysOfWeek := params.daysOfWeek

def create (params : CreatePromotionParams) : Except DomainError Promotion := do
  let title := Text.trim params.title
  throwIf (title = "")
    (invalidArgumentWithCode "Promotion title is required" "MISSING_REQUIRED_FIELD")
  validateDateRange params.startDate params.endDate
  if params.botEligible then assertBotEligibilitySupported params
  validateByType params
  validateProductUnitCapacity params.maxProductUnits params.consumedProductUnits
  return ofParams params title

/-- The status that counts: both ends of the window are inclusive. -/
def getEffectiveStatus (promo : Promotion) (now : Int) : PromotionStatus :=
  if promo.manuallyEnded then .ended
  else if ∃ start ∈ promo.startDate, now < start then .scheduled
  else if ∃ finish ∈ promo.endDate, finish < now then .ended
  else .active

def remainingProductUnits (promo : Promotion) : Option Int :=
  promo.maxProductUnits.map fun cap => cap - promo.consumedProductUnits

/-- What a discount of this type and value may be. -/
def DiscountAllowed : PromotionDiscountType → Int → Prop
  | .percentage, value => 1 ≤ value ∧ value ≤ 100
  | .fixed, value => 0 < value

/-- What `create` guarantees of the fields that the type of a promotion uses. -/
def RuleSound (promo : Promotion) : Prop :=
  match promo.type with
  | .productDiscount | .orderDiscount =>
      ∃ discountType discountValue, promo.discountType = some discountType ∧
        promo.discountValue = some discountValue ∧ DiscountAllowed discountType discountValue
  | .buyXGetY | .advanced =>
      ∃ buyQuantity getQuantity getDiscountPercent, promo.buyQuantity = some buyQuantity ∧
        promo.getQuantity = some getQuantity ∧
          promo.getDiscountPercent = some getDiscountPercent ∧
            1 ≤ buyQuantity ∧ 1 ≤ getQuantity ∧ 0 ≤ getDiscountPercent ∧ getDiscountPercent ≤ 100

/-- A stored promotion: `create` let its fields through, under the random id that the
service gave it, and the rest was attached or has changed since. -/
def Admitted (promo : Promotion) : Prop :=
  ∃ params created, create params = .ok created ∧ params.id ≠ "" ∧
    promo = { created with
      title := promo.title
      manuallyEnded := promo.manuallyEnded
      startDate := promo.startDate
      endDate := promo.endDate
      consumedProductUnits := promo.consumedProductUnits
      targetItems := promo.targetItems
      customers := promo.customers
      priceLists := promo.priceLists
      daysOfWeek := promo.daysOfWeek }

end Promotion

section

variable {params : CreatePromotionParams}

theorem requireField_eq_ok {α : Type} {value : Option α} {fieldName : String}
    {type : PromotionType} {present : α} :
    requireField value fieldName type = .ok present ↔ value = some present := by
  cases value <;> simp [requireField]

theorem validateDiscountValue_eq_ok {discountType : PromotionDiscountType} {discountValue : Int}
    {u : Unit} (h : validateDiscountValue discountType discountValue = .ok u) :
    Promotion.DiscountAllowed discountType discountValue := by
  cases discountType <;> simp only [validateDiscountValue, throwIf_eq_ok] at h
  · exact ⟨by omega, by omega⟩
  · exact Int.not_le.mp h

theorem validateDiscount_eq_ok {u : Unit} (h : validateDiscount params = .ok u) :
    ∃ discountType discountValue, params.discountType = some discountType ∧
      params.discountValue = some discountValue ∧
        Promotion.DiscountAllowed discountType discountValue := by
  unfold validateDiscount at h
  obtain ⟨discountType, hType, h⟩ := bind_eq_ok.mp h
  obtain ⟨discountValue, hValue, h⟩ := bind_eq_ok.mp h
  refine ⟨discountType, discountValue, requireField_eq_ok.mp hType,
    requireField_eq_ok.mp hValue, ?_⟩
  split at h
  · obtain ⟨_, _, h⟩ := bind_eq_ok.mp h
    exact validateDiscountValue_eq_ok h
  · exact validateDiscountValue_eq_ok h

theorem validateReward_eq_ok {u : Unit} (h : validateReward params = .ok u) :
    ∃ buyQuantity getQuantity getDiscountPercent, params.buyQuantity = some buyQuantity ∧
      params.getQuantity = some getQuantity ∧
        params.getDiscountPercent = some getDiscountPercent ∧
          1 ≤ buyQuantity ∧ 1 ≤ getQuantity ∧
            0 ≤ getDiscountPercent ∧ getDiscountPercent ≤ 100 := by
  unfold validateReward at h
  obtain ⟨buyQuantity, hBuy, h⟩ := bind_eq_ok.mp h
  obtain ⟨getQuantity, hGet, h⟩ := bind_eq_ok.mp h
  obtain ⟨getDiscountPercent, hPercent, h⟩ := bind_eq_ok.mp h
  obtain ⟨_, hBuyRange, h⟩ := bind_eq_ok.mp h
  obtain ⟨_, hGetRange, h⟩ := bind_eq_ok.mp h
  have hBuyOne := throwIf_eq_ok.mp hBuyRange
  have hGetOne := throwIf_eq_ok.mp hGetRange
  have hPercentRange := throwIf_eq_ok.mp h
  exact ⟨buyQuantity, getQuantity, getDiscountPercent, requireField_eq_ok.mp hBuy,
    requireField_eq_ok.mp hGet, requireField_eq_ok.mp hPercent, by omega, by omega, by omega,
    by omega⟩

theorem validateByType_sound {title : String} {u : Unit} (h : validateByType params = .ok u) :
    (Promotion.ofParams params title).RuleSound := by
  unfold validateByType at h
  cases hType : params.type <;> simp only [hType] at h <;>
    obtain ⟨_, hFirst, _⟩ := bind_eq_ok.mp h <;>
    simp only [Promotion.RuleSound, Promotion.ofParams, hType]
  · exact validateDiscount_eq_ok hFirst
  · exact validateDiscount_eq_ok hFirst
  · exact validateReward_eq_ok hFirst
  · exact validateReward_eq_ok hFirst

theorem Promotion.create_eq_ok {created : Promotion} (h : Promotion.create params = .ok created) :
    created = Promotion.ofParams params (Text.trim params.title) ∧ created.RuleSound := by
  unfold Promotion.create at h
  replace h := past (past h)
  have hRest : (do
      validateByType params
      validateProductUnitCapacity params.maxProductUnits params.consumedProductUnits
      return Promotion.ofParams params (Text.trim params.title)) = Except.ok created := by
    split at h
    · replace h := past h
      exact h
    · exact h
  obtain ⟨_, hByType, h⟩ := bind_eq_ok.mp hRest
  replace h := past h
  cases pure_eq_ok.mp h
  exact ⟨rfl, validateByType_sound hByType⟩

theorem Promotion.Admitted.ruleSound {promo : Promotion} (h : promo.Admitted) :
    promo.RuleSound := by
  obtain ⟨params, created, hCreate, _, hPromo⟩ := h
  rw [hPromo]
  exact (Promotion.create_eq_ok hCreate).2

theorem Promotion.Admitted.id_ne {promo : Promotion} (h : promo.Admitted) : promo.id ≠ "" := by
  obtain ⟨params, created, hCreate, hId, hPromo⟩ := h
  obtain ⟨rfl, _⟩ := Promotion.create_eq_ok hCreate
  rw [hPromo]
  exact hId

end

end Houndfe.Promotions
