import Houndfe.Promotions.Promotion

/-! What the requests of `PromotionsService` make of a promotion: the DTOs, the targets, customers
and price lists they resolve against the catalog, the merge of an update, and the ends and
activations of the entity. -/

namespace Houndfe.Promotions

def PromotionTargetType.text : PromotionTargetType → String
  | .categories => "CATEGORIES"
  | .brands => "BRANDS"
  | .products => "PRODUCTS"
  | .variants => "VARIANTS"

def PromotionTargetType.entityName : PromotionTargetType → String
  | .categories => "Category"
  | .brands => "Brand"
  | .products => "Product"
  | .variants => "Variant"

def TargetSide.text : TargetSide → String
  | .default => "DEFAULT"
  | .buy => "BUY"
  | .get => "GET"

/-- The ids that the tables a promotion refers to hold, as the tenant sees them. -/
structure Catalog where
  categories : List String
  brands : List String
  products : List String
  variants : List String
  customers : List String
  priceLists : List String
  deriving DecidableEq, Repr

def Catalog.ids (catalog : Catalog) : PromotionTargetType → List String
  | .categories => catalog.categories
  | .brands => catalog.brands
  | .products => catalog.products
  | .variants => catalog.variants

structure TargetItemDto where
  targetType : PromotionTargetType
  targetId : String
  deriving DecidableEq, Repr

/-- A field that is left out counts as one that is null, and a list that is left out as an empty
one. -/
structure CreatePromotionDto where
  title : String
  type : PromotionType
  method : PromotionMethod
  botEligible : Option Bool
  startDate : Option Int
  endDate : Option Int
  customerScope : Option CustomerScope
  discountType : Option PromotionDiscountType
  discountValue : Option Int
  minPurchaseAmountCents : Option Int
  appliesTo : Option PromotionTargetType
  targetItems : List TargetItemDto
  buyQuantity : Option Int
  getQuantity : Option Int
  getDiscountPercent : Option Int
  buyTargetType : Option PromotionTargetType
  getTargetType : Option PromotionTargetType
  buyTargetItems : List String
  getTargetItems : List String
  maxProductUnits : Option Int
  customerIds : List String
  priceListIds : List String
  daysOfWeek : List DayOfWeek
  deriving DecidableEq, Repr

/-- `undefined` leaves a field as it is. Where null does the same, the field has one layer. -/
structure UpdatePromotionDto where
  hasType : Bool
  title : Option String
  botEligible : Option Bool
  startDate : Option (Option Int)
  endDate : Option (Option Int)
  customerScope : Option CustomerScope
  discountType : Option PromotionDiscountType
  discountValue : Option (Option Int)
  minPurchaseAmountCents : Option (Option Int)
  appliesTo : Option (Option PromotionTargetType)
  targetItems : Option (List TargetItemDto)
  buyQuantity : Option (Option Int)
  getQuantity : Option (Option Int)
  getDiscountPercent : Option (Option Int)
  buyTargetType : Option (Option PromotionTargetType)
  getTargetType : Option (Option PromotionTargetType)
  buyTargetItems : Option (List String)
  getTargetItems : Option (List String)
  maxProductUnits : Option (Option Int)
  customerIds : Option (List String)
  priceListIds : Option (List String)
  daysOfWeek : Option (List DayOfWeek)
  deriving DecidableEq, Repr

/-- An update that changes nothing. -/
def UpdatePromotionDto.empty : UpdatePromotionDto :=
  ⟨false, none, none, none, none, none, none, none, none, none, none, none, none, none, none, none,
    none, none, none, none, none, none⟩

/-! ### Business days -/

def dayMs : Int := 86400000

/-- The minutes east of UTC of the business zone at noon of a calendar day, days counted from the
epoch. -/
abbrev ZoneOffset := Int → Int

def startOfBusinessDay (zoneOffset : ZoneOffset) (input : Int) : Int :=
  let calendarDay := input / dayMs
  calendarDay * dayMs - zoneOffset calendarDay * 60 * 1000

def endOfBusinessDay (zoneOffset : ZoneOffset) (input : Int) : Int :=
  startOfBusinessDay zoneOffset input + 86399999

/-! ### Targets -/

/-- The ids of each type are looked up together; an id that is the empty string is falsy, and is
taken for none that is missing. -/
def validateTargetIds (catalog : Catalog) (items : List TargetItemDto) :
    Except DomainError Unit :=
  (items.map (·.targetType)).eraseDups.forM fun targetType =>
    let ids := (items.filter (·.targetType = targetType)).map (·.targetId)
    match ids.find? (· ∉ catalog.ids targetType) with
    | none => .ok ()
    | some missing => throwIf (missing ≠ "") (invalidArgumentWithCode
        (targetType.entityName ++ " with id '" ++ missing ++ "' not found") "INVALID_TARGET")

def pushUnique (result : List PromotionTargetItemData) (item : PromotionTargetItemData) :
    Except DomainError (List PromotionTargetItemData) := do
  throwIf (item ∈ result) (invalidArgumentWithCode
    ("Duplicate target mapping for " ++ item.side.text ++ "/" ++ item.targetType.text ++ "/" ++
      item.targetId) "duplicate_target")
  return result ++ [item]

/-- What the resolution of targets reads of a DTO. -/
structure TargetInput where
  targetItems : List TargetItemDto
  buyTargetType : Option PromotionTargetType
  getTargetType : Option PromotionTargetType
  buyTargetItems : List String
  getTargetItems : List String
  deriving DecidableEq, Repr

/-- The targets of one side, looked up together and pushed one after another. -/
def pushSide (catalog : Catalog) (side : TargetSide) (items : List TargetItemDto)
    (result : List PromotionTargetItemData) : Except DomainError (List PromotionTargetItemData) := do
  validateTargetIds catalog items
  (items.map fun item => ⟨side, item.targetType, item.targetId⟩).foldlM pushUnique result

/-- The items of a side that has one type for all of them; without a type they are dropped. -/
def sideItems (targetType : Option PromotionTargetType) (targetIds : List String) :
    List TargetItemDto :=
  match targetType with
  | none => []
  | some targetType => targetIds.map fun targetId => ⟨targetType, targetId⟩

def resolveTargetItems (catalog : Catalog) (input : TargetInput) :
    Except DomainError (List PromotionTargetItemData) := do
  let defaults ← pushSide catalog .default input.targetItems []
  let bought ← pushSide catalog .buy (sideItems input.buyTargetType input.buyTargetItems) defaults
  pushSide catalog .get (sideItems input.getTargetType input.getTargetItems) bought

def assertBuyXGetYTargeted (type : PromotionType) (appliesTo : Option PromotionTargetType)
    (targetItems : List PromotionTargetItemData) : Except DomainError Unit :=
  throwIf (type = .buyXGetY ∧
      ¬ ∃ item ∈ targetItems, item.side = .default ∧ some item.targetType = appliesTo)
    (invalidArgumentWithCode
      "BUY_X_GET_Y promotions require appliesTo and at least one matching target item"
      "INVALID_TARGET")

/-- A side with a target type has a target of that type. -/
def assertSideTargeted (side : TargetSide) (targetType : Option PromotionTargetType)
    (itemsName typeName : String) (targetItems : List PromotionTargetItemData) :
    Except DomainError Unit :=
  throwIf (targetType.isSome ∧
      ¬ ∃ item ∈ targetItems, item.side = side ∧ some item.targetType = targetType)
    (invalidArgumentWithCode
      ("ADVANCED promotions require " ++ itemsName ++ " when " ++ typeName ++ " is specified")
      "advanced_missing_targets")

/-- The first target of the GET side that is one of the BUY side too. -/
def overlapping (targetItems : List PromotionTargetItemData) : Option PromotionTargetItemData :=
  targetItems.find? fun item => item.side = .get ∧
    ∃ other ∈ targetItems, other.side = .buy ∧ other.targetType = item.targetType ∧
      other.targetId = item.targetId

def assertAdvancedSideTargets (type : PromotionType)
    (buyTargetType getTargetType : Option PromotionTargetType)
    (targetItems : List PromotionTargetItemData) : Except DomainError Unit :=
  if type = .advanced then do
    assertSideTargeted .buy buyTargetType "buyTargetItems" "buyTargetType" targetItems
    assertSideTargeted .get getTargetType "getTargetItems" "getTargetType" targetItems
    match overlapping targetItems with
    | none => .ok ()
    | some item => .error (invalidArgumentWithCode
        ("ADVANCED promotions require disjoint BUY/GET target entities (" ++ item.targetType.text ++
          " '" ++ item.targetId ++ "' appears on both sides)") "advanced_overlapping_targets")
  else .ok ()

/-- The ids of a relation, each once; as with targets, the empty string is taken for found. -/
def resolveIds (entityName : String) (known ids : List String) :
    Except DomainError (List String) := do
  match ids.find? (· ∉ known) with
  | none => return ids.eraseDups
  | some missing =>
      throwIf (missing ≠ "") (invalidArgumentWithCode
        (entityName ++ " with id '" ++ missing ++ "' not found") "INVALID_TARGET")
      return ids.eraseDups

def resolveCustomers (catalog : Catalog) (customerIds : List String) :
    Except DomainError (List String) :=
  resolveIds "Customer" catalog.customers customerIds

def resolvePriceLists (catalog : Catalog) (priceListIds : List String) :
    Except DomainError (List String) :=
  resolveIds "PriceList" catalog.priceLists priceListIds

/-! ### Creation -/

def CreatePromotionDto.params (zoneOffset : ZoneOffset) (id : String) (dto : CreatePromotionDto) :
    CreatePromotionParams where
  botEligible := dto.botEligible.getD false
  id := id
  title := dto.title
  type := dto.type
  method := dto.method
  manuallyEnded := false
  startDate := dto.startDate.map (startOfBusinessDay zoneOffset)
  endDate := dto.endDate.map (endOfBusinessDay zoneOffset)
  customerScope := dto.customerScope.getD .all
  discountType := dto.discountType
  discountValue := dto.discountValue
  minPurchaseAmountCents := dto.minPurchaseAmountCents
  appliesTo := dto.appliesTo
  buyQuantity := dto.buyQuantity
  getQuantity := dto.getQuantity
  getDiscountPercent := dto.getDiscountPercent
  buyTargetType := dto.buyTargetType
  getTargetType := dto.getTargetType
  maxProductUnits := dto.maxProductUnits
  consumedProductUnits := 0
  priceLists := []
  daysOfWeek := []

def CreatePromotionDto.targetInput (dto : CreatePromotionDto) : TargetInput :=
  ⟨dto.targetItems, dto.buyTargetType, dto.getTargetType, dto.buyTargetItems, dto.getTargetItems⟩

/-! ### Update -/

def buildMergedValidationParams (zoneOffset : ZoneOffset) (existing : Promotion)
    (dto : UpdatePromotionDto) : CreatePromotionParams where
  botEligible := dto.botEligible.getD existing.botEligible
  id := existing.id
  title := dto.title.getD existing.title
  type := existing.type
  method := existing.method
  manuallyEnded := false
  startDate := match dto.startDate with
    | none => existing.startDate
    | some startDate => startDate.map (startOfBusinessDay zoneOffset)
  endDate := match dto.endDate with
    | none => existing.endDate
    | some endDate => endDate.map (endOfBusinessDay zoneOffset)
  customerScope := dto.customerScope.getD existing.customerScope
  discountType := dto.discountType.or existing.discountType
  discountValue := dto.discountValue.getD existing.discountValue
  minPurchaseAmountCents := dto.minPurchaseAmountCents.getD existing.minPurchaseAmountCents
  appliesTo := dto.appliesTo.getD existing.appliesTo
  buyQuantity := dto.buyQuantity.getD existing.buyQuantity
  getQuantity := dto.getQuantity.getD existing.getQuantity
  getDiscountPercent := dto.getDiscountPercent.getD existing.getDiscountPercent
  buyTargetType := dto.buyTargetType.getD existing.buyTargetType
  getTargetType := dto.getTargetType.getD existing.getTargetType
  maxProductUnits := dto.maxProductUnits.getD existing.maxProductUnits
  consumedProductUnits := existing.consumedProductUnits
  priceLists := dto.priceListIds.getD existing.priceLists
  daysOfWeek := dto.daysOfWeek.getD existing.daysOfWeek

namespace Promotion

def side (existing : Promotion) (side : TargetSide) : List PromotionTargetItemData :=
  existing.targetItems.filter (·.side = side)

end Promotion

/-- A side that the update leaves out is resolved again from what is stored. -/
def buildTargetResolutionInput (existing : Promotion) (dto : UpdatePromotionDto) : TargetInput where
  targetItems := dto.targetItems.getD
    ((existing.side .default).map fun item => ⟨item.targetType, item.targetId⟩)
  buyTargetType := dto.buyTargetType.getD existing.buyTargetType
  getTargetType := dto.getTargetType.getD existing.getTargetType
  buyTargetItems := dto.buyTargetItems.getD ((existing.side .buy).map (·.targetId))
  getTargetItems := dto.getTargetItems.getD ((existing.side .get).map (·.targetId))

/-- The fields that `update` assigns before its cap, its targets and its relations. The title is
the one of the request, not the trimmed one that was checked. -/
def Promotion.assign (existing : Promotion) (merged : CreatePromotionParams) : Promotion :=
  { existing with
    botEligible := merged.botEligible
    title := merged.title
    startDate := merged.startDate
    endDate := merged.endDate
    customerScope := merged.customerScope
    discountType := merged.discountType
    discountValue := merged.discountValue
    minPurchaseAmountCents := merged.minPurchaseAmountCents
    appliesTo := merged.appliesTo
    buyQuantity := merged.buyQuantity
    getQuantity := merged.getQuantity
    getDiscountPercent := merged.getDiscountPercent
    buyTargetType := merged.buyTargetType
    getTargetType := merged.getTargetType }

def Promotion.updateMaxProductUnits (promo : Promotion) (maxProductUnits : Option Int) :
    Except DomainError Promotion := do
  validateProductUnitCapacity maxProductUnits promo.consumedProductUnits
  return { promo with maxProductUnits := maxProductUnits }

/-! ### Ends and activations -/

/-- `Promotion.end`. -/
def Promotion.finish (promo : Promotion) (now : Int) : Promotion :=
  if promo.manuallyEnded then promo
  else { promo with manuallyEnded := true, endDate := promo.endDate.or (some now) }

/-- `Promotion.activate`, and whether it changed anything. -/
def Promotion.activate (promo : Promotion) (now : Int) : Promotion × Bool :=
  let expired := promo.endDate.any (· < now)
  if promo.manuallyEnded || expired then
    ({ promo with manuallyEnded := false, endDate := if expired then none else promo.endDate }, true)
  else (promo, false)

end Houndfe.Promotions
