import Houndfe.Base.Keyed
import Houndfe.Promotions.Promotion
import Houndfe.Sales.SaleItem
import Mathlib.Data.String.Basic

/-! The promotion engine of the register: which promotion each line of a cart gets, which
one the order gets, the fallback when the units of a promotion run short, and the manual
promotions that are offered. Ids are compared as the source compares them, which for ids in
ASCII is the order of `String`. -/

namespace Houndfe.Promotions

open Keyed Rounding
open Houndfe.Sales (DiscountType RewardKind)

structure PosEvalLine where
  itemId : String
  productId : String
  variantId : Option String
  quantity : Int
  effectiveUnitPriceCents : Int
  appliedGlobalPriceListId : Option String
  categoryId : Option String
  brandId : Option String
  hasManualDiscount : Bool
  deriving DecidableEq, Repr

/-- `today` is the weekday of `now` in the time zone of the business. -/
structure PosEvalInput where
  botEligibleOnly : Bool
  treatCustomerAsUnregistered : Bool
  now : Int
  today : DayOfWeek
  customerId : Option String
  lines : List PosEvalLine
  vetoedPromotionIds : List String
  optedInManualPromotionIds : List String
  deriving DecidableEq, Repr

structure PosEvalPerUnitLineResult where
  itemId : String
  promotionId : String
  discountType : DiscountType
  discountValue : Int
  discountTitle : String
  deriving DecidableEq, Repr

structure PosEvalRewardLineResult where
  itemId : String
  promotionId : String
  discountTitle : String
  lineDiscountCents : Int
  perUnitRewardCents : Int
  discountedUnitCount : Int
  getDiscountPercent : Int
  deriving DecidableEq, Repr

/-- A result per unit, or a reward for the whole line: `buy-x-get-y` or `advanced`. -/
inductive PosEvalLineResult where
  | perUnit (result : PosEvalPerUnitLineResult)
  | reward (kind : RewardKind) (result : PosEvalRewardLineResult)
  deriving DecidableEq, Repr

namespace PosEvalLineResult

def itemId : PosEvalLineResult → String
  | .perUnit result => result.itemId
  | .reward _ result => result.itemId

def promotionId : PosEvalLineResult → String
  | .perUnit result => result.promotionId
  | .reward _ result => result.promotionId

end PosEvalLineResult

structure PosEvalOrderResult where
  promotionId : String
  discountType : DiscountType
  discountValue : Int
  discountTitle : String
  discountAmountCents : Int
  deriving DecidableEq, Repr

structure PromotionCapacityDemand where
  promotionId : String
  units : Int
  deriving DecidableEq, Repr

/-! ### Pure helpers -/

/-- The percentages a line accepts. -/
def clampPercentageToSafeRange (percent : Int) : Int :=
  min (max percent 1) 99

structure BuyXGetYReward where
  rewardGroups : Int
  discountedUnitCount : Int
  perUnitRewardCents : Int
  lineDiscountCents : Int
  deriving DecidableEq, Repr

def perUnitReward (effectiveUnitPriceCents getDiscountPercent : Int) : Int :=
  roundDiv (effectiveUnitPriceCents * getDiscountPercent) 100

def computeBuyXGetYReward (quantity effectiveUnitPriceCents buyQuantity getQuantity
    getDiscountPercent : Int) : BuyXGetYReward :=
  let rewardGroups := quantity / (buyQuantity + getQuantity)
  let discountedUnitCount := rewardGroups * getQuantity
  let perUnitRewardCents := perUnitReward effectiveUnitPriceCents getDiscountPercent
  ⟨rewardGroups, discountedUnitCount, perUnitRewardCents,
    discountedUnitCount * perUnitRewardCents⟩

structure GetCandidateLine where
  itemId : String
  effectiveUnitPriceCents : Int
  quantity : Int
  deriving DecidableEq, Repr

structure AdvancedLineReward where
  itemId : String
  discountedUnitCount : Int
  perUnitRewardCents : Int
  lineDiscountCents : Int
  deriving DecidableEq, Repr

/-- Walk the lines until the pool of discounted units is drained. -/
def allocateReward (getDiscountPercent : Int) :
    List GetCandidateLine → Int → List AdvancedLineReward
  | [], _ => []
  | line :: rest, remaining =>
      let units := min line.quantity remaining
      let perUnitRewardCents := perUnitReward line.effectiveUnitPriceCents getDiscountPercent
      if remaining ≤ 0 then []
      else if units ≤ 0 then allocateReward getDiscountPercent rest remaining
      else
        ⟨line.itemId, units, perUnitRewardCents, units * perUnitRewardCents⟩ ::
          allocateReward getDiscountPercent rest (remaining - units)

def computeAdvancedReward (totalBuyMatchedQty buyQuantity getQuantity getDiscountPercent : Int)
    (getCandidateLines : List GetCandidateLine) : List AdvancedLineReward :=
  let rewardGroupCount := totalBuyMatchedQty / buyQuantity
  if rewardGroupCount = 0 then []
  else
    allocateReward getDiscountPercent (sortByKey GetCandidateLine.itemId getCandidateLines)
      (rewardGroupCount * getQuantity)

inductive LineMatchTier where
  | variant
  | product
  | category
  | brand
  deriving DecidableEq, Repr

/-- `TIER_ORDINAL`: category and brand are peers. -/
def LineMatchTier.ordinal : LineMatchTier → Nat
  | .variant => 3
  | .product => 2
  | .brand => 1
  | .category => 1

/-- Some target of this side and type names the id; an id that is not set matches none. -/
def hasTarget (targetItems : List PromotionTargetItemData) (side : TargetSide)
    (targetType : PromotionTargetType) (id : Option String) : Bool :=
  match id with
  | none => false
  | some targetId => targetItems.contains ⟨side, targetType, targetId⟩

def matchTargetTier (targetItems : List PromotionTargetItemData) (line : PosEvalLine)
    (side : TargetSide) : Option LineMatchTier :=
  if hasTarget targetItems side .variants line.variantId then some .variant
  else if hasTarget targetItems side .products (some line.productId) then some .product
  else if hasTarget targetItems side .categories line.categoryId then some .category
  else if hasTarget targetItems side .brands line.brandId then some .brand
  else none

/-- The promotion has no price list, or the list of the line is one of them. -/
def matchesPriceList (promo : Promotion) (line : PosEvalLine) : Bool :=
  promo.priceLists.isEmpty ||
    match line.appliedGlobalPriceListId with
    | none => false
    | some globalId => promo.priceLists.contains globalId

/-! ### Eligibility -/

/-- All four target types are supported on either side; an unset one is not. -/
def isSupportedEngineType (promo : Promotion) : Bool :=
  match promo.type with
  | .orderDiscount => true
  | .productDiscount | .buyXGetY => promo.appliesTo.isSome
  | .advanced => promo.buyTargetType.isSome && promo.getTargetType.isSome

def passesCustomerScope (promo : Promotion) (input : PosEvalInput) : Bool :=
  match promo.customerScope with
  | .all => true
  | .registeredOnly => input.customerId.isSome && !input.treatCustomerAsUnregistered
  | .specific =>
      match input.customerId with
      | none => false
      | some customerId => promo.customers.contains customerId

def passesPromotionWideGates (promo : Promotion) (input : PosEvalInput) : Bool :=
  isSupportedEngineType promo && promo.getEffectiveStatus input.now = .active &&
    (promo.daysOfWeek.isEmpty || promo.daysOfWeek.contains input.today) &&
      passesCustomerScope promo input

/-- A manual promotion needs the opt-in; a veto excludes either kind. -/
def isOffered (promo : Promotion) (input : PosEvalInput) : Bool :=
  (promo.method = .automatic || input.optedInManualPromotionIds.contains promo.id) &&
    !input.vetoedPromotionIds.contains promo.id

/-! ### Product discounts -/

structure PerLineCandidate where
  promotion : Promotion
  discountCents : Int
  tier : LineMatchTier
  deriving DecidableEq

def computeLineDiscountCents (promo : Promotion) (baseline : Int) : Int :=
  match promo.discountType, promo.discountValue with
  | some discountType, some discountValue =>
      if baseline ≤ 0 then 0
      else
        match discountType with
        | .percentage =>
            roundDiv (baseline * clampPercentageToSafeRange discountValue) 100
        | .fixed => if discountValue ≤ 0 then 0 else min discountValue baseline
  | _, _ => 0

/-- More discount wins, and of equal ones the lower id. -/
def ranksHigher (discountCents : Int) (id : String) (bestCents : Int) (bestId : String) : Bool :=
  bestCents < discountCents || (discountCents = bestCents && decide (id < bestId))

/-- One turn of the loop of `pickBestPerLine`. -/
def perLineCandidate (line : PosEvalLine) (input : PosEvalInput) (promo : Promotion) :
    Option PerLineCandidate :=
  if isOffered promo input && passesPromotionWideGates promo input &&
      promo.type = .productDiscount then
    match matchTargetTier promo.targetItems line .default with
    | none => none
    | some tier =>
        let discountCents := computeLineDiscountCents promo line.effectiveUnitPriceCents
        if matchesPriceList promo line && 0 < discountCents then some ⟨promo, discountCents, tier⟩
        else none
  else none

def pickBestByMaxDiscountThenLowestId (candidates : List PerLineCandidate) :
    Option PerLineCandidate :=
  pickBest (fun c best =>
    ranksHigher c.discountCents c.promotion.id best.discountCents best.promotion.id) candidates

def pickBestPerLine (line : PosEvalLine) (candidates : List Promotion) (input : PosEvalInput) :
    Option PerLineCandidate :=
  if line.hasManualDiscount then none
  else
    let eligible := candidates.filterMap (perLineCandidate line input)
    let maxOrdinal := eligible.foldl (fun m c => max m c.tier.ordinal) 0
    pickBestByMaxDiscountThenLowestId
      (eligible.filter fun c => c.tier.ordinal = maxOrdinal)

def toLineResult (itemId : String) (winner : PerLineCandidate) : PosEvalLineResult :=
  let promo := winner.promotion
  if promo.discountType = some .percentage then
    .perUnit ⟨itemId, promo.id, .percentage,
      clampPercentageToSafeRange (promo.discountValue.getD 1), promo.title⟩
  else .perUnit ⟨itemId, promo.id, .amount, promo.discountValue.getD 0, promo.title⟩

/-- What the line is taken to save: per unit, or for the whole line of a reward. -/
def computeAppliedDiscountCents (line : PosEvalLine) : PosEvalLineResult → Int
  | .reward _ result => result.lineDiscountCents
  | .perUnit result =>
      match result.discountType with
      | .percentage => roundDiv
          (line.effectiveUnitPriceCents * clampPercentageToSafeRange result.discountValue) 100
      | .amount => min result.discountValue line.effectiveUnitPriceCents

def productDiscountResults (lines : List PosEvalLine) (candidates : List Promotion)
    (input : PosEvalInput) : List PosEvalLineResult :=
  lines.filterMap fun line =>
    (pickBestPerLine line candidates input).map (toLineResult line.itemId)

/-- The result a line has so far. -/
def resultFor (lineResults : List PosEvalLineResult) (itemId : String) :
    Option PosEvalLineResult :=
  lookup PosEvalLineResult.itemId lineResults itemId

/-! ### Buy x get y -/

structure RewardCandidate where
  promotion : Promotion
  lineDiscountCents : Int
  perUnitRewardCents : Int
  discountedUnitCount : Int
  getDiscountPercent : Int
  deriving DecidableEq

/-- One turn of the loop of `pickBestBuyXGetYPerLine`. -/
def buyXGetYCandidate (line : PosEvalLine) (input : PosEvalInput) (promo : Promotion) :
    Option RewardCandidate :=
  if promo.type = .buyXGetY && isOffered promo input && passesPromotionWideGates promo input &&
      (matchTargetTier promo.targetItems line .default).isSome && matchesPriceList promo line then
    match promo.buyQuantity, promo.getQuantity, promo.getDiscountPercent with
    | some buyQuantity, some getQuantity, some getDiscountPercent =>
        let reward := computeBuyXGetYReward line.quantity line.effectiveUnitPriceCents buyQuantity
          getQuantity getDiscountPercent
        if buyQuantity ≤ line.quantity ∧ 0 < reward.lineDiscountCents then
          some ⟨promo, reward.lineDiscountCents, reward.perUnitRewardCents,
            reward.discountedUnitCount, getDiscountPercent⟩
        else none
    | _, _, _ => none
  else none

def pickBestBuyXGetYPerLine (line : PosEvalLine) (candidates : List Promotion)
    (input : PosEvalInput) : Option RewardCandidate :=
  if line.hasManualDiscount then none
  else
    pickBest (fun c best => ranksHigher c.lineDiscountCents c.promotion.id best.lineDiscountCents
      best.promotion.id) (candidates.filterMap (buyXGetYCandidate line input))

def RewardCandidate.toLineResult (winner : RewardCandidate) (itemId : String) :
    PosEvalLineResult :=
  .reward .buyXGetY ⟨itemId, winner.promotion.id, winner.promotion.title,
    winner.lineDiscountCents, winner.perUnitRewardCents, winner.discountedUnitCount,
    winner.getDiscountPercent⟩

/-- The whole saving of a line's result: a result per unit counts once for each unit. -/
def existingLineResultTotalCents (line : PosEvalLine) : Option PosEvalLineResult → Int
  | none => 0
  | some (.reward _ result) => result.lineDiscountCents
  | some (.perUnit result) =>
      computeAppliedDiscountCents line (.perUnit result) * line.quantity

/-- A reward replaces the result of a line when it saves more, or as much under a lower id. -/
def replacesExisting (line : PosEvalLine) (existing : Option PosEvalLineResult)
    (lineDiscountCents : Int) (promotionId : String) : Bool :=
  let existingTotal := existingLineResultTotalCents line existing
  existingTotal < lineDiscountCents ||
    (lineDiscountCents = existingTotal &&
      match existing with
      | none => true
      | some result => decide (promotionId < result.promotionId))

/-- The result that the buy-x-get-y pass compares with: it overlooks one of its own kind. -/
def notBuyXGetY : Option PosEvalLineResult → Option PosEvalLineResult
  | some (.reward .buyXGetY _) => none
  | existing => existing

def buyXGetYStep (candidates : List Promotion) (input : PosEvalInput)
    (lineResults : List PosEvalLineResult) (line : PosEvalLine) : List PosEvalLineResult :=
  match pickBestBuyXGetYPerLine line candidates input with
  | none => lineResults
  | some winner =>
      let existingPd := notBuyXGetY (resultFor lineResults line.itemId)
      if replacesExisting line existingPd winner.lineDiscountCents winner.promotion.id then
        upsert PosEvalLineResult.itemId (winner.toLineResult line.itemId) lineResults
      else lineResults

def evaluateBuyXGetYPass (lines : List PosEvalLine) (candidates : List Promotion)
    (input : PosEvalInput) (lineResults : List PosEvalLineResult) : List PosEvalLineResult :=
  lines.foldl (buyXGetYStep candidates input) lineResults

/-! ### Advanced rewards -/

/-- A line that this side of an advanced promotion may count. -/
def isSideLine (promo : Promotion) (side : TargetSide) (line : PosEvalLine) : Bool :=
  !line.hasManualDiscount && matchesPriceList promo line &&
    (matchTargetTier promo.targetItems line side).isSome

def buyLines (promo : Promotion) (lines : List PosEvalLine) : List PosEvalLine :=
  lines.filter (isSideLine promo .buy)

/-- A line that counts on the buying side gets no reward. -/
def getLines (promo : Promotion) (lines : List PosEvalLine) : List PosEvalLine :=
  lines.filter fun line => isSideLine promo .get line &&
    !((buyLines promo lines).map PosEvalLine.itemId).contains line.itemId

def PosEvalLine.toGetCandidate (line : PosEvalLine) : GetCandidateLine :=
  ⟨line.itemId, line.effectiveUnitPriceCents, line.quantity⟩

/-- The rewards that one promotion offers to the lines of the cart. -/
def advancedRewards (lines : List PosEvalLine) (input : PosEvalInput) (promo : Promotion) :
    List AdvancedLineReward :=
  if promo.type = .advanced && promo.method = .automatic &&
      !input.vetoedPromotionIds.contains promo.id && passesPromotionWideGates promo input then
    match promo.buyQuantity, promo.getQuantity, promo.getDiscountPercent with
    | some buyQuantity, some getQuantity, some getDiscountPercent =>
        computeAdvancedReward ((buyLines promo lines).map PosEvalLine.quantity).sum buyQuantity
          getQuantity getDiscountPercent ((getLines promo lines).map PosEvalLine.toGetCandidate)
    | _, _, _ => []
  else []

def AdvancedLineReward.toLineResult (reward : AdvancedLineReward) (promo : Promotion) :
    PosEvalLineResult :=
  .reward .advanced ⟨reward.itemId, promo.id, promo.title, reward.lineDiscountCents,
    reward.perUnitRewardCents, reward.discountedUnitCount, promo.getDiscountPercent.getD 0⟩

def advancedRewardStep (lines : List PosEvalLine) (promo : Promotion)
    (lineResults : List PosEvalLineResult) (reward : AdvancedLineReward) :
    List PosEvalLineResult :=
  match lookup PosEvalLine.itemId lines reward.itemId with
  | none => lineResults
  | some targetLine =>
      if 0 < reward.lineDiscountCents ∧
          replacesExisting targetLine (resultFor lineResults reward.itemId)
            reward.lineDiscountCents promo.id then
        upsert PosEvalLineResult.itemId (reward.toLineResult promo) lineResults
      else lineResults

def advancedStep (lines : List PosEvalLine) (input : PosEvalInput)
    (lineResults : List PosEvalLineResult) (promo : Promotion) : List PosEvalLineResult :=
  (advancedRewards lines input promo).foldl (advancedRewardStep lines promo) lineResults

def evaluateAdvancedPass (lines : List PosEvalLine) (candidates : List Promotion)
    (input : PosEvalInput) (lineResults : List PosEvalLineResult) : List PosEvalLineResult :=
  candidates.foldl (advancedStep lines input) lineResults

/-! ### The order discount -/

structure OrderCandidate where
  promotion : Promotion
  discountCents : Int
  deriving DecidableEq

def computeOrderDiscountCents (promo : Promotion) (postLineSubtotalCents : Int) : Int :=
  match promo.discountType, promo.discountValue with
  | some .percentage, some discountValue =>
      roundDiv (postLineSubtotalCents * clampPercentageToSafeRange discountValue) 100
  | some .fixed, some discountValue =>
      if discountValue ≤ 0 then 0 else min discountValue postLineSubtotalCents
  | _, _ => 0

/-- One turn of the loop of `pickBestOrderPromo`. -/
def orderCandidate (input : PosEvalInput) (prePromoSubtotalCents postLineSubtotalCents : Int)
    (promo : Promotion) : Option OrderCandidate :=
  if promo.type = .orderDiscount && isOffered promo input &&
      passesPromotionWideGates promo input && input.lines.all (matchesPriceList promo) &&
        decide (∀ minimum ∈ promo.minPurchaseAmountCents, minimum ≤ prePromoSubtotalCents) then
    let discountCents := computeOrderDiscountCents promo postLineSubtotalCents
    if 0 < postLineSubtotalCents ∧ 0 < discountCents then some ⟨promo, discountCents⟩ else none
  else none

def OrderCandidate.toOrderResult (winner : OrderCandidate) : PosEvalOrderResult :=
  if winner.promotion.discountType = some .percentage then
    ⟨winner.promotion.id, .percentage,
      clampPercentageToSafeRange (winner.promotion.discountValue.getD 1), winner.promotion.title,
      winner.discountCents⟩
  else
    ⟨winner.promotion.id, .amount, winner.promotion.discountValue.getD 0, winner.promotion.title,
      winner.discountCents⟩

def pickBestOrderPromo (candidates : List Promotion) (input : PosEvalInput)
    (prePromoSubtotalCents postLineSubtotalCents : Int) : Option PosEvalOrderResult :=
  (pickBest (fun c best => ranksHigher c.discountCents c.promotion.id best.discountCents
      best.promotion.id)
    (candidates.filterMap (orderCandidate input prePromoSubtotalCents postLineSubtotalCents))).map
      OrderCandidate.toOrderResult

def prePromoSubtotalCents (lines : List PosEvalLine) : Int :=
  (lines.map fun line => line.effectiveUnitPriceCents * line.quantity).sum

/-- The base of the order discount: what the results of the lines leave. -/
def postLineSubtotalCents (lines : List PosEvalLine) (lineResults : List PosEvalLineResult) : Int :=
  (lines.map fun line => line.effectiveUnitPriceCents * line.quantity -
    match resultFor lineResults line.itemId with
    | some result => computeAppliedDiscountCents line result
    | none => 0).sum

/-! ### Capacity -/

/-- The units that the results ask for, promotion by promotion. -/
def demandEntries (lines : List PosEvalLine) (lineResults : List PosEvalLineResult)
    (orderResult : Option PosEvalOrderResult) : List PromotionCapacityDemand :=
  lineResults.filterMap (fun result =>
    match result with
    | .reward _ reward => some ⟨reward.promotionId, reward.discountedUnitCount⟩
    | .perUnit perUnit => (lookup PosEvalLine.itemId lines perUnit.itemId).map fun line =>
        ⟨perUnit.promotionId, line.quantity⟩) ++
  orderResult.toList.map fun order => ⟨order.promotionId, (lines.map PosEvalLine.quantity).sum⟩

def demandedUnits (entries : List PromotionCapacityDemand) (promotionId : String) : Int :=
  ((entries.filter fun entry => entry.promotionId = promotionId).map
    PromotionCapacityDemand.units).sum

def computePromotionCapacityDemands (lines : List PosEvalLine)
    (lineResults : List PosEvalLineResult) (orderResult : Option PosEvalOrderResult) :
    List PromotionCapacityDemand :=
  let entries := demandEntries lines lineResults orderResult
  let demands := (entries.map PromotionCapacityDemand.promotionId).dedup.map fun promotionId =>
    (⟨promotionId, demandedUnits entries promotionId⟩ : PromotionCapacityDemand)
  sortByKey PromotionCapacityDemand.promotionId (demands.filter fun demand => 0 < demand.units)

/-! ### The evaluation -/

/-- What one pass selects. -/
structure Selection where
  lines : List PosEvalLineResult
  order : Option PosEvalOrderResult
  promotionCapacityDemands : List PromotionCapacityDemand
  deriving DecidableEq

/-- The line results of one pass over the candidates. -/
def evaluateLines (input : PosEvalInput) (candidates : List Promotion) : List PosEvalLineResult :=
  evaluateAdvancedPass input.lines candidates input
    (evaluateBuyXGetYPass input.lines candidates input
      (productDiscountResults input.lines candidates input))

/-- The candidates that a pass considers: excluded promotions leave it as a whole. -/
def notExcluded (loadedCandidates : List Promotion) (excluded : List String) : List Promotion :=
  loadedCandidates.filter fun promo => !excluded.contains promo.id

/-- The winners of `runEvaluationPass`. -/
def runEvaluationPass (input : PosEvalInput) (candidates : List Promotion) : Selection :=
  let lines := evaluateLines input candidates
  let order := pickBestOrderPromo candidates input (prePromoSubtotalCents input.lines)
    (postLineSubtotalCents input.lines lines)
  ⟨lines, order, computePromotionCapacityDemands input.lines lines order⟩

/-- The selected promotions whose demand exceeds what their cap leaves. -/
def findCapacityOverrunIds (candidates : List Promotion) (pass : Selection) : List String :=
  (pass.promotionCapacityDemands.filter fun demand =>
    match (lookup Promotion.id candidates.reverse demand.promotionId).bind
      Promotion.remainingProductUnits with
    | none => false
    | some remaining => remaining < demand.units).map PromotionCapacityDemand.promotionId

structure Evaluation where
  selection : Selection
  capacityExcludedPromotionIds : List String
  deriving DecidableEq

/-- The loop of `evaluate`; `fuel` bounds the passes that are thrown away. -/
def evaluateFrom (input : PosEvalInput) (loadedCandidates : List Promotion) :
    Nat → List String → Evaluation
  | fuel, excluded =>
      let candidates := notExcluded loadedCandidates excluded
      let pass := runEvaluationPass input candidates
      let overrunIds := findCapacityOverrunIds candidates pass
      if overrunIds = [] then ⟨pass, excluded⟩
      else
        match fuel with
        | 0 => ⟨pass, excluded⟩
        | fuel + 1 => evaluateFrom input loadedCandidates fuel (excluded ++ overrunIds)

/-- `data` is what the query for active promotions loads. -/
def loadCandidates (input : PosEvalInput) (data : List Promotion) : List Promotion :=
  if input.botEligibleOnly then data.filter Promotion.botEligible else data

/-- The whole evaluation: each round that overruns excludes a loaded candidate, so there are
at most as many as candidates. -/
def evaluate (input : PosEvalInput) (data : List Promotion) : Evaluation :=
  let loadedCandidates := loadCandidates input data
  let outcome := evaluateFrom input loadedCandidates loadedCandidates.length []
  { outcome with
    capacityExcludedPromotionIds := sortByKey id outcome.capacityExcludedPromotionIds }

/-- A manual promotion that still has something to apply to: the order, or a line. -/
def hasTargetInCart (promo : Promotion) (lines : List PosEvalLine) : Bool :=
  isSupportedEngineType promo &&
    match promo.type with
    | .orderDiscount => true
    | .productDiscount | .buyXGetY =>
        lines.any fun line => (matchTargetTier promo.targetItems line .default).isSome
    | .advanced => false

/-- The opt-ins that are not orphaned. -/
def targetableManualPromotionIds (input : PosEvalInput) (loadedCandidates : List Promotion) :
    List String :=
  (loadedCandidates.filter fun promo =>
    promo.method = .manual && input.optedInManualPromotionIds.contains promo.id &&
      !input.vetoedPromotionIds.contains promo.id && hasTargetInCart promo input.lines).map
        Promotion.id

end Houndfe.Promotions

/-! ### The manual promotions

The ones that the register offers to the seller: not opted in, not vetoed, with something to apply
to, and hidden when opting in would ask for more units than are left. -/

namespace Houndfe.Promotions

open Keyed

structure PosEvalManualCandidate where
  id : String
  title : String
  type : PromotionType
  method : PromotionMethod
  eligible : Bool
  buyQuantity : Option Int
  getQuantity : Option Int
  unitsNeeded : Int
  deriving DecidableEq, Repr

structure PosEvalResult where
  lines : List PosEvalLineResult
  order : Option PosEvalOrderResult
  availableManualPromotions : List PosEvalManualCandidate
  targetableManualPromotionIds : List String
  promotionCapacityDemands : List PromotionCapacityDemand
  capacityExcludedPromotionIds : List String
  deriving DecidableEq

def matchesLine (promo : Promotion) (line : PosEvalLine) : Bool :=
  (matchTargetTier promo.targetItems line .default).isSome

/-- The largest quantity of a line that matches; zero when none does. -/
def maxMatchQty (promo : Promotion) (lines : List PosEvalLine) : Int :=
  lines.foldl (fun most line =>
    if matchesLine promo line then max most line.quantity else most) 0

/-- What the candidate would be asked for if the seller opted in to it now. -/
def computeManualCandidateSelectedDemand (promotionId : String) (input : PosEvalInput)
    (loadedCandidates : List Promotion) (excluded : List String) : Int :=
  let nestedPass := runEvaluationPass
    { input with
      optedInManualPromotionIds := input.optedInManualPromotionIds ++ [promotionId] }
    (notExcluded loadedCandidates excluded)
  ((lookup PromotionCapacityDemand.promotionId nestedPass.promotionCapacityDemands
    promotionId).map PromotionCapacityDemand.units).getD 0

/-- The hint for the seller: only a reward may need more units than a line has. -/
def toManualCandidate (promo : Promotion) (lines : List PosEvalLine) : PosEvalManualCandidate :=
  if promo.type = .buyXGetY then
    let buyQuantity := promo.buyQuantity.getD 0
    let getQuantity := promo.getQuantity.getD 0
    let groupSize := buyQuantity + getQuantity
    let eligible := decide (groupSize ≤ maxMatchQty promo lines)
    ⟨promo.id, promo.title, promo.type, .manual, eligible, some buyQuantity, some getQuantity,
      if eligible then 0 else groupSize - maxMatchQty promo lines⟩
  else ⟨promo.id, promo.title, promo.type, .manual, true, none, none, 0⟩

/-- The order always can be discounted; a line promotion needs a line that matches. -/
def isSurfaced (promo : Promotion) (lines : List PosEvalLine) : Bool :=
  match promo.type with
  | .orderDiscount => true
  | .productDiscount | .buyXGetY => lines.any (matchesLine promo)
  | .advanced => false

/-- One turn of the loop over the manual candidates. -/
def manualCandidate (input : PosEvalInput) (loadedCandidates : List Promotion)
    (excluded : List String) (promo : Promotion) : Option PosEvalManualCandidate :=
  if promo.method = .manual && passesPromotionWideGates promo input &&
      !input.vetoedPromotionIds.contains promo.id &&
        !input.optedInManualPromotionIds.contains promo.id &&
          isSurfaced promo input.lines &&
            decide (∀ remaining ∈ promo.remainingProductUnits,
              computeManualCandidateSelectedDemand promo.id input loadedCandidates excluded ≤
                remaining) then
    some (toManualCandidate promo input.lines)
  else none

def availableManualPromotions (input : PosEvalInput) (loadedCandidates : List Promotion)
    (excluded : List String) : List PosEvalManualCandidate :=
  (notExcluded loadedCandidates excluded).filterMap
    (manualCandidate input loadedCandidates excluded)

/-- All that `evaluate` answers: the last pass, with the manual promotions it leaves. -/
def evaluateResult (input : PosEvalInput) (data : List Promotion) : PosEvalResult :=
  let loadedCandidates := loadCandidates input data
  let outcome := evaluate input data
  { lines := outcome.selection.lines
    order := outcome.selection.order
    availableManualPromotions := availableManualPromotions input loadedCandidates
      outcome.capacityExcludedPromotionIds
    targetableManualPromotionIds := targetableManualPromotionIds input loadedCandidates
    promotionCapacityDemands := outcome.selection.promotionCapacityDemands
    capacityExcludedPromotionIds := outcome.capacityExcludedPromotionIds }

end Houndfe.Promotions
