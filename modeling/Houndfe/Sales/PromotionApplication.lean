import Houndfe.Promotions.OrderBase
import Houndfe.Sales.PreparedLines

/-! Applying what the engine selects. A reward always fits its line, and the line then
carries the saving it was ranked by; a product discount fits exactly when it leaves a cent
of the unit price. -/

namespace Houndfe.Sales

open Promotions Keyed Rounding Traverse

/-- The saving of a result over the whole line: a discount per unit counts for each unit. -/
def lineSaving (result : PosEvalLineResult) (saving quantity : Int) : Int :=
  match result with
  | .reward _ _ => saving
  | .perUnit _ => saving * quantity

/-- The line carries the discount of a result that was ranked by `saving`: the promotion,
the amount, and what the customer still pays. -/
structure Carries (before after : SaleItem) (result : PosEvalLineResult) (saving : Int) :
    Prop where
  promotionId : after.promotionId = some result.promotionId
  amount : after.discountAmountCents = some saving
  net : after.netCents = before.baseCents * before.quantity.val -
    lineSaving result saving before.quantity.val

namespace SaleItem

/-- The line with `amountCents` off each unit. -/
def withUnitDiscount (item : SaleItem) (now : Int) (type : DiscountType) (value amountCents : Int)
    (title promotionId : String) : SaleItem :=
  { item with
    prePriceCentsBeforeDiscount := some item.baseCents
    discountType := some type
    discountValue := some value
    discountAmountCents := some amountCents
    discountTitle := some title
    discountedAt := some now
    unitPriceCents := item.baseCents - amountCents
    promotionId := some promotionId }

theorem netCents_withUnitDiscount {item : SaleItem} {now : Int} {type : DiscountType}
    {value amountCents : Int} {title promotionId : String} (h : 0 < amountCents) :
    (item.withUnitDiscount now type value amountCents title promotionId).netCents =
      item.baseCents * item.quantity.val - amountCents * item.quantity.val := by
  have hNotReward : (item.withUnitDiscount now type value amountCents title
      promotionId).isBuyXGetYReward = false := by
    have hMoved : item.baseCents ≠ item.baseCents - amountCents := by omega
    simp [isBuyXGetYReward, withUnitDiscount, hMoved]
  rw [netCents, rewardCents, hNotReward]
  simp [subtotalCents, withUnitDiscount, Int.sub_mul]

/-- The line with a reward of `lineDiscountCents`. -/
def withReward (item : SaleItem) (now : Int) (kind : RewardKind)
    (reward : PosEvalRewardLineResult) : SaleItem :=
  { item with
    prePriceCentsBeforeDiscount := some item.unitPriceCents
    discountType := some .amount
    discountValue := some reward.perUnitRewardCents
    discountAmountCents := some reward.lineDiscountCents
    discountTitle := some reward.discountTitle
    discountedAt := some now
    promotionId := some reward.promotionId
    rewardDiscountPercent := some reward.getDiscountPercent
    rewardKind := some kind }

theorem netCents_withReward {item : SaleItem} {now : Int} {kind : RewardKind}
    {reward : PosEvalRewardLineResult} (h : 0 < reward.lineDiscountCents) :
    (item.withReward now kind reward).netCents =
      item.unitPriceCents * item.quantity.val - reward.lineDiscountCents := by
  have hReward : (item.withReward now kind reward).isBuyXGetYReward = true := by
    simp [isBuyXGetYReward, withReward, h]
  rw [netCents, rewardCents, hReward]
  rfl

end SaleItem

section

variable {now : Int} {item : SaleItem}

/-- A fixed amount is refused when it does not leave a cent. -/
theorem applyLineResult_amount {itemId promotionId title : String} {value : Int}
    (hValue : 1 ≤ value) :
    applyLineResult now (.perUnit ⟨itemId, promotionId, .amount, value, title⟩) item =
      if value < item.baseCents then
        .ok (item.withUnitDiscount now .amount value value title promotionId)
      else .error (invalidArgumentError "DISCOUNT_AMOUNT_INVALID") := by
  have hPositive : ¬ value < 1 := Int.not_lt.mpr hValue
  have hCent : item.baseCents - value < 1 ↔ ¬ value < item.baseCents := by omega
  by_cases hFits : value < item.baseCents <;>
    simp [applyLineResult, SaleItem.applyDiscount, SaleItem.computeDiscountAmountCents,
      throwIf, bind, Except.bind, pure, Except.pure, hPositive, hCent, hFits,
      SaleItem.withUnitDiscount, SaleItem.discountValueOf]

/-- A percentage is refused when its rounding takes the whole price. -/
theorem applyLineResult_percentage {itemId promotionId title : String} {value : Int}
    (hValue : 1 ≤ value ∧ value ≤ 99) :
    applyLineResult now (.perUnit ⟨itemId, promotionId, .percentage, value, title⟩) item =
      if roundDiv (item.baseCents * value) 100 < item.baseCents then
        .ok (item.withUnitDiscount now .percentage value (roundDiv (item.baseCents * value) 100)
          title promotionId)
      else .error (invalidArgumentError "DISCOUNT_AMOUNT_INVALID") := by
  have hRange : ¬ (value < 1 ∨ 99 < value) := by omega
  have hCent : item.baseCents - roundDiv (item.baseCents * value) 100 < 1 ↔
      ¬ roundDiv (item.baseCents * value) 100 < item.baseCents := by omega
  by_cases hFits : roundDiv (item.baseCents * value) 100 < item.baseCents <;>
    simp [applyLineResult, SaleItem.applyDiscount, SaleItem.computeDiscountAmountCents,
      throwIf, bind, Except.bind, pure, Except.pure, hRange, hCent, hFits,
      SaleItem.withUnitDiscount, SaleItem.discountValueOf]

/-- A reward of at most the line is accepted. -/
theorem applyLineResult_reward {kind : RewardKind} {reward : PosEvalRewardLineResult}
    (hSaves : 0 < reward.lineDiscountCents)
    (hFits : reward.lineDiscountCents ≤ item.unitPriceCents * item.quantity.val)
    (hPromotion : reward.promotionId ≠ "") :
    applyLineResult now (.reward kind reward) item = .ok (item.withReward now kind reward) := by
  have hPositive : ¬ reward.lineDiscountCents ≤ 0 := Int.not_le.mpr hSaves
  have hBound : ¬ item.subtotalCents < reward.lineDiscountCents := Int.not_lt.mpr hFits
  simp [applyLineResult, SaleItem.applyBuyXGetYReward, throwIf, bind, Except.bind, pure,
    Except.pure, hPositive, hBound, hPromotion, SaleItem.withReward]

/-- A product discount reaches its line when it leaves a cent, and then as ranked. -/
theorem applyLineResult_productDiscount (now : Int) (itemId : String) {line : PosEvalLine}
    {input : PosEvalInput} {promo : Promotion} {winner : PerLineCandidate}
    (hPromo : promo.RuleSound) (hPrice : line.effectiveUnitPriceCents = item.baseCents)
    (hWinner : perLineCandidate line input promo = some winner) :
    ∃ type value, applyLineResult now (toLineResult itemId winner) item =
      if promo.LeavesACent item.baseCents then
        .ok (item.withUnitDiscount now type value winner.discountCents promo.title promo.id)
      else .error (invalidArgumentError "DISCOUNT_AMOUNT_INVALID") := by
  obtain ⟨rfl, hType, hAmount, hSaves⟩ := perLineCandidate_eq_some hWinner
  simp only [Promotion.RuleSound, hType] at hPromo
  obtain ⟨discountType, discountValue, hDiscountType, hDiscountValue, hAllowed⟩ := hPromo
  have hBase : ¬ item.baseCents ≤ 0 := by
    intro hNone
    simp [hAmount, computeLineDiscountCents, hDiscountType, hDiscountValue, hPrice, hNone] at hSaves
  cases discountType with
  | percentage =>
      have hResult : toLineResult itemId winner = .perUnit ⟨itemId, winner.promotion.id,
          .percentage, clampPercentageToSafeRange discountValue, winner.promotion.title⟩ := by
        simp [toLineResult, hDiscountType, hDiscountValue]
      have hCents : winner.discountCents =
          roundDiv (item.baseCents * clampPercentageToSafeRange discountValue) 100 := by
        simp [hAmount, computeLineDiscountCents, hDiscountType, hDiscountValue, hPrice, hBase]
      refine ⟨.percentage, clampPercentageToSafeRange discountValue, ?_⟩
      rw [hResult, applyLineResult_percentage (clampPercentageToSafeRange_range _), hCents]
      simp only [Promotion.LeavesACent, hDiscountType, hDiscountValue, roundDiv_percent_lt_iff]
  | fixed =>
      have hPositive : 0 < discountValue := hAllowed
      have hResult : toLineResult itemId winner = .perUnit ⟨itemId, winner.promotion.id,
          .amount, discountValue, winner.promotion.title⟩ := by
        simp [toLineResult, hDiscountType, hDiscountValue]
      have hCents : winner.discountCents = min discountValue item.baseCents := by
        simp [hAmount, computeLineDiscountCents, hDiscountType, hDiscountValue, hPrice, hBase,
          Int.not_le.mpr hPositive]
      refine ⟨.amount, discountValue, ?_⟩
      rw [hResult, applyLineResult_amount (Int.add_one_le_of_lt hPositive)]
      simp only [Promotion.LeavesACent, hDiscountType, hDiscountValue]
      split
      · next hFits => rw [hCents, min_eq_left hFits.le]
      · rfl

/-- The reward of a promotion as `create` admits it always reaches its line. -/
theorem applyLineResult_of_reward (now : Int) {env : PricingEnvironment} {input : PosEvalInput}
    {candidates : List Promotion} {kind : RewardKind} {reward : PosEvalRewardLineResult}
    {saving : Int} (hUndiscounted : item.Undiscounted)
    (hIds : (input.lines.map PosEvalLine.itemId).Nodup)
    (hLine : buildPosEvalLine env item ∈ input.lines)
    (hAdmitted : ∀ promo ∈ candidates, promo.Admitted)
    (hRanked : Ranked input candidates (buildPosEvalLine env item) (.reward kind reward) saving) :
    saving = reward.lineDiscountCents ∧ 0 < saving ∧
      applyLineResult now (.reward kind reward) item = .ok (item.withReward now kind reward) := by
  have hPrice : (buildPosEvalLine env item).effectiveUnitPriceCents = item.unitPriceCents :=
    hUndiscounted.baseCents
  have hQuantity : 0 ≤ (buildPosEvalLine env item).quantity := by
    have hOne : 1 ≤ item.quantity.val := item.quantity.property
    show 0 ≤ item.quantity.val
    omega
  generalize hResult : PosEvalLineResult.reward kind reward = result at hRanked
  cases hRanked with
  | productDiscount hPromo hWinner =>
      dsimp only [toLineResult] at hResult
      split at hResult <;> cases hResult
  | @buyXGetY promo winner hPromo hWinner =>
      cases hResult
      obtain ⟨rfl, _, hSaves, _⟩ := buyXGetYCandidate_eq_some hWinner
      have hFits := buyXGetYCandidate_le (hAdmitted _ hPromo).ruleSound hQuantity hWinner
      rw [hPrice] at hFits
      exact ⟨rfl, hSaves, applyLineResult_reward hSaves hFits (hAdmitted _ hPromo).id_ne⟩
  | @advanced promo advancedReward hPromo hReward hItem hSaves =>
      cases hResult
      obtain ⟨hType, line, hGet, hOf⟩ := mem_advancedRewards hReward
      have hSame : line = buildPosEvalLine env item :=
        List.inj_on_of_nodup_map hIds (mem_getLines hGet).1 hLine (hOf.itemId.symm.trans hItem)
      have hFits := hOf.le (hAdmitted _ hPromo).ruleSound hType hSaves
      rw [hSame, hPrice] at hFits
      exact ⟨rfl, hSaves, applyLineResult_reward hSaves hFits (hAdmitted _ hPromo).id_ne⟩

end

/-! ### All the results of an evaluation -/

section

variable {env : PricingEnvironment} {sale prepared : Sale}

/-- The evaluation of a prepared sale. -/
def selectedLines (env : PricingEnvironment) (prepared : Sale) : List PosEvalLineResult :=
  (evaluate (buildPosEvalInput env prepared) env.promotions).selection.lines

theorem input_itemIds (env : PricingEnvironment) (prepared : Sale) :
    (buildPosEvalInput env prepared).lines.map PosEvalLine.itemId =
      prepared.items.map SaleItem.id := by
  simp only [buildPosEvalInput, List.map_map]
  rfl

/-- A selected result is the result of one prepared line, which has no discount. -/
theorem ranked_of_selected (hWellFormed : sale.WellFormed)
    (hPrepared : prepareSale env sale = .ok prepared) {result : PosEvalLineResult}
    (hResult : result ∈ selectedLines env prepared) :
    ∃ item ∈ prepared.items, item.Undiscounted ∧ result.itemId = item.id ∧
      ∃ saving, Ranked (buildPosEvalInput env prepared) env.promotions
        (buildPosEvalLine env item) result saving := by
  have hSpec := prepareSale_spec hWellFormed hPrepared
  have hKeys : ((buildPosEvalInput env prepared).lines.map PosEvalLine.itemId).Nodup := by
    rw [input_itemIds, hSpec.ids]
    exact hWellFormed.ids
  obtain ⟨line, hLine, hManual, saving, hRanked⟩ :=
    (evaluate_sound env.promotions hKeys).ranked result hResult
  obtain ⟨item, hItem, rfl⟩ := List.mem_map.mp hLine
  obtain ⟨original, hFrom, _⟩ := hSpec.lines item hItem
  exact ⟨item, hItem, hFrom.undiscounted hManual, hRanked.itemId_eq, saving, hRanked⟩

/-- The product discounts that the evaluation selects leave a cent of their lines. -/
def SelectedDiscountsFit (env : PricingEnvironment) (prepared : Sale) : Prop :=
  ∀ item ∈ prepared.items, ∀ promo ∈ env.promotions, ∀ winner,
    perLineCandidate (buildPosEvalLine env item) (buildPosEvalInput env prepared) promo =
        some winner →
      toLineResult item.id winner ∈ selectedLines env prepared → promo.LeavesACent item.baseCents

/-- A result that fits its line is applied, for the saving it was ranked by. -/
theorem applyLineResult_ranked {item : SaleItem} {result : PosEvalLineResult} {saving : Int}
    (hIds : ((buildPosEvalInput env prepared).lines.map PosEvalLine.itemId).Nodup)
    (hAdmitted : ∀ promo ∈ env.promotions, promo.Admitted)
    (hFits : SelectedDiscountsFit env prepared) (hItem : item ∈ prepared.items)
    (hUndiscounted : item.Undiscounted) (hResult : result ∈ selectedLines env prepared)
    (hRanked : Ranked (buildPosEvalInput env prepared) env.promotions
      (buildPosEvalLine env item) result saving) :
    ∃ applied, applyLineResult env.now result item = .ok applied ∧
      Carries item applied result saving := by
  cases result with
  | reward kind reward =>
      obtain ⟨rfl, hSaves, hApplied⟩ := applyLineResult_of_reward env.now hUndiscounted hIds
        (List.mem_map_of_mem hItem) hAdmitted hRanked
      refine ⟨_, hApplied, rfl, rfl, ?_⟩
      rw [SaleItem.netCents_withReward hSaves, hUndiscounted.baseCents]
      rfl
  | perUnit perUnit =>
      generalize hSame : PosEvalLineResult.perUnit perUnit = result at hRanked hResult
      cases hRanked with
      | buyXGetY _ _ => cases hSame
      | advanced _ _ _ _ => cases hSame
      | @productDiscount promo winner hPromo hWinner =>
          obtain ⟨type, value, hApply⟩ := applyLineResult_productDiscount env.now item.id
            (hAdmitted promo hPromo).ruleSound rfl hWinner
          rw [if_pos (hFits item hItem promo hPromo winner hWinner hResult)] at hApply
          obtain ⟨rfl, _, _, hSaves⟩ := perLineCandidate_eq_some hWinner
          refine ⟨_, hApply, ?_, rfl, ?_⟩
          · dsimp only [toLineResult]
            split <;> rfl
          · rw [SaleItem.netCents_withUnitDiscount hSaves, ← hSame]
            rfl

theorem prepared_ids (hWellFormed : sale.WellFormed)
    (hPrepared : prepareSale env sale = .ok prepared) :
    (prepared.items.map SaleItem.id).Nodup := by
  rw [(prepareSale_spec hWellFormed hPrepared).ids]
  exact hWellFormed.ids

theorem input_ids (hIds : (prepared.items.map SaleItem.id).Nodup) :
    ((buildPosEvalInput env prepared).lines.map PosEvalLine.itemId).Nodup := by
  rw [input_itemIds]
  exact hIds

theorem selected_keys (hIds : (prepared.items.map SaleItem.id).Nodup) :
    ((selectedLines env prepared).map PosEvalLineResult.itemId).Nodup :=
  (evaluate_sound env.promotions (input_ids hIds)).keys

theorem applyResultFor_selected (hIds : (prepared.items.map SaleItem.id).Nodup) {item : SaleItem}
    {result : PosEvalLineResult} (hResult : result ∈ selectedLines env prepared)
    (hItem : result.itemId = item.id) :
    applyResultFor env.now (selectedLines env prepared) item =
      applyLineResult env.now result item := by
  have hLookup : resultFor (selectedLines env prepared) item.id = some result :=
    (lookup_eq_some_iff (selected_keys hIds)).mpr ⟨hResult, hItem⟩
  rw [applyResultFor, hLookup]

/-- A recompute that succeeds has passed every line to its result. -/
theorem applied_of_recompute (hIds : (prepared.items.map SaleItem.id).Nodup)
    (hPrepared : prepareSale env sale = .ok prepared) {recomputed : Recomputed}
    (h : recomputePricingAndPromotions env sale = .ok recomputed) :
    prepared.items.mapM (applyResultFor env.now (selectedLines env prepared)) =
        .ok recomputed.sale.items ∧
      recomputed = Recomputed.of env prepared recomputed.sale.items := by
  obtain ⟨prepared', items, hPrepared', hItems, rfl⟩ := recompute_eq_ok.mp h
  cases hPrepared.symm.trans hPrepared'
  rw [Recomputed.of_items]
  exact ⟨(applyLineResults_eq_ok_iff (selected_keys hIds) hIds).mp hItems, rfl⟩

theorem selectedDiscountsFit_of_recompute (hIds : (prepared.items.map SaleItem.id).Nodup)
    (hPrepared : prepareSale env sale = .ok prepared)
    (hAdmitted : ∀ promo ∈ env.promotions, promo.Admitted) {recomputed : Recomputed}
    (h : recomputePricingAndPromotions env sale = .ok recomputed) :
    SelectedDiscountsFit env prepared := by
  intro item hItem promo hPromo winner hWinner hSelected
  obtain ⟨applied, _, hApplied⟩ := mem_of_mapM (applied_of_recompute hIds hPrepared h).1 hItem
  rw [applyResultFor_selected hIds hSelected (toLineResult_itemId _ _)] at hApplied
  obtain ⟨type, value, hApply⟩ := applyLineResult_productDiscount env.now item.id
    (hAdmitted promo hPromo).ruleSound rfl hWinner
  by_contra hTooMuch
  rw [if_neg hTooMuch, hApplied] at hApply
  cases hApply

/-- The line of a selected result, and what applying the result to it gives. -/
theorem applied_of_selected (hWellFormed : sale.WellFormed)
    (hPrepared : prepareSale env sale = .ok prepared)
    (hAdmitted : ∀ promo ∈ env.promotions, promo.Admitted)
    (hFits : SelectedDiscountsFit env prepared) {result : PosEvalLineResult}
    (hResult : result ∈ selectedLines env prepared) :
    ∃ item ∈ prepared.items, result.itemId = item.id ∧ ∃ saving applied,
      Ranked (buildPosEvalInput env prepared) env.promotions (buildPosEvalLine env item) result
          saving ∧
        applyResultFor env.now (selectedLines env prepared) item = .ok applied ∧
          Carries item applied result saving := by
  have hIds := prepared_ids hWellFormed hPrepared
  obtain ⟨item, hItem, hUndiscounted, hKey, saving, hRanked⟩ :=
    ranked_of_selected hWellFormed hPrepared hResult
  obtain ⟨applied, hApplied, hCarries⟩ := applyLineResult_ranked (input_ids hIds) hAdmitted hFits
    hItem hUndiscounted hResult hRanked
  rw [← applyResultFor_selected hIds hResult hKey] at hApplied
  exact ⟨item, hItem, hKey, saving, applied, hRanked, hApplied, hCarries⟩

/-- A draft can be recomputed, and each selected promotion then takes off its line what it
was ranked by, exactly when every selected product discount leaves a cent of its line. -/
theorem selected_promotions_apply_iff (env : PricingEnvironment) (sale prepared : Sale)
    (hWellFormed : sale.WellFormed) (hPrepared : prepareSale env sale = .ok prepared)
    (hAdmitted : ∀ promo ∈ env.promotions, promo.Admitted) :
    (∃ recomputed, recomputePricingAndPromotions env sale = .ok recomputed ∧
      ∀ result ∈ selectedLines env prepared,
        ∃ before ∈ prepared.items, ∃ after ∈ recomputed.sale.items,
          before.id = result.itemId ∧ after.id = result.itemId ∧
            ∃ saving, Ranked (buildPosEvalInput env prepared) env.promotions
                (buildPosEvalLine env before) result saving ∧
              Carries before after result saving) ↔
      SelectedDiscountsFit env prepared := by
  have hIds := prepared_ids hWellFormed hPrepared
  constructor
  · rintro ⟨recomputed, hRecompute, _⟩
    exact selectedDiscountsFit_of_recompute hIds hPrepared hAdmitted hRecompute
  · intro hFits
    have hEach : ∀ item ∈ prepared.items,
        ∃ applied, applyResultFor env.now (selectedLines env prepared) item = .ok applied := by
      intro item hItem
      cases hLookup : resultFor (selectedLines env prepared) item.id with
      | none => exact ⟨item, by rw [applyResultFor, hLookup]⟩
      | some result =>
          obtain ⟨hResult, hKey⟩ := lookup_eq_some hLookup
          obtain ⟨line, hLine, hLineKey, _, applied, _, hApplied, _⟩ :=
            applied_of_selected hWellFormed hPrepared hAdmitted hFits hResult
          have hSame : line = item :=
            List.inj_on_of_nodup_map hIds hLine hItem (hLineKey.symm.trans hKey)
          exact ⟨applied, hSame ▸ hApplied⟩
    obtain ⟨items, hMapped⟩ := mapM_isOk_iff.mpr hEach
    refine ⟨Recomputed.of env prepared items, recompute_eq_ok.mpr ⟨prepared, items, hPrepared,
      (applyLineResults_eq_ok_iff (selected_keys hIds) hIds).mpr hMapped, rfl⟩, ?_⟩
    intro result hResult
    obtain ⟨before, hBefore, hKey, saving, applied, hRanked, hApplied, hCarries⟩ :=
      applied_of_selected hWellFormed hPrepared hAdmitted hFits hResult
    obtain ⟨after, hAfter, hAfterApplied⟩ := mem_of_mapM hMapped hBefore
    cases hApplied.symm.trans hAfterApplied
    rw [Recomputed.of_items]
    exact ⟨before, hBefore, applied, hAfter, hKey.symm,
      (applyResultFor_id hApplied).trans hKey.symm, saving, hRanked, hCarries⟩

end

/-! ### A fixed discount of the whole price -/

/-- A fixed discount on one product. -/
def fixedDiscountParams (discountValue : Int) : CreatePromotionParams where
  botEligible := false
  id := "promotion"
  title := "Fixed"
  type := .productDiscount
  method := .automatic
  manuallyEnded := false
  startDate := none
  endDate := none
  customerScope := .all
  discountType := some .fixed
  discountValue := some discountValue
  minPurchaseAmountCents := none
  appliesTo := some .products
  buyQuantity := none
  getQuantity := none
  getDiscountPercent := none
  buyTargetType := none
  getTargetType := none
  maxProductUnits := none
  consumedProductUnits := 0
  priceLists := []
  daysOfWeek := []

def fixedDiscount (discountValue : Int) : Promotion :=
  { Promotion.ofParams (fixedDiscountParams discountValue) "Fixed" with
    targetItems := [⟨.default, .products, "product"⟩] }

theorem fixedDiscount_admitted {discountValue : Int}
    (h : Promotion.create (fixedDiscountParams discountValue) =
      .ok (Promotion.ofParams (fixedDiscountParams discountValue) "Fixed")) :
    (fixedDiscount discountValue).Admitted :=
  ⟨fixedDiscountParams discountValue, _, h, by simp [fixedDiscountParams], rfl⟩

/-- No price list, and one promotion. -/
def onePromotion (promo : Promotion) : PricingEnvironment where
  now := 0
  today := .monday
  catalog := ⟨[], []⟩
  defaultGlobalPriceListId := none
  productCategoryBrand _ := none
  promotions := [promo]

/-- One line of the product, at ten pesos a unit. -/
def oneLineDraft (quantity : Quantity) : Sale :=
  { Sale.fresh "sale" "seller" with
    items := [SaleItem.fresh ⟨"line", "sale", "product", none, "Product", none, none, quantity.val,
      1000, "MXN"⟩ quantity] }

/-- One peso off is applied. -/
theorem selected_promotions_apply_of_one_peso :
    ∃ recomputed, recomputePricingAndPromotions (onePromotion (fixedDiscount 100))
      (oneLineDraft Quantity.one) = .ok recomputed := by
  have hWellFormed : (oneLineDraft Quantity.one).WellFormed := ⟨by decide, by decide⟩
  have hAdmitted : ∀ promo ∈ (onePromotion (fixedDiscount 100)).promotions, promo.Admitted := by
    intro promo hPromo
    cases List.mem_singleton.mp hPromo
    exact fixedDiscount_admitted rfl
  have hFits : SelectedDiscountsFit (onePromotion (fixedDiscount 100))
      (oneLineDraft Quantity.one) := by
    intro item hItem promo hPromo _ _ _
    cases List.mem_singleton.mp hItem
    cases List.mem_singleton.mp hPromo
    decide
  obtain ⟨recomputed, hRecompute, _⟩ := (selected_promotions_apply_iff _ _ _ hWellFormed rfl
    hAdmitted).mpr hFits
  exact ⟨recomputed, hRecompute⟩

/-- Ten pesos off a line at ten pesos is selected and then refused: the draft cannot be
recomputed. -/
theorem fixed_discount_of_whole_price_refused :
    (fixedDiscount 1000).Admitted ∧ (oneLineDraft Quantity.one).WellFormed ∧
      prepareSale (onePromotion (fixedDiscount 1000)) (oneLineDraft Quantity.one) =
        .ok (oneLineDraft Quantity.one) ∧
      recomputePricingAndPromotions (onePromotion (fixedDiscount 1000))
        (oneLineDraft Quantity.one) = .error (invalidArgumentError "DISCOUNT_AMOUNT_INVALID") :=
  ⟨fixedDiscount_admitted rfl, ⟨by decide, by decide⟩, rfl, rfl⟩

end Houndfe.Sales
