import Houndfe.Promotions.Selection

/-! The savings that results were ranked by: a reward takes at most its whole line, and what
a line is taken to save is what its promotion was ranked by. From them, the base of the order
discount: when it is what the customer owes for the lines, and what the order discount takes of
it. -/

namespace Houndfe.Promotions

open Rounding

/-- The engine's discount, which is capped at the price, leaves a cent of it: a fixed amount
below the price, or a percentage whose rounding does not reach the whole price. -/
def Promotion.LeavesACent (promo : Promotion) (unitPriceCents : Int) : Prop :=
  match promo.discountType, promo.discountValue with
  | some .fixed, some discountValue => discountValue < unitPriceCents
  | some .percentage, some discountValue =>
      50 < unitPriceCents * (100 - clampPercentageToSafeRange discountValue)
  | _, _ => True

instance (promo : Promotion) (unitPriceCents : Int) :
    Decidable (promo.LeavesACent unitPriceCents) := by
  unfold Promotion.LeavesACent
  split <;> infer_instance

theorem clampPercentageToSafeRange_range (percent : Int) :
    1 ≤ clampPercentageToSafeRange percent ∧ clampPercentageToSafeRange percent ≤ 99 := by
  unfold clampPercentageToSafeRange
  omega

theorem clampPercentageToSafeRange_clamp (percent : Int) :
    clampPercentageToSafeRange (clampPercentageToSafeRange percent) =
      clampPercentageToSafeRange percent := by
  unfold clampPercentageToSafeRange
  omega

/-- A share of the price in percent, rounded, leaves a cent of it. -/
theorem roundDiv_percent_lt_iff {price percent : Int} :
    roundDiv (price * percent) 100 < price ↔ 50 < price * (100 - percent) := by
  rw [roundDiv_lt_iff (by decide), Int.mul_sub]
  omega

/-- The candidate of a line: a product discount and what it takes off the price. -/
theorem perLineCandidate_eq_some {line : PosEvalLine} {input : PosEvalInput} {promo : Promotion}
    {winner : PerLineCandidate} (h : perLineCandidate line input promo = some winner) :
    winner.promotion = promo ∧ promo.type = .productDiscount ∧
      winner.discountCents = computeLineDiscountCents promo line.effectiveUnitPriceCents ∧
        0 < winner.discountCents := by
  unfold perLineCandidate at h
  split at h
  · next hGates =>
      split at h
      · cases h
      · dsimp only at h
        split at h
        · next hSaves =>
            cases h
            simp only [Bool.and_eq_true, decide_eq_true_eq] at hGates hSaves
            exact ⟨rfl, hGates.2, rfl, hSaves.2⟩
        · cases h
  · cases h

theorem buyXGetYCandidate_eq_some {line : PosEvalLine} {input : PosEvalInput}
    {promo : Promotion} {winner : RewardCandidate}
    (h : buyXGetYCandidate line input promo = some winner) :
    winner.promotion = promo ∧ promo.type = .buyXGetY ∧ 0 < winner.lineDiscountCents ∧
      ∃ buyQuantity getQuantity, promo.buyQuantity = some buyQuantity ∧
        promo.getQuantity = some getQuantity ∧
          promo.getDiscountPercent = some winner.getDiscountPercent ∧
            winner.lineDiscountCents =
              line.quantity / (buyQuantity + getQuantity) * getQuantity *
                perUnitReward line.effectiveUnitPriceCents winner.getDiscountPercent := by
  unfold buyXGetYCandidate at h
  split at h
  · next hGates =>
      split at h
      · next buyQuantity getQuantity percent hBuy hGet hPercent =>
          dsimp only at h
          split at h
          · next hSaves =>
              cases h
              simp only [Bool.and_eq_true, decide_eq_true_eq] at hGates
              exact ⟨rfl, hGates.1.1.1.1, hSaves.2, buyQuantity, getQuantity, hBuy, hGet,
                hPercent, rfl⟩
          · cases h
      · cases h
  · cases h

/-- The units rewarded in groups are units of the line. -/
theorem groups_mul_le {quantity buyQuantity getQuantity : Int} (hQuantity : 0 ≤ quantity)
    (hBuy : 1 ≤ buyQuantity) (hGet : 1 ≤ getQuantity) :
    quantity / (buyQuantity + getQuantity) * getQuantity ≤ quantity := by
  have hGroups : 0 ≤ quantity / (buyQuantity + getQuantity) :=
    Int.ediv_nonneg hQuantity (by omega)
  have hFits := Int.ediv_mul_le quantity (b := buyQuantity + getQuantity) (by omega)
  have hPart : quantity / (buyQuantity + getQuantity) * getQuantity ≤
      quantity / (buyQuantity + getQuantity) * (buyQuantity + getQuantity) :=
    Int.mul_le_mul_of_nonneg_left (by omega) hGroups
  omega

/-- A reward that saves something takes at most the whole line. -/
theorem units_mul_reward_le {price quantity units percent : Int} (hUnits : 0 ≤ units)
    (hFits : units ≤ quantity) (hPercent : 0 ≤ percent ∧ percent ≤ 100)
    (hSaves : 0 < units * perUnitReward price percent) :
    units * perUnitReward price percent ≤ price * quantity := by
  have hPrice : 0 < price := by
    by_contra hNotPositive
    have hShare : price * percent ≤ 0 * 100 :=
      Int.mul_nonpos_of_nonpos_of_nonneg (Int.not_lt.mp hNotPositive) hPercent.1
    have hReward : perUnitReward price percent ≤ 0 := roundDiv_le_of_le_mul (by decide) hShare
    have hNothing := Int.mul_nonpos_of_nonneg_of_nonpos hUnits hReward
    omega
  have hShare : price * percent ≤ price * 100 :=
    Int.mul_le_mul_of_nonneg_left hPercent.2 hPrice.le
  have hWhole : perUnitReward price percent ≤ price :=
    roundDiv_le_of_le_mul (by decide) hShare
  have hNonneg : 0 ≤ perUnitReward price percent :=
    roundDiv_nonneg (by decide) (Int.mul_nonneg hPrice.le hPercent.1)
  calc units * perUnitReward price percent
      ≤ quantity * perUnitReward price percent := Int.mul_le_mul_of_nonneg_right hFits hNonneg
    _ ≤ quantity * price := Int.mul_le_mul_of_nonneg_left hWhole (hUnits.trans hFits)
    _ = price * quantity := Int.mul_comm _ _

theorem buyXGetYCandidate_le {line : PosEvalLine} {input : PosEvalInput} {promo : Promotion}
    {winner : RewardCandidate} (hPromo : promo.RuleSound) (hQuantity : 0 ≤ line.quantity)
    (h : buyXGetYCandidate line input promo = some winner) :
    winner.lineDiscountCents ≤ line.effectiveUnitPriceCents * line.quantity := by
  obtain ⟨_, hType, hSaves, buyQuantity, getQuantity, hBuy, hGet, hPercent, hAmount⟩ :=
    buyXGetYCandidate_eq_some h
  simp only [Promotion.RuleSound, hType, hBuy, hGet, hPercent, Option.some.injEq] at hPromo
  obtain ⟨_, _, _, rfl, rfl, rfl, hBuyOne, hGetOne, hPercentRange⟩ := hPromo
  have hGroups : 0 ≤ line.quantity / (buyQuantity + getQuantity) * getQuantity :=
    Int.mul_nonneg (Int.ediv_nonneg hQuantity (by omega)) (by omega)
  rw [hAmount] at hSaves ⊢
  exact units_mul_reward_le hGroups (groups_mul_le hQuantity hBuyOne hGetOne) hPercentRange hSaves

theorem RewardOf.le {promo : Promotion} {line : PosEvalLine} {reward : AdvancedLineReward}
    (hPromo : promo.RuleSound) (hType : promo.type = .advanced)
    (h : RewardOf (promo.getDiscountPercent.getD 0) line reward)
    (hSaves : 0 < reward.lineDiscountCents) :
    reward.lineDiscountCents ≤ line.effectiveUnitPriceCents * line.quantity := by
  simp only [Promotion.RuleSound, hType] at hPromo
  obtain ⟨_, _, percent, _, _, hPercent, _, _, hPercentRange⟩ := hPromo
  rw [h.lineDiscount, hPercent, Option.getD_some] at hSaves ⊢
  exact units_mul_reward_le h.units_pos.le h.units_le hPercentRange hSaves

/-- What a line is taken to save is what the promotion of its result was ranked by. -/
theorem Ranked.saving_eq {input : PosEvalInput} {candidates : List Promotion}
    {line : PosEvalLine} {result : PosEvalLineResult} {saving : Int}
    (h : Ranked input candidates line result saving) :
    computeAppliedDiscountCents line result = saving := by
  cases h with
  | buyXGetY _ _ => rfl
  | advanced _ _ _ _ => rfl
  | productDiscount hPromo hWinner =>
      rename_i promo winner
      obtain ⟨rfl, _, hAmount, hSaves⟩ := perLineCandidate_eq_some hWinner
      rw [hAmount] at hSaves ⊢
      unfold computeLineDiscountCents at hSaves ⊢
      cases hType : winner.promotion.discountType with
      | none => simp [hType] at hSaves
      | some discountType =>
          cases hValue : winner.promotion.discountValue with
          | none => simp [hType, hValue] at hSaves
          | some discountValue =>
              simp only [hType, hValue] at hSaves ⊢
              split at hSaves
              · omega
              next hPrice =>
              rw [if_neg hPrice]
              cases discountType with
              | percentage =>
                  simp [toLineResult, computeAppliedDiscountCents, hType, hValue,
                    clampPercentageToSafeRange_clamp]
              | fixed =>
                  simp only at hSaves
                  split at hSaves
                  · omega
                  next hPositive =>
                  simp [toLineResult, computeAppliedDiscountCents, hType, hValue, hPositive]

end Houndfe.Promotions

/-! ### The base of the order discount -/

namespace Houndfe.Promotions

open Keyed Rounding

/-- What a line costs: a manual discount and a discount per unit come off every unit, a
reward off the line. `manualCents` is what a manual discount takes off a unit. -/
def lineOwedCents (manualCents : String → Int) (line : PosEvalLine)
    (result : Option PosEvalLineResult) : Int :=
  line.effectiveUnitPriceCents * line.quantity -
    if line.hasManualDiscount then manualCents line.itemId * line.quantity
    else existingLineResultTotalCents line result

/-- What the customer owes for the lines. -/
def owedCents (manualCents : String → Int) (lines : List PosEvalLine)
    (lineResults : List PosEvalLineResult) : Int :=
  (lines.map fun line =>
    lineOwedCents manualCents line (resultFor lineResults line.itemId)).sum

/-- A result per unit falls on a line of one unit. -/
def SingleUnit (line : PosEvalLine) (result : Option PosEvalLineResult) : Prop :=
  ∀ perUnit, result = some (.perUnit perUnit) → line.quantity = 1

/-- Without manual discounts, and no discount per unit on several units, the base is what is
owed. -/
theorem postLineSubtotalCents_eq_owed (manualCents : String → Int) {lines : List PosEvalLine}
    {lineResults : List PosEvalLineResult}
    (hManual : ∀ line ∈ lines, line.hasManualDiscount = false)
    (hSingle : ∀ line ∈ lines, SingleUnit line (resultFor lineResults line.itemId)) :
    postLineSubtotalCents lines lineResults = owedCents manualCents lines lineResults := by
  unfold postLineSubtotalCents owedCents
  congr 1
  apply List.map_congr_left
  intro line hLine
  have hLineSingle := hSingle line hLine
  simp only [lineOwedCents, hManual line hLine, Bool.false_eq_true, if_false]
  cases hResult : resultFor lineResults line.itemId with
  | none => rfl
  | some result =>
      cases result with
      | reward kind reward => rfl
      | perUnit perUnit =>
          have hOne := hLineSingle perUnit hResult
          simp only [existingLineResultTotalCents, hOne, Int.mul_one]

theorem computeOrderDiscountCents_le (promo : Promotion) {base : Int} (hBase : 0 < base) :
    computeOrderDiscountCents promo base ≤ base := by
  unfold computeOrderDiscountCents
  split
  · next discountValue _ _ =>
      have hRange := clampPercentageToSafeRange_range discountValue
      exact roundDiv_le_of_le_mul (by decide)
        (Int.mul_le_mul_of_nonneg_left (by omega) hBase.le)
  · split
    · exact hBase.le
    · exact min_le_right _ _
  · exact hBase.le

/-- The order promotion that is selected passed its minimum, on the lines before any
promotion, and takes something of the base but not more. -/
theorem pickBestOrderPromo_eq_some {candidates : List Promotion} {input : PosEvalInput}
    {preCents base : Int} {order : PosEvalOrderResult}
    (h : pickBestOrderPromo candidates input preCents base = some order) :
    0 < order.discountAmountCents ∧ order.discountAmountCents ≤ base ∧
      ∃ promo ∈ candidates, promo.id = order.promotionId ∧
        (∀ minimum ∈ promo.minPurchaseAmountCents, minimum ≤ preCents) ∧
          order.discountAmountCents = computeOrderDiscountCents promo base := by
  obtain ⟨winner, hWinner, rfl⟩ := Option.map_eq_some_iff.mp h
  obtain ⟨promo, hPromo, hCandidate⟩ := List.mem_filterMap.mp (pickBest_mem hWinner)
  unfold orderCandidate at hCandidate
  split at hCandidate
  · next hGates =>
      dsimp only at hCandidate
      split at hCandidate
      · next hSaves =>
          cases hCandidate
          simp only [Bool.and_eq_true, decide_eq_true_eq] at hGates
          have hAmount : (OrderCandidate.toOrderResult
              ⟨promo, computeOrderDiscountCents promo base⟩).discountAmountCents =
                computeOrderDiscountCents promo base := by
            unfold OrderCandidate.toOrderResult
            split <;> rfl
          have hId : (OrderCandidate.toOrderResult
              ⟨promo, computeOrderDiscountCents promo base⟩).promotionId = promo.id := by
            unfold OrderCandidate.toOrderResult
            split <;> rfl
          rw [hAmount, hId]
          exact ⟨hSaves.2, computeOrderDiscountCents_le promo hSaves.1, promo, hPromo, rfl,
            hGates.2, rfl⟩
      · cases hCandidate
  · cases hCandidate

/-- For every cart and all candidates: the base of the order discount is what is owed after
the line results when no line has a manual discount and no discount per unit falls on several
units; the minimum purchase is tested on the lines before any promotion; and the order
discount is computed on the base and never exceeds it. -/
theorem order_discount_base (input : PosEvalInput) (candidates : List Promotion)
    (manualCents : String → Int) :
    let pass := runEvaluationPass input candidates
    let base := postLineSubtotalCents input.lines pass.lines
    ((∀ line ∈ input.lines, line.hasManualDiscount = false) →
        (∀ line ∈ input.lines, SingleUnit line (resultFor pass.lines line.itemId)) →
          base = owedCents manualCents input.lines pass.lines) ∧
      ∀ order, pass.order = some order →
        0 < order.discountAmountCents ∧ order.discountAmountCents ≤ base ∧
          ∃ promo ∈ candidates, promo.id = order.promotionId ∧
            (∀ minimum ∈ promo.minPurchaseAmountCents,
              minimum ≤ prePromoSubtotalCents input.lines) ∧
            order.discountAmountCents = computeOrderDiscountCents promo base :=
  ⟨fun hManual hSingle => postLineSubtotalCents_eq_owed manualCents hManual hSingle,
    fun _ hOrder => pickBestOrderPromo_eq_some hOrder⟩

/-! ### Two carts -/

def samplePromotion (id : String) (type : PromotionType) (discountValue : Int)
    (minPurchaseAmountCents : Option Int) : Promotion where
  botEligible := false
  id := id
  title := id
  type := type
  method := .automatic
  manuallyEnded := false
  startDate := none
  endDate := none
  customerScope := .all
  discountType := some .fixed
  discountValue := some discountValue
  minPurchaseAmountCents := minPurchaseAmountCents
  appliesTo := if type = .productDiscount then some .products else none
  buyQuantity := none
  getQuantity := none
  getDiscountPercent := none
  buyTargetType := none
  getTargetType := none
  maxProductUnits := none
  consumedProductUnits := 0
  targetItems := [⟨.default, .products, "product"⟩]
  customers := []
  priceLists := []
  daysOfWeek := []

/-- One line at ten pesos a unit. -/
def sampleCart (quantity : Int) : PosEvalInput :=
  ⟨false, false, 0, .monday, none, [⟨"line", "product", none, quantity, 1000, none, none, none,
    false⟩], [], []⟩

theorem order_discount_base_of_one_unit :
    postLineSubtotalCents (sampleCart 1).lines
        (runEvaluationPass (sampleCart 1) [samplePromotion "line" .productDiscount 100 none]).lines =
      owedCents (fun _ => 0) (sampleCart 1).lines
        (runEvaluationPass (sampleCart 1)
          [samplePromotion "line" .productDiscount 100 none]).lines := by
  apply (order_discount_base (sampleCart 1) _ fun _ => 0).1
  · decide
  · intro line hLine _ _
    cases List.mem_singleton.mp hLine
    rfl

/-- One unit less one peso is owed nine pesos, and passes a minimum of nine pesos fifty; two
units less one peso each are owed eighteen pesos, of which the order discount takes nineteen. -/
theorem order_discount_base_not_owed :
    let line := samplePromotion "line" .productDiscount 100 none
    let minimum := samplePromotion "order" .orderDiscount 100 (some 950)
    let most := samplePromotion "order" .orderDiscount 5000 none
    let one := runEvaluationPass (sampleCart 1) [line, minimum]
    let two := runEvaluationPass (sampleCart 2) [line, most]
    (owedCents (fun _ => 0) (sampleCart 1).lines one.lines = 900 ∧ one.order.isSome) ∧
      owedCents (fun _ => 0) (sampleCart 2).lines two.lines = 1800 ∧
        postLineSubtotalCents (sampleCart 2).lines two.lines = 1900 ∧
          two.order.map PosEvalOrderResult.discountAmountCents = some 1900 := by
  decide

end Houndfe.Promotions
