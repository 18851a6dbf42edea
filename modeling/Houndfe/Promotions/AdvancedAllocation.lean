import Houndfe.Promotions.OrderIndependence
import Mathlib.Algebra.Order.BigOperators.Group.List

/-! How an advanced promotion allocates its reward: the units of all complete buy groups go to the
lines of the getting side in the order of their item ids, each line filled before the next one,
until the units or the lines run out. -/

namespace Houndfe.Promotions

open Keyed Rounding

/-! ### Walking the candidate lines -/

section

variable {getDiscountPercent remaining : Int} {candidateLines : List GetCandidateLine}

theorem sum_allocateReward (hQuantity : ∀ line ∈ candidateLines, 0 ≤ line.quantity)
    (hRemaining : 0 ≤ remaining) :
    ((allocateReward getDiscountPercent candidateLines remaining).map
        AdvancedLineReward.discountedUnitCount).sum =
      min remaining (candidateLines.map GetCandidateLine.quantity).sum := by
  induction candidateLines generalizing remaining with
  | nil => simp [allocateReward, hRemaining]
  | cons line rest ih =>
      obtain ⟨hLine, hRest⟩ := List.forall_mem_cons.mp hQuantity
      have hTotal : 0 ≤ (rest.map GetCandidateLine.quantity).sum := by
        apply List.sum_nonneg
        simpa using hRest
      dsimp only [allocateReward]
      rw [List.map_cons, List.sum_cons]
      split
      · simp only [List.map_nil, List.sum_nil]
        omega
      · split
        · rw [ih hRest hRemaining]
          omega
        · rw [List.map_cons, List.sum_cons, ih hRest (by omega)]
          show min line.quantity remaining + _ = _
          omega

/-- Nothing is allocated from an empty pool. -/
theorem remaining_pos_of_mem {reward : AdvancedLineReward}
    (h : reward ∈ allocateReward getDiscountPercent candidateLines remaining) : 0 < remaining := by
  cases candidateLines with
  | nil => cases h
  | cons line rest =>
      dsimp only [allocateReward] at h
      split at h
      · cases h
      · next hPositive => exact Int.not_le.mp hPositive

/-- A line that comes before a rewarded one is rewarded in full. -/
theorem filled_before
    (hSorted : candidateLines.Pairwise fun line later => line.itemId < later.itemId)
    {line : GetCandidateLine} (hLine : line ∈ candidateLines) (hQuantity : 0 < line.quantity)
    {reward : AdvancedLineReward}
    (hReward : reward ∈ allocateReward getDiscountPercent candidateLines remaining)
    (hBefore : line.itemId < reward.itemId) :
    ∃ own ∈ allocateReward getDiscountPercent candidateLines remaining,
      own.itemId = line.itemId ∧ own.discountedUnitCount = line.quantity := by
  induction candidateLines generalizing remaining with
  | nil => cases hLine
  | cons first rest ih =>
      obtain ⟨hFirst, hRest⟩ := List.pairwise_cons.mp hSorted
      dsimp only [allocateReward] at hReward ⊢
      split at hReward
      · cases hReward
      · next hPool =>
          rw [if_neg hPool]
          split at hReward
          · next hNone =>
              rw [if_pos hNone]
              rcases List.mem_cons.mp hLine with rfl | hIn
              · omega
              · exact ih hRest hIn hReward
          · next hSome =>
              rw [if_neg hSome]
              rcases List.mem_cons.mp hLine with rfl | hIn
              · rcases List.mem_cons.mp hReward with rfl | hLater
                · exact absurd hBefore (lt_irrefl _)
                · have hLeft := remaining_pos_of_mem hLater
                  refine ⟨_, List.mem_cons_self, rfl, ?_⟩
                  show min line.quantity remaining = line.quantity
                  omega
              · rcases List.mem_cons.mp hReward with rfl | hLater
                · exact absurd (hBefore.trans (hFirst line hIn)) (lt_irrefl _)
                · obtain ⟨own, hOwn, hItem, hUnits⟩ := ih hRest hIn hLater
                  exact ⟨own, List.mem_cons_of_mem _ hOwn, hItem, hUnits⟩

end

/-! ### The allocation of a promotion -/

/-- The units that the buying side earns. -/
def earnedUnits (promo : Promotion) (lines : List PosEvalLine) : Int :=
  ((buyLines promo lines).map PosEvalLine.quantity).sum / promo.buyQuantity.getD 0 *
    promo.getQuantity.getD 0

/-- What a promotion may reward of a cart. -/
structure Allocates (promo : Promotion) (lines : List PosEvalLine)
    (rewards : List AdvancedLineReward) : Prop where
  total : (rewards.map AdvancedLineReward.discountedUnitCount).sum =
    min (earnedUnits promo lines) ((getLines promo lines).map PosEvalLine.quantity).sum
  each : ∀ reward ∈ rewards, ∃ line ∈ getLines promo lines, reward.itemId = line.itemId ∧
    0 < reward.discountedUnitCount ∧ reward.discountedUnitCount ≤ line.quantity ∧
    0 ≤ reward.lineDiscountCents ∧
    reward.lineDiscountCents ≤ line.effectiveUnitPriceCents * line.quantity
  ordered : rewards.Pairwise fun reward later => reward.itemId < later.itemId
  filled : ∀ line ∈ getLines promo lines, 0 < line.quantity → ∀ reward ∈ rewards,
    line.itemId < reward.itemId → ∃ own ∈ rewards, own.itemId = line.itemId ∧
      own.discountedUnitCount = line.quantity
  apart : ∀ reward ∈ rewards, ∀ line ∈ buyLines promo lines, line.itemId ≠ reward.itemId

/-- The promotion is considered by the advanced pass. -/
def InAdvancedPass (input : PosEvalInput) (promo : Promotion) : Prop :=
  promo.type = .advanced ∧ promo.method = .automatic ∧
    promo.id ∉ input.vetoedPromotionIds ∧ passesPromotionWideGates promo input = true

section

variable {promo : Promotion} {lines : List PosEvalLine} {input : PosEvalInput}

/-- The lines of the getting side as the walk visits them. -/
def sortedGetLines (promo : Promotion) (lines : List PosEvalLine) : List GetCandidateLine :=
  sortByKey GetCandidateLine.itemId ((getLines promo lines).map PosEvalLine.toGetCandidate)

theorem mem_sortedGetLines {candidate : GetCandidateLine} :
    candidate ∈ sortedGetLines promo lines ↔
      ∃ line ∈ getLines promo lines, line.toGetCandidate = candidate := by
  rw [sortedGetLines, (sortByKey_perm _ _).mem_iff, List.mem_map]

theorem sum_sortedGetLines : ((sortedGetLines promo lines).map GetCandidateLine.quantity).sum =
    ((getLines promo lines).map PosEvalLine.quantity).sum := by
  rw [sortedGetLines, ((sortByKey_perm _ _).map _).sum_eq, List.map_map]
  rfl

theorem sortedGetLines_pairwise (hKeys : (lines.map PosEvalLine.itemId).Nodup) :
    (sortedGetLines promo lines).Pairwise fun line later => line.itemId < later.itemId := by
  have hIds : (((getLines promo lines).map PosEvalLine.toGetCandidate).map
      GetCandidateLine.itemId).Nodup := by
    rw [List.map_map]
    exact (List.filter_sublist.map _).nodup hKeys
  exact pairwise_lt_sortByKey hIds

theorem advancedRewards_eq (hPass : InAdvancedPass input promo) (hSound : promo.RuleSound) :
    advancedRewards lines input promo =
      if ((buyLines promo lines).map PosEvalLine.quantity).sum / promo.buyQuantity.getD 0 = 0 then []
      else allocateReward (promo.getDiscountPercent.getD 0) (sortedGetLines promo lines)
        (earnedUnits promo lines) := by
  obtain ⟨hType, hMethod, hVeto, hGates⟩ := hPass
  simp only [Promotion.RuleSound, hType] at hSound
  obtain ⟨buyQuantity, getQuantity, percent, hBuy, hGet, hPercent, _⟩ := hSound
  have hOffered : (promo.type = .advanced && promo.method = .automatic &&
      !input.vetoedPromotionIds.contains promo.id && passesPromotionWideGates promo input) = true := by
    simp [hType, hMethod, hVeto, hGates]
  unfold advancedRewards
  rw [if_pos hOffered]
  simp only [hBuy, hGet, hPercent, Option.getD_some, computeAdvancedReward, earnedUnits]
  rfl

/-- For every promotion and cart, the advanced rewards of the promotion are allocated by the
law. -/
theorem advanced_allocation (hPass : InAdvancedPass input promo) (hSound : promo.RuleSound)
    (hKeys : (input.lines.map PosEvalLine.itemId).Nodup)
    (hLines : ∀ line ∈ input.lines, 0 ≤ line.quantity ∧ 0 ≤ line.effectiveUnitPriceCents) :
    Allocates promo input.lines (advancedRewards input.lines input promo) := by
  have hBuy : 0 ≤ ((buyLines promo input.lines).map PosEvalLine.quantity).sum := by
    apply List.sum_nonneg
    intro quantity hMem
    obtain ⟨line, hLine, rfl⟩ := List.mem_map.mp hMem
    exact (hLines line (List.mem_of_mem_filter hLine)).1
  have hGet : ∀ candidate ∈ sortedGetLines promo input.lines, 0 ≤ candidate.quantity := by
    intro candidate hMem
    obtain ⟨line, hLine, rfl⟩ := mem_sortedGetLines.mp hMem
    exact (hLines line (List.mem_of_mem_filter hLine)).1
  obtain ⟨buyQuantity, getQuantity, percent, hBuyQuantity, hGetQuantity, hPercent, hBuyOne, hGetOne,
    hRange⟩ : ∃ buyQuantity getQuantity percent, promo.buyQuantity = some buyQuantity ∧
      promo.getQuantity = some getQuantity ∧ promo.getDiscountPercent = some percent ∧
        1 ≤ buyQuantity ∧ 1 ≤ getQuantity ∧ 0 ≤ percent ∧ percent ≤ 100 := by
    simpa only [Promotion.RuleSound, hPass.1] using hSound
  have hEarned : 0 ≤ earnedUnits promo input.lines := by
    rw [earnedUnits, hBuyQuantity, hGetQuantity]
    exact Int.mul_nonneg (Int.ediv_nonneg hBuy (by simp; omega)) (by simp; omega)
  have hRewards := @advancedRewards_eq promo input.lines input hPass hSound
  constructor
  · rw [hRewards]
    split
    · next hNone =>
        have hTotal : 0 ≤ ((getLines promo input.lines).map PosEvalLine.quantity).sum := by
          rw [← sum_sortedGetLines]
          apply List.sum_nonneg
          simpa using hGet
        rw [earnedUnits, hNone, Int.zero_mul, min_eq_left hTotal]
        rfl
    · rw [sum_allocateReward hGet hEarned, sum_sortedGetLines]
  · intro reward hMem
    obtain ⟨_, line, hLine, hOf⟩ := mem_advancedRewards hMem
    obtain ⟨hQuantity, hPrice⟩ := hLines line (mem_getLines hLine).1
    have hUnit : 0 ≤ perUnitReward line.effectiveUnitPriceCents percent :=
      roundDiv_nonneg (by decide) (Int.mul_nonneg hPrice hRange.1)
    have hNonneg : 0 ≤ reward.lineDiscountCents := by
      rw [hOf.lineDiscount, hPercent]
      exact Int.mul_nonneg hOf.units_pos.le hUnit
    refine ⟨line, hLine, hOf.itemId, hOf.units_pos, hOf.units_le, hNonneg, ?_⟩
    rcases eq_or_lt_of_le hNonneg with hZero | hSaves
    · rw [← hZero]
      exact Int.mul_nonneg hPrice hQuantity
    · exact hOf.le hSound hPass.1 hSaves
  · rw [hRewards]
    split
    · exact List.Pairwise.nil
    · have hIds := (allocateReward_itemIds (promo.getDiscountPercent.getD 0)
        (sortedGetLines promo input.lines) (earnedUnits promo input.lines))
      have hSorted : ((sortedGetLines promo input.lines).map GetCandidateLine.itemId).Pairwise
          (· < ·) := List.pairwise_map.mpr (sortedGetLines_pairwise hKeys)
      exact List.pairwise_map.mp (hSorted.sublist hIds)
  · intro line hLine hQuantity reward hMem hBefore
    rw [hRewards] at hMem ⊢
    split at hMem
    · cases hMem
    · next hSome =>
        rw [if_neg hSome]
        exact filled_before (sortedGetLines_pairwise hKeys)
          (mem_sortedGetLines.mpr ⟨line, hLine, rfl⟩) hQuantity hMem hBefore
  · intro reward hMem line hLine hSame
    obtain ⟨_, rewarded, hRewarded, hOf⟩ := mem_advancedRewards hMem
    have hApart := (List.mem_filter.mp hRewarded).2
    rw [Bool.and_eq_true, Bool.not_eq_true', List.contains_eq_mem, decide_eq_false_iff_not] at hApart
    exact hApart.2 (List.mem_map.mpr ⟨line, hLine, hSame.trans hOf.itemId⟩)

end

/-- For two pairs of shoes one pair of socks at half the price. -/
def socksPromotion : Promotion :=
  { samplePromotion "socks" .advanced 0 none with
    buyQuantity := some 2
    getQuantity := some 1
    getDiscountPercent := some 50
    buyTargetType := some .products
    getTargetType := some .products
    targetItems := [⟨.buy, .products, "shoes"⟩, ⟨.get, .products, "socks"⟩] }

/-- Four pairs of shoes, and socks in two lines. -/
def socksCart : PosEvalInput :=
  { sampleCart 1 with lines :=
    [⟨"c", "socks", none, 3, 100, none, none, none, false⟩,
     ⟨"a", "shoes", none, 4, 5000, none, none, none, false⟩,
     ⟨"b", "socks", none, 1, 300, none, none, none, false⟩] }

theorem advanced_allocation_of_socks :
    (advancedRewards socksCart.lines socksCart socksPromotion).map
        (fun reward => (reward.itemId, reward.discountedUnitCount, reward.lineDiscountCents)) =
      [("b", 1, 150), ("c", 1, 50)] ∧
    Allocates socksPromotion socksCart.lines
      (advancedRewards socksCart.lines socksCart socksPromotion) := by
  have hPass : InAdvancedPass socksCart socksPromotion := by
    unfold InAdvancedPass
    decide
  have hSound : socksPromotion.RuleSound :=
    ⟨2, 1, 50, rfl, rfl, rfl, by decide, by decide, by decide, by decide⟩
  exact ⟨by decide +kernel, advanced_allocation hPass hSound (by decide) (by decide)⟩

end Houndfe.Promotions
