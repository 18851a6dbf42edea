import Houndfe.Promotions.LineWinners
import Houndfe.Quotations.DraftEdits
import Houndfe.Quotations.QuotationResponse
import Houndfe.Quotations.StoredTotals

/-! The promotions on the lines of a quotation. The engine gives a line one result, a product
discount or a reward for the whole line, and the quotation skips the rewards: a line that a reward
wins is left without the discount it would have had. The promotions of a response are added up per
unit, its discount per line. -/

namespace Houndfe.Quotations

open Keyed Promotions Rounding Traverse
open Houndfe.Sales (DiscountType RewardKind)

/-! ### One line of a recompute -/

/-- The result of the line, applied to it. -/
def applyOwnResult (lineResults : List PosEvalLineResult) (item : QuotationItem) :
    Except DomainError QuotationItem :=
  (resultFor lineResults item.id).elim (.ok item) fun result => applyLineResultToItem result item

def recomputeLine (lineResults : List PosEvalLineResult) (item : QuotationItem) :
    Except DomainError QuotationItem := do
  let applied ← applyOwnResult lineResults item
  settleTaxableBase applied

section

variable {items out : List QuotationItem} {item line : QuotationItem}
  {lineResults : List PosEvalLineResult}

/-- Results of different lines are applied line by line. -/
theorem mapM_applyOwnResult (hItems : (items.map QuotationItem.id).Nodup)
    (hResults : (lineResults.map PosEvalLineResult.itemId).Nodup)
    (h : applyLineResults lineResults items = .ok out) :
    items.mapM (applyOwnResult lineResults) = .ok out := by
  unfold applyLineResults at h
  induction lineResults generalizing items with
  | nil =>
      cases pure_eq_ok.mp h
      have hSame : out.mapM (applyOwnResult []) = .ok (out.map id) :=
        mapM_eq_ok_map fun _ _ => rfl
      rwa [List.map_id] at hSame
  | cons result rest ih =>
      obtain ⟨hFresh, hRest⟩ := List.nodup_cons.mp hResults
      rw [List.foldlM_cons] at h
      obtain ⟨middle, hMiddle, hLater⟩ := bind_eq_ok.mp h
      have hAlone : items.Pairwise fun a b => decide (a.id = result.itemId) = true →
          decide (b.id = result.itemId) = false := by
        apply (List.pairwise_map.mp hItems).imp
        intro a b hDiffer hHit
        rw [decide_eq_true_eq] at hHit
        exact decide_eq_false fun hAlso => hDiffer (hHit.trans hAlso.symm)
      have hStep := mapM_of_updateFirst hAlone hMiddle
      have hIds : middle.map QuotationItem.id = items.map QuotationItem.id := by
        apply map_eq_of_mapM _ hStep
        intro a _ b hOk
        split at hOk
        · exact (SameLine.of_applyLineResultToItem hOk).id
        · cases hOk
          rfl
      refine (mapM_comp_eq_ok ?_).mp ⟨middle, hStep, ih (hIds ▸ hItems) hRest hLater⟩
      intro a _ c
      have hNone : ∀ b : QuotationItem, b.id = result.itemId →
          applyOwnResult rest b = .ok b := by
        intro b hHit
        have hAbsent : resultFor rest b.id = none :=
          lookup_eq_none.mpr fun other hIn hSame =>
            hFresh (List.mem_map.mpr ⟨other, hIn, hSame.trans hHit⟩)
        rw [applyOwnResult, hAbsent, Option.elim_none]
      by_cases hHit : a.id = result.itemId
      · have hOwn : applyOwnResult (result :: rest) a = applyLineResultToItem result a := by
          rw [applyOwnResult, resultFor, lookup_cons, if_pos hHit.symm, Option.elim_some]
        rw [hOwn, if_pos (decide_eq_true hHit)]
        constructor
        · rintro ⟨b, hApplied, hSkipped⟩
          have hSame := (SameLine.of_applyLineResultToItem hApplied).id
          rw [hNone b (hSame.trans hHit)] at hSkipped
          cases hSkipped
          exact hApplied
        · intro hApplied
          have hSame := (SameLine.of_applyLineResultToItem hApplied).id
          exact ⟨c, hApplied, hNone c (hSame.trans hHit)⟩
      · have hOwn : applyOwnResult (result :: rest) a = applyOwnResult rest a := by
          rw [applyOwnResult, resultFor, lookup_cons, if_neg (Ne.symm hHit)]
          rfl
        rw [hOwn, if_neg (by simpa using hHit)]
        simp

theorem settleTaxableBase_eq_ok (h : settleTaxableBase item = .ok line) :
    ∃ taxableBaseCents, line = { item with taxableBaseCents := taxableBaseCents } := by
  unfold settleTaxableBase QuotationItem.recomputeTaxableBase at h
  split at h
  · cases h
    exact ⟨_, rfl⟩
  · split at h
    · replace h := past h
      cases pure_eq_ok.mp h
      exact ⟨_, rfl⟩
    · cases h

theorem applied_perUnit {env : QuotationEnvironment} {perUnit : PosEvalPerUnitLineResult}
    (h : applyLineResultToItem (.perUnit perUnit) item = .ok line) :
    line.promotionId = some perUnit.promotionId ∧ line.discountAmountCents =
        computeAppliedDiscountCents (buildPosEvalLine env item) (.perUnit perUnit) ∧
      line.quantity = item.quantity := by
  replace h := past (past (past (past h)))
  cases pure_eq_ok.mp h
  refine ⟨rfl, ?_, rfl⟩
  obtain ⟨itemId, promotionId, discountType, discountValue, discountTitle⟩ := perUnit
  cases discountType <;> rfl

/-- What a product discount takes off the line's price is what the engine ranked it by. -/
theorem applied_winner {env : QuotationEnvironment} {input : PosEvalInput} {promo : Promotion}
    {winner : PerLineCandidate}
    (hEligible : perLineCandidate (buildPosEvalLine env item) input promo = some winner)
    (h : applyLineResultToItem (toLineResult item.id winner) item = .ok line) :
    line.promotionId = some winner.promotion.id ∧
      line.discountAmountCents = winner.discountCents ∧ line.quantity = item.quantity := by
  have hRanked : Ranked input [promo] (buildPosEvalLine env item) (toLineResult item.id winner)
      winner.discountCents := .productDiscount List.mem_cons_self hEligible
  have hSaving := hRanked.saving_eq
  have hPromotion := toLineResult_promotionId item.id winner
  cases hResult : toLineResult item.id winner with
  | reward kind reward =>
      unfold toLineResult at hResult
      dsimp only at hResult
      split at hResult <;> cases hResult
  | perUnit perUnit =>
      rw [hResult] at h hSaving hPromotion
      obtain ⟨hId, hCents, hQuantity⟩ := @applied_perUnit item line env perUnit h
      exact ⟨hId.trans (congrArg some hPromotion), hCents.trans hSaving, hQuantity⟩

end

/-! ### The lines before the engine -/

/-- The engine sees the lines of the draft, none of them with a promotion. -/
theorem prepareQuotation_lines {env : QuotationEnvironment} {draft prepared : Quotation}
    (h : prepareQuotation env draft = .ok prepared) :
    prepared.items.map QuotationItem.id = draft.items.map QuotationItem.id ∧
      ∀ item ∈ prepared.items, item.promotionId = none := by
  obtain ⟨repriced, hRepriced, h⟩ := bind_eq_ok.mp h
  obtain ⟨items, hItems, h⟩ := bind_eq_ok.mp h
  cases pure_eq_ok.mp h
  have hReprice : ∀ {globalPriceListId : Option String} {item line : QuotationItem},
      repriceNonStickyLine env globalPriceListId item = .ok line →
        line.promotionId = item.promotionId := by
    intro globalPriceListId item line hOk
    unfold repriceNonStickyLine at hOk
    split at hOk
    · cases hOk
      rfl
    · obtain ⟨_, _, hOk⟩ := bind_eq_ok.mp hOk
      obtain ⟨_, _, hOk⟩ := bind_eq_ok.mp hOk
      cases pure_eq_ok.mp hOk
      rfl
  have hSnapshot : ∀ {globalPriceListId : Option String} {item line : QuotationItem},
      resnapshotLine env globalPriceListId item = .ok line →
        line.promotionId = item.promotionId := by
    intro globalPriceListId item line hOk
    unfold resnapshotLine at hOk
    split at hOk
    · obtain ⟨_, _, hOk⟩ := bind_eq_ok.mp hOk
      cases pure_eq_ok.mp hOk
      rfl
    · cases hOk
      rfl
  constructor
  · calc items.map QuotationItem.id
        = repriced.map QuotationItem.id :=
          map_eq_of_mapM (fun _ _ _ hOk => (SameLine.of_resnapshotLine hOk).id) hItems
      _ = (draft.items.map QuotationItem.clearPromotion).map QuotationItem.id :=
          map_eq_of_mapM (fun _ _ _ hOk => (SameLine.of_repriceNonStickyLine hOk).id) hRepriced
      _ = draft.items.map QuotationItem.id := by
          rw [List.map_map]
          exact List.map_congr_left fun item _ => (SameLine.of_clearPromotion item).id
  · intro item hItem
    obtain ⟨before, hBefore, hOk⟩ := mem_mapM hItems hItem
    obtain ⟨cleared, hCleared, hBeforeOk⟩ := mem_mapM hRepriced hBefore
    obtain ⟨first, _, rfl⟩ := List.mem_map.mp hCleared
    rw [hSnapshot hOk, hReprice hBeforeOk]
    unfold QuotationItem.clearPromotion
    split
    · rfl
    · next hNone => simpa using hNone

/-! ### What a line ends up with -/

/-- What the engine gives a line. The best product discount of the line is taken off each unit; a
line without one, or one that a reward wins, carries nothing. -/
inductive Carries (input : PosEvalInput) (candidates : List Promotion) (line : PosEvalLine)
    (item : QuotationItem) : Prop where
  | discounted {winner : PerLineCandidate} (wins : LadderWinner line input candidates winner)
      (unbeaten : ∀ kind reward saving, Contends input candidates line (.reward kind reward) saving →
        NoWorse (winner.discountCents * line.quantity) winner.promotion.id saving reward.promotionId)
      (promotion : item.promotionId = some winner.promotion.id)
      (cents : item.discountAmountCents = winner.discountCents)
  | nothing (beaten : ∀ winner, LadderWinner line input candidates winner →
        ∃ kind reward saving, Contends input candidates line (.reward kind reward) saving ∧
          NoWorse saving reward.promotionId (winner.discountCents * line.quantity)
            winner.promotion.id)
      (promotion : item.promotionId = none) (cents : item.discountAmountCents = 0)

theorem carries_of_recomputeLine {env : QuotationEnvironment} {input : PosEvalInput}
    {candidates : List Promotion} {item line : QuotationItem} {lineResults : List PosEvalLineResult}
    (hWins : Wins input candidates (buildPosEvalLine env item) (resultFor lineResults item.id))
    (hPromotion : item.promotionId = none) (hCents : item.discountAmountCents = 0)
    (h : recomputeLine lineResults item = .ok line) :
    Carries input candidates (buildPosEvalLine env item) line ∧ line.id = item.id ∧
      line.quantity = item.quantity := by
  obtain ⟨applied, hApplied, hSettled⟩ := bind_eq_ok.mp h
  obtain ⟨taxableBaseCents, rfl⟩ := settleTaxableBase_eq_ok hSettled
  unfold applyOwnResult at hApplied
  cases hResult : resultFor lineResults item.id with
  | none =>
      rw [hResult] at hWins hApplied
      cases hApplied
      refine ⟨.nothing ?_ hPromotion hCents, rfl, rfl⟩
      intro winner hWinner
      exact absurd (.productDiscount hWinner) (hWins _ _)
  | some result =>
      rw [hResult] at hWins hApplied
      rw [Option.elim_some] at hApplied
      have hSame := (SameLine.of_applyLineResultToItem hApplied).id
      obtain ⟨saving, hContends, hBest⟩ := hWins
      cases hContends with
      | @productDiscount winner wins =>
          obtain ⟨promo, hPromo, hEligible⟩ := wins.eligible
          obtain ⟨hId, hDiscount, hQuantity⟩ := applied_winner hEligible hApplied
          refine ⟨.discounted wins ?_ hId hDiscount, hSame, hQuantity⟩
          intro kind reward otherSaving hOther
          have hNoWorse := hBest _ _ hOther
          rw [toLineResult_promotionId] at hNoWorse
          exact hNoWorse
      | buyXGetY candidate eligible =>
          cases hApplied
          refine ⟨.nothing ?_ hPromotion hCents, rfl, rfl⟩
          intro winner hWinner
          have hNoWorse := hBest _ _ (.productDiscount hWinner)
          rw [toLineResult_promotionId] at hNoWorse
          exact ⟨_, _, _, .buyXGetY candidate eligible, hNoWorse⟩
      | advanced candidate rewarded own saves =>
          cases hApplied
          refine ⟨.nothing ?_ hPromotion hCents, rfl, rfl⟩
          intro winner hWinner
          have hNoWorse := hBest _ _ (.productDiscount hWinner)
          rw [toLineResult_promotionId] at hNoWorse
          exact ⟨_, _, _, .advanced candidate rewarded own saves, hNoWorse⟩

theorem noWorse_antisymm {saving otherSaving : Int} {id otherId : String}
    (h : NoWorse saving id otherSaving otherId) (h' : NoWorse otherSaving otherId saving id) :
    id = otherId := by
  rcases h with hLess | ⟨_, hId⟩
  · rcases h' with hLess' | ⟨hSame, _⟩ <;> omega
  · rcases h' with hLess' | ⟨_, hId'⟩
    · omega
    · exact le_antisymm hId hId'

theorem promotion_of_contends {input : PosEvalInput} {candidates : List Promotion}
    {line : PosEvalLine} {result : PosEvalLineResult} {saving : Int}
    (h : Contends input candidates line result saving) :
    (∃ winner, result = toLineResult line.itemId winner) ∨
      ∃ promo ∈ candidates, promo.id = result.promotionId ∧ promo.type ≠ .productDiscount := by
  cases h with
  | productDiscount wins => exact Or.inl ⟨_, rfl⟩
  | @buyXGetY promo reward candidate eligible =>
      obtain ⟨hSame, hType, _⟩ := buyXGetYCandidate_eq_some eligible
      exact Or.inr ⟨promo, candidate, by rw [← hSame]; rfl, by simp [hType]⟩
  | @advanced promo reward candidate rewarded _ _ =>
      exact Or.inr ⟨promo, candidate, rfl, by simp [(mem_advancedRewards rewarded).1]⟩

/-- A reward is never the product discount's promotion. -/
theorem promotionId_ne_of_reward {input : PosEvalInput} {candidates : List Promotion}
    {line : PosEvalLine} {winner : PerLineCandidate} {kind : RewardKind}
    {reward : PosEvalRewardLineResult} {saving : Int}
    (hIds : (candidates.map Promotion.id).Nodup) (hWinner : LadderWinner line input candidates winner)
    (hReward : Contends input candidates line (.reward kind reward) saving) :
    reward.promotionId ≠ winner.promotion.id := by
  obtain ⟨promo, hPromo, hEligible⟩ := hWinner.eligible
  obtain ⟨hSame, hType, _⟩ := perLineCandidate_eq_some hEligible
  rcases promotion_of_contends hReward with ⟨other, hResult⟩ | ⟨other, hOther, hOtherId, hOtherType⟩
  · unfold toLineResult at hResult
    dsimp only at hResult
    split at hResult <;> cases hResult
  · intro hSameId
    rw [hSame] at hSameId
    have hEqual := List.inj_on_of_nodup_map hIds hOther hPromo (hOtherId.trans hSameId)
    exact hOtherType (hEqual ▸ hType)

/-! ### What a response reports -/

theorem gross_sub_net (items : List QuotationItem) :
    Quotation.grossCents items - Quotation.netCents items =
      (items.map fun item => item.discountAmountCents * item.quantity.val).sum := by
  unfold Quotation.grossCents Quotation.netCents
  induction items with
  | nil => rfl
  | cons item rest ih =>
      simp only [List.map_cons, List.sum_cons, Int.add_mul] at ih ⊢
      omega

/-- The applied promotions hold what their lines carry per unit. -/
theorem sum_appliedPromotions {quotation : Quotation}
    (hNamed : ∀ item ∈ quotation.items, item.appliedPromotion = none → item.discountAmountCents = 0) :
    (quotation.computeAppliedPromotions.map QuotationAppliedPromotion.discountCents).sum =
      (quotation.items.map QuotationItem.discountAmountCents).sum := by
  unfold Quotation.computeAppliedPromotions
  have hRows : ((quotation.items.filterMap QuotationItem.appliedPromotion).map
      QuotationAppliedPromotion.discountCents).sum =
        (quotation.items.map QuotationItem.discountAmountCents).sum := by
    generalize quotation.items = items at hNamed ⊢
    induction items with
    | nil => rfl
    | cons item rest ih =>
        obtain ⟨hItem, hRest⟩ := List.forall_mem_cons.mp hNamed
        rw [List.map_cons, List.sum_cons, ← ih hRest]
        cases hApplied : item.appliedPromotion with
        | none => rw [List.filterMap_cons_none hApplied, hItem hApplied, Int.zero_add]
        | some applied =>
            have hCents : applied.discountCents = item.discountAmountCents := by
              obtain ⟨_, _, rfl⟩ := Option.map_eq_some_iff.mp hApplied
              rfl
            rw [List.filterMap_cons_some hApplied, List.map_cons, List.sum_cons, hCents]
  rw [sum_groupRows (fun _ _ => rfl) add_promotionId, hRows]

/-- The two sums agree exactly when every discounted line has one unit. -/
theorem reported_iff {quotation : Quotation}
    (hCents : ∀ item ∈ quotation.items, 0 ≤ item.discountAmountCents)
    (hNamed : ∀ item ∈ quotation.items, item.appliedPromotion = none → item.discountAmountCents = 0) :
    (quotation.computeAppliedPromotions.map QuotationAppliedPromotion.discountCents).sum =
        quotation.recomputeTotals.discountCents ↔
      ∀ item ∈ quotation.items, item.discountAmountCents = 0 ∨ item.quantity.val = 1 := by
  have hDiscount : quotation.recomputeTotals.discountCents =
      (quotation.items.map fun item => item.discountAmountCents * item.quantity.val).sum := by
    have hNonneg : 0 ≤
        (quotation.items.map fun item => item.discountAmountCents * item.quantity.val).sum := by
      apply List.sum_nonneg
      intro cents hMem
      obtain ⟨item, hItem, rfl⟩ := List.mem_map.mp hMem
      exact mul_quantity_nonneg item (hCents item hItem)
    rw [← gross_sub_net] at hNonneg ⊢
    exact max_eq_right hNonneg
  have hGap : (quotation.items.map fun item => item.discountAmountCents * item.quantity.val).sum =
      (quotation.items.map QuotationItem.discountAmountCents).sum +
        (quotation.items.map fun item =>
          item.discountAmountCents * (item.quantity.val - 1)).sum := by
    induction quotation.items with
    | nil => rfl
    | cons item rest ih =>
        simp only [List.map_cons, List.sum_cons, ih, Int.mul_sub, Int.mul_one]
        omega
  have hExtra : ∀ item ∈ quotation.items,
      0 ≤ item.discountAmountCents * (item.quantity.val - 1) := by
    intro item hItem
    have hOne := item.quantity.property
    exact Int.mul_nonneg (hCents item hItem) (by omega)
  rw [sum_appliedPromotions hNamed, hDiscount, hGap]
  have hZero := sum_eq_zero_iff hExtra
  constructor
  · intro hSame item hItem
    have hNone := hZero.mp (by omega) item hItem
    rcases Int.mul_eq_zero.mp hNone with hFree | hSingle
    · exact Or.inl hFree
    · exact Or.inr (by omega)
  · intro hSingles
    have hNone := hZero.mpr fun item hItem => by
      rcases hSingles item hItem with hFree | hSingle
      · rw [hFree, Int.zero_mul]
      · rw [hSingle, Int.sub_self, Int.mul_zero]
    omega

/-! ### The best product discount of every line -/

/-- Every line on which a product discount is eligible carries the best one, and the promotions
of the response add up to its discount. -/
structure KeepsBestDiscounts (input : PosEvalInput) (candidates : List Promotion)
    (recomputed : Quotation) : Prop where
  best : ∀ line ∈ input.lines, ∀ promo ∈ candidates,
    (perLineCandidate line input promo).isSome = true →
      ∃ winner, LadderWinner line input candidates winner ∧ ∃ item ∈ recomputed.items,
        item.id = line.itemId ∧ item.promotionId = some winner.promotion.id ∧
          item.discountAmountCents = winner.discountCents
  reported : (recomputed.toResponse.appliedPromotions.map
      QuotationAppliedPromotion.discountCents).sum = recomputed.toResponse.totals.discountCents

/-- No reward beats the best product discount of its line, and the line has one unit. -/
structure UnbeatenSingles (input : PosEvalInput) (candidates : List Promotion) : Prop where
  unbeaten : ∀ line ∈ input.lines, ∀ winner, LadderWinner line input candidates winner →
    ∀ kind reward saving, Contends input candidates line (.reward kind reward) saving →
      NoWorse (winner.discountCents * line.quantity) winner.promotion.id saving reward.promotionId
  single : ∀ line ∈ input.lines, ∀ winner, LadderWinner line input candidates winner →
    line.quantity = 1

/-- What a line of the engine's input becomes. -/
structure Settled (env : QuotationEnvironment) (input : PosEvalInput) (candidates : List Promotion)
    (item line : QuotationItem) : Prop where
  carries : Carries input candidates (buildPosEvalLine env item) line
  id : line.id = item.id
  quantity : line.quantity = item.quantity

section

variable {env : QuotationEnvironment} {draft prepared recomputed : Quotation}

/-- The lines of a recompute, each with what the engine gave it. -/
theorem settled_of_recompute (hPriced : PricedLines draft.items)
    (hItems : (draft.items.map QuotationItem.id).Nodup)
    (hPrepared : prepareQuotation env draft = .ok prepared)
    (hRecomputed : recomputePricingAndPromotions env draft = .ok recomputed) :
    ∃ lineResults, prepared.items.mapM (recomputeLine lineResults) = .ok recomputed.items ∧
      ∀ item ∈ prepared.items, ∀ line, recomputeLine lineResults item = .ok line →
        Settled env (buildPosEvalInput env prepared)
          (remainingCandidates (buildPosEvalInput env prepared) env.promotions) item line := by
  obtain ⟨prepared', hPrepared', h⟩ := bind_eq_ok.mp hRecomputed
  cases Except.ok.inj (hPrepared.symm.trans hPrepared')
  obtain ⟨applied, hApplied, h⟩ := bind_eq_ok.mp h
  obtain ⟨items, hSettled, h⟩ := bind_eq_ok.mp h
  cases pure_eq_ok.mp h
  obtain ⟨hIds, hUnpromoted⟩ := prepareQuotation_lines hPrepared
  have hLineIds : ((buildPosEvalInput env prepared).lines.map PosEvalLine.itemId).Nodup := by
    show ((prepared.items.map (buildPosEvalLine env)).map PosEvalLine.itemId).Nodup
    rw [List.map_map]
    show (prepared.items.map QuotationItem.id).Nodup
    rw [hIds]
    exact hItems
  have hPreparedPriced : PricedLines prepared.items := by
    obtain ⟨items, rfl, hLines⟩ := prepareQuotation_eq_ok hPrepared
    exact hLines hPriced
  have hEmits := (evaluate_emits_winners _ hLineIds).2 env.promotions
  refine ⟨(evaluate (buildPosEvalInput env prepared) env.promotions).selection.lines, ?_, ?_⟩
  · have hOwn := mapM_applyOwnResult (hIds ▸ hItems) hEmits.once hApplied
    exact (mapM_comp_eq_ok fun _ _ _ => bind_eq_ok.symm).mp ⟨applied, hOwn, hSettled⟩
  · intro item hItem line hLine
    have hWins := hEmits.wins _ (List.mem_map.mpr ⟨item, hItem, rfl⟩) rfl
    have hNone := hUnpromoted item hItem
    obtain ⟨hCarries, hId, hQuantity⟩ :=
      carries_of_recomputeLine hWins hNone ((hPreparedPriced item hItem).discount hNone) hLine
    exact ⟨hCarries, hId, hQuantity⟩

end

section

variable {env : QuotationEnvironment} {input : PosEvalInput} {candidates : List Promotion}
  {items lines : List QuotationItem} {quotation : Quotation}

theorem discount_pos {line : PosEvalLine} {winner : PerLineCandidate}
    (h : LadderWinner line input candidates winner) : 0 < winner.discountCents := by
  obtain ⟨promo, _, hEligible⟩ := h.eligible
  exact (perLineCandidate_eq_some hEligible).2.2.2

/-- A line that carries a promotion carries the best product discount of the line, which no reward
beats. -/
theorem unbeaten_of_carries {line : PosEvalLine} {item : QuotationItem} {winner : PerLineCandidate}
    (h : Carries input candidates line item) (hPromotion : item.promotionId ≠ none)
    (hWinner : LadderWinner line input candidates winner) :
    item.discountAmountCents = winner.discountCents ∧
      ∀ kind reward saving, Contends input candidates line (.reward kind reward) saving →
        NoWorse (winner.discountCents * line.quantity) winner.promotion.id saving
          reward.promotionId := by
  cases h with
  | @discounted other wins unbeaten promotion cents =>
      obtain ⟨hCents, hId⟩ := wins.unique hWinner
      refine ⟨cents.trans hCents, ?_⟩
      rw [← hCents, ← hId]
      exact unbeaten
  | nothing beaten promotion cents => exact absurd promotion hPromotion

/-- The best product discount of a line that no reward beats is carried. -/
theorem carried_of_unbeaten (hIds : (candidates.map Promotion.id).Nodup) {line : PosEvalLine}
    {item : QuotationItem} {winner : PerLineCandidate} (h : Carries input candidates line item)
    (hWinner : LadderWinner line input candidates winner)
    (hUnbeaten : ∀ kind reward saving, Contends input candidates line (.reward kind reward) saving →
      NoWorse (winner.discountCents * line.quantity) winner.promotion.id saving
        reward.promotionId) :
    item.promotionId = some winner.promotion.id ∧
      item.discountAmountCents = winner.discountCents := by
  cases h with
  | discounted wins unbeaten promotion cents =>
      obtain ⟨hCents, hId⟩ := wins.unique hWinner
      exact ⟨promotion.trans (congrArg some hId), cents.trans hCents⟩
  | nothing beaten promotion cents =>
      obtain ⟨kind, reward, saving, hReward, hNoWorse⟩ := beaten winner hWinner
      have hSame := noWorse_antisymm hNoWorse (hUnbeaten kind reward saving hReward)
      exact absurd hSame (promotionId_ne_of_reward hIds hWinner hReward)

/-- The sums of a response agree exactly when each line that carries a promotion has one unit. -/
theorem reported_iff_of_carries (hNamed : ∀ promo ∈ candidates, promo.id ≠ "")
    (hCarries : ∀ item ∈ quotation.items, ∃ line, Carries input candidates line item) :
    (quotation.computeAppliedPromotions.map QuotationAppliedPromotion.discountCents).sum =
        quotation.recomputeTotals.discountCents ↔
      ∀ item ∈ quotation.items, item.promotionId ≠ none → item.quantity.val = 1 := by
  have hLine : ∀ item ∈ quotation.items, (0 < item.discountAmountCents ∧ item.promotionId ≠ none ∧
      item.appliedPromotion ≠ none) ∨ item.discountAmountCents = 0 ∧ item.promotionId = none := by
    intro item hItem
    obtain ⟨line, hCarried⟩ := hCarries item hItem
    cases hCarried with
    | @discounted winner wins _ promotion cents =>
        obtain ⟨promo, hPromo, hEligible⟩ := wins.eligible
        have hId : winner.promotion.id ≠ "" := by
          rw [(perLineCandidate_eq_some hEligible).1]
          exact hNamed promo hPromo
        refine Or.inl ⟨cents ▸ discount_pos wins, by simp [promotion], ?_⟩
        simp [QuotationItem.appliedPromotion, promotion, hId]
    | nothing _ promotion cents => exact Or.inr ⟨cents, promotion⟩
  rw [reported_iff]
  · constructor
    · intro hAll item hItem hPromotion
      rcases hLine item hItem with ⟨hPos, _⟩ | ⟨_, hNone⟩
      · exact (hAll item hItem).resolve_left (by omega)
      · exact absurd hNone hPromotion
    · intro hAll item hItem
      rcases hLine item hItem with ⟨_, hPromotion, _⟩ | ⟨hFree, _⟩
      · exact Or.inr (hAll item hItem hPromotion)
      · exact Or.inl hFree
  · intro item hItem
    rcases hLine item hItem with ⟨hPos, _⟩ | ⟨hFree, _⟩ <;> omega
  · intro item hItem hApplied
    rcases hLine item hItem with ⟨_, _, hSome⟩ | ⟨hFree, _⟩
    · exact absurd hApplied hSome
    · exact hFree

end

theorem remainingCandidates_sublist (input : PosEvalInput) (data : List Promotion) :
    (remainingCandidates input data).Sublist data := by
  unfold remainingCandidates notExcluded loadCandidates
  split
  · exact List.filter_sublist.trans List.filter_sublist
  · exact List.filter_sublist

/-- A recompute of a draft keeps the best product discounts exactly when no reward beats one and
every line that has one is of a single unit. -/
theorem keeps_best_discounts {env : QuotationEnvironment} {draft prepared recomputed : Quotation}
    (hPriced : PricedLines draft.items) (hItems : (draft.items.map QuotationItem.id).Nodup)
    (hIds : (env.promotions.map Promotion.id).Nodup)
    (hNamed : ∀ promo ∈ env.promotions, promo.id ≠ "")
    (hPrepared : prepareQuotation env draft = .ok prepared)
    (hRecomputed : recomputePricingAndPromotions env draft = .ok recomputed) :
    KeepsBestDiscounts (buildPosEvalInput env prepared)
        (remainingCandidates (buildPosEvalInput env prepared) env.promotions) recomputed ↔
      UnbeatenSingles (buildPosEvalInput env prepared)
        (remainingCandidates (buildPosEvalInput env prepared) env.promotions) := by
  obtain ⟨lineResults, hLines, hSettled⟩ :=
    settled_of_recompute hPriced hItems hPrepared hRecomputed
  have hPreparedIds : (prepared.items.map QuotationItem.id).Nodup :=
    (prepareQuotation_lines hPrepared).1 ▸ hItems
  have hLoaded := remainingCandidates_sublist (buildPosEvalInput env prepared) env.promotions
  have hRemainingIds := (hLoaded.map Promotion.id).nodup hIds
  have hRemainingNamed := fun promo hPromo => hNamed promo (hLoaded.subset hPromo)
  have hCarried : ∀ line ∈ recomputed.items, ∃ item ∈ prepared.items,
      Settled env (buildPosEvalInput env prepared)
        (remainingCandidates (buildPosEvalInput env prepared) env.promotions) item line := by
    intro line hLine
    obtain ⟨item, hItem, hOk⟩ := mem_mapM hLines hLine
    exact ⟨item, hItem, hSettled item hItem line hOk⟩
  have hReported := reported_iff_of_carries hRemainingNamed fun line hLine => by
    obtain ⟨item, _, hItem⟩ := hCarried line hLine
    exact ⟨_, hItem.carries⟩
  constructor
  · intro hKeeps
    have hOwn : ∀ item ∈ prepared.items, ∀ winner, LadderWinner (buildPosEvalLine env item)
        (buildPosEvalInput env prepared)
        (remainingCandidates (buildPosEvalInput env prepared) env.promotions) winner →
          ∃ line ∈ recomputed.items, line.promotionId ≠ none ∧
            Settled env (buildPosEvalInput env prepared)
              (remainingCandidates (buildPosEvalInput env prepared) env.promotions) item line := by
      intro item hItem winner hWinner
      obtain ⟨promo, hPromo, hEligible⟩ := hWinner.eligible
      obtain ⟨_, _, line, hLine, hId, hPromotion, _⟩ :=
        hKeeps.best _ (List.mem_map.mpr ⟨item, hItem, rfl⟩) promo hPromo (by simp [hEligible])
      obtain ⟨other, hOther, hOf⟩ := hCarried line hLine
      have hSame := List.inj_on_of_nodup_map hPreparedIds hOther hItem (hOf.id.symm.trans hId)
      exact ⟨line, hLine, by simp [hPromotion], hSame ▸ hOf⟩
    constructor
    · intro line hLine winner hWinner
      obtain ⟨item, hItem, rfl⟩ := List.mem_map.mp hLine
      obtain ⟨carried, _, hPromotion, hOf⟩ := hOwn item hItem winner hWinner
      exact (unbeaten_of_carries hOf.carries hPromotion hWinner).2
    · intro line hLine winner hWinner
      obtain ⟨item, hItem, rfl⟩ := List.mem_map.mp hLine
      obtain ⟨carried, hMem, hPromotion, hOf⟩ := hOwn item hItem winner hWinner
      have hOne := hReported.mp hKeeps.reported carried hMem hPromotion
      rw [hOf.quantity] at hOne
      exact hOne
  · intro hSingles
    constructor
    · intro line hLine promo hPromo hSome
      obtain ⟨item, hItem, rfl⟩ := List.mem_map.mp hLine
      obtain ⟨eligible, hEligible⟩ := Option.isSome_iff_exists.mp hSome
      obtain ⟨winner, hPick⟩ :=
        Option.ne_none_iff_exists'.mp (pickBestPerLine_ne_none rfl hPromo hEligible)
      have hWinner := ladderWinner_of_pick hPick
      obtain ⟨carried, hMem, hOk⟩ := mem_of_mapM hLines hItem
      have hOf := hSettled item hItem carried hOk
      obtain ⟨hPromotion, hCents⟩ := carried_of_unbeaten hRemainingIds hOf.carries hWinner
        (hSingles.unbeaten _ hLine winner hWinner)
      exact ⟨winner, hWinner, carried, hMem, hOf.id, hPromotion, hCents⟩
    · apply hReported.mpr
      intro carried hMem hPromotion
      obtain ⟨item, hItem, hOf⟩ := hCarried carried hMem
      rw [hOf.quantity]
      cases hOf.carries with
      | discounted wins _ _ _ =>
          exact hSingles.single _ (List.mem_map.mpr ⟨item, hItem, rfl⟩) _ wins
      | nothing _ promotion _ => exact absurd promotion hPromotion

/-! ### Three units with a reward, two without -/

/-- A peso off each unit of one product, and of another one; two units of the first product give a
third one free. -/
def rewardedPromotions : List Promotion :=
  [samplePromotion "peso" .productDiscount 100 none,
    { samplePromotion "otro" .productDiscount 100 none with
      targetItems := [⟨.default, .products, "other"⟩] },
    { samplePromotion "tercero" .buyXGetY 0 none with
      discountType := none
      discountValue := none
      appliesTo := some .products
      buyQuantity := some 2
      getQuantity := some 1
      getDiscountPercent := some 100 }]

def rewardedEnvironment : QuotationEnvironment :=
  { oneProduct.toQuotationEnvironment with promotions := rewardedPromotions }

/-- Lines at a price of their own, ten pesos a unit. -/
def customLine (id productId : String) (quantity : Houndfe.Sales.Quantity) : QuotationItem :=
  { quotedLine with
    id := id
    productId := productId
    quantity := quantity
    unitPriceCents := 1000
    priceSource := .custom
    customPriceCents := some 1000 }

def threeUnits : Houndfe.Sales.Quantity := ⟨3, Int.le.intro 2 rfl⟩

def rewardedQuotation : Quotation :=
  { emptyQuotation with
    items := [customLine "three" "product" threeUnits,
      customLine "two" "other" Houndfe.Sales.Quantity.two] }

def singleQuotation : Quotation :=
  { emptyQuotation with items := [customLine "one" "product" Houndfe.Sales.Quantity.one] }

/-- A peso off each unit of a line at ten pesos. -/
def pesoLine (item : QuotationItem) (promotionId : String) (taxableBaseCents : Int) :
    QuotationItem :=
  { item with
    unitPriceCents := 900
    discountType := some .amount
    discountValue := some 100
    discountAmountCents := 100
    discountTitle := some promotionId
    promotionId := some promotionId
    taxableBaseCents := some taxableBaseCents }

def rewardedRecompute : Quotation :=
  { rewardedQuotation with
    items := [{ customLine "three" "product" threeUnits with taxableBaseCents := some 2586 },
      pesoLine (customLine "two" "other" Houndfe.Sales.Quantity.two) "otro" 1552] }

def singleRecompute : Quotation :=
  { singleQuotation with
    items := [pesoLine (customLine "one" "product" Houndfe.Sales.Quantity.one) "peso" 776] }

theorem keeps_best_discounts_of_single :
    KeepsBestDiscounts (buildPosEvalInput rewardedEnvironment singleQuotation)
        (remainingCandidates (buildPosEvalInput rewardedEnvironment singleQuotation)
          rewardedPromotions) singleRecompute ↔
      UnbeatenSingles (buildPosEvalInput rewardedEnvironment singleQuotation)
        (remainingCandidates (buildPosEvalInput rewardedEnvironment singleQuotation)
          rewardedPromotions) := by
  have hPriced : PricedLines singleQuotation.items := by
    intro item hItem
    cases List.mem_singleton.mp hItem
    exact ⟨by decide, by decide, fun _ => rfl⟩
  exact @keeps_best_discounts rewardedEnvironment singleQuotation singleQuotation singleRecompute
    hPriced (by decide) (by decide) (by decide) rfl (by decide +kernel)

/-- The line of three units is left without its peso, and the two pesos of the other line are
reported as one. -/
theorem reward_leaves_line_undiscounted :
    prepareQuotation rewardedEnvironment rewardedQuotation = .ok rewardedQuotation ∧
      recomputePricingAndPromotions rewardedEnvironment rewardedQuotation =
        .ok rewardedRecompute ∧
      rewardedRecompute.items.map (fun item => (item.id, item.promotionId)) =
        [("three", none), ("two", some "otro")] ∧
      rewardedRecompute.toResponse.appliedPromotions = [⟨"otro", "otro", 100⟩] ∧
      rewardedRecompute.toResponse.totals.discountCents = 200 ∧
      ¬ KeepsBestDiscounts (buildPosEvalInput rewardedEnvironment rewardedQuotation)
        (remainingCandidates (buildPosEvalInput rewardedEnvironment rewardedQuotation)
          rewardedPromotions) rewardedRecompute := by
  refine ⟨rfl, by decide +kernel, by decide, by decide, by decide, fun h => ?_⟩
  have hLine : buildPosEvalLine rewardedEnvironment (customLine "three" "product" ⟨3, by decide⟩) ∈
      (buildPosEvalInput rewardedEnvironment rewardedQuotation).lines := List.mem_cons_self
  have hPromo : samplePromotion "peso" .productDiscount 100 none ∈
      remainingCandidates (buildPosEvalInput rewardedEnvironment rewardedQuotation)
        rewardedPromotions := by decide +kernel
  obtain ⟨winner, _, item, hItem, hId, hPromotion, _⟩ := h.best _ hLine _ hPromo (by decide)
  rcases List.mem_cons.mp hItem with rfl | hOther
  · cases hPromotion
  · cases List.mem_singleton.mp hOther
    exact absurd hId (by decide)

end Houndfe.Quotations
