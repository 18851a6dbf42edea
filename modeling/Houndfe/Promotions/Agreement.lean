import Houndfe.Promotions.Selection
import Mathlib.Data.List.Dedup

/-! Carts on which the engine agrees with itself: the lines in another order, and opt-ins
that differ only for promotions without a target in the cart. Both evaluations select the
same results, line by line, and the same order discount. -/

namespace Houndfe.Promotions

open Keyed

/-- Two inputs that say the same to the engine about the promotions of `data`. -/
structure Agrees (data : List Promotion) (input input' : PosEvalInput) : Prop where
  botEligibleOnly : input'.botEligibleOnly = input.botEligibleOnly
  treatCustomerAsUnregistered :
    input'.treatCustomerAsUnregistered = input.treatCustomerAsUnregistered
  now : input'.now = input.now
  today : input'.today = input.today
  customerId : input'.customerId = input.customerId
  lines : input.lines.Perm input'.lines
  keys : (input.lines.map PosEvalLine.itemId).Nodup
  vetoed : ∀ id, id ∈ input'.vetoedPromotionIds ↔ id ∈ input.vetoedPromotionIds
  optedIn : ∀ promo ∈ data, promo.method = .manual → hasTargetInCart promo input.lines = true →
    promo.id ∉ input.vetoedPromotionIds →
      (promo.id ∈ input'.optedInManualPromotionIds ↔ promo.id ∈ input.optedInManualPromotionIds)

section

variable {data : List Promotion} {input input' : PosEvalInput}

theorem Agrees.keys' (h : Agrees data input input') :
    (input'.lines.map PosEvalLine.itemId).Nodup :=
  (h.lines.map _).nodup h.keys

theorem Agrees.gates (h : Agrees data input input') (promo : Promotion) :
    passesPromotionWideGates promo input' = passesPromotionWideGates promo input := by
  simp only [passesPromotionWideGates, passesCustomerScope, h.now, h.today, h.customerId,
    h.treatCustomerAsUnregistered]

theorem Agrees.vetoed_contains (h : Agrees data input input') (id : String) :
    input'.vetoedPromotionIds.contains id = input.vetoedPromotionIds.contains id := by
  simp only [List.contains_eq_mem, decide_eq_decide]
  exact h.vetoed id

/-- A promotion with a target in the cart is offered to both or to neither. -/
theorem Agrees.isOffered (h : Agrees data input input') {promo : Promotion}
    (hPromo : promo ∈ data) (hTarget : hasTargetInCart promo input.lines = true) :
    Promotions.isOffered promo input' = Promotions.isOffered promo input := by
  unfold Promotions.isOffered
  rw [h.vetoed_contains]
  cases hVeto : input.vetoedPromotionIds.contains promo.id with
  | true => simp
  | false =>
      have hNotVetoed : promo.id ∉ input.vetoedPromotionIds := by
        simpa [List.contains_eq_mem] using hVeto
      cases hMethod : promo.method with
      | automatic => simp
      | manual =>
          have hSame : input'.optedInManualPromotionIds.contains promo.id =
              input.optedInManualPromotionIds.contains promo.id := by
            simp only [List.contains_eq_mem, decide_eq_decide]
            exact h.optedIn promo hPromo hMethod hTarget hNotVetoed
          rw [hSame]

/-- A line promotion that matches a line has a target in the cart. -/
theorem hasTargetInCart_of_line {promo : Promotion} {lines : List PosEvalLine}
    {line : PosEvalLine} (hLine : line ∈ lines) (hSupported : isSupportedEngineType promo = true)
    (hType : promo.type = .productDiscount ∨ promo.type = .buyXGetY)
    (hTier : (matchTargetTier promo.targetItems line .default).isSome = true) :
    hasTargetInCart promo lines = true := by
  have hAny : (lines.any fun line =>
      (matchTargetTier promo.targetItems line .default).isSome) = true :=
    List.any_eq_true.mpr ⟨line, hLine, hTier⟩
  rcases hType with hType | hType <;> simp [hasTargetInCart, hSupported, hType, hAny]

theorem supported_of_gates {promo : Promotion} (h : passesPromotionWideGates promo input = true) :
    isSupportedEngineType promo = true := by
  simp only [passesPromotionWideGates, Bool.and_eq_true] at h
  exact h.1.1.1

theorem Agrees.perLineCandidate (h : Agrees data input input') {promo : Promotion}
    (hPromo : promo ∈ data) {line : PosEvalLine} (hLine : line ∈ input.lines) :
    Promotions.perLineCandidate line input' promo = Promotions.perLineCandidate line input promo := by
  unfold Promotions.perLineCandidate
  rw [h.gates]
  by_cases hGates : passesPromotionWideGates promo input = true ∧ promo.type = .productDiscount
  · cases hTier : matchTargetTier promo.targetItems line .default with
    | none => simp
    | some tier =>
        have hTarget := hasTargetInCart_of_line hLine (supported_of_gates hGates.1)
          (.inl hGates.2) (by rw [hTier]; rfl)
        rw [h.isOffered hPromo hTarget]
  · have hClosed : ∀ offered : Bool, (offered && passesPromotionWideGates promo input &&
        decide (promo.type = .productDiscount)) = false := by
      intro offered
      rw [Bool.and_assoc, Bool.and_eq_false_iff]
      right
      simpa [Bool.and_eq_true] using hGates
    rw [hClosed, hClosed]

theorem Agrees.buyXGetYCandidate (h : Agrees data input input') {promo : Promotion}
    (hPromo : promo ∈ data) {line : PosEvalLine} (hLine : line ∈ input.lines) :
    Promotions.buyXGetYCandidate line input' promo =
      Promotions.buyXGetYCandidate line input promo := by
  unfold Promotions.buyXGetYCandidate
  rw [h.gates]
  by_cases hGates : promo.type = .buyXGetY ∧ passesPromotionWideGates promo input = true ∧
      (matchTargetTier promo.targetItems line .default).isSome = true
  · have hTarget := hasTargetInCart_of_line hLine (supported_of_gates hGates.2.1)
      (.inr hGates.1) hGates.2.2
    rw [h.isOffered hPromo hTarget]
  · have hClosed : ∀ offered : Bool, (decide (promo.type = .buyXGetY) && offered &&
        passesPromotionWideGates promo input &&
          (matchTargetTier promo.targetItems line .default).isSome &&
            matchesPriceList promo line) = false := by
      intro offered
      by_contra hOpen
      simp only [Bool.not_eq_false, Bool.and_eq_true, decide_eq_true_eq] at hOpen
      exact hGates ⟨hOpen.1.1.1.1, hOpen.1.1.2, hOpen.1.2⟩
    rw [hClosed, hClosed]

theorem Agrees.pickBestPerLine (h : Agrees data input input') {candidates : List Promotion}
    (hCandidates : ∀ promo ∈ candidates, promo ∈ data) {line : PosEvalLine}
    (hLine : line ∈ input.lines) :
    Promotions.pickBestPerLine line candidates input' =
      Promotions.pickBestPerLine line candidates input := by
  have hSame : candidates.filterMap (Promotions.perLineCandidate line input') =
      candidates.filterMap (Promotions.perLineCandidate line input) :=
    List.filterMap_congr fun promo hPromo => h.perLineCandidate (hCandidates promo hPromo) hLine
  simp only [Promotions.pickBestPerLine, hSame]

theorem Agrees.pickBestBuyXGetYPerLine (h : Agrees data input input')
    {candidates : List Promotion} (hCandidates : ∀ promo ∈ candidates, promo ∈ data)
    {line : PosEvalLine} (hLine : line ∈ input.lines) :
    Promotions.pickBestBuyXGetYPerLine line candidates input' =
      Promotions.pickBestBuyXGetYPerLine line candidates input := by
  have hSame : candidates.filterMap (Promotions.buyXGetYCandidate line input') =
      candidates.filterMap (Promotions.buyXGetYCandidate line input) :=
    List.filterMap_congr fun promo hPromo => h.buyXGetYCandidate (hCandidates promo hPromo) hLine
  simp only [Promotions.pickBestBuyXGetYPerLine, hSame]

/-! ### The passes over the lines -/

theorem Agrees.productDiscountResults (h : Agrees data input input')
    {candidates : List Promotion} (hCandidates : ∀ promo ∈ candidates, promo ∈ data) :
    resultFor (Promotions.productDiscountResults input'.lines candidates input') =
      resultFor (Promotions.productDiscountResults input.lines candidates input) := by
  funext itemId
  have hKey : ∀ (input : PosEvalInput) (line : PosEvalLine) (result : PosEvalLineResult),
      (Promotions.pickBestPerLine line candidates input).map (toLineResult line.itemId) =
        some result → result.itemId = line.itemId := by
    intro input line result hResult
    obtain ⟨winner, _, rfl⟩ := Option.map_eq_some_iff.mp hResult
    exact toLineResult_itemId _ _
  unfold Promotions.productDiscountResults resultFor
  rw [lookup_filterMap (hKey input') h.keys', lookup_filterMap (hKey input) h.keys,
    ← lookup_perm h.keys h.lines]
  cases hLookup : lookup PosEvalLine.itemId input.lines itemId with
  | none => rfl
  | some line =>
      rw [Option.bind_some, Option.bind_some,
        h.pickBestPerLine hCandidates (lookup_eq_some hLookup).1]

/-- What the buy-x-get-y pass makes of the result of a line. -/
def buyXGetYRule (candidates : List Promotion) (input : PosEvalInput) (line : PosEvalLine)
    (existing : Option PosEvalLineResult) : Option PosEvalLineResult :=
  match Promotions.pickBestBuyXGetYPerLine line candidates input with
  | none => existing
  | some winner =>
      if replacesExisting line (notBuyXGetY existing) winner.lineDiscountCents winner.promotion.id
      then some (winner.toLineResult line.itemId)
      else existing

theorem buyXGetYStep_local (candidates : List Promotion) (input : PosEvalInput) :
    Local PosEvalLineResult.itemId PosEvalLine.itemId (buyXGetYStep candidates input)
      (buyXGetYRule candidates input) := by
  intro lineResults line itemId
  unfold buyXGetYStep buyXGetYRule
  cases Promotions.pickBestBuyXGetYPerLine line candidates input with
  | none => simp
  | some winner =>
      by_cases hHere : line.itemId = itemId
      · subst hHere
        rw [if_pos rfl]
        by_cases hWins : replacesExisting line (notBuyXGetY (resultFor lineResults line.itemId))
            winner.lineDiscountCents winner.promotion.id = true
        · dsimp only
          rw [if_pos hWins, lookup_upsert, if_pos (by rfl)]
          exact (if_pos hWins).symm
        · dsimp only
          rw [if_neg hWins]
          exact (if_neg hWins).symm
      · rw [if_neg hHere]
        dsimp only
        split
        · rw [lookup_upsert]
          exact if_neg hHere
        · rfl

theorem Agrees.evaluateBuyXGetYPass (h : Agrees data input input') {candidates : List Promotion}
    (hCandidates : ∀ promo ∈ candidates, promo ∈ data)
    {lineResults lineResults' : List PosEvalLineResult}
    (hResults : resultFor lineResults' = resultFor lineResults) :
    resultFor (Promotions.evaluateBuyXGetYPass input'.lines candidates input' lineResults') =
      resultFor (Promotions.evaluateBuyXGetYPass input.lines candidates input lineResults) := by
  funext itemId
  unfold Promotions.evaluateBuyXGetYPass resultFor
  rw [lookup_foldl (buyXGetYStep_local candidates input') h.keys',
    lookup_foldl (buyXGetYStep_local candidates input) h.keys, ← lookup_perm h.keys h.lines]
  have hHere : lookup PosEvalLineResult.itemId lineResults' itemId =
      lookup PosEvalLineResult.itemId lineResults itemId := congrFun hResults itemId
  cases hLookup : lookup PosEvalLine.itemId input.lines itemId with
  | none => exact hHere
  | some line =>
      simp only [buyXGetYRule, hHere,
        h.pickBestBuyXGetYPerLine hCandidates (lookup_eq_some hLookup).1]

theorem buyLines_perm (promo : Promotion) (h : Agrees data input input') :
    (buyLines promo input.lines).Perm (buyLines promo input'.lines) :=
  h.lines.filter _

theorem getLines_perm (promo : Promotion) (h : Agrees data input input') :
    (getLines promo input.lines).Perm (getLines promo input'.lines) := by
  have hBuy : ∀ line : PosEvalLine,
      ((buyLines promo input'.lines).map PosEvalLine.itemId).contains line.itemId =
        ((buyLines promo input.lines).map PosEvalLine.itemId).contains line.itemId := by
    intro line
    simp only [List.contains_eq_mem, decide_eq_decide]
    exact ((buyLines_perm promo h).map _).mem_iff.symm
  unfold getLines
  simp only [hBuy]
  exact h.lines.filter _

/-- A promotion offers both carts the same rewards, in the same order. -/
theorem Agrees.advancedRewards (h : Agrees data input input') (promo : Promotion) :
    Promotions.advancedRewards input'.lines input' promo =
      Promotions.advancedRewards input.lines input promo := by
  have hTotal : ((buyLines promo input'.lines).map PosEvalLine.quantity).sum =
      ((buyLines promo input.lines).map PosEvalLine.quantity).sum :=
    ((buyLines_perm promo h).map _).sum_eq.symm
  have hCandidateKeys : (((getLines promo input.lines).map PosEvalLine.toGetCandidate).map
      GetCandidateLine.itemId).Nodup := by
    rw [List.map_map]
    exact (List.filter_sublist.map _).nodup h.keys
  have hSorted : sortByKey GetCandidateLine.itemId
      ((getLines promo input'.lines).map PosEvalLine.toGetCandidate) =
        sortByKey GetCandidateLine.itemId
          ((getLines promo input.lines).map PosEvalLine.toGetCandidate) :=
    (sortByKey_eq_of_perm hCandidateKeys ((getLines_perm promo h).map _)).symm
  simp only [Promotions.advancedRewards, h.vetoed_contains, h.gates, hTotal,
    computeAdvancedReward, hSorted]

theorem Agrees.advancedRewardStep (h : Agrees data input input') (promo : Promotion) :
    Promotions.advancedRewardStep input'.lines promo =
      Promotions.advancedRewardStep input.lines promo := by
  funext lineResults reward
  simp only [Promotions.advancedRewardStep, lookup_perm h.keys h.lines]

/-- What an advanced reward makes of the result of its line. -/
def advancedRule (lines : List PosEvalLine) (promo : Promotion) (reward : AdvancedLineReward)
    (existing : Option PosEvalLineResult) : Option PosEvalLineResult :=
  match lookup PosEvalLine.itemId lines reward.itemId with
  | none => existing
  | some targetLine =>
      if 0 < reward.lineDiscountCents ∧
          replacesExisting targetLine existing reward.lineDiscountCents promo.id then
        some (reward.toLineResult promo)
      else existing

theorem advancedRewardStep_local (lines : List PosEvalLine) (promo : Promotion) :
    Local PosEvalLineResult.itemId AdvancedLineReward.itemId
      (Promotions.advancedRewardStep lines promo) (advancedRule lines promo) := by
  intro lineResults reward itemId
  unfold Promotions.advancedRewardStep advancedRule
  cases lookup PosEvalLine.itemId lines reward.itemId with
  | none => simp
  | some targetLine =>
      by_cases hHere : reward.itemId = itemId
      · subst hHere
        rw [if_pos rfl]
        by_cases hWins : 0 < reward.lineDiscountCents ∧ replacesExisting targetLine
            (resultFor lineResults reward.itemId) reward.lineDiscountCents promo.id = true
        · dsimp only
          rw [if_pos hWins, lookup_upsert, if_pos (by rfl)]
          exact (if_pos hWins).symm
        · dsimp only
          rw [if_neg hWins]
          exact (if_neg hWins).symm
      · rw [if_neg hHere]
        dsimp only
        split
        · rw [lookup_upsert]
          exact if_neg hHere
        · rfl

theorem Agrees.evaluateAdvancedPass (h : Agrees data input input') (candidates : List Promotion)
    {lineResults lineResults' : List PosEvalLineResult}
    (hResults : resultFor lineResults' = resultFor lineResults) :
    resultFor (Promotions.evaluateAdvancedPass input'.lines candidates input' lineResults') =
      resultFor (Promotions.evaluateAdvancedPass input.lines candidates input lineResults) := by
  unfold Promotions.evaluateAdvancedPass
  induction candidates generalizing lineResults lineResults' with
  | nil => exact hResults
  | cons promo rest ih =>
      apply ih
      unfold advancedStep
      rw [h.advancedRewards, h.advancedRewardStep]
      exact lookup_foldl_congr (advancedRewardStep_local input.lines promo) _ hResults

/-- Line by line the two evaluations come to the same result. -/
theorem Agrees.evaluateLines (h : Agrees data input input') {candidates : List Promotion}
    (hCandidates : ∀ promo ∈ candidates, promo ∈ data) :
    resultFor (Promotions.evaluateLines input' candidates) =
      resultFor (Promotions.evaluateLines input candidates) :=
  h.evaluateAdvancedPass candidates
    (h.evaluateBuyXGetYPass hCandidates (h.productDiscountResults hCandidates))

theorem Agrees.evaluateLines_perm (h : Agrees data input input') {candidates : List Promotion}
    (hCandidates : ∀ promo ∈ candidates, promo ∈ data) :
    (Promotions.evaluateLines input candidates).Perm
      (Promotions.evaluateLines input' candidates) :=
  perm_of_lookup_eq (evaluateLines_sound h.keys).keys (evaluateLines_sound h.keys').keys
    (h.evaluateLines hCandidates).symm

/-! ### The order discount and the rounds -/

theorem Agrees.prePromoSubtotalCents (h : Agrees data input input') :
    Promotions.prePromoSubtotalCents input'.lines =
      Promotions.prePromoSubtotalCents input.lines :=
  (h.lines.map _).sum_eq.symm

theorem Agrees.postLineSubtotalCents (h : Agrees data input input')
    {lineResults lineResults' : List PosEvalLineResult}
    (hResults : resultFor lineResults' = resultFor lineResults) :
    Promotions.postLineSubtotalCents input'.lines lineResults' =
      Promotions.postLineSubtotalCents input.lines lineResults := by
  unfold Promotions.postLineSubtotalCents
  rw [hResults]
  exact (h.lines.map _).sum_eq.symm

theorem Agrees.orderCandidate (h : Agrees data input input') (prePromo postLine : Int)
    {promo : Promotion} (hPromo : promo ∈ data) :
    Promotions.orderCandidate input' prePromo postLine promo =
      Promotions.orderCandidate input prePromo postLine promo := by
  have hAll : input'.lines.all (matchesPriceList promo) =
      input.lines.all (matchesPriceList promo) := by
    rw [Bool.eq_iff_iff, List.all_eq_true, List.all_eq_true]
    exact forall_congr' fun line => by rw [h.lines.mem_iff]
  unfold Promotions.orderCandidate
  rw [h.gates, hAll]
  by_cases hGates : promo.type = .orderDiscount ∧ passesPromotionWideGates promo input = true
  · have hTarget : hasTargetInCart promo input.lines = true := by
      simp [hasTargetInCart, supported_of_gates hGates.2, hGates.1]
    rw [h.isOffered hPromo hTarget]
  · have hClosed : ∀ offered all minimum : Bool, (decide (promo.type = .orderDiscount) &&
        offered && passesPromotionWideGates promo input && all && minimum) = false := by
      intro offered all minimum
      by_contra hOpen
      simp only [Bool.not_eq_false, Bool.and_eq_true, decide_eq_true_eq] at hOpen
      exact hGates ⟨hOpen.1.1.1.1, hOpen.1.1.2⟩
    rw [hClosed, hClosed]

theorem Agrees.pickBestOrderPromo (h : Agrees data input input') {candidates : List Promotion}
    (hCandidates : ∀ promo ∈ candidates, promo ∈ data) (prePromo postLine : Int) :
    Promotions.pickBestOrderPromo candidates input' prePromo postLine =
      Promotions.pickBestOrderPromo candidates input prePromo postLine := by
  have hSame : candidates.filterMap (Promotions.orderCandidate input' prePromo postLine) =
      candidates.filterMap (Promotions.orderCandidate input prePromo postLine) :=
    List.filterMap_congr fun promo hPromo =>
      h.orderCandidate prePromo postLine (hCandidates promo hPromo)
  simp only [Promotions.pickBestOrderPromo, hSame]

theorem demandedUnits_perm {entries entries' : List PromotionCapacityDemand}
    (h : entries.Perm entries') : demandedUnits entries = demandedUnits entries' := by
  funext promotionId
  exact ((h.filter _).map _).sum_eq

theorem Agrees.demandEntries (h : Agrees data input input')
    {lineResults lineResults' : List PosEvalLineResult} (hPerm : lineResults.Perm lineResults')
    (order : Option PosEvalOrderResult) :
    (Promotions.demandEntries input.lines lineResults order).Perm
      (Promotions.demandEntries input'.lines lineResults' order) := by
  have hUnits : (input'.lines.map PosEvalLine.quantity).sum =
      (input.lines.map PosEvalLine.quantity).sum := (h.lines.map _).sum_eq.symm
  unfold Promotions.demandEntries
  rw [hUnits, lookup_perm h.keys h.lines]
  exact (hPerm.filterMap _).append (List.Perm.refl _)

/-- The demands are sorted, so that they are the same list. -/
theorem Agrees.capacityDemands (h : Agrees data input input')
    {lineResults lineResults' : List PosEvalLineResult} (hPerm : lineResults.Perm lineResults')
    (order : Option PosEvalOrderResult) :
    computePromotionCapacityDemands input'.lines lineResults' order =
      computePromotionCapacityDemands input.lines lineResults order := by
  have hEntries := h.demandEntries hPerm order
  have hIds := (hEntries.map PromotionCapacityDemand.promotionId).dedup
  dsimp only [computePromotionCapacityDemands]
  rw [← demandedUnits_perm hEntries]
  symm
  apply sortByKey_eq_of_perm
  · apply (List.filter_sublist.map _).nodup
    rw [List.map_map]
    exact (List.map_id _).symm ▸ List.nodup_dedup _
  · exact (hIds.map _).filter _

theorem Agrees.runEvaluationPass (h : Agrees data input input') {candidates : List Promotion}
    (hCandidates : ∀ promo ∈ candidates, promo ∈ data) :
    resultFor (Promotions.runEvaluationPass input' candidates).lines =
        resultFor (Promotions.runEvaluationPass input candidates).lines ∧
      (Promotions.runEvaluationPass input' candidates).order =
        (Promotions.runEvaluationPass input candidates).order ∧
      (Promotions.runEvaluationPass input' candidates).promotionCapacityDemands =
        (Promotions.runEvaluationPass input candidates).promotionCapacityDemands := by
  have hLines := h.evaluateLines hCandidates
  have hOrder : (Promotions.runEvaluationPass input' candidates).order =
      (Promotions.runEvaluationPass input candidates).order := by
    dsimp only [Promotions.runEvaluationPass]
    rw [h.prePromoSubtotalCents, h.postLineSubtotalCents hLines,
      h.pickBestOrderPromo hCandidates]
  refine ⟨hLines, hOrder, ?_⟩
  have hDemands := h.capacityDemands (h.evaluateLines_perm hCandidates)
    (Promotions.runEvaluationPass input' candidates).order
  rw [hOrder] at hDemands
  exact (congrArg _ hOrder).trans hDemands

/-- Two evaluations with the same result for every line, and the same of everything else. -/
structure SameOutcome (outcome outcome' : Evaluation) : Prop where
  lines : resultFor outcome'.selection.lines = resultFor outcome.selection.lines
  order : outcome'.selection.order = outcome.selection.order
  demands : outcome'.selection.promotionCapacityDemands =
    outcome.selection.promotionCapacityDemands
  excluded : outcome'.capacityExcludedPromotionIds = outcome.capacityExcludedPromotionIds

/-- Evaluations agree when each of their passes does. -/
theorem SameOutcome.of_passes {input input' : PosEvalInput} {data data' : List Promotion}
    (hPass : ∀ excluded,
      SameOutcome ⟨passWithout input (loadCandidates input data) excluded, excluded⟩
        ⟨passWithout input' (loadCandidates input' data') excluded, excluded⟩)
    (hOverruns : ∀ excluded, overrunsWithout input' (loadCandidates input' data') excluded =
      overrunsWithout input (loadCandidates input data) excluded) :
    SameOutcome (Promotions.evaluate input data) (Promotions.evaluate input' data') := by
  obtain ⟨passes, final, hPasses⟩ := passes_end input (loadCandidates input data) []
  rw [evaluate_of_passes hPasses, evaluate_of_passes (hPasses.congr hOverruns)]
  exact { hPass final with excluded := rfl }

end

theorem Agrees.evaluate {data : List Promotion} {input input' : PosEvalInput}
    (h : Agrees (loadCandidates input data) input input') :
    SameOutcome (Promotions.evaluate input data) (Promotions.evaluate input' data) := by
  have hLoaded : loadCandidates input' data = loadCandidates input data := by
    rw [loadCandidates, loadCandidates, h.botEligibleOnly]
  have hPass := fun excluded => h.runEvaluationPass fun promo
    (hPromo : promo ∈ notExcluded (loadCandidates input data) excluded) =>
      List.mem_of_mem_filter hPromo
  refine .of_passes (fun excluded => ?_) fun excluded => ?_
  · rw [hLoaded]
    exact ⟨(hPass excluded).1, (hPass excluded).2.1, (hPass excluded).2.2, rfl⟩
  · unfold overrunsWithout findCapacityOverrunIds passWithout
    rw [hLoaded, (hPass excluded).2.2]

end Houndfe.Promotions
