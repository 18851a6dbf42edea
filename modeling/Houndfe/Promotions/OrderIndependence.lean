import Houndfe.Base.Ranking
import Houndfe.Promotions.Agreement
import Houndfe.Promotions.OrderBase

/-! The evaluation does not depend on the order of the promotions, nor on the order of the
lines: winners are kept by saving and id, rewards are allocated by id, and the rounds of the
capacity fallback exclude sets of ids. -/

namespace Houndfe.Promotions

open Keyed Ranking
open Houndfe.Sales (RewardKind)

/-! ### Winners -/

/-- More cents first, then the lower id. -/
def savingRank (cents : Int) (id : String) : Int ×ₗ String :=
  toLex (-cents, id)

theorem ranksHigher_eq (cents bestCents : Int) (id bestId : String) :
    ranksHigher cents id bestCents bestId =
      decide (savingRank cents id < savingRank bestCents bestId) := by
  rw [Bool.eq_iff_iff, decide_eq_true_eq, savingRank, savingRank, Prod.Lex.toLex_lt_toLex]
  simp only [ranksHigher, Bool.or_eq_true, Bool.and_eq_true, decide_eq_true_eq, neg_lt_neg_iff,
    neg_inj]

/-- Candidates that promotions with distinct ids make are told apart by these ids. -/
theorem ids_apart {γ : Type} {candidates : List Promotion} {make : Promotion → Option γ}
    {promotionOf : γ → Promotion} (hIds : (candidates.map Promotion.id).Nodup)
    (hMake : ∀ promo c, make promo = some c → promotionOf c = promo) :
    ∀ c ∈ candidates.filterMap make, ∀ d ∈ candidates.filterMap make, c ≠ d →
      (promotionOf c).id ≠ (promotionOf d).id := by
  intro c hC d hD hNe hSame
  obtain ⟨promo, hPromo, hMadeC⟩ := List.mem_filterMap.mp hC
  obtain ⟨other, hOther, hMadeD⟩ := List.mem_filterMap.mp hD
  rw [hMake promo c hMadeC, hMake other d hMadeD] at hSame
  cases List.inj_on_of_nodup_map hIds hPromo hOther hSame
  exact hNe (Option.some.inj (hMadeC.symm.trans hMadeD))

/-- Among candidates with different ids the best does not depend on their order. -/
theorem pickBest_ranksHigher_perm {γ : Type} {cents : γ → Int} {promotionOf : γ → Promotion}
    {xs ys : List γ} (hPerm : xs.Perm ys)
    (hApart : ∀ c ∈ xs, ∀ d ∈ xs, c ≠ d → (promotionOf c).id ≠ (promotionOf d).id) :
    pickBest (fun c best => ranksHigher (cents c) (promotionOf c).id (cents best)
        (promotionOf best).id) xs =
      pickBest (fun c best => ranksHigher (cents c) (promotionOf c).id (cents best)
        (promotionOf best).id) ys := by
  refine pickBest_perm (fun c => savingRank (cents c) (promotionOf c).id)
    (fun c d => ranksHigher_eq _ _ _ _) hPerm ?_
  intro c hC d hD hNe hRank
  exact hApart c hC d hD hNe (Prod.mk.inj (toLex.injective hRank)).2

theorem perLineCandidate_promotion {line : PosEvalLine} {input : PosEvalInput} {promo : Promotion}
    {winner : PerLineCandidate} (h : perLineCandidate line input promo = some winner) :
    winner.promotion = promo :=
  (perLineCandidate_eq_some h).1

theorem buyXGetYCandidate_promotion {line : PosEvalLine} {input : PosEvalInput} {promo : Promotion}
    {winner : RewardCandidate} (h : buyXGetYCandidate line input promo = some winner) :
    winner.promotion = promo :=
  (buyXGetYCandidate_eq_some h).1

theorem orderCandidate_promotion {input : PosEvalInput} {prePromo postLine : Int}
    {promo : Promotion} {winner : OrderCandidate}
    (h : orderCandidate input prePromo postLine promo = some winner) :
    winner.promotion = promo := by
  obtain ⟨_, h⟩ := Option.ite_none_right_eq_some.mp h
  obtain ⟨_, h⟩ := Option.ite_none_right_eq_some.mp h
  cases h
  rfl

section

variable {candidates candidates' : List Promotion} (input : PosEvalInput)

theorem pickBestPerLine_perm (hPerm : candidates.Perm candidates')
    (hIds : (candidates.map Promotion.id).Nodup) (line : PosEvalLine) :
    pickBestPerLine line candidates input = pickBestPerLine line candidates' input := by
  have hEligible := hPerm.filterMap (perLineCandidate line input)
  have hMost : ∀ start, (candidates.filterMap (perLineCandidate line input)).foldl
      (fun m c => max m c.tier.ordinal) start =
        (candidates'.filterMap (perLineCandidate line input)).foldl
          (fun m c => max m c.tier.ordinal) start := by
    apply hEligible.foldl_eq'
    intro c _ d _ most
    exact max_right_comm _ _ _
  unfold pickBestPerLine
  dsimp only
  rw [hMost]
  split
  · rfl
  · apply pickBest_ranksHigher_perm (hEligible.filter _)
    intro c hC d hD
    exact ids_apart hIds (fun _ _ => perLineCandidate_promotion) c (List.mem_of_mem_filter hC) d
      (List.mem_of_mem_filter hD)

theorem pickBestBuyXGetYPerLine_perm (hPerm : candidates.Perm candidates')
    (hIds : (candidates.map Promotion.id).Nodup) (line : PosEvalLine) :
    pickBestBuyXGetYPerLine line candidates input =
      pickBestBuyXGetYPerLine line candidates' input := by
  unfold pickBestBuyXGetYPerLine
  split
  · rfl
  · exact pickBest_ranksHigher_perm (hPerm.filterMap _)
      (ids_apart hIds fun _ _ => buyXGetYCandidate_promotion)

theorem pickBestOrderPromo_perm (hPerm : candidates.Perm candidates')
    (hIds : (candidates.map Promotion.id).Nodup) (prePromo postLine : Int) :
    pickBestOrderPromo candidates input prePromo postLine =
      pickBestOrderPromo candidates' input prePromo postLine := by
  unfold pickBestOrderPromo
  rw [pickBest_ranksHigher_perm (hPerm.filterMap _)
    (ids_apart hIds fun _ _ => orderCandidate_promotion)]

theorem productDiscountResults_perm (hPerm : candidates.Perm candidates')
    (hIds : (candidates.map Promotion.id).Nodup) :
    productDiscountResults input.lines candidates input =
      productDiscountResults input.lines candidates' input := by
  simp only [productDiscountResults, pickBestPerLine_perm input hPerm hIds]

theorem evaluateBuyXGetYPass_perm (hPerm : candidates.Perm candidates')
    (hIds : (candidates.map Promotion.id).Nodup) :
    evaluateBuyXGetYPass input.lines candidates input =
      evaluateBuyXGetYPass input.lines candidates' input := by
  funext lineResults
  have hStep : buyXGetYStep candidates input = buyXGetYStep candidates' input := by
    funext lineResults line
    simp only [buyXGetYStep, pickBestBuyXGetYPerLine_perm input hPerm hIds]
  rw [evaluateBuyXGetYPass, evaluateBuyXGetYPass, hStep]

end

/-! ### Advanced rewards -/

theorem allocateReward_itemIds (getDiscountPercent : Int) (candidateLines : List GetCandidateLine)
    (remaining : Int) :
    ((allocateReward getDiscountPercent candidateLines remaining).map
      AdvancedLineReward.itemId).Sublist (candidateLines.map GetCandidateLine.itemId) := by
  induction candidateLines generalizing remaining with
  | nil => exact List.Sublist.refl _
  | cons line rest ih =>
      unfold allocateReward
      dsimp only
      split
      · exact List.nil_sublist _
      · split
        · exact (ih remaining).cons _
        · exact (ih _).cons_cons _

/-- A promotion rewards a line at most once. -/
theorem advancedRewards_itemIds {input : PosEvalInput}
    (hKeys : (input.lines.map PosEvalLine.itemId).Nodup) (promo : Promotion) :
    ((advancedRewards input.lines input promo).map AdvancedLineReward.itemId).Nodup := by
  have hLineIds : (((getLines promo input.lines).map PosEvalLine.toGetCandidate).map
      GetCandidateLine.itemId).Nodup := by
    rw [List.map_map]
    exact (List.filter_sublist.map _).nodup hKeys
  have hSortedIds : ((sortByKey GetCandidateLine.itemId
      ((getLines promo input.lines).map PosEvalLine.toGetCandidate)).map
        GetCandidateLine.itemId).Nodup :=
    ((sortByKey_perm _ _).map _).nodup_iff.mpr hLineIds
  unfold advancedRewards
  split
  · split
    · unfold computeAdvancedReward
      dsimp only
      split
      · exact List.nodup_nil
      · exact (allocateReward_itemIds _ _ _).nodup hSortedIds
    · exact List.nodup_nil
  · exact List.nodup_nil

/-- What the result of a line saves it in all, and under which id; no result comes last. -/
def resultRank (line : PosEvalLine) (result : Option PosEvalLineResult) : Int ×ₗ WithTop String :=
  toLex (-existingLineResultTotalCents line result,
    match result with
    | none => ⊤
    | some result => (result.promotionId : WithTop String))

theorem replacesExisting_eq (line : PosEvalLine) (existing : Option PosEvalLineResult)
    (kind : RewardKind) (reward : PosEvalRewardLineResult) :
    replacesExisting line existing reward.lineDiscountCents reward.promotionId =
      decide (resultRank line (some (.reward kind reward)) < resultRank line existing) := by
  have hTotal : existingLineResultTotalCents line (some (.reward kind reward)) =
      reward.lineDiscountCents := rfl
  unfold resultRank
  rw [Bool.eq_iff_iff, decide_eq_true_eq, Prod.Lex.toLex_lt_toLex, hTotal]
  simp only [replacesExisting, Bool.or_eq_true, Bool.and_eq_true, decide_eq_true_eq,
    neg_lt_neg_iff, neg_inj]
  cases existing with
  | none => simp
  | some existing => simp [PosEvalLineResult.promotionId]

/-- The result that a promotion offers to a line of the cart. -/
def advancedOffer (input : PosEvalInput) (line : PosEvalLine) (promo : Promotion) :
    Option (Option PosEvalLineResult) :=
  match lookup AdvancedLineReward.itemId (advancedRewards input.lines input promo) line.itemId with
  | none => none
  | some reward =>
      if 0 < reward.lineDiscountCents then some (some (reward.toLineResult promo)) else none

section

variable {input : PosEvalInput}

/-- A promotion keeps the result of a line, or puts its own there when that ranks higher. -/
theorem resultFor_advancedStep (hKeys : (input.lines.map PosEvalLine.itemId).Nodup)
    {line : PosEvalLine} (hLine : line ∈ input.lines) (lineResults : List PosEvalLineResult)
    (promo : Promotion) :
    resultFor (advancedStep input.lines input lineResults promo) line.itemId =
      keepOffer (resultRank line) (advancedOffer input line)
        (resultFor lineResults line.itemId) promo := by
  unfold advancedStep resultFor
  rw [lookup_foldl (advancedRewardStep_local input.lines promo)
    (advancedRewards_itemIds hKeys promo)]
  unfold keepOffer advancedOffer
  cases hReward : lookup AdvancedLineReward.itemId (advancedRewards input.lines input promo)
      line.itemId with
  | none => rfl
  | some reward =>
      have hItem := (lookup_eq_some hReward).2
      have hTarget : lookup PosEvalLine.itemId input.lines reward.itemId = some line := by
        rw [hItem]
        exact lookup_of_mem hKeys hLine
      have hReplaces : replacesExisting line (lookup PosEvalLineResult.itemId lineResults line.itemId)
          reward.lineDiscountCents promo.id = _ :=
        replacesExisting_eq line _ .advanced ⟨reward.itemId, promo.id, promo.title,
          reward.lineDiscountCents, reward.perUnitRewardCents, reward.discountedUnitCount,
          promo.getDiscountPercent.getD 0⟩
      simp only [advancedRule, hTarget, keep, hReplaces, decide_eq_true_eq,
        AdvancedLineReward.toLineResult]
      by_cases hSaves : 0 < reward.lineDiscountCents
      · simp [hSaves]
      · simp [hSaves]

theorem resultFor_evaluateAdvancedPass (hKeys : (input.lines.map PosEvalLine.itemId).Nodup)
    {line : PosEvalLine} (hLine : line ∈ input.lines) (candidates : List Promotion)
    (lineResults : List PosEvalLineResult) :
    resultFor (evaluateAdvancedPass input.lines candidates input lineResults) line.itemId =
      candidates.foldl (keepOffer (resultRank line) (advancedOffer input line))
        (resultFor lineResults line.itemId) := by
  unfold evaluateAdvancedPass
  induction candidates generalizing lineResults with
  | nil => rfl
  | cons promo rest ih =>
      rw [List.foldl_cons, List.foldl_cons, ih, resultFor_advancedStep hKeys hLine]

theorem advancedOffer_promotionId {line : PosEvalLine} {promo : Promotion}
    {offered : Option PosEvalLineResult} (h : advancedOffer input line promo = some offered) :
    ∃ result, offered = some result ∧ result.promotionId = promo.id := by
  unfold advancedOffer at h
  split at h
  · cases h
  · obtain ⟨_, h⟩ := Option.ite_none_right_eq_some.mp h
    cases h
    exact ⟨_, rfl, rfl⟩

theorem advancedOffers_apart {candidates : List Promotion}
    (hIds : (candidates.map Promotion.id).Nodup) (line : PosEvalLine) :
    Apart (resultRank line) (advancedOffer input line) candidates := by
  intro promo hPromo other hOther hNe offered hOffered offered' hOffered' hRank
  obtain ⟨result, rfl, hId⟩ := advancedOffer_promotionId hOffered
  obtain ⟨result', rfl, hId'⟩ := advancedOffer_promotionId hOffered'
  have hResults : (result.promotionId : WithTop String) = result'.promotionId :=
    (Prod.mk.inj (toLex.injective hRank)).2
  rw [hId, hId'] at hResults
  exact hNe (List.inj_on_of_nodup_map hIds hPromo hOther (WithTop.coe_injective hResults))

theorem evaluateLines_perm {candidates candidates' : List Promotion}
    (hKeys : (input.lines.map PosEvalLine.itemId).Nodup) (hPerm : candidates.Perm candidates')
    (hIds : (candidates.map Promotion.id).Nodup) :
    (evaluateLines input candidates).Perm (evaluateLines input candidates') := by
  have hOffCart : ∀ candidates itemId, (∀ line ∈ input.lines, line.itemId ≠ itemId) →
      resultFor (evaluateLines input candidates) itemId = none := by
    intro candidates itemId hNone
    apply lookup_eq_none.mpr
    intro result hResult hItem
    obtain ⟨line, hLine, _, _, hRanked⟩ := (evaluateLines_sound hKeys).ranked result hResult
    exact hNone line hLine (hRanked.itemId_eq.symm.trans hItem)
  apply perm_of_lookup_eq (evaluateLines_sound hKeys).keys (evaluateLines_sound hKeys).keys
  funext itemId
  by_cases hOnCart : ∃ line ∈ input.lines, line.itemId = itemId
  · obtain ⟨line, hLine, rfl⟩ := hOnCart
    have hBefore := congrFun (evaluateBuyXGetYPass_perm input hPerm hIds)
      (productDiscountResults input.lines candidates input)
    have hHere := resultFor_evaluateAdvancedPass hKeys hLine
    change resultFor (evaluateLines input candidates) line.itemId =
      resultFor (evaluateLines input candidates') line.itemId
    rw [evaluateLines, evaluateLines, hHere, hHere, ← productDiscountResults_perm input hPerm hIds,
      ← hBefore]
    exact foldl_keepOffer_perm hPerm (advancedOffers_apart hIds line) _
  · have hNone : ∀ line ∈ input.lines, line.itemId ≠ itemId :=
      fun line hLine hItem => hOnCart ⟨line, hLine, hItem⟩
    exact (hOffCart candidates itemId hNone).trans (hOffCart candidates' itemId hNone).symm

end

/-! ### Passes and rounds -/

section

variable {input : PosEvalInput} {candidates candidates' : List Promotion}

theorem agrees_of_lines {lines' : List PosEvalLine} (data : List Promotion)
    (hKeys : (input.lines.map PosEvalLine.itemId).Nodup) (hLines : input.lines.Perm lines') :
    Agrees data input { input with lines := lines' } :=
  ⟨rfl, rfl, rfl, rfl, rfl, hLines, hKeys, fun _ => Iff.rfl, fun _ _ _ _ _ => Iff.rfl⟩

theorem runEvaluationPass_perm (hKeys : (input.lines.map PosEvalLine.itemId).Nodup)
    (hPerm : candidates.Perm candidates') (hIds : (candidates.map Promotion.id).Nodup) :
    resultFor (runEvaluationPass input candidates').lines =
        resultFor (runEvaluationPass input candidates).lines ∧
      (runEvaluationPass input candidates').order = (runEvaluationPass input candidates).order ∧
      (runEvaluationPass input candidates').promotionCapacityDemands =
        (runEvaluationPass input candidates).promotionCapacityDemands := by
  have hResults := evaluateLines_perm hKeys hPerm hIds
  have hLines : resultFor (evaluateLines input candidates') =
      resultFor (evaluateLines input candidates) :=
    (lookup_perm (evaluateLines_sound hKeys).keys hResults).symm
  have hOrder : (runEvaluationPass input candidates').order =
      (runEvaluationPass input candidates).order := by
    dsimp only [runEvaluationPass]
    rw [postLineSubtotalCents, hLines, ← pickBestOrderPromo_perm input hPerm hIds]
    rfl
  have hSame : Agrees candidates input input := agrees_of_lines candidates hKeys (.refl _)
  have hDemands := hSame.capacityDemands hResults (runEvaluationPass input candidates').order
  rw [hOrder] at hDemands
  exact ⟨hLines, hOrder, (congrArg _ hOrder).trans hDemands⟩

theorem findCapacityOverrunIds_perm {pass pass' : Selection}
    (hPerm : candidates.Perm candidates') (hIds : (candidates.map Promotion.id).Nodup)
    (hDemands : pass'.promotionCapacityDemands = pass.promotionCapacityDemands) :
    findCapacityOverrunIds candidates' pass' = findCapacityOverrunIds candidates pass := by
  have hReversed : (candidates.reverse.map Promotion.id).Nodup := by
    simpa using hIds
  have hLookup : lookup Promotion.id candidates.reverse = lookup Promotion.id candidates'.reverse :=
    lookup_perm hReversed ((List.reverse_perm _).trans (hPerm.trans (List.reverse_perm _).symm))
  unfold findCapacityOverrunIds
  rw [hDemands, hLookup]

theorem loadCandidates_perm {data data' : List Promotion} (hPerm : data.Perm data') :
    (loadCandidates input data).Perm (loadCandidates input data') := by
  unfold loadCandidates
  split
  · exact hPerm.filter _
  · exact hPerm

theorem evaluate_perm {data data' : List Promotion}
    (hKeys : (input.lines.map PosEvalLine.itemId).Nodup) (hPerm : data.Perm data')
    (hIds : (data.map Promotion.id).Nodup) :
    SameOutcome (evaluate input data) (evaluate input data') := by
  have hLeft : ∀ excluded, (notExcluded (loadCandidates input data) excluded).Perm
      (notExcluded (loadCandidates input data') excluded) :=
    fun _ => (loadCandidates_perm hPerm).filter _
  have hLeftIds : ∀ excluded,
      ((notExcluded (loadCandidates input data) excluded).map Promotion.id).Nodup :=
    fun _ => (List.filter_sublist.map _).nodup (nodup_loadCandidates hIds)
  have hPass := fun excluded => runEvaluationPass_perm hKeys (hLeft excluded) (hLeftIds excluded)
  exact .of_passes (fun excluded => ⟨(hPass excluded).1, (hPass excluded).2.1,
    (hPass excluded).2.2, rfl⟩) fun excluded =>
      findCapacityOverrunIds_perm (hLeft excluded) (hLeftIds excluded) (hPass excluded).2.2

end

/-! ### The manual promotions -/

/-- Two answers with the same contents. -/
structure SameResult (result result' : PosEvalResult) : Prop where
  lines : result.lines.Perm result'.lines
  order : result'.order = result.order
  available : result.availableManualPromotions.Perm result'.availableManualPromotions
  targetable : result.targetableManualPromotionIds.Perm result'.targetableManualPromotionIds
  demands : result'.promotionCapacityDemands = result.promotionCapacityDemands
  excluded : result'.capacityExcludedPromotionIds = result.capacityExcludedPromotionIds

theorem SameResult.trans {first second third : PosEvalResult} (h : SameResult first second)
    (h' : SameResult second third) : SameResult first third :=
  ⟨h.lines.trans h'.lines, h'.order.trans h.order, h.available.trans h'.available,
    h.targetable.trans h'.targetable, h'.demands.trans h.demands, h'.excluded.trans h.excluded⟩

section

variable {input : PosEvalInput}

theorem selectedDemand_perm {loaded loaded' : List Promotion}
    (hKeys : (input.lines.map PosEvalLine.itemId).Nodup) (hPerm : loaded.Perm loaded')
    (hIds : (loaded.map Promotion.id).Nodup) (promotionId : String) (excluded : List String) :
    computeManualCandidateSelectedDemand promotionId input loaded' excluded =
      computeManualCandidateSelectedDemand promotionId input loaded excluded := by
  have hLeft : (notExcluded loaded excluded).Perm (notExcluded loaded' excluded) := hPerm.filter _
  have hLeftIds : ((notExcluded loaded excluded).map Promotion.id).Nodup :=
    (List.filter_sublist.map _).nodup hIds
  have hNested : (({ input with optedInManualPromotionIds :=
      input.optedInManualPromotionIds ++ [promotionId] } : PosEvalInput).lines.map
        PosEvalLine.itemId).Nodup := hKeys
  unfold computeManualCandidateSelectedDemand
  dsimp only
  rw [(runEvaluationPass_perm hNested hLeft hLeftIds).2.2]

theorem selectedDemand_lines {lines' : List PosEvalLine} {loaded : List Promotion}
    (hKeys : (input.lines.map PosEvalLine.itemId).Nodup) (hLines : input.lines.Perm lines')
    (promotionId : String) (excluded : List String) :
    computeManualCandidateSelectedDemand promotionId { input with lines := lines' } loaded
        excluded =
      computeManualCandidateSelectedDemand promotionId input loaded excluded := by
  have hNested : (({ input with optedInManualPromotionIds :=
      input.optedInManualPromotionIds ++ [promotionId] } : PosEvalInput).lines.map
        PosEvalLine.itemId).Nodup := hKeys
  have hSame := (agrees_of_lines (notExcluded loaded excluded) hNested hLines).runEvaluationPass
    fun promo hPromo => hPromo
  unfold computeManualCandidateSelectedDemand
  dsimp only
  rw [← hSame.2.2]

theorem any_matchesLine_perm {lines lines' : List PosEvalLine} (hLines : lines.Perm lines')
    (promo : Promotion) : lines'.any (matchesLine promo) = lines.any (matchesLine promo) := by
  rw [Bool.eq_iff_iff, List.any_eq_true, List.any_eq_true]
  exact exists_congr fun line => and_congr_left' hLines.mem_iff.symm

theorem maxMatchQty_perm {lines lines' : List PosEvalLine} (hLines : lines.Perm lines')
    (promo : Promotion) : maxMatchQty promo lines' = maxMatchQty promo lines := by
  unfold maxMatchQty
  symm
  apply hLines.foldl_eq'
  intro x _ y _ most
  split
  · split
    · exact max_right_comm _ _ _
    · rfl
  · rfl

theorem manualCandidate_lines {lines' : List PosEvalLine} {loaded : List Promotion}
    (hKeys : (input.lines.map PosEvalLine.itemId).Nodup) (hLines : input.lines.Perm lines')
    (excluded : List String) :
    manualCandidate { input with lines := lines' } loaded excluded =
      manualCandidate input loaded excluded := by
  funext promo
  have hGates : passesPromotionWideGates promo { input with lines := lines' } =
      passesPromotionWideGates promo input := rfl
  have hSurfaced : isSurfaced promo lines' = isSurfaced promo input.lines := by
    simp only [isSurfaced, any_matchesLine_perm hLines]
  have hCandidate : toManualCandidate promo lines' = toManualCandidate promo input.lines := by
    simp only [toManualCandidate, maxMatchQty_perm hLines]
  unfold manualCandidate
  dsimp only
  rw [hGates, hSurfaced, hCandidate, selectedDemand_lines hKeys hLines]

theorem hasTargetInCart_perm {lines lines' : List PosEvalLine} (hLines : lines.Perm lines')
    (promo : Promotion) : hasTargetInCart promo lines' = hasTargetInCart promo lines := by
  have hAny := any_matchesLine_perm hLines promo
  unfold matchesLine at hAny
  simp only [hasTargetInCart, hAny]

theorem sameResult_of_promotions {data data' : List Promotion}
    (hKeys : (input.lines.map PosEvalLine.itemId).Nodup) (hPerm : data.Perm data')
    (hIds : (data.map Promotion.id).Nodup) :
    SameResult (evaluateResult input data) (evaluateResult input data') := by
  have hSame := evaluate_perm hKeys hPerm hIds
  have hLoaded : (loadCandidates input data).Perm (loadCandidates input data') :=
    loadCandidates_perm hPerm
  have hLoadedIds := @nodup_loadCandidates input data hIds
  have hCandidate : ∀ excluded, manualCandidate input (loadCandidates input data') excluded =
      manualCandidate input (loadCandidates input data) excluded := by
    intro excluded
    funext promo
    simp only [manualCandidate, selectedDemand_perm hKeys hLoaded hLoadedIds]
  refine ⟨?_, hSame.order, ?_, (hLoaded.filter _).map _, hSame.demands, hSame.excluded⟩
  · exact perm_of_lookup_eq (evaluate_sound data hKeys).keys (evaluate_sound data' hKeys).keys
      hSame.lines.symm
  · dsimp only [evaluateResult, availableManualPromotions]
    rw [hSame.excluded, hCandidate]
    exact (hLoaded.filter _).filterMap _

theorem sameResult_of_lines {lines' : List PosEvalLine} (data : List Promotion)
    (hKeys : (input.lines.map PosEvalLine.itemId).Nodup) (hLines : input.lines.Perm lines') :
    SameResult (evaluateResult input data) (evaluateResult { input with lines := lines' } data) := by
  have hSame := (agrees_of_lines (loadCandidates input data) hKeys hLines).evaluate
  have hKeys' : (({ input with lines := lines' } : PosEvalInput).lines.map
      PosEvalLine.itemId).Nodup := (hLines.map _).nodup hKeys
  have hLoaded : loadCandidates { input with lines := lines' } data = loadCandidates input data :=
    rfl
  refine ⟨?_, hSame.order, ?_, ?_, hSame.demands, hSame.excluded⟩
  · exact perm_of_lookup_eq (evaluate_sound data hKeys).keys (evaluate_sound data hKeys').keys
      hSame.lines.symm
  · dsimp only [evaluateResult, availableManualPromotions]
    rw [hSame.excluded, hLoaded, manualCandidate_lines hKeys hLines]
  · dsimp only [evaluateResult, targetableManualPromotionIds]
    rw [hLoaded]
    simp only [hasTargetInCart_perm hLines]
    exact List.Perm.refl _

end

/-- For every cart and all candidates: whatever the order of the promotions and of the lines,
every line gets the same result, the order gets the same, and the demands, the exclusions and
the manual promotions are the same. -/
theorem order_independence {input : PosEvalInput} {lines' : List PosEvalLine}
    {data data' : List Promotion} (hIds : (data.map Promotion.id).Nodup)
    (hKeys : (input.lines.map PosEvalLine.itemId).Nodup) (hPromotions : data.Perm data')
    (hLines : input.lines.Perm lines') :
    SameResult (evaluateResult input data) (evaluateResult { input with lines := lines' } data') :=
  (sameResult_of_promotions hKeys hPromotions hIds).trans
    (sameResult_of_lines data' hKeys hLines)

/-- Two lines of one product. -/
def pairCart : PosEvalInput :=
  { sampleCart 2 with lines := ["first", "second"].map fun itemId =>
      ⟨itemId, "product", none, 2, 1000, none, none, none, false⟩ }

/-- Two discounts that tie, and one on the order. -/
def tiedPromotions : List Promotion :=
  [samplePromotion "one" .productDiscount 100 none, samplePromotion "other" .productDiscount 100 none,
    samplePromotion "order" .orderDiscount 500 none]

theorem order_independence_of_tied_promotions :
    SameResult (evaluateResult pairCart tiedPromotions)
      (evaluateResult { pairCart with lines := pairCart.lines.reverse } tiedPromotions.reverse) :=
  order_independence (by decide) (by decide) (List.reverse_perm _).symm (List.reverse_perm _).symm

end Houndfe.Promotions
