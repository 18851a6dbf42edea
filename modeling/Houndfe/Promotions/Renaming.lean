import Houndfe.Promotions.Selection

/-! The ids of the lines. The engine compares them, and it sorts the lines that an advanced
promotion rewards by them; for the rest it selects the same whatever the ids are. -/

namespace Houndfe.Promotions

open Keyed Renaming

namespace PosEvalLine

def rename (f : String → String) (line : PosEvalLine) : PosEvalLine :=
  { line with itemId := f line.itemId }

theorem renames (f : String → String) : Renames PosEvalLine.itemId f (rename f) :=
  fun _ => rfl

end PosEvalLine

namespace PosEvalLineResult

def rename (f : String → String) : PosEvalLineResult → PosEvalLineResult
  | .perUnit result => .perUnit { result with itemId := f result.itemId }
  | .reward kind result => .reward kind { result with itemId := f result.itemId }

theorem renames (f : String → String) : Renames PosEvalLineResult.itemId f (rename f)
  | .perUnit _ => rfl
  | .reward _ _ => rfl

@[simp] theorem promotionId_rename (f : String → String) :
    ∀ result : PosEvalLineResult, (result.rename f).promotionId = result.promotionId
  | .perUnit _ => rfl
  | .reward _ _ => rfl

end PosEvalLineResult

def GetCandidateLine.rename (f : String → String) (line : GetCandidateLine) : GetCandidateLine :=
  { line with itemId := f line.itemId }

def AdvancedLineReward.rename (f : String → String) (reward : AdvancedLineReward) :
    AdvancedLineReward :=
  { reward with itemId := f reward.itemId }

def PosEvalInput.rename (f : String → String) (input : PosEvalInput) : PosEvalInput :=
  { input with lines := input.lines.map (PosEvalLine.rename f) }

def Selection.rename (f : String → String) (pass : Selection) : Selection :=
  { pass with lines := pass.lines.map (PosEvalLineResult.rename f) }

/-- The lines that the promotion would reward come in the same order after the renaming. -/
def RewardsAlike (f : String → String) (lines : List PosEvalLine) (promo : Promotion) : Prop :=
  promo.type = .advanced → KeepsOrder PosEvalLine.itemId f (getLines promo lines)

section

variable {f : String → String} {input : PosEvalInput} {candidates : List Promotion}
  {lineResults : List PosEvalLineResult}

/-! ### Lines -/

theorem computeAppliedDiscountCents_rename (line : PosEvalLine) (result : PosEvalLineResult) :
    computeAppliedDiscountCents (line.rename f) (result.rename f) =
      computeAppliedDiscountCents line result := by
  cases result <;> rfl

theorem toLineResult_rename (itemId : String) (winner : PerLineCandidate) :
    toLineResult (f itemId) winner = (toLineResult itemId winner).rename f := by
  unfold toLineResult
  dsimp only
  split <;> rfl

theorem productDiscountResults_rename :
    productDiscountResults (input.rename f).lines candidates (input.rename f) =
      (productDiscountResults input.lines candidates input).map (PosEvalLineResult.rename f) := by
  unfold productDiscountResults
  change (input.lines.map (PosEvalLine.rename f)).filterMap _ = _
  rw [List.filterMap_map, List.map_filterMap]
  apply List.filterMap_congr
  intro line _
  show (pickBestPerLine line candidates input).map (toLineResult (f line.itemId)) = _
  rw [Option.map_map]
  congr 1
  funext winner
  exact toLineResult_rename line.itemId winner

theorem resultFor_rename (hInjective : f.Injective) (itemId : String) :
    resultFor (lineResults.map (PosEvalLineResult.rename f)) (f itemId) =
      (resultFor lineResults itemId).map (PosEvalLineResult.rename f) :=
  lookup_map hInjective (PosEvalLineResult.renames f) lineResults itemId

theorem existingLineResultTotalCents_rename (line : PosEvalLine)
    (existing : Option PosEvalLineResult) :
    existingLineResultTotalCents (line.rename f) (existing.map (PosEvalLineResult.rename f)) =
      existingLineResultTotalCents line existing := by
  rcases existing with _ | result
  · rfl
  · cases result <;> rfl

theorem replacesExisting_rename (line : PosEvalLine) (existing : Option PosEvalLineResult)
    (lineDiscountCents : Int) (promotionId : String) :
    replacesExisting (line.rename f) (existing.map (PosEvalLineResult.rename f))
        lineDiscountCents promotionId =
      replacesExisting line existing lineDiscountCents promotionId := by
  unfold replacesExisting
  rw [existingLineResultTotalCents_rename]
  cases existing with
  | none => rfl
  | some result => simp

theorem notBuyXGetY_rename (existing : Option PosEvalLineResult) :
    notBuyXGetY (existing.map (PosEvalLineResult.rename f)) =
      (notBuyXGetY existing).map (PosEvalLineResult.rename f) := by
  rcases existing with _ | ⟨result⟩ | ⟨kind, result⟩
  · rfl
  · rfl
  · cases kind <;> rfl

theorem buyXGetYStep_rename (hInjective : f.Injective) (line : PosEvalLine) :
    buyXGetYStep candidates (input.rename f) (lineResults.map (PosEvalLineResult.rename f))
        (line.rename f) =
      (buyXGetYStep candidates input lineResults line).map (PosEvalLineResult.rename f) := by
  unfold buyXGetYStep
  have hPick : pickBestBuyXGetYPerLine (line.rename f) candidates (input.rename f) =
      pickBestBuyXGetYPerLine line candidates input := rfl
  rw [hPick]
  cases pickBestBuyXGetYPerLine line candidates input with
  | none => rfl
  | some winner =>
      dsimp only
      change (if replacesExisting (line.rename f) (notBuyXGetY (resultFor _ (f line.itemId))) _ _
        then upsert _ ((winner.toLineResult line.itemId).rename f) _ else _) = _
      rw [resultFor_rename hInjective, notBuyXGetY_rename, replacesExisting_rename,
        upsert_map hInjective (PosEvalLineResult.renames f)]
      split <;> rfl

theorem evaluateBuyXGetYPass_rename (hInjective : f.Injective) (lines : List PosEvalLine) :
    evaluateBuyXGetYPass (lines.map (PosEvalLine.rename f)) candidates (input.rename f)
        (lineResults.map (PosEvalLineResult.rename f)) =
      (evaluateBuyXGetYPass lines candidates input lineResults).map
        (PosEvalLineResult.rename f) := by
  unfold evaluateBuyXGetYPass
  induction lines generalizing lineResults with
  | nil => rfl
  | cons line rest ih =>
      rw [List.map_cons, List.foldl_cons, List.foldl_cons, buyXGetYStep_rename hInjective, ih]

/-! ### Advanced rewards -/

theorem buyLines_rename (promo : Promotion) (lines : List PosEvalLine) :
    buyLines promo (lines.map (PosEvalLine.rename f)) =
      (buyLines promo lines).map (PosEvalLine.rename f) := by
  unfold buyLines
  rw [List.filter_map]
  rfl

theorem getLines_rename (hInjective : f.Injective) (promo : Promotion)
    (lines : List PosEvalLine) :
    getLines promo (lines.map (PosEvalLine.rename f)) =
      (getLines promo lines).map (PosEvalLine.rename f) := by
  unfold getLines
  rw [List.filter_map, buyLines_rename, map_key (PosEvalLine.renames f)]
  congr 1
  apply List.filter_congr
  intro line _
  show (isSideLine promo .get line && !(List.map f _).contains (f line.itemId)) = _
  rw [contains_map hInjective]

theorem allocateReward_rename (getDiscountPercent : Int) (lines : List GetCandidateLine)
    (remaining : Int) :
    allocateReward getDiscountPercent (lines.map (GetCandidateLine.rename f)) remaining =
      (allocateReward getDiscountPercent lines remaining).map (AdvancedLineReward.rename f) := by
  induction lines generalizing remaining with
  | nil => rfl
  | cons line rest ih =>
      have hUnits : (line.rename f).quantity = line.quantity := rfl
      rw [List.map_cons, allocateReward, allocateReward, hUnits]
      by_cases hDrained : remaining ≤ 0
      · simp [hDrained]
      · by_cases hNone : min line.quantity remaining ≤ 0
        · simp only [hDrained, hNone, if_true, if_false]
          exact ih remaining
        · simp only [hDrained, hNone, if_false, List.map_cons]
          congr 1
          exact ih _

theorem advancedRewards_rename (hInjective : f.Injective) {promo : Promotion}
    (hAlike : RewardsAlike f input.lines promo) :
    advancedRewards (input.rename f).lines (input.rename f) promo =
      (advancedRewards input.lines input promo).map (AdvancedLineReward.rename f) := by
  unfold advancedRewards
  change (if promo.type = .advanced && promo.method = .automatic &&
    !input.vetoedPromotionIds.contains promo.id && passesPromotionWideGates promo input
      then _ else _) = _
  split
  · next hGates =>
      have hAdvanced : promo.type = .advanced := by
        simp only [Bool.and_eq_true, decide_eq_true_eq] at hGates
        exact hGates.1.1.1
      have hBuy : ((buyLines promo (input.rename f).lines).map PosEvalLine.quantity).sum =
          ((buyLines promo input.lines).map PosEvalLine.quantity).sum := by
        show ((buyLines promo (input.lines.map (PosEvalLine.rename f))).map
          PosEvalLine.quantity).sum = _
        rw [buyLines_rename, List.map_map]
        rfl
      have hGet : (getLines promo (input.rename f).lines).map PosEvalLine.toGetCandidate =
          ((getLines promo input.lines).map PosEvalLine.toGetCandidate).map
            (GetCandidateLine.rename f) := by
        show (getLines promo (input.lines.map (PosEvalLine.rename f))).map _ = _
        rw [getLines_rename hInjective, List.map_map, List.map_map]
        rfl
      have hSorted : KeepsOrder GetCandidateLine.itemId f
          ((getLines promo input.lines).map PosEvalLine.toGetCandidate) := by
        intro row hRow other hOther
        obtain ⟨line, hLine, rfl⟩ := List.mem_map.mp hRow
        obtain ⟨otherLine, hOtherLine, rfl⟩ := List.mem_map.mp hOther
        exact hAlike hAdvanced line hLine otherLine hOtherLine
      rw [hBuy, hGet]
      split
      · unfold computeAdvancedReward
        dsimp only
        split
        · rfl
        · have hRenames : Renames GetCandidateLine.itemId f (GetCandidateLine.rename f) :=
            fun _ => rfl
          rw [sortByKey_map hRenames hSorted, allocateReward_rename]
      · rfl
  · rfl

theorem advancedRewardStep_rename (hInjective : f.Injective) (lines : List PosEvalLine)
    (promo : Promotion) (reward : AdvancedLineReward) :
    advancedRewardStep (lines.map (PosEvalLine.rename f)) promo
        (lineResults.map (PosEvalLineResult.rename f)) (reward.rename f) =
      (advancedRewardStep lines promo lineResults reward).map (PosEvalLineResult.rename f) := by
  unfold advancedRewardStep
  have hItem : (reward.rename f).itemId = f reward.itemId := rfl
  rw [hItem, lookup_map hInjective (PosEvalLine.renames f)]
  cases lookup PosEvalLine.itemId lines reward.itemId with
  | none => rfl
  | some targetLine =>
      dsimp only [Option.map_some]
      change (if 0 < reward.lineDiscountCents ∧ replacesExisting (targetLine.rename f)
        (resultFor _ (f reward.itemId)) reward.lineDiscountCents promo.id = true
          then upsert _ ((reward.toLineResult promo).rename f) _ else _) = _
      rw [resultFor_rename hInjective, replacesExisting_rename,
        upsert_map hInjective (PosEvalLineResult.renames f)]
      split <;> rfl

theorem advancedStep_rename (hInjective : f.Injective) {promo : Promotion}
    (hAlike : RewardsAlike f input.lines promo) :
    advancedStep (input.rename f).lines (input.rename f)
        (lineResults.map (PosEvalLineResult.rename f)) promo =
      (advancedStep input.lines input lineResults promo).map (PosEvalLineResult.rename f) := by
  unfold advancedStep
  rw [advancedRewards_rename hInjective hAlike]
  induction advancedRewards input.lines input promo generalizing lineResults with
  | nil => rfl
  | cons reward rest ih =>
      rw [List.map_cons, List.foldl_cons, List.foldl_cons]
      change List.foldl _ (advancedRewardStep (input.lines.map (PosEvalLine.rename f)) _ _ _) _ = _
      rw [advancedRewardStep_rename hInjective]
      exact ih

theorem evaluateAdvancedPass_rename (hInjective : f.Injective)
    (hAlike : ∀ promo ∈ candidates, RewardsAlike f input.lines promo) :
    evaluateAdvancedPass (input.rename f).lines candidates (input.rename f)
        (lineResults.map (PosEvalLineResult.rename f)) =
      (evaluateAdvancedPass input.lines candidates input lineResults).map
        (PosEvalLineResult.rename f) := by
  unfold evaluateAdvancedPass
  induction candidates generalizing lineResults with
  | nil => rfl
  | cons promo rest ih =>
      obtain ⟨hFirst, hRest⟩ := List.forall_mem_cons.mp hAlike
      rw [List.foldl_cons, List.foldl_cons, advancedStep_rename hInjective hFirst]
      exact ih hRest

theorem evaluateLines_rename (hInjective : f.Injective)
    (hAlike : ∀ promo ∈ candidates, RewardsAlike f input.lines promo) :
    evaluateLines (input.rename f) candidates =
      (evaluateLines input candidates).map (PosEvalLineResult.rename f) := by
  unfold evaluateLines
  rw [productDiscountResults_rename]
  change evaluateAdvancedPass _ _ _ (evaluateBuyXGetYPass (input.lines.map _) _ _ _) = _
  rw [evaluateBuyXGetYPass_rename hInjective, evaluateAdvancedPass_rename hInjective hAlike]

/-! ### The order, the units and the rounds -/

theorem postLineSubtotalCents_rename (hInjective : f.Injective) (lines : List PosEvalLine) :
    postLineSubtotalCents (lines.map (PosEvalLine.rename f))
        (lineResults.map (PosEvalLineResult.rename f)) =
      postLineSubtotalCents lines lineResults := by
  unfold postLineSubtotalCents
  rw [List.map_map]
  congr 1
  apply List.map_congr_left
  intro line _
  have hItem : (line.rename f).itemId = f line.itemId := rfl
  dsimp only [Function.comp_apply]
  rw [hItem, resultFor_rename hInjective]
  cases resultFor lineResults line.itemId with
  | none => rfl
  | some result =>
      dsimp only [Option.map_some]
      rw [computeAppliedDiscountCents_rename]
      rfl

theorem prePromoSubtotalCents_rename (lines : List PosEvalLine) :
    prePromoSubtotalCents (lines.map (PosEvalLine.rename f)) = prePromoSubtotalCents lines := by
  unfold prePromoSubtotalCents
  rw [List.map_map]
  rfl

theorem pickBestOrderPromo_rename (preCents postCents : Int) :
    pickBestOrderPromo candidates (input.rename f) preCents postCents =
      pickBestOrderPromo candidates input preCents postCents := by
  have hCandidate : orderCandidate (input.rename f) preCents postCents =
      orderCandidate input preCents postCents := by
    funext promo
    have hLists : (input.rename f).lines.all (matchesPriceList promo) =
        input.lines.all (matchesPriceList promo) := by
      show (input.lines.map (PosEvalLine.rename f)).all _ = _
      rw [List.all_map]
      rfl
    unfold orderCandidate
    rw [hLists]
    rfl
  unfold pickBestOrderPromo
  rw [hCandidate]

theorem demandEntries_rename (hInjective : f.Injective) (lines : List PosEvalLine)
    (orderResult : Option PosEvalOrderResult) :
    demandEntries (lines.map (PosEvalLine.rename f))
        (lineResults.map (PosEvalLineResult.rename f)) orderResult =
      demandEntries lines lineResults orderResult := by
  unfold demandEntries
  rw [List.filterMap_map, List.map_map]
  congr 1
  apply List.filterMap_congr
  intro result _
  cases result with
  | reward kind reward => rfl
  | perUnit perUnit =>
      show (lookup PosEvalLine.itemId _ (f perUnit.itemId)).map _ = _
      rw [lookup_map hInjective (PosEvalLine.renames f), Option.map_map]
      rfl

theorem runEvaluationPass_rename (hInjective : f.Injective)
    (hAlike : ∀ promo ∈ candidates, RewardsAlike f input.lines promo) :
    runEvaluationPass (input.rename f) candidates =
      (runEvaluationPass input candidates).rename f := by
  have hPre : prePromoSubtotalCents (input.rename f).lines = prePromoSubtotalCents input.lines :=
    prePromoSubtotalCents_rename input.lines
  have hPost : ∀ results : List PosEvalLineResult,
      postLineSubtotalCents (input.rename f).lines (results.map (PosEvalLineResult.rename f)) =
        postLineSubtotalCents input.lines results :=
    fun results => postLineSubtotalCents_rename hInjective input.lines
  have hDemands : ∀ (results : List PosEvalLineResult) (order : Option PosEvalOrderResult),
      computePromotionCapacityDemands (input.rename f).lines
          (results.map (PosEvalLineResult.rename f)) order =
        computePromotionCapacityDemands input.lines results order := by
    intro results order
    have hEntries : demandEntries (input.rename f).lines
        (results.map (PosEvalLineResult.rename f)) order =
          demandEntries input.lines results order :=
      demandEntries_rename hInjective input.lines order
    unfold computePromotionCapacityDemands
    rw [hEntries]
  unfold runEvaluationPass
  dsimp only
  rw [evaluateLines_rename hInjective hAlike, pickBestOrderPromo_rename, hPre, hPost, hDemands]
  rfl

/-- What is selected for renamed lines is what is selected for the lines, under the new ids. -/
theorem evaluate_rename (hInjective : f.Injective) {data : List Promotion}
    (hAlike : ∀ promo ∈ loadCandidates input data, RewardsAlike f input.lines promo) :
    (evaluate (input.rename f) data).selection = (evaluate input data).selection.rename f := by
  have hPass : ∀ excluded, passWithout (input.rename f) (loadCandidates input data) excluded =
      (passWithout input (loadCandidates input data) excluded).rename f :=
    fun excluded => runEvaluationPass_rename hInjective fun promo hPromo =>
      hAlike promo (List.mem_of_mem_filter hPromo)
  obtain ⟨passes, final, hPasses⟩ := passes_end input (loadCandidates input data) []
  have hRenamed : Passes (input.rename f) (loadCandidates (input.rename f) data) [] passes final :=
    hPasses.congr fun excluded =>
      (congrArg (findCapacityOverrunIds _) (hPass excluded) :
        overrunsWithout (input.rename f) (loadCandidates input data) excluded = _)
  rw [evaluate_of_passes hPasses, evaluate_of_passes hRenamed]
  exact hPass final

end

end Houndfe.Promotions
