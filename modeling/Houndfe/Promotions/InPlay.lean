import Houndfe.Promotions.CapacityFallback

/-! The promotions that take part in an evaluation: those that the cart is offered and that pass
their gates. Whatever the caps exclude, the others may as well not be loaded. -/

namespace Houndfe.Promotions

open Keyed

/-- The cart is offered the promotion, and its dates, days and customers let it through. -/
def isInPlay (input : PosEvalInput) (promo : Promotion) : Bool :=
  isOffered promo input && passesPromotionWideGates promo input

section

variable {input : PosEvalInput} {candidates : List Promotion} {promo : Promotion}

theorem filterMap_isInPlay {γ : Type} {f : Promotion → Option γ}
    (h : ∀ promo, isInPlay input promo = false → f promo = none) :
    (candidates.filter (isInPlay input)).filterMap f = candidates.filterMap f := by
  rw [List.filterMap_filter]
  refine List.filterMap_congr fun promo _ => ?_
  cases hPlay : isInPlay input promo with
  | true => rfl
  | false => exact (h promo hPlay).symm

theorem evaluateLines_isInPlay :
    evaluateLines input (candidates.filter (isInPlay input)) = evaluateLines input candidates := by
  have hPerLine : ∀ line, pickBestPerLine line (candidates.filter (isInPlay input)) input =
      pickBestPerLine line candidates input := by
    intro line
    have hIdle : ∀ promo, isInPlay input promo = false →
        perLineCandidate line input promo = none :=
      fun promo hIdle => if_neg (by simp_all [isInPlay])
    simp only [pickBestPerLine, filterMap_isInPlay hIdle]
  have hReward : buyXGetYStep (candidates.filter (isInPlay input)) input =
      buyXGetYStep candidates input := by
    funext results line
    have hIdle : ∀ promo, isInPlay input promo = false →
        buyXGetYCandidate line input promo = none :=
      fun promo hIdle => if_neg (by simp_all [isInPlay])
    simp only [buyXGetYStep, pickBestBuyXGetYPerLine, filterMap_isInPlay hIdle]
  have hAdvanced : ∀ promo, isInPlay input promo = false →
      advancedRewards input.lines input promo = [] := by
    intro promo hIdle
    exact if_neg (by simp_all [isInPlay, isOffered])
  have hSteps : (fun results promo => if isInPlay input promo then
      advancedStep input.lines input results promo else results) =
        advancedStep input.lines input := by
    funext results promo
    split
    · rfl
    · next hIdle => rw [advancedStep, hAdvanced promo (by simpa using hIdle), List.foldl_nil]
  unfold evaluateLines evaluateAdvancedPass evaluateBuyXGetYPass productDiscountResults
  simp only [List.foldl_filter, hSteps, hReward, hPerLine]

theorem runEvaluationPass_isInPlay :
    runEvaluationPass input (candidates.filter (isInPlay input)) =
      runEvaluationPass input candidates := by
  have hOrder : ∀ pre base, pickBestOrderPromo (candidates.filter (isInPlay input)) input pre base =
      pickBestOrderPromo candidates input pre base := by
    intro pre base
    have hIdle : ∀ promo, isInPlay input promo = false →
        orderCandidate input pre base promo = none :=
      fun promo hIdle => if_neg (by simp_all [isInPlay])
    simp only [pickBestOrderPromo, filterMap_isInPlay hIdle]
  simp only [runEvaluationPass, evaluateLines_isInPlay, hOrder]

theorem selectsFrom_isInPlay (hKeys : (input.lines.map PosEvalLine.itemId).Nodup) :
    SelectsFrom (candidates.filter (isInPlay input)) (runEvaluationPass input candidates) :=
  runEvaluationPass_isInPlay ▸ selectsFrom_pass hKeys

theorem overruns_isInPlay {loaded : List Promotion} {excluded : List String}
    (hIds : (loaded.map Promotion.id).Nodup) (hKeys : (input.lines.map PosEvalLine.itemId).Nodup) :
    passWithout input (loaded.filter (isInPlay input)) excluded =
        passWithout input loaded excluded ∧
      overrunsWithout input (loaded.filter (isInPlay input)) excluded =
        overrunsWithout input loaded excluded := by
  have hComm : notExcluded (loaded.filter (isInPlay input)) excluded =
      (notExcluded loaded excluded).filter (isInPlay input) := List.filter_comm _ _ _
  have hPass : passWithout input (loaded.filter (isInPlay input)) excluded =
      passWithout input loaded excluded := by
    rw [passWithout, hComm, runEvaluationPass_isInPlay, passWithout]
  refine ⟨hPass, ?_⟩
  rw [overrunsWithout, overrunsWithout, hPass, findCapacityOverrunIds, findCapacityOverrunIds]
  refine congrArg _ (List.filter_congr fun demand hDemand => ?_)
  -- what is demanded was selected among the promotions in play, and its id is nobody else's
  obtain ⟨promo, hPromo, hId⟩ := (selectsFrom_isInPlay hKeys).demands demand hDemand
  have hFound : ∀ rows : List Promotion, rows.Sublist loaded → promo ∈ rows →
      lookup Promotion.id rows.reverse demand.promotionId = some promo :=
    fun rows hSub hMem => hId ▸ lookup_reverse (hIds.sublist (hSub.map _)) hMem
  have hSub : (notExcluded loaded excluded).Sublist loaded := List.filter_sublist
  rw [hComm, hFound _ (List.filter_sublist.trans hSub) hPromo,
    hFound _ hSub (List.mem_of_mem_filter hPromo)]

end

/-- For every cart and all candidates, the selection, its demands and the promotions that the caps
exclude are those of the promotions in play alone. -/
theorem evaluate_isInPlay (input : PosEvalInput) (data : List Promotion)
    (hIds : (data.map Promotion.id).Nodup)
    (hKeys : (input.lines.map PosEvalLine.itemId).Nodup) :
    evaluate input (data.filter (isInPlay input)) = evaluate input data := by
  have hLoad : loadCandidates input (data.filter (isInPlay input)) =
      (loadCandidates input data).filter (isInPlay input) := by
    unfold loadCandidates
    split
    · exact List.filter_comm _ _ _
    · rfl
  have hLoaded := @nodup_loadCandidates input data hIds
  obtain ⟨passes, final, hPasses⟩ :=
    passes_end input (loadCandidates input (data.filter (isInPlay input))) []
  have hAll : Passes input (loadCandidates input data) [] passes final :=
    Passes.congr (fun _ => (overruns_isInPlay hLoaded hKeys).2.symm) (hLoad ▸ hPasses)
  rw [evaluate_of_passes hPasses, evaluate_of_passes hAll, hLoad,
    (overruns_isInPlay hLoaded hKeys).1]

/-- A discount that nobody opted in to, before the capped ones. -/
theorem evaluate_isInPlay_of_capped_pair :
    let data := { samplePromotion "manual" .productDiscount 900 none with
      method := .manual } :: cappedPair
    data.filter (isInPlay (sampleCart 3)) = cappedPair ∧
      evaluate (sampleCart 3) (data.filter (isInPlay (sampleCart 3))) =
        evaluate (sampleCart 3) data :=
  ⟨by decide, evaluate_isInPlay _ _ (by decide) (by decide)⟩

end Houndfe.Promotions
