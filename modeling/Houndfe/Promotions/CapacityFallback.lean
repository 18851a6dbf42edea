import Houndfe.Promotions.OrderBase
import Mathlib.Data.List.Dedup

/-! The capacity fallback: what the last pass selects fits the caps, leaves the excluded promotions
out and demands the units that its results cover. -/

namespace Houndfe.Promotions

open Keyed

/-! ### The units that a selection covers -/

/-- The units of a line that its result covers: all of them, or the rewarded ones. -/
def coveredUnits (line : PosEvalLine) : PosEvalLineResult → Int
  | .perUnit _ => line.quantity
  | .reward _ reward => reward.discountedUnitCount

/-- The units of a line that are covered by this promotion. -/
def coveredUnitsOf (lineResults : List PosEvalLineResult) (promotionId : String)
    (line : PosEvalLine) : Int :=
  match resultFor lineResults line.itemId with
  | none => 0
  | some result => if result.promotionId = promotionId then coveredUnits line result else 0

/-- The product units that the results of one promotion cover: line by line, and all units of
the cart when the order result is of the promotion. -/
def selectedUnits (lines : List PosEvalLine) (selection : Selection) (promotionId : String) : Int :=
  (lines.map (coveredUnitsOf selection.lines promotionId)).sum +
    match selection.order with
    | none => 0
    | some order =>
        if order.promotionId = promotionId then (lines.map PosEvalLine.quantity).sum else 0

theorem demandedUnits_eq_sum (entries : List PromotionCapacityDemand) (promotionId : String) :
    demandedUnits entries promotionId =
      (entries.map fun entry => if entry.promotionId = promotionId then entry.units else 0).sum := by
  unfold demandedUnits
  induction entries with
  | nil => rfl
  | cons entry rest ih =>
      by_cases hHere : entry.promotionId = promotionId
      · simp [hHere, ih]
      · simp [hHere, ih]

/-- What one result adds to the demand of a promotion. -/
def demandOf (lines : List PosEvalLine) (promotionId : String) (result : PosEvalLineResult) : Int :=
  if result.promotionId = promotionId then
    match result with
    | .reward _ reward => reward.discountedUnitCount
    | .perUnit perUnit => ((lookup PosEvalLine.itemId lines perUnit.itemId).map
        PosEvalLine.quantity).getD 0
  else 0

theorem demandedUnits_demandEntries (lines : List PosEvalLine)
    (lineResults : List PosEvalLineResult) (order : Option PosEvalOrderResult)
    (promotionId : String) :
    demandedUnits (demandEntries lines lineResults order) promotionId =
      (lineResults.map (demandOf lines promotionId)).sum +
        match order with
        | none => 0
        | some order =>
            if order.promotionId = promotionId then (lines.map PosEvalLine.quantity).sum else 0 := by
  rw [demandedUnits_eq_sum, demandEntries, List.map_append, List.sum_append]
  congr 1
  · induction lineResults with
    | nil => rfl
    | cons result rest ih =>
        rw [List.map_cons, List.sum_cons, ← ih]
        cases result with
        | reward kind reward => rfl
        | perUnit perUnit =>
            cases hLine : lookup PosEvalLine.itemId lines perUnit.itemId with
            | none => simp [hLine, demandOf]
            | some line =>
                simp [hLine, demandOf, PosEvalLineResult.promotionId]
  · cases order with
    | none => rfl
    | some order => simp

section

variable {input : PosEvalInput} {candidates : List Promotion}

/-- The demand of a promotion is the units that its results cover. -/
theorem demandedUnits_eq_selectedUnits (hKeys : (input.lines.map PosEvalLine.itemId).Nodup)
    (promotionId : String) :
    demandedUnits (demandEntries input.lines (runEvaluationPass input candidates).lines
      (runEvaluationPass input candidates).order) promotionId =
        selectedUnits input.lines (runEvaluationPass input candidates) promotionId := by
  have hSound : LineResultsSound input candidates (evaluateLines input candidates) :=
    evaluateLines_sound hKeys
  have hOnCart : ∀ result ∈ (runEvaluationPass input candidates).lines,
      result.itemId ∈ input.lines.map PosEvalLine.itemId := by
    intro result hResult
    obtain ⟨line, hLine, _, _, hRanked⟩ := hSound.ranked result hResult
    exact List.mem_map.mpr ⟨line, hLine, hRanked.itemId_eq.symm⟩
  have hByLine : ∀ line ∈ input.lines,
      coveredUnitsOf (runEvaluationPass input candidates).lines promotionId line =
        ((resultFor (runEvaluationPass input candidates).lines line.itemId).map
          (demandOf input.lines promotionId)).getD 0 := by
    intro line hLine
    unfold coveredUnitsOf
    cases hResult : resultFor (runEvaluationPass input candidates).lines line.itemId with
    | none => rfl
    | some result =>
        have hItem := (lookup_eq_some hResult).2
        cases result with
        | reward kind reward => rfl
        | perUnit perUnit =>
            have hLookup : lookup PosEvalLine.itemId input.lines perUnit.itemId = some line := by
              change perUnit.itemId = line.itemId at hItem
              rw [hItem]
              exact lookup_of_mem hKeys hLine
            simp only [demandOf, hLookup, Option.map_some, Option.getD_some]
            rfl
  rw [demandedUnits_demandEntries, selectedUnits, List.map_congr_left hByLine]
  congr 1
  exact (sum_lookup hSound.keys hKeys hOnCart).symm

theorem mem_capacityDemands {lines : List PosEvalLine} {lineResults : List PosEvalLineResult}
    {order : Option PosEvalOrderResult} {demand : PromotionCapacityDemand}
    (h : demand ∈ computePromotionCapacityDemands lines lineResults order) :
    demand.promotionId ∈ (demandEntries lines lineResults order).map
        PromotionCapacityDemand.promotionId ∧
      demand.units = demandedUnits (demandEntries lines lineResults order) demand.promotionId := by
  have hSorted := (sortByKey_perm _ _).subset h
  obtain ⟨hDemand, _⟩ := List.mem_filter.mp hSorted
  obtain ⟨promotionId, hId, rfl⟩ := List.mem_map.mp hDemand
  exact ⟨List.mem_dedup.mp hId, rfl⟩

/-! ### What a pass selects comes from its candidates -/

theorem Ranked.candidate {line : PosEvalLine} {result : PosEvalLineResult} {saving : Int}
    (h : Ranked input candidates line result saving) :
    ∃ promo ∈ candidates, promo.id = result.promotionId := by
  cases h with
  | @productDiscount promo winner hPromo hWinner =>
      refine ⟨promo, hPromo, ?_⟩
      rw [← (perLineCandidate_eq_some hWinner).1]
      dsimp only [toLineResult]
      split <;> rfl
  | @buyXGetY promo winner hPromo hWinner =>
      refine ⟨promo, hPromo, ?_⟩
      rw [← (buyXGetYCandidate_eq_some hWinner).1]
      rfl
  | @advanced promo reward hPromo _ _ _ => exact ⟨promo, hPromo, rfl⟩

/-- Every promotion that is selected, or demanded, is a candidate of the pass. -/
structure SelectsFrom (candidates : List Promotion) (selection : Selection) : Prop where
  lines : ∀ result ∈ selection.lines, ∃ promo ∈ candidates, promo.id = result.promotionId
  order : ∀ order ∈ selection.order, ∃ promo ∈ candidates, promo.id = order.promotionId
  demands : ∀ demand ∈ selection.promotionCapacityDemands,
    ∃ promo ∈ candidates, promo.id = demand.promotionId

/-- What is demanded was selected. -/
theorem selectsFrom_of_results {sources : List Promotion}
    (hLines : ∀ result ∈ (runEvaluationPass input candidates).lines,
      ∃ promo ∈ sources, promo.id = result.promotionId)
    (hOrder : ∀ order ∈ (runEvaluationPass input candidates).order,
      ∃ promo ∈ sources, promo.id = order.promotionId) :
    SelectsFrom sources (runEvaluationPass input candidates) := by
  refine ⟨hLines, hOrder, ?_⟩
  intro demand hDemand
  obtain ⟨entry, hEntry, hId⟩ := List.mem_map.mp (mem_capacityDemands hDemand).1
  rw [← hId]
  rcases List.mem_append.mp hEntry with hLine | hOfOrder
  · obtain ⟨result, hResult, hMade⟩ := List.mem_filterMap.mp hLine
    have hSame : entry.promotionId = result.promotionId := by
      cases result with
      | reward kind reward =>
          cases hMade
          rfl
      | perUnit perUnit =>
          obtain ⟨line, _, rfl⟩ := Option.map_eq_some_iff.mp hMade
          rfl
    rw [hSame]
    exact hLines result hResult
  · obtain ⟨order, hSelected, rfl⟩ := List.mem_map.mp hOfOrder
    exact hOrder order (Option.mem_toList.mp hSelected)

theorem selectsFrom_pass (hKeys : (input.lines.map PosEvalLine.itemId).Nodup) :
    SelectsFrom candidates (runEvaluationPass input candidates) := by
  refine selectsFrom_of_results (fun result hResult => ?_) fun order hSelected => ?_
  · obtain ⟨_, _, _, _, hRanked⟩ := (evaluateLines_sound hKeys).ranked result hResult
    exact hRanked.candidate
  · obtain ⟨_, _, promo, hPromo, hId, _⟩ := pickBestOrderPromo_eq_some hSelected
    exact ⟨promo, hPromo, hId⟩

end

/-! ### The evaluation -/

theorem notExcluded_nil (loadedCandidates : List Promotion) :
    notExcluded loadedCandidates [] = loadedCandidates := by
  simp [notExcluded]

theorem lookup_reverse {candidates : List Promotion} (hIds : (candidates.map Promotion.id).Nodup)
    {promo : Promotion} (hPromo : promo ∈ candidates) :
    lookup Promotion.id candidates.reverse promo.id = some promo := by
  refine lookup_of_mem ?_ (List.mem_reverse.mpr hPromo)
  rw [List.map_reverse, List.nodup_reverse]
  exact hIds

/-- A promotion that is selected with a cap fits it: the map of the remaining units holds the
promotion itself, since its id is the id of no other. -/
theorem demand_fits {candidates : List Promotion} {pass : Selection}
    (hIds : (candidates.map Promotion.id).Nodup)
    (hFits : findCapacityOverrunIds candidates pass = []) {promo : Promotion}
    (hPromo : promo ∈ candidates) {remaining : Int}
    (hRemaining : promo.remainingProductUnits = some remaining) {demand : PromotionCapacityDemand}
    (hDemand : demand ∈ pass.promotionCapacityDemands) (hId : demand.promotionId = promo.id) :
    demand.units ≤ remaining := by
  have hLookup : lookup Promotion.id candidates.reverse demand.promotionId = some promo :=
    hId ▸ lookup_reverse hIds hPromo
  by_contra hOver
  have hOverrun : demand.promotionId ∈ findCapacityOverrunIds candidates pass := by
    apply List.mem_map_of_mem
    rw [List.mem_filter]
    exact ⟨hDemand, by simp [hLookup, hRemaining]; omega⟩
  rw [hFits] at hOverrun
  cases hOverrun

/-- For every cart, all candidates and whatever they have consumed: the loop ends, after at most
one pass for each capped candidate and one more, and `evaluate` returns its last pass. There no
selected promotion demands more than its cap leaves; every excluded promotion overran in one of
the passes and is neither selected nor demanded; and each demand is the product units that the
selected results cover. -/
theorem capacity_fallback (input : PosEvalInput) (data : List Promotion)
    (hIds : (data.map Promotion.id).Nodup)
    (hKeys : (input.lines.map PosEvalLine.itemId).Nodup) :
    let loadedCandidates := loadCandidates input data
    let outcome := evaluate input data
    (∃ passes final, Passes input loadedCandidates [] passes final) ∧
    (∀ passes final, Passes input loadedCandidates [] passes final →
      passes.length ≤ (loadedCandidates.filter Promotion.isCapped).length + 1 ∧
        outcome = ⟨passWithout input loadedCandidates final, sortByKey id final⟩ ∧
          ∀ id ∈ outcome.capacityExcludedPromotionIds, ∃ earlier ∈ passes, ∃ promo,
            promo.id = id ∧ Overran (notExcluded loadedCandidates earlier)
              (passWithout input loadedCandidates earlier) promo) ∧
    (∀ promo ∈ loadedCandidates, ∀ remaining ∈ promo.remainingProductUnits,
      ∀ demand ∈ outcome.selection.promotionCapacityDemands, demand.promotionId = promo.id →
        demand.units ≤ remaining) ∧
    (∀ id ∈ outcome.capacityExcludedPromotionIds,
      (∀ result ∈ outcome.selection.lines, result.promotionId ≠ id) ∧
        (∀ order ∈ outcome.selection.order, order.promotionId ≠ id) ∧
          ∀ demand ∈ outcome.selection.promotionCapacityDemands, demand.promotionId ≠ id) ∧
    ∀ demand ∈ outcome.selection.promotionCapacityDemands,
      demand.units = selectedUnits input.lines outcome.selection demand.promotionId := by
  dsimp only
  obtain ⟨passes, final, hPasses⟩ := passes_end input (loadCandidates input data) []
  have hOutcome := evaluate_of_passes hPasses
  have hFrom : SelectsFrom (notExcluded (loadCandidates input data) final)
      (evaluate input data).selection := by
    rw [hOutcome]
    exact selectsFrom_pass hKeys
  have hLoadedIds : ((loadCandidates input data).map Promotion.id).Nodup := by
    unfold loadCandidates
    split
    · exact (List.filter_sublist.map _).nodup hIds
    · exact hIds
  have hLeft : ∀ promo ∈ notExcluded (loadCandidates input data) final, promo.id ∉ final :=
    fun promo hPromo => by simpa using (List.mem_filter.mp hPromo).2
  refine ⟨⟨passes, final, hPasses⟩, ?_, ?_, ?_, ?_⟩
  · intro passes final hPasses
    have hOutcome := evaluate_of_passes hPasses
    have hLength := hPasses.length_le
    rw [cappedLeft, notExcluded_nil] at hLength
    refine ⟨hLength, hOutcome, ?_⟩
    intro id hId
    rw [hOutcome] at hId
    rcases hPasses.overran ((sortByKey_perm _ _).subset hId) with hNone | hOverran
    · cases hNone
    · exact hOverran
  · intro promo hPromo remaining hRemaining demand hDemand hId
    have hFits : findCapacityOverrunIds (notExcluded (loadCandidates input data) final)
        (evaluate input data).selection = [] := by
      rw [hOutcome]
      exact hPasses.final_fits
    obtain ⟨other, hOther, hOtherId⟩ := hFrom.demands demand hDemand
    have hSame : other = promo := List.inj_on_of_nodup_map hLoadedIds
      (List.mem_of_mem_filter hOther) hPromo (hOtherId.trans hId)
    exact demand_fits ((List.filter_sublist.map _).nodup hLoadedIds) hFits (hSame ▸ hOther)
      hRemaining hDemand hId
  · intro id hId
    rw [hOutcome] at hId
    have hExcluded : id ∈ final := (sortByKey_perm _ _).subset hId
    refine ⟨?_, ?_, ?_⟩
    · intro result hResult hSame
      obtain ⟨promo, hPromo, hPromoId⟩ := hFrom.lines result hResult
      exact hLeft promo hPromo (hPromoId.trans hSame ▸ hExcluded)
    · intro order hOrder hSame
      obtain ⟨promo, hPromo, hPromoId⟩ := hFrom.order order hOrder
      exact hLeft promo hPromo (hPromoId.trans hSame ▸ hExcluded)
    · intro demand hDemand hSame
      obtain ⟨promo, hPromo, hPromoId⟩ := hFrom.demands demand hDemand
      exact hLeft promo hPromo (hPromoId.trans hSame ▸ hExcluded)
  · intro demand hDemand
    rw [hOutcome] at hDemand ⊢
    exact (mem_capacityDemands hDemand).2.trans (demandedUnits_eq_selectedUnits hKeys _)

/-! ### A cap that runs short -/

/-- Three units at ten pesos; the better discount has two units left, the other one is open. -/
def cappedPair : List Promotion :=
  [{ samplePromotion "capped" .productDiscount 200 none with maxProductUnits := some 2 },
    samplePromotion "open" .productDiscount 100 none]

theorem capacity_fallback_of_capped_pair :
    let outcome := evaluate (sampleCart 3) cappedPair
    outcome.capacityExcludedPromotionIds = ["capped"] ∧
      (∀ demand ∈ outcome.selection.promotionCapacityDemands,
        demand.units = selectedUnits (sampleCart 3).lines outcome.selection demand.promotionId) ∧
      ∀ passes final, Passes (sampleCart 3) cappedPair [] passes final → passes.length ≤ 2 := by
  have hFallback := capacity_fallback (sampleCart 3) cappedPair (by decide) (by decide)
  exact ⟨by decide, hFallback.2.2.2.2, fun passes final h => (hFallback.2.1 passes final h).1⟩

end Houndfe.Promotions
