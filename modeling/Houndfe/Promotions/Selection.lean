import Houndfe.Promotions.PosEvaluate

/-! What the engine selects. Every line result belongs to a line of the cart without a
manual discount and was ranked by a saving of that line; the passes of the capacity fallback
end, each of the others excluding a capped candidate that was left. -/

namespace Houndfe.Promotions

open Keyed Rounding
open Houndfe.Sales (RewardKind)

/-! ### Results and the savings they were ranked by -/

/-- A result of `line`, with the saving by which its promotion was ranked. -/
inductive Ranked (input : PosEvalInput) (candidates : List Promotion) (line : PosEvalLine) :
    PosEvalLineResult → Int → Prop where
  | productDiscount {promo : Promotion} {winner : PerLineCandidate} (hPromo : promo ∈ candidates)
      (hWinner : perLineCandidate line input promo = some winner) :
      Ranked input candidates line (toLineResult line.itemId winner) winner.discountCents
  | buyXGetY {promo : Promotion} {winner : RewardCandidate} (hPromo : promo ∈ candidates)
      (hWinner : buyXGetYCandidate line input promo = some winner) :
      Ranked input candidates line (winner.toLineResult line.itemId) winner.lineDiscountCents
  | advanced {promo : Promotion} {reward : AdvancedLineReward} (hPromo : promo ∈ candidates)
      (hReward : reward ∈ advancedRewards input.lines input promo)
      (hItem : reward.itemId = line.itemId) (hSaves : 0 < reward.lineDiscountCents) :
      Ranked input candidates line (reward.toLineResult promo) reward.lineDiscountCents

theorem toLineResult_itemId (itemId : String) (winner : PerLineCandidate) :
    (toLineResult itemId winner).itemId = itemId := by
  dsimp only [toLineResult]
  split <;> rfl

theorem Ranked.itemId_eq {input : PosEvalInput} {candidates : List Promotion}
    {line : PosEvalLine} {result : PosEvalLineResult} {saving : Int}
    (h : Ranked input candidates line result saving) : result.itemId = line.itemId := by
  cases h with
  | productDiscount _ _ => exact toLineResult_itemId _ _
  | buyXGetY _ _ => rfl
  | advanced _ _ hItem _ => exact hItem

/-- The results of distinct lines, each with its rank. -/
structure LineResultsSound (input : PosEvalInput) (candidates : List Promotion)
    (lineResults : List PosEvalLineResult) : Prop where
  keys : (lineResults.map PosEvalLineResult.itemId).Nodup
  ranked : ∀ result ∈ lineResults, ∃ line ∈ input.lines, line.hasManualDiscount = false ∧
    ∃ saving, Ranked input candidates line result saving

theorem LineResultsSound.upsert {input : PosEvalInput} {candidates : List Promotion}
    {lineResults : List PosEvalLineResult} {result : PosEvalLineResult}
    (h : LineResultsSound input candidates lineResults)
    (hRanked : ∃ line ∈ input.lines, line.hasManualDiscount = false ∧
      ∃ saving, Ranked input candidates line result saving) :
    LineResultsSound input candidates
      (Keyed.upsert PosEvalLineResult.itemId result lineResults) := by
  refine ⟨nodup_upsert h.keys, ?_⟩
  intro other hMem
  rcases mem_upsert hMem with rfl | hOld
  · exact hRanked
  · exact h.ranked other hOld

theorem pickBestPerLine_eq_some {line : PosEvalLine} {candidates : List Promotion}
    {input : PosEvalInput} {winner : PerLineCandidate}
    (h : pickBestPerLine line candidates input = some winner) :
    line.hasManualDiscount = false ∧
      ∃ promo ∈ candidates, perLineCandidate line input promo = some winner := by
  unfold pickBestPerLine at h
  split at h
  · cases h
  · next hManual =>
      have hSurvivor := List.mem_filter.mp (pickBest_mem h)
      obtain ⟨promo, hPromo, hWinner⟩ := List.mem_filterMap.mp hSurvivor.1
      exact ⟨Bool.eq_false_of_not_eq_true hManual, promo, hPromo, hWinner⟩

theorem pickBestBuyXGetYPerLine_eq_some {line : PosEvalLine} {candidates : List Promotion}
    {input : PosEvalInput} {winner : RewardCandidate}
    (h : pickBestBuyXGetYPerLine line candidates input = some winner) :
    line.hasManualDiscount = false ∧
      ∃ promo ∈ candidates, buyXGetYCandidate line input promo = some winner := by
  unfold pickBestBuyXGetYPerLine at h
  split at h
  · cases h
  · next hManual =>
      obtain ⟨promo, hPromo, hWinner⟩ := List.mem_filterMap.mp (pickBest_mem h)
      exact ⟨Bool.eq_false_of_not_eq_true hManual, promo, hPromo, hWinner⟩

theorem productDiscountResults_sound {input : PosEvalInput} {candidates : List Promotion}
    (hKeys : (input.lines.map PosEvalLine.itemId).Nodup) :
    LineResultsSound input candidates (productDiscountResults input.lines candidates input) := by
  constructor
  · apply nodup_filterMap _ hKeys
    intro line result h
    obtain ⟨winner, _, rfl⟩ := Option.map_eq_some_iff.mp h
    exact toLineResult_itemId _ _
  · intro result hMem
    obtain ⟨line, hLine, h⟩ := List.mem_filterMap.mp hMem
    obtain ⟨winner, hWinner, rfl⟩ := Option.map_eq_some_iff.mp h
    obtain ⟨hManual, promo, hPromo, hCandidate⟩ := pickBestPerLine_eq_some hWinner
    exact ⟨line, hLine, hManual, _, .productDiscount hPromo hCandidate⟩

theorem buyXGetYStep_sound {input : PosEvalInput} {candidates : List Promotion}
    {lineResults : List PosEvalLineResult} {line : PosEvalLine} (hLine : line ∈ input.lines)
    (h : LineResultsSound input candidates lineResults) :
    LineResultsSound input candidates (buyXGetYStep candidates input lineResults line) := by
  unfold buyXGetYStep
  split
  · exact h
  · next winner hWinner =>
      dsimp only
      split
      · obtain ⟨hManual, promo, hPromo, hCandidate⟩ := pickBestBuyXGetYPerLine_eq_some hWinner
        exact h.upsert ⟨line, hLine, hManual, _, .buyXGetY hPromo hCandidate⟩
      · exact h

/-- What a reward is worth: some units of a line that this side may count. -/
structure RewardOf (getDiscountPercent : Int) (line : PosEvalLine) (reward : AdvancedLineReward) :
    Prop where
  itemId : reward.itemId = line.itemId
  units_pos : 0 < reward.discountedUnitCount
  units_le : reward.discountedUnitCount ≤ line.quantity
  lineDiscount : reward.lineDiscountCents =
    reward.discountedUnitCount * perUnitReward line.effectiveUnitPriceCents getDiscountPercent

theorem mem_allocateReward {getDiscountPercent remaining : Int}
    {lines : List PosEvalLine} {reward : AdvancedLineReward}
    {candidateLines : List GetCandidateLine}
    (hLines : ∀ candidate ∈ candidateLines, ∃ line ∈ lines, candidate = line.toGetCandidate)
    (h : reward ∈ allocateReward getDiscountPercent candidateLines remaining) :
    ∃ line ∈ lines, RewardOf getDiscountPercent line reward := by
  induction candidateLines generalizing remaining with
  | nil => cases h
  | cons candidate rest ih =>
      have hRest := fun c hc => hLines c (List.mem_cons_of_mem _ hc)
      dsimp only [allocateReward] at h
      split at h
      · cases h
      · next hRemaining =>
          split at h
          · exact ih hRest h
          · next hUnits =>
              rcases List.mem_cons.mp h with rfl | hIn
              · obtain ⟨line, hLine, rfl⟩ := hLines _ List.mem_cons_self
                exact ⟨line, hLine, rfl, Int.not_le.mp hUnits, min_le_left _ _, rfl⟩
              · exact ih hRest hIn

/-- The rewards of a promotion go to lines of its getting side. -/
theorem mem_advancedRewards {lines : List PosEvalLine} {input : PosEvalInput}
    {promo : Promotion} {reward : AdvancedLineReward}
    (h : reward ∈ advancedRewards lines input promo) :
    promo.type = .advanced ∧ ∃ line ∈ getLines promo lines,
      RewardOf (promo.getDiscountPercent.getD 0) line reward := by
  dsimp only [advancedRewards] at h
  split at h
  · next hGates =>
      simp only [Bool.and_eq_true, decide_eq_true_eq] at hGates
      refine ⟨hGates.1.1.1, ?_⟩
      split at h
      · next buyQuantity getQuantity percent _ _ hPercent =>
          rw [hPercent]
          dsimp only [computeAdvancedReward] at h
          split at h
          · cases h
          · apply mem_allocateReward _ h
            intro candidate hMem
            have hIn := (sortByKey_perm _ _).subset hMem
            obtain ⟨line, hLine, rfl⟩ := List.mem_map.mp hIn
            exact ⟨line, hLine, rfl⟩
      · cases h
  · cases h

theorem mem_getLines {promo : Promotion} {lines : List PosEvalLine} {line : PosEvalLine}
    (h : line ∈ getLines promo lines) : line ∈ lines ∧ line.hasManualDiscount = false := by
  obtain ⟨hIn, hSide⟩ := List.mem_filter.mp h
  simp only [isSideLine, Bool.and_eq_true, Bool.not_eq_true'] at hSide
  exact ⟨hIn, hSide.1.1.1⟩

theorem advancedRewardStep_sound {input : PosEvalInput} {candidates : List Promotion}
    {lineResults : List PosEvalLineResult} {promo : Promotion} {reward : AdvancedLineReward}
    (hPromo : promo ∈ candidates) (hReward : reward ∈ advancedRewards input.lines input promo)
    (h : LineResultsSound input candidates lineResults) :
    LineResultsSound input candidates
      (advancedRewardStep input.lines promo lineResults reward) := by
  unfold advancedRewardStep
  split
  · exact h
  · split
    · next hWins =>
        obtain ⟨_, line, hLine, hOf⟩ := mem_advancedRewards hReward
        obtain ⟨hIn, hManual⟩ := mem_getLines hLine
        exact h.upsert ⟨line, hIn, hManual, _, .advanced hPromo hReward hOf.itemId hWins.1⟩
    · exact h

theorem evaluateLines_sound {input : PosEvalInput} {candidates : List Promotion}
    (hKeys : (input.lines.map PosEvalLine.itemId).Nodup) :
    LineResultsSound input candidates (evaluateLines input candidates) := by
  unfold evaluateLines evaluateAdvancedPass evaluateBuyXGetYPass
  apply List.foldlRecOn
  · apply List.foldlRecOn
    · exact productDiscountResults_sound hKeys
    · exact fun lineResults h line hLine => buyXGetYStep_sound hLine h
  · intro lineResults h promo hPromo
    apply List.foldlRecOn
    · exact h
    · exact fun lineResults h reward hReward => advancedRewardStep_sound hPromo hReward h

/-! ### The rounds of the capacity fallback -/

theorem notExcluded_append (loadedCandidates : List Promotion) (excluded more : List String) :
    notExcluded loadedCandidates (excluded ++ more) =
      notExcluded (notExcluded loadedCandidates excluded) more := by
  simp only [notExcluded, List.filter_filter]
  congr 1
  funext promo
  simp [Bool.and_comm, List.contains_eq_mem]

/-- What a pass leaves out depends on which promotions are excluded, not on their order. -/
theorem notExcluded_congr {loadedCandidates : List Promotion} {first second : List String}
    (h : ∀ id, id ∈ first ↔ id ∈ second) :
    notExcluded loadedCandidates first = notExcluded loadedCandidates second := by
  refine List.filter_congr fun promo _ => ?_
  rw [List.contains_eq_mem, List.contains_eq_mem, decide_eq_decide.mpr (h promo.id)]

/-- The pass with these promotions excluded. -/
def passWithout (input : PosEvalInput) (loadedCandidates : List Promotion)
    (excluded : List String) : Selection :=
  runEvaluationPass input (notExcluded loadedCandidates excluded)

def overrunsWithout (input : PosEvalInput) (loadedCandidates : List Promotion)
    (excluded : List String) : List String :=
  findCapacityOverrunIds (notExcluded loadedCandidates excluded)
    (passWithout input loadedCandidates excluded)

/-- The loop of `evaluate` from a set of exclusions on: the exclusions of every pass that it
runs, and those of the pass that it returns. -/
inductive Passes (input : PosEvalInput) (loadedCandidates : List Promotion) :
    List String → List (List String) → List String → Prop where
  | done {excluded : List String}
      (hFits : overrunsWithout input loadedCandidates excluded = []) :
      Passes input loadedCandidates excluded [excluded] excluded
  | again {excluded : List String} {passes : List (List String)} {final : List String}
      (hOverrun : overrunsWithout input loadedCandidates excluded ≠ [])
      (rest : Passes input loadedCandidates
        (excluded ++ overrunsWithout input loadedCandidates excluded) passes final) :
      Passes input loadedCandidates excluded (excluded :: passes) final

/-- The promotion demands more than its cap leaves. -/
structure Overran (candidates : List Promotion) (pass : Selection) (promo : Promotion) : Prop where
  candidate : promo ∈ candidates
  overrun : ∃ demand ∈ pass.promotionCapacityDemands, demand.promotionId = promo.id ∧
    ∃ remaining ∈ promo.remainingProductUnits, remaining < demand.units

def Promotion.isCapped (promo : Promotion) : Bool :=
  promo.remainingProductUnits.isSome

section

variable {input : PosEvalInput} {loadedCandidates : List Promotion} {excluded final : List String}

theorem overran_of_mem {candidates : List Promotion} {pass : Selection} {id : String}
    (h : id ∈ findCapacityOverrunIds candidates pass) :
    ∃ promo, promo.id = id ∧ Overran candidates pass promo := by
  obtain ⟨demand, hDemand, rfl⟩ := List.mem_map.mp h
  obtain ⟨hIn, hOver⟩ := List.mem_filter.mp hDemand
  cases hLookup : lookup Promotion.id candidates.reverse demand.promotionId with
  | none => simp [hLookup] at hOver
  | some promo =>
      obtain ⟨hMem, hId⟩ := lookup_eq_some hLookup
      cases hRemaining : promo.remainingProductUnits with
      | none => simp [hLookup, hRemaining] at hOver
      | some remaining =>
          simp only [hLookup, Option.bind_some, hRemaining, decide_eq_true_eq] at hOver
          exact ⟨promo, hId, List.mem_reverse.mp hMem, demand, hIn, hId.symm, remaining,
            hRemaining, hOver⟩

/-- A round that overruns leaves fewer candidates to the next. -/
theorem notExcluded_length_lt {candidates : List Promotion} {pass : Selection}
    (h : findCapacityOverrunIds candidates pass ≠ []) :
    (notExcluded candidates (findCapacityOverrunIds candidates pass)).length <
      candidates.length := by
  obtain ⟨id, hId⟩ := List.exists_mem_of_ne_nil _ h
  obtain ⟨promo, rfl, hOverran⟩ := overran_of_mem hId
  rw [notExcluded, List.length_filter_lt_length_iff_exists]
  exact ⟨promo, hOverran.candidate, by simpa using hId⟩

theorem Overran.isCapped {candidates : List Promotion} {pass : Selection} {promo : Promotion}
    (h : Overran candidates pass promo) : promo.isCapped = true := by
  obtain ⟨_, _, _, remaining, hRemaining, _⟩ := h.overrun
  rw [Promotion.isCapped, hRemaining]
  rfl

/-- The capped candidates that are left. -/
def cappedLeft (loadedCandidates : List Promotion) (excluded : List String) : Nat :=
  ((notExcluded loadedCandidates excluded).filter Promotion.isCapped).length

theorem cappedLeft_lt (h : overrunsWithout input loadedCandidates excluded ≠ []) :
    cappedLeft loadedCandidates (excluded ++ overrunsWithout input loadedCandidates excluded) <
      cappedLeft loadedCandidates excluded := by
  obtain ⟨id, hId⟩ := List.exists_mem_of_ne_nil _ h
  obtain ⟨promo, rfl, hOverran⟩ := overran_of_mem hId
  have hLeft : promo ∈ (notExcluded loadedCandidates excluded).filter Promotion.isCapped :=
    List.mem_filter.mpr ⟨hOverran.candidate, hOverran.isCapped⟩
  have hComm : (notExcluded loadedCandidates
      (excluded ++ overrunsWithout input loadedCandidates excluded)).filter Promotion.isCapped =
        ((notExcluded loadedCandidates excluded).filter Promotion.isCapped).filter fun promo =>
          !(overrunsWithout input loadedCandidates excluded).contains promo.id := by
    rw [notExcluded_append, notExcluded, List.filter_filter, List.filter_filter]
    congr 1
    funext promo
    exact Bool.and_comm _ _
  rw [cappedLeft, cappedLeft, hComm, List.length_filter_lt_length_iff_exists]
  exact ⟨promo, hLeft, by simpa using hId⟩

/-- The loop ends, since the capped candidates run out. -/
theorem passes_end (input : PosEvalInput) (loadedCandidates : List Promotion)
    (excluded : List String) :
    ∃ passes final, Passes input loadedCandidates excluded passes final := by
  induction hLeft : cappedLeft loadedCandidates excluded using Nat.strong_induction_on
    generalizing excluded with
  | _ left ih =>
      subst hLeft
      by_cases hFits : overrunsWithout input loadedCandidates excluded = []
      · exact ⟨_, _, .done hFits⟩
      · obtain ⟨passes, final, hPasses⟩ := ih _ (cappedLeft_lt hFits) _ rfl
        exact ⟨_, _, .again hFits hPasses⟩

/-- Every pass but the last uses up a capped candidate. -/
theorem Passes.length_le {passes : List (List String)}
    (h : Passes input loadedCandidates excluded passes final) :
    passes.length ≤ cappedLeft loadedCandidates excluded + 1 := by
  induction h with
  | done _ => simp
  | again hOverrun _ ih =>
      have hLess := cappedLeft_lt hOverrun
      rw [List.length_cons]
      omega

theorem Passes.final_fits {passes : List (List String)}
    (h : Passes input loadedCandidates excluded passes final) :
    overrunsWithout input loadedCandidates final = [] := by
  induction h with
  | done hFits => exact hFits
  | again _ _ ih => exact ih

/-- What is excluded in the end was excluded before, or overran in one of the passes. -/
theorem Passes.overran {passes : List (List String)}
    (h : Passes input loadedCandidates excluded passes final) {id : String} (hId : id ∈ final) :
    id ∈ excluded ∨ ∃ earlier ∈ passes, ∃ promo, promo.id = id ∧
      Overran (notExcluded loadedCandidates earlier)
        (passWithout input loadedCandidates earlier) promo := by
  induction h with
  | done _ => exact .inl hId
  | @again excluded passes final hOverrun rest ih =>
      rcases ih hId with hBefore | ⟨earlier, hEarlier, hOver⟩
      · rcases List.mem_append.mp hBefore with hOld | hNew
        · exact .inl hOld
        · exact .inr ⟨excluded, List.mem_cons_self, overran_of_mem hNew⟩
      · exact .inr ⟨earlier, List.mem_cons_of_mem _ hEarlier, hOver⟩

/-- The loop with its fuel runs these passes: it never runs short. -/
theorem Passes.evaluateFrom {passes : List (List String)}
    (h : Passes input loadedCandidates excluded passes final) {fuel : Nat}
    (hFuel : (notExcluded loadedCandidates excluded).length ≤ fuel) :
    evaluateFrom input loadedCandidates fuel excluded =
      ⟨passWithout input loadedCandidates final, final⟩ := by
  induction h generalizing fuel with
  | done hFits =>
      have hNone : findCapacityOverrunIds _ (runEvaluationPass input _) = [] := hFits
      unfold Promotions.evaluateFrom
      simp only [hNone, if_true]
      rfl
  | @again excluded passes final hOverrun rest ih =>
      have hSome : ¬ findCapacityOverrunIds (notExcluded loadedCandidates excluded)
          (runEvaluationPass input (notExcluded loadedCandidates excluded)) = [] := hOverrun
      have hShorter : (notExcluded loadedCandidates
          (excluded ++ overrunsWithout input loadedCandidates excluded)).length <
            (notExcluded loadedCandidates excluded).length := by
        rw [notExcluded_append]
        exact notExcluded_length_lt hSome
      cases fuel with
      | zero => omega
      | succ fuel =>
          unfold Promotions.evaluateFrom
          simp only [hSome, if_false]
          exact ih (by omega)

end

/-- The loop depends on which promotions overrun. -/
theorem Passes.congr {input input' : PosEvalInput} {loaded loaded' : List Promotion}
    {excluded final : List String} {passes : List (List String)}
    (hSame : ∀ excluded, overrunsWithout input' loaded' excluded =
      overrunsWithout input loaded excluded)
    (h : Passes input loaded excluded passes final) :
    Passes input' loaded' excluded passes final := by
  induction h with
  | done hFits => exact .done ((hSame _).trans hFits)
  | again hOverrun _ ih =>
      rw [← hSame] at hOverrun ih
      exact .again hOverrun ih

theorem loadCandidates_sublist (input : PosEvalInput) (data : List Promotion) :
    (loadCandidates input data).Sublist data := by
  unfold loadCandidates
  split
  · exact List.filter_sublist
  · exact List.Sublist.refl _

theorem nodup_loadCandidates {input : PosEvalInput} {data : List Promotion}
    (hIds : (data.map Promotion.id).Nodup) :
    ((loadCandidates input data).map Promotion.id).Nodup :=
  ((loadCandidates_sublist input data).map _).nodup hIds

theorem evaluate_of_passes {input : PosEvalInput} {data : List Promotion}
    {passes : List (List String)} {final : List String}
    (h : Passes input (loadCandidates input data) [] passes final) :
    evaluate input data = ⟨passWithout input (loadCandidates input data) final,
      sortByKey id final⟩ := by
  have hFuel : (notExcluded (loadCandidates input data) []).length ≤
      (loadCandidates input data).length := List.length_filter_le _ _
  have hFrom := h.evaluateFrom hFuel
  simp only [evaluate, hFrom]

/-- What `evaluate` selects: a pass over candidates none of which overruns its cap. -/
theorem evaluate_fits (input : PosEvalInput) (data : List Promotion) :
    ∃ candidates, candidates.Sublist data ∧
      (evaluate input data).selection = runEvaluationPass input candidates ∧
        findCapacityOverrunIds candidates (evaluate input data).selection = [] := by
  obtain ⟨passes, final, hPasses⟩ := passes_end input (loadCandidates input data) []
  rw [evaluate_of_passes hPasses]
  exact ⟨_, List.filter_sublist.trans (loadCandidates_sublist input data), rfl, hPasses.final_fits⟩

theorem Ranked.mono {input : PosEvalInput} {candidates data : List Promotion}
    {line : PosEvalLine} {result : PosEvalLineResult} {saving : Int}
    (h : Ranked input candidates line result saving)
    (hSubset : ∀ promo ∈ candidates, promo ∈ data) : Ranked input data line result saving := by
  cases h with
  | productDiscount hPromo hWinner => exact .productDiscount (hSubset _ hPromo) hWinner
  | buyXGetY hPromo hWinner => exact .buyXGetY (hSubset _ hPromo) hWinner
  | advanced hPromo hReward hItem hSaves => exact .advanced (hSubset _ hPromo) hReward hItem hSaves

theorem evaluate_sound {input : PosEvalInput} (data : List Promotion)
    (hKeys : (input.lines.map PosEvalLine.itemId).Nodup) :
    LineResultsSound input data (evaluate input data).selection.lines := by
  obtain ⟨candidates, hSublist, hPass, _⟩ := evaluate_fits input data
  have hSound : LineResultsSound input candidates (evaluate input data).selection.lines := by
    rw [hPass]
    exact evaluateLines_sound hKeys
  refine ⟨hSound.keys, fun result hMem => ?_⟩
  obtain ⟨line, hLine, hManual, saving, hRanked⟩ := hSound.ranked result hMem
  exact ⟨line, hLine, hManual, saving, hRanked.mono fun _ h => hSublist.subset h⟩

end Houndfe.Promotions
