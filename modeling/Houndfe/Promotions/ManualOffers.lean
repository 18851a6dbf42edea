import Houndfe.Promotions.LineWinners

/-! What the list of manual promotions promises. A capped promotion is simulated as opted in on
one pass, with the exclusions that the evaluation came to; the evaluation of the opted-in cart
starts over without them, so that the two answer alike only where it comes to that pass. -/

namespace Houndfe.Promotions

open Keyed

/-- The cart with one more promotion opted in. -/
def optIn (input : PosEvalInput) (promotionId : String) : PosEvalInput :=
  { input with optedInManualPromotionIds := input.optedInManualPromotionIds ++ [promotionId] }

/-- The cart with more units of one line. -/
def addUnits (itemId : String) (units : Int) (input : PosEvalInput) : PosEvalInput :=
  { input with
    lines := input.lines.map fun line =>
      if line.itemId = itemId then { line with quantity := line.quantity + units } else line }

/-- A manual promotion that the seller could opt in to, whatever is left of it. -/
structure Optable (promo : Promotion) (input : PosEvalInput) : Prop where
  manual : promo.method = .manual
  gates : passesPromotionWideGates promo input = true
  notVetoed : promo.id ∉ input.vetoedPromotionIds
  notOptedIn : promo.id ∉ input.optedInManualPromotionIds
  surfaced : isSurfaced promo input.lines = true

/-- The evaluation lists the promotion among the available ones. -/
def Listed (input : PosEvalInput) (data : List Promotion) (promo : Promotion) : Prop :=
  ∃ candidate ∈ (evaluateResult input data).availableManualPromotions, candidate.id = promo.id

/-- The promotions that overrun in the simulated pass: the promotion is opted in, and what the
evaluation excluded is left out. -/
def simulatedOverruns (input : PosEvalInput) (data : List Promotion) (promotionId : String) :
    List String :=
  overrunsWithout (optIn input promotionId) (loadCandidates input data)
    (evaluate input data).capacityExcludedPromotionIds

/-- A matching line with the most units. -/
structure Fullest (promo : Promotion) (lines : List PosEvalLine) (line : PosEvalLine) : Prop where
  onCart : line ∈ lines
  matched : matchesLine promo line = true
  most : ∀ other ∈ lines, matchesLine promo other = true → other.quantity ≤ line.quantity

/-! ### The simulated pass -/

section

variable {candidates : List Promotion} {pass : Selection} {promo : Promotion} {remaining : Int}

/-- A capped candidate overruns exactly when its demand exceeds what is left of it. -/
theorem mem_overruns_iff (hIds : (candidates.map Promotion.id).Nodup) (hPromo : promo ∈ candidates)
    (hRemaining : promo.remainingProductUnits = some remaining) (hWithin : 0 ≤ remaining)
    (hDemands : (pass.promotionCapacityDemands.map PromotionCapacityDemand.promotionId).Nodup) :
    promo.id ∈ findCapacityOverrunIds candidates pass ↔
      remaining < ((lookup PromotionCapacityDemand.promotionId pass.promotionCapacityDemands
        promo.id).map PromotionCapacityDemand.units).getD 0 := by
  have hLookup := lookup_reverse hIds hPromo
  rw [findCapacityOverrunIds, List.mem_map]
  constructor
  · rintro ⟨demand, hDemand, hId⟩
    obtain ⟨hMem, hOver⟩ := List.mem_filter.mp hDemand
    simp only [hId, hLookup, Option.bind_some, hRemaining, decide_eq_true_eq] at hOver
    rw [← hId, lookup_of_mem hDemands hMem]
    exact hOver
  · intro hOver
    cases hFound : lookup PromotionCapacityDemand.promotionId pass.promotionCapacityDemands
        promo.id with
    | none =>
        rw [hFound] at hOver
        exact absurd hOver (Int.not_lt.mpr hWithin)
    | some demand =>
        obtain ⟨hMem, hId⟩ := lookup_eq_some hFound
        rw [hFound] at hOver
        refine ⟨demand, List.mem_filter.mpr ⟨hMem, ?_⟩, hId⟩
        simp only [hId, hLookup, Option.bind_some, hRemaining, decide_eq_true_eq]
        exact hOver

theorem not_mem_overruns (hIds : (candidates.map Promotion.id).Nodup) (hPromo : promo ∈ candidates)
    (hOpen : promo.remainingProductUnits = none) :
    promo.id ∉ findCapacityOverrunIds candidates pass := by
  intro hOver
  obtain ⟨other, hId, hOverran⟩ := overran_of_mem hOver
  have hSame : other = promo := List.inj_on_of_nodup_map hIds hOverran.candidate hPromo hId
  obtain ⟨_, _, _, left, hLeft, _⟩ := hOverran.overrun
  rw [hSame, hOpen] at hLeft
  cases hLeft

end

theorem nodup_capacityDemands (lines : List PosEvalLine) (lineResults : List PosEvalLineResult)
    (order : Option PosEvalOrderResult) :
    ((computePromotionCapacityDemands lines lineResults order).map
      PromotionCapacityDemand.promotionId).Nodup := by
  refine ((sortByKey_perm _ _).map _).nodup_iff.mpr ?_
  refine (List.filter_sublist.map _).nodup ?_
  rw [List.map_map]
  exact (List.nodup_dedup _).map fun _ _ h => h

section

variable {input : PosEvalInput} {data : List Promotion} {promo : Promotion}

theorem nodup_notExcluded {excluded : List String} (hIds : (data.map Promotion.id).Nodup) :
    ((notExcluded (loadCandidates input data) excluded).map Promotion.id).Nodup :=
  (List.filter_sublist.map _).nodup (nodup_loadCandidates hIds)

theorem mem_notExcluded {loadedCandidates : List Promotion} {excluded : List String} :
    promo ∈ notExcluded loadedCandidates excluded ↔
      promo ∈ loadedCandidates ∧ promo.id ∉ excluded := by
  simp [notExcluded]

theorem overrunsWithout_congr {loadedCandidates : List Promotion} {first second : List String}
    (h : ∀ id, id ∈ first ↔ id ∈ second) :
    overrunsWithout input loadedCandidates first =
      overrunsWithout input loadedCandidates second := by
  rw [overrunsWithout, overrunsWithout, passWithout, passWithout, notExcluded_congr h]

/-- Nobody is excluded who was not offered. -/
theorem not_excluded_of_optable (hIds : (data.map Promotion.id).Nodup)
    (hKeys : (input.lines.map PosEvalLine.itemId).Nodup)
    (hPromo : promo ∈ loadCandidates input data)
    (hOptable : Optable promo input) :
    promo.id ∉ (evaluate input data).capacityExcludedPromotionIds := by
  obtain ⟨passes, final, hPasses⟩ := passes_end input (loadCandidates input data) []
  rw [evaluate_of_passes hPasses]
  intro hExcluded
  have hFinal : promo.id ∈ final := (sortByKey_perm _ _).subset hExcluded
  rcases hPasses.overran hFinal with hNone | ⟨earlier, _, other, hId, hOverran⟩
  · cases hNone
  · obtain ⟨demand, hDemand, hDemandId, _⟩ := hOverran.overrun
    obtain ⟨source, hSource, hSourceId⟩ := (selectsFrom_isInPlay hKeys).demands demand hDemand
    obtain ⟨hCandidate, hOffered⟩ := List.mem_filter.mp hSource
    have hSame : source = promo := List.inj_on_of_nodup_map (nodup_loadCandidates hIds)
      (mem_notExcluded.mp hCandidate).1 hPromo (hSourceId.trans (hDemandId.trans hId))
    rw [hSame] at hOffered
    simp [isInPlay, isOffered, hOptable.manual, hOptable.notOptedIn] at hOffered

theorem mem_available_iff {candidate : PosEvalManualCandidate} :
    candidate ∈ (evaluateResult input data).availableManualPromotions ↔
      ∃ promo ∈ loadCandidates input data,
        promo.id ∉ (evaluate input data).capacityExcludedPromotionIds ∧ Optable promo input ∧
        (∀ remaining ∈ promo.remainingProductUnits,
          computeManualCandidateSelectedDemand promo.id input (loadCandidates input data)
            (evaluate input data).capacityExcludedPromotionIds ≤ remaining) ∧
        toManualCandidate promo input.lines = candidate := by
  simp only [evaluateResult, availableManualPromotions, List.mem_filterMap, mem_notExcluded,
    manualCandidate, Option.ite_none_right_eq_some, Option.some.injEq, Bool.and_eq_true,
    decide_eq_true_eq, Bool.not_eq_true', List.contains_eq_mem, decide_eq_false_iff_not]
  constructor
  · rintro ⟨promo, ⟨hPromo, hLeft⟩, ⟨⟨⟨⟨⟨hManual, hGates⟩, hVeto⟩, hOpted⟩, hSurfaced⟩, hFits⟩,
      rfl⟩
    exact ⟨promo, hPromo, hLeft, ⟨hManual, hGates, hVeto, hOpted, hSurfaced⟩, hFits, rfl⟩
  · rintro ⟨promo, hPromo, hLeft, h, hFits, rfl⟩
    exact ⟨promo, ⟨hPromo, hLeft⟩, ⟨⟨⟨⟨⟨h.manual, h.gates⟩, h.notVetoed⟩, h.notOptedIn⟩,
      h.surfaced⟩, hFits⟩, rfl⟩

/-- The units left of a promotion, as long as no more than its cap were counted. -/
theorem remaining_nonneg (hCap : ∀ cap ∈ promo.maxProductUnits, promo.consumedProductUnits ≤ cap)
    {remaining : Int} (h : promo.remainingProductUnits = some remaining) : 0 ≤ remaining := by
  obtain ⟨cap, hMax, rfl⟩ := Option.map_eq_some_iff.mp h
  have hWithin := hCap cap hMax
  omega

/-- The simulated demand fits exactly when the promotion does not overrun in the simulated pass. -/
theorem fits_iff (hIds : (data.map Promotion.id).Nodup) (hPromo : promo ∈ loadCandidates input data)
    (hLeft : promo.id ∉ (evaluate input data).capacityExcludedPromotionIds)
    (hCap : ∀ cap ∈ promo.maxProductUnits, promo.consumedProductUnits ≤ cap) :
    (∀ remaining ∈ promo.remainingProductUnits,
      computeManualCandidateSelectedDemand promo.id input (loadCandidates input data)
        (evaluate input data).capacityExcludedPromotionIds ≤ remaining) ↔
      promo.id ∉ simulatedOverruns input data promo.id := by
  have hMem := mem_notExcluded.mpr ⟨hPromo, hLeft⟩
  have hNodup : ((notExcluded (loadCandidates input data)
      (evaluate input data).capacityExcludedPromotionIds).map Promotion.id).Nodup :=
    nodup_notExcluded hIds
  cases hRemaining : promo.remainingProductUnits with
  | none =>
      refine ⟨fun _ => not_mem_overruns hNodup hMem hRemaining, fun _ remaining hSome => ?_⟩
      cases hSome
  | some remaining =>
      have hIff : promo.id ∈ simulatedOverruns input data promo.id ↔ _ :=
        mem_overruns_iff hNodup hMem hRemaining (remaining_nonneg hCap hRemaining)
          (nodup_capacityDemands _ _ _)
      have hDemand : (∀ left ∈ some remaining, computeManualCandidateSelectedDemand promo.id input
          (loadCandidates input data) (evaluate input data).capacityExcludedPromotionIds ≤ left) ↔
            computeManualCandidateSelectedDemand promo.id input (loadCandidates input data)
              (evaluate input data).capacityExcludedPromotionIds ≤ remaining := by
        simp
      rw [hDemand, ← Int.not_lt]
      exact not_congr hIff.symm

theorem toManualCandidate_id (promo : Promotion) (lines : List PosEvalLine) :
    (toManualCandidate promo lines).id = promo.id := by
  unfold toManualCandidate
  split <;> rfl

/-- A promotion is listed exactly when the seller could opt in to it and it does not overrun in
the simulated pass. -/
theorem listed_iff (hIds : (data.map Promotion.id).Nodup)
    (hKeys : (input.lines.map PosEvalLine.itemId).Nodup)
    (hPromo : promo ∈ loadCandidates input data)
    (hCap : ∀ cap ∈ promo.maxProductUnits, promo.consumedProductUnits ≤ cap) :
    Listed input data promo ↔
      Optable promo input ∧ promo.id ∉ simulatedOverruns input data promo.id := by
  constructor
  · rintro ⟨candidate, hListed, hId⟩
    obtain ⟨other, hOther, hLeft, hOptable, hFits, rfl⟩ := mem_available_iff.mp hListed
    rw [toManualCandidate_id] at hId
    obtain rfl : other = promo :=
      List.inj_on_of_nodup_map (nodup_loadCandidates hIds) hOther hPromo hId
    exact ⟨hOptable, (fits_iff hIds hPromo hLeft hCap).mp hFits⟩
  · rintro ⟨hOptable, hFits⟩
    have hLeft := not_excluded_of_optable hIds hKeys hPromo hOptable
    exact ⟨_, mem_available_iff.mpr ⟨promo, hPromo, hLeft, hOptable,
      (fits_iff hIds hPromo hLeft hCap).mpr hFits, rfl⟩, toManualCandidate_id promo input.lines⟩

end

/-! ### The evaluation of the opted-in cart -/

section

variable {input : PosEvalInput} {loadedCandidates : List Promotion}
  {excluded final reached : List String} {passes : List (List String)}

theorem Passes.subset_final (h : Passes input loadedCandidates excluded passes final) :
    excluded ⊆ final := by
  induction h with
  | done _ => exact List.Subset.refl _
  | again _ _ ih => exact List.Subset.trans (List.subset_append_left _ _) ih

/-- What overruns in a pass is excluded from there on. -/
theorem Passes.mem_of_overrun (h : Passes input loadedCandidates excluded passes final)
    (hReached : reached ∈ passes) {id : String}
    (hOverrun : id ∈ overrunsWithout input loadedCandidates reached) : id ∈ final := by
  induction h with
  | done hFits =>
      rw [List.mem_singleton.mp hReached, hFits] at hOverrun
      cases hOverrun
  | @again excluded passes final _ rest ih =>
      rcases List.mem_cons.mp hReached with rfl | hLater
      · exact rest.subset_final (List.mem_append_right _ hOverrun)
      · exact ih hLater

theorem Passes.eq_of_fits (h : Passes input loadedCandidates excluded passes final)
    (hReached : reached ∈ passes) (hFits : overrunsWithout input loadedCandidates reached = []) :
    final = reached := by
  induction h with
  | done _ => exact (List.mem_singleton.mp hReached).symm
  | again hOverrun _ ih =>
      rcases List.mem_cons.mp hReached with rfl | hLater
      · exact absurd hFits hOverrun
      · exact ih hLater

end

section

variable {input : PosEvalInput} {data : List Promotion} {promo : Promotion}
  {passes : List (List String)} {final reached : List String}

/-- An evaluation of the opted-in cart that comes to the simulated pass. -/
theorem simulated_reached
    (hSame : ∀ id, id ∈ reached ↔ id ∈ (evaluate input data).capacityExcludedPromotionIds) :
    simulatedOverruns input data promo.id =
      overrunsWithout (optIn input promo.id) (loadCandidates input data) reached :=
  (overrunsWithout_congr hSame).symm

theorem mem_excluded_optIn
    (hPasses : Passes (optIn input promo.id) (loadCandidates input data) [] passes final)
    {id : String} : id ∈ (evaluate (optIn input promo.id) data).capacityExcludedPromotionIds ↔
      id ∈ final := by
  rw [evaluate_of_passes hPasses]
  exact (sortByKey_perm _ _).mem_iff

/-- A promotion that the list hides is excluded when the opted-in evaluation comes to the
simulated pass. -/
theorem excluded_of_hidden (hIds : (data.map Promotion.id).Nodup)
    (hKeys : (input.lines.map PosEvalLine.itemId).Nodup)
    (hPromo : promo ∈ loadCandidates input data)
    (hCap : ∀ cap ∈ promo.maxProductUnits, promo.consumedProductUnits ≤ cap)
    (hOptable : Optable promo input)
    (hPasses : Passes (optIn input promo.id) (loadCandidates input data) [] passes final)
    (hReached : reached ∈ passes)
    (hSame : ∀ id, id ∈ reached ↔ id ∈ (evaluate input data).capacityExcludedPromotionIds)
    (hHidden : ¬ Listed input data promo) :
    promo.id ∈ (evaluate (optIn input promo.id) data).capacityExcludedPromotionIds := by
  rw [listed_iff hIds hKeys hPromo hCap, not_and, not_not] at hHidden
  have hOverrun := hHidden hOptable
  rw [simulated_reached hSame] at hOverrun
  exact (mem_excluded_optIn hPasses).mpr (hPasses.mem_of_overrun hReached hOverrun)

/-- A listed promotion stays when nothing else overruns in the simulated pass. -/
theorem not_excluded_of_listed (hIds : (data.map Promotion.id).Nodup)
    (hKeys : (input.lines.map PosEvalLine.itemId).Nodup)
    (hPromo : promo ∈ loadCandidates input data)
    (hCap : ∀ cap ∈ promo.maxProductUnits, promo.consumedProductUnits ≤ cap)
    (hPasses : Passes (optIn input promo.id) (loadCandidates input data) [] passes final)
    (hReached : reached ∈ passes)
    (hSame : ∀ id, id ∈ reached ↔ id ∈ (evaluate input data).capacityExcludedPromotionIds)
    (hAlone : ∀ id ∈ simulatedOverruns input data promo.id, id = promo.id)
    (hListed : Listed input data promo) :
    promo.id ∉ (evaluate (optIn input promo.id) data).capacityExcludedPromotionIds := by
  obtain ⟨hOptable, hFits⟩ := (listed_iff hIds hKeys hPromo hCap).mp hListed
  have hNone : simulatedOverruns input data promo.id = [] := by
    rw [List.eq_nil_iff_forall_not_mem]
    intro id hId
    exact hFits (hAlone id hId ▸ hId)
  rw [simulated_reached hSame] at hNone
  rw [mem_excluded_optIn hPasses, hPasses.eq_of_fits hReached hNone, hSame]
  exact not_excluded_of_optable hIds hKeys hPromo hOptable

end

/-! ### The hint of a reward -/

section

variable {promo : Promotion} {lines : List PosEvalLine} {most : Int}

theorem le_maxMatch_iff {groupSize : Int} :
    groupSize ≤ lines.foldl (fun most line =>
      if matchesLine promo line then max most line.quantity else most) most ↔
        groupSize ≤ most ∨
          ∃ line ∈ lines, matchesLine promo line = true ∧ groupSize ≤ line.quantity := by
  induction lines generalizing most with
  | nil => simp
  | cons line rest ih =>
      rw [List.foldl_cons, ih, List.exists_mem_cons_iff]
      by_cases hMatches : matchesLine promo line = true
      · simp only [hMatches, if_true, true_and, le_max_iff, or_assoc]
      · simp only [hMatches, Bool.false_eq_true, if_false, false_and, false_or]

/-- The hint is met by a line that has a whole group, since a group has some unit. -/
theorem eligible_iff {groupSize : Int} (hGroup : 0 < groupSize) :
    groupSize ≤ maxMatchQty promo lines ↔
      ∃ line ∈ lines, matchesLine promo line = true ∧ groupSize ≤ line.quantity := by
  rw [maxMatchQty, le_maxMatch_iff, or_iff_right (Int.not_le.mpr hGroup)]

theorem maxMatchQty_nonneg : 0 ≤ maxMatchQty promo lines :=
  le_maxMatch_iff.mpr (.inl (Int.le_refl 0))

theorem quantity_le_maxMatchQty {line : PosEvalLine} (hLine : line ∈ lines)
    (hMatches : matchesLine promo line = true) : line.quantity ≤ maxMatchQty promo lines :=
  le_maxMatch_iff.mpr (.inr ⟨line, hLine, hMatches, Int.le_refl _⟩)

/-- The fullest line has the most units of those that match. -/
theorem fullest_iff {line : PosEvalLine} (hLine : line ∈ lines)
    (hMatches : matchesLine promo line = true) (hQuantity : 0 ≤ line.quantity) :
    Fullest promo lines line ↔ maxMatchQty promo lines ≤ line.quantity := by
  constructor
  · intro h
    by_contra hLess
    have hOver : line.quantity + 1 ≤ maxMatchQty promo lines := by omega
    obtain ⟨other, hOther, hOtherMatches, hMore⟩ := (eligible_iff (by omega)).mp hOver
    have hMost := h.most other hOther hOtherMatches
    omega
  · intro hMost
    refine ⟨hLine, hMatches, fun other hOther hOtherMatches => ?_⟩
    exact (quantity_le_maxMatchQty hOther hOtherMatches).trans hMost

theorem exists_fullest (hQuantities : ∀ line ∈ lines, 0 ≤ line.quantity)
    (hSome : lines.any (matchesLine promo) = true) : ∃ line, Fullest promo lines line := by
  obtain ⟨line, hLine, hMatches⟩ := List.any_eq_true.mp hSome
  rcases le_maxMatch_iff.mp (Int.le_refl (maxMatchQty promo lines)) with
    hNone | ⟨other, hOther, hOtherMatches, hMost⟩
  · have hQuantity := hQuantities line hLine
    exact ⟨line, (fullest_iff hLine hMatches hQuantity).mpr (hNone.trans hQuantity)⟩
  · exact ⟨other, (fullest_iff hOther hOtherMatches (hQuantities other hOther)).mpr hMost⟩

/-- More units of one line of the cart, among the lines that match. -/
theorem exists_added_iff {line : PosEvalLine} {units groupSize : Int}
    (hKeys : (lines.map PosEvalLine.itemId).Nodup) (hLine : line ∈ lines)
    (hMatches : matchesLine promo line = true)
    (hNone : ∀ other ∈ lines, matchesLine promo other = true → other.quantity < groupSize) :
    (∃ other ∈ lines.map fun other =>
        if other.itemId = line.itemId then { other with quantity := other.quantity + units }
        else other, matchesLine promo other = true ∧ groupSize ≤ other.quantity) ↔
      groupSize ≤ line.quantity + units := by
  constructor
  · rintro ⟨_, hMem, hOtherMatches, hGroup⟩
    obtain ⟨other, hOther, rfl⟩ := List.mem_map.mp hMem
    by_cases hItem : other.itemId = line.itemId
    · obtain rfl : other = line := List.inj_on_of_nodup_map hKeys hOther hLine hItem
      simpa using hGroup
    · rw [if_neg hItem] at hOtherMatches hGroup
      exact absurd hGroup (Int.not_le.mpr (hNone other hOther hOtherMatches))
  · intro hGroup
    refine ⟨{ line with quantity := line.quantity + units }, List.mem_map.mpr ⟨line, hLine, ?_⟩,
      hMatches, hGroup⟩
    rw [if_pos rfl]

/-- The missing units complete a group on the fullest line, and on no other. -/
theorem hint_iff {line : PosEvalLine} (hKeys : (lines.map PosEvalLine.itemId).Nodup)
    (hLine : line ∈ lines) (hMatches : matchesLine promo line = true)
    (hQuantity : 0 ≤ line.quantity) (hHint : (toManualCandidate promo lines).eligible = false) :
    (toManualCandidate promo (lines.map fun other =>
      if other.itemId = line.itemId then
        { other with quantity := other.quantity + (toManualCandidate promo lines).unitsNeeded }
      else other)).eligible = true ↔ Fullest promo lines line := by
  have hReward : promo.type = .buyXGetY := by
    by_contra hOther
    rw [toManualCandidate, if_neg hOther] at hHint
    cases hHint
  have hMissing : ¬ promo.buyQuantity.getD 0 + promo.getQuantity.getD 0 ≤
      maxMatchQty promo lines := by
    rw [toManualCandidate, if_pos hReward] at hHint
    exact of_decide_eq_false hHint
  have hUnits : (toManualCandidate promo lines).unitsNeeded =
      promo.buyQuantity.getD 0 + promo.getQuantity.getD 0 - maxMatchQty promo lines := by
    simp only [toManualCandidate, hReward, if_true, hMissing, decide_false, Bool.false_eq_true,
      if_false]
  have hNonneg : 0 ≤ maxMatchQty promo lines := maxMatchQty_nonneg
  have hNone : ∀ other ∈ lines, matchesLine promo other = true →
      other.quantity < promo.buyQuantity.getD 0 + promo.getQuantity.getD 0 := by
    intro other hOther hOtherMatches
    have hMost := quantity_le_maxMatchQty hOther hOtherMatches
    omega
  have hFlag : ∀ cart, (toManualCandidate promo cart).eligible = true ↔
      promo.buyQuantity.getD 0 + promo.getQuantity.getD 0 ≤ maxMatchQty promo cart := by
    intro cart
    rw [toManualCandidate, if_pos hReward]
    exact decide_eq_true_iff
  rw [hFlag, eligible_iff (by omega), exists_added_iff hKeys hLine hMatches hNone, hUnits,
    fullest_iff hLine hMatches hQuantity]
  omega

end

/-! ### What is offered -/

section

variable {input : PosEvalInput} {data : List Promotion} {promo : Promotion}

/-- More units of a line leave a promotion that could be opted in to. -/
theorem Optable.addUnits (h : Optable promo input) (itemId : String) (units : Int) :
    Optable promo (addUnits itemId units input) := by
  have hMatches : ∀ line : PosEvalLine, matchesLine promo
      (if line.itemId = itemId then { line with quantity := line.quantity + units } else line) =
        matchesLine promo line := by
    intro line
    split <;> rfl
  have hLines : (Promotions.addUnits itemId units input).lines.any (matchesLine promo) =
      input.lines.any (matchesLine promo) := by
    rw [Promotions.addUnits, List.any_map]
    exact congrArg input.lines.any (funext hMatches)
  refine ⟨h.manual, h.gates, h.notVetoed, h.notOptedIn, ?_⟩
  have hSurfaced := h.surfaced
  unfold isSurfaced at hSurfaced ⊢
  rwa [hLines]

theorem itemIds_addUnits (itemId : String) (units : Int) :
    (addUnits itemId units input).lines.map PosEvalLine.itemId =
      input.lines.map PosEvalLine.itemId := by
  rw [addUnits, List.map_map]
  refine List.map_congr_left fun line _ => ?_
  simp only [Function.comp]
  split <;> rfl

theorem entry_eq (hIds : (data.map Promotion.id).Nodup) (hPromo : promo ∈ loadCandidates input data)
    {candidate : PosEvalManualCandidate}
    (hListed : candidate ∈ (evaluateResult input data).availableManualPromotions)
    (hId : candidate.id = promo.id) :
    Optable promo input ∧ candidate = toManualCandidate promo input.lines := by
  obtain ⟨other, hOther, _, hOptable, _, rfl⟩ := mem_available_iff.mp hListed
  rw [toManualCandidate_id] at hId
  obtain rfl : other = promo :=
    List.inj_on_of_nodup_map (nodup_loadCandidates hIds) hOther hPromo hId
  exact ⟨hOptable, rfl⟩

end

/-- For every cart and every loaded promotion whose cap was not passed: it is listed exactly when
the seller could opt in to it and it does not overrun in the simulated pass. Where the evaluation
of the opted-in cart comes to that pass, a promotion that is hidden is excluded there, and one
that is listed stays, unless another promotion overruns with it. The units that a reward needs
make it eligible on the fullest line of its target, and on no other line. -/
theorem manual_offers (input : PosEvalInput) (data : List Promotion)
    (hIds : (data.map Promotion.id).Nodup)
    (hKeys : (input.lines.map PosEvalLine.itemId).Nodup)
    (hQuantities : ∀ line ∈ input.lines, 0 ≤ line.quantity) {promo : Promotion}
    (hPromo : promo ∈ loadCandidates input data)
    (hCap : ∀ cap ∈ promo.maxProductUnits, promo.consumedProductUnits ≤ cap) :
    (Listed input data promo ↔
      Optable promo input ∧ promo.id ∉ simulatedOverruns input data promo.id) ∧
    (Optable promo input → ∀ passes final,
      Passes (optIn input promo.id) (loadCandidates input data) [] passes final →
      ∀ reached ∈ passes,
        (∀ id, id ∈ reached ↔ id ∈ (evaluate input data).capacityExcludedPromotionIds) →
        (¬ Listed input data promo →
          promo.id ∈ (evaluate (optIn input promo.id) data).capacityExcludedPromotionIds) ∧
        ((∀ id ∈ simulatedOverruns input data promo.id, id = promo.id) →
          (Listed input data promo ↔
            promo.id ∉ (evaluate (optIn input promo.id) data).capacityExcludedPromotionIds))) ∧
    ∀ candidate ∈ (evaluateResult input data).availableManualPromotions,
      candidate.id = promo.id → candidate.eligible = false →
      (∃ line, Fullest promo input.lines line) ∧
      ∀ line ∈ input.lines, matchesLine promo line = true →
        let cart := addUnits line.itemId candidate.unitsNeeded input
        (Listed cart data promo ∨ promo.id ∈ simulatedOverruns cart data promo.id) ∧
        ∀ entry ∈ (evaluateResult cart data).availableManualPromotions, entry.id = promo.id →
          (entry.eligible = true ↔ Fullest promo input.lines line) := by
  refine ⟨listed_iff hIds hKeys hPromo hCap, ?_, ?_⟩
  · intro hOptable passes final hPasses reached hReached hSame
    have hExcluded := excluded_of_hidden hIds hKeys hPromo hCap hOptable hPasses hReached hSame
    refine ⟨hExcluded, fun hAlone => ⟨fun hListed => ?_, fun hStays => ?_⟩⟩
    · exact not_excluded_of_listed hIds hKeys hPromo hCap hPasses hReached hSame hAlone hListed
    · by_contra hHidden
      exact hStays (hExcluded hHidden)
  · intro candidate hListed hId hHint
    obtain ⟨hOptable, rfl⟩ := entry_eq hIds hPromo hListed hId
    have hReward : promo.type = .buyXGetY := by
      by_contra hOther
      rw [toManualCandidate, if_neg hOther] at hHint
      cases hHint
    have hSome : input.lines.any (matchesLine promo) = true := by
      have hSurfaced := hOptable.surfaced
      rwa [isSurfaced, hReward] at hSurfaced
    refine ⟨exists_fullest hQuantities hSome, fun line hLine hMatches => ?_⟩
    have hCartKeys : ((addUnits line.itemId (toManualCandidate promo input.lines).unitsNeeded
        input).lines.map PosEvalLine.itemId).Nodup := by
      rw [itemIds_addUnits]
      exact hKeys
    have hCartPromo : promo ∈ loadCandidates (addUnits line.itemId
        (toManualCandidate promo input.lines).unitsNeeded input) data := hPromo
    refine ⟨?_, fun entry hEntry hEntryId => ?_⟩
    · rw [listed_iff hIds hCartKeys hCartPromo hCap]
      by_cases hOver : promo.id ∈ simulatedOverruns
          (addUnits line.itemId (toManualCandidate promo input.lines).unitsNeeded input) data
          promo.id
      · exact .inr hOver
      · exact .inl ⟨hOptable.addUnits _ _, hOver⟩
    · obtain ⟨_, rfl⟩ := entry_eq hIds hCartPromo hEntry hEntryId
      exact hint_iff hKeys hLine hMatches (hQuantities line hLine) hHint

instance (input : PosEvalInput) (data : List Promotion) (promo : Promotion) :
    Decidable (Listed input data promo) :=
  inferInstanceAs (Decidable (∃ candidate ∈ _, _))

/-- A manual discount on the product of the sample cart, with one unit left. -/
def manualDiscount (cents : Int) : Promotion :=
  { samplePromotion "manual" .productDiscount cents none with
    method := .manual
    maxProductUnits := some 1 }

/-- Three for two on the same product. -/
def threeForTwo (id : String) : Promotion :=
  { samplePromotion id .buyXGetY 0 none with
    appliesTo := some .products
    buyQuantity := some 2
    getQuantity := some 1
    getDiscountPercent := some 100 }

theorem manual_offers_of_manual_discount :
    Listed (sampleCart 1) [manualDiscount 100] (manualDiscount 100) ↔
      Optable (manualDiscount 100) (sampleCart 1) ∧
        "manual" ∉ simulatedOverruns (sampleCart 1) [manualDiscount 100] "manual" :=
  (manual_offers (sampleCart 1) [manualDiscount 100] (by decide) (by decide) (by decide)
    List.mem_cons_self (by decide)).1

/-- Lines of the product, each with its price and units. -/
def productCart (lines : List (String × Int × Int)) : PosEvalInput :=
  { sampleCart 1 with
    lines := lines.map fun (itemId, price, quantity) =>
      ⟨itemId, "product", none, quantity, price, none, some "category", none, false⟩ }

/-- A tenth off the product, with one unit left. -/
def tenthOff : Promotion :=
  { samplePromotion "tenth" .productDiscount 10 none with
    discountType := some .percentage
    maxProductUnits := some 1 }

/-- Half off the category, for everybody. -/
def halfOff : Promotion :=
  { samplePromotion "half" .productDiscount 50 none with
    discountType := some .percentage
    appliesTo := some .categories
    targetItems := [⟨.default, .categories, "category"⟩] }

/-- A reward without a unit left. -/
def spentReward : Promotion :=
  { threeForTwo "reward" with
    maxProductUnits := some 1
    consumedProductUnits := 1 }

def manualReward : Promotion := { threeForTwo "reward" with method := .manual }

/-- What the list says of each promotion: whether it is eligible, and the units it needs. -/
def hints (input : PosEvalInput) (data : List Promotion) : List (String × Bool × Int) :=
  (evaluateResult input data).availableManualPromotions.map fun entry =>
    (entry.id, entry.eligible, entry.unitsNeeded)

/-- The tenth runs short of its two lines, so that the manual discount is taken to need both and
is hidden; opted in, it takes the line where it is the better one, and both fit. The half keeps
the spent reward from the line until the manual discount displaces it: listed on one pass, the
manual discount is excluded on the next, when the reward is gone. And the one unit that a reward
needs does not make it eligible on the line with fewer units. -/
theorem offers_drift :
    (¬ Listed (productCart [("cheap", 500, 1), ("dear", 2000, 1)]) [tenthOff, manualDiscount 100]
        (manualDiscount 100) ∧
      "manual" ∉ (evaluate (optIn (productCart [("cheap", 500, 1), ("dear", 2000, 1)]) "manual")
        [tenthOff, manualDiscount 100]).capacityExcludedPromotionIds) ∧
    (Listed (productCart [("line", 100, 3)]) [halfOff, spentReward, manualDiscount 1]
        (manualDiscount 1) ∧
      "manual" ∈ (evaluate (optIn (productCart [("line", 100, 3)]) "manual")
        [halfOff, spentReward, manualDiscount 1]).capacityExcludedPromotionIds) ∧
    hints (productCart [("full", 100, 2), ("small", 100, 1)]) [manualReward] =
      [("reward", false, 1)] ∧
    hints (addUnits "small" 1 (productCart [("full", 100, 2), ("small", 100, 1)]))
      [manualReward] = [("reward", false, 1)] := by
  decide +kernel

end Houndfe.Promotions
