import Houndfe.Promotions.InPlay
import Houndfe.Promotions.OrderIndependence

/-! The winner of a line. Product discounts climb a ladder of specificity and are ranked by what
they take off one unit; the winner of the ladder, every buy-x-get-y reward and every advanced
reward of the line are ranked by what they save on the whole line, and ties go to the lowest
promotion id. -/

namespace Houndfe.Promotions

open Keyed Ranking

/-- It saves more, or as much under an id that is not higher. -/
def NoWorse (saving : Int) (id : String) (otherSaving : Int) (otherId : String) : Prop :=
  otherSaving < saving ∨ otherSaving = saving ∧ id ≤ otherId

/-- The eligible product discount of the most specific tier, and the best of that tier. -/
structure LadderWinner (line : PosEvalLine) (input : PosEvalInput) (candidates : List Promotion)
    (winner : PerLineCandidate) : Prop where
  eligible : ∃ promo ∈ candidates, perLineCandidate line input promo = some winner
  tops : ∀ promo ∈ candidates, ∀ other, perLineCandidate line input promo = some other →
    other.tier.ordinal < winner.tier.ordinal ∨ other.tier.ordinal = winner.tier.ordinal ∧
      NoWorse winner.discountCents winner.promotion.id other.discountCents other.promotion.id

/-- The results that contend for a line, each with its saving on the whole line. -/
inductive Contends (input : PosEvalInput) (candidates : List Promotion) (line : PosEvalLine) :
    PosEvalLineResult → Int → Prop where
  | productDiscount {winner : PerLineCandidate} (wins : LadderWinner line input candidates winner) :
      Contends input candidates line (toLineResult line.itemId winner)
        (winner.discountCents * line.quantity)
  | buyXGetY {promo : Promotion} {reward : RewardCandidate} (candidate : promo ∈ candidates)
      (eligible : buyXGetYCandidate line input promo = some reward) :
      Contends input candidates line (reward.toLineResult line.itemId) reward.lineDiscountCents
  | advanced {promo : Promotion} {reward : AdvancedLineReward} (candidate : promo ∈ candidates)
      (rewarded : reward ∈ advancedRewards input.lines input promo)
      (item : reward.itemId = line.itemId) (saves : 0 < reward.lineDiscountCents) :
      Contends input candidates line (reward.toLineResult promo) reward.lineDiscountCents

/-- The result of a line is a contender that no other one beats; without a result nothing
contends. -/
def Wins (input : PosEvalInput) (candidates : List Promotion) (line : PosEvalLine) :
    Option PosEvalLineResult → Prop
  | none => ∀ result saving, ¬ Contends input candidates line result saving
  | some result => ∃ saving, Contends input candidates line result saving ∧
      ∀ other otherSaving, Contends input candidates line other otherSaving →
        NoWorse saving result.promotionId otherSaving other.promotionId

section

variable {input : PosEvalInput} {candidates : List Promotion} {line : PosEvalLine}

theorem noWorse_iff {saving otherSaving : Int} {id otherId : String} :
    NoWorse saving id otherSaving otherId ↔ savingRank saving id ≤ savingRank otherSaving otherId := by
  rw [savingRank, savingRank, Prod.Lex.toLex_le_toLex]
  simp only [NoWorse, neg_lt_neg_iff, neg_inj]
  rw [eq_comm]

/-! ### The ladder -/

theorem foldl_ordinal (eligible : List PerLineCandidate) (start : Nat) :
    start ≤ eligible.foldl (fun m c => max m c.tier.ordinal) start ∧
      (∀ c ∈ eligible, c.tier.ordinal ≤ eligible.foldl (fun m c => max m c.tier.ordinal) start) ∧
      (eligible.foldl (fun m c => max m c.tier.ordinal) start = start ∨
        ∃ c ∈ eligible, c.tier.ordinal =
          eligible.foldl (fun m c => max m c.tier.ordinal) start) := by
  induction eligible generalizing start with
  | nil => simp
  | cons c rest ih =>
      obtain ⟨hStart, hRest, hTaken⟩ := ih (max start c.tier.ordinal)
      rw [List.foldl_cons]
      refine ⟨(le_max_left _ _).trans hStart, ?_, ?_⟩
      · intro d hMem
        rcases List.mem_cons.mp hMem with rfl | hIn
        · exact (le_max_right _ _).trans hStart
        · exact hRest d hIn
      · rcases hTaken with hSame | ⟨d, hIn, hTop⟩
        · rcases max_choice start c.tier.ordinal with hMax | hMax
          · exact Or.inl (hSame.trans hMax)
          · exact Or.inr ⟨c, List.mem_cons_self, (hSame.trans hMax).symm⟩
        · exact Or.inr ⟨d, List.mem_cons_of_mem _ hIn, hTop⟩

theorem ladderWinner_of_pick {winner : PerLineCandidate}
    (h : pickBestPerLine line candidates input = some winner) :
    LadderWinner line input candidates winner := by
  refine ⟨(pickBestPerLine_eq_some h).2, ?_⟩
  intro promo hPromo other hOther
  have hIn : other ∈ candidates.filterMap (perLineCandidate line input) :=
    List.mem_filterMap.mpr ⟨promo, hPromo, hOther⟩
  unfold pickBestPerLine at h
  split at h
  · cases h
  · have hOrdinal := (List.mem_filter.mp (pickBest_mem h)).2
    rw [decide_eq_true_eq] at hOrdinal
    have hMost := (foldl_ordinal (candidates.filterMap (perLineCandidate line input)) 0).2.1 other hIn
    rw [← hOrdinal] at hMost
    rcases lt_or_eq_of_le hMost with hLess | hSame
    · exact Or.inl hLess
    · refine Or.inr ⟨hSame, noWorse_iff.mpr ?_⟩
      have hSurvives : other ∈ (candidates.filterMap (perLineCandidate line input)).filter
          fun c => c.tier.ordinal = (candidates.filterMap (perLineCandidate line input)).foldl
            (fun m c => max m c.tier.ordinal) 0 :=
        List.mem_filter.mpr ⟨hIn, decide_eq_true (hSame.trans hOrdinal)⟩
      have hBetter : ∀ c d : PerLineCandidate,
          ranksHigher c.discountCents c.promotion.id d.discountCents d.promotion.id = _ :=
        fun c d => ranksHigher_eq _ _ _ _
      exact pickBest_le (fun c => savingRank c.discountCents c.promotion.id) hBetter h hSurvives

/-- Where a product discount is eligible, the ladder has a winner. -/
theorem pickBestPerLine_ne_none (hManual : line.hasManualDiscount = false) {promo : Promotion}
    {winner : PerLineCandidate} (hPromo : promo ∈ candidates)
    (hEligible : perLineCandidate line input promo = some winner) :
    pickBestPerLine line candidates input ≠ none := by
  have hIn : winner ∈ candidates.filterMap (perLineCandidate line input) :=
    List.mem_filterMap.mpr ⟨promo, hPromo, hEligible⟩
  obtain ⟨_, hMost, hTaken⟩ := foldl_ordinal (candidates.filterMap (perLineCandidate line input)) 0
  obtain ⟨top, hTop, hOrdinal⟩ : ∃ c ∈ candidates.filterMap (perLineCandidate line input),
      c.tier.ordinal = (candidates.filterMap (perLineCandidate line input)).foldl
        (fun m c => max m c.tier.ordinal) 0 := by
    rcases hTaken with hZero | hTop
    · have hLow := hMost winner hIn
      rw [hZero] at hLow
      cases hTier : winner.tier <;> simp [hTier, LineMatchTier.ordinal] at hLow
    · exact hTop
  have hSurvives : top ∈ (candidates.filterMap (perLineCandidate line input)).filter
      fun c => c.tier.ordinal = (candidates.filterMap (perLineCandidate line input)).foldl
        (fun m c => max m c.tier.ordinal) 0 :=
    List.mem_filter.mpr ⟨hTop, decide_eq_true hOrdinal⟩
  unfold pickBestPerLine
  rw [if_neg (by simp [hManual])]
  exact pickBest_ne_none (fun c => savingRank c.discountCents c.promotion.id)
    (fun c d => ranksHigher_eq _ _ _ _) hSurvives

/-- Winners of one ladder take the same off a unit, under the same id. -/
theorem LadderWinner.unique {winner other : PerLineCandidate}
    (h : LadderWinner line input candidates winner)
    (h' : LadderWinner line input candidates other) :
    winner.discountCents = other.discountCents ∧ winner.promotion.id = other.promotion.id := by
  obtain ⟨promo, hPromo, hEligible⟩ := h.eligible
  obtain ⟨promo', hPromo', hEligible'⟩ := h'.eligible
  have hBelow := h'.tops promo hPromo winner hEligible
  have hAbove := h.tops promo' hPromo' other hEligible'
  unfold NoWorse at hBelow hAbove
  have hCents : winner.discountCents = other.discountCents := by omega
  refine ⟨hCents, le_antisymm ?_ ?_⟩
  · rcases hAbove with hLess | ⟨_, hLess | ⟨_, hId⟩⟩
    · omega
    · omega
    · exact hId
  · rcases hBelow with hLess | ⟨_, hLess | ⟨_, hId⟩⟩
    · omega
    · omega
    · exact hId

/-! ### The contenders by rank -/

theorem toLineResult_promotionId (itemId : String) (winner : PerLineCandidate) :
    (toLineResult itemId winner).promotionId = winner.promotion.id := by
  dsimp only [toLineResult]
  split <;> rfl

theorem total_toLineResult {winner : PerLineCandidate} {promo : Promotion}
    (h : perLineCandidate line input promo = some winner) :
    existingLineResultTotalCents line (some (toLineResult line.itemId winner)) =
      winner.discountCents * line.quantity := by
  have hRanked : Ranked input [promo] line (toLineResult line.itemId winner) winner.discountCents :=
    .productDiscount List.mem_cons_self h
  have hSaving := hRanked.saving_eq
  unfold toLineResult at hSaving ⊢
  dsimp only at hSaving ⊢
  split at hSaving
  · next hPercentage => rw [if_pos hPercentage, existingLineResultTotalCents, hSaving]
  · next hFixed => rw [if_neg hFixed, existingLineResultTotalCents, hSaving]

theorem Contends.total_eq {result : PosEvalLineResult} {saving : Int}
    (h : Contends input candidates line result saving) :
    existingLineResultTotalCents line (some result) = saving := by
  cases h with
  | productDiscount wins =>
      obtain ⟨promo, _, hEligible⟩ := wins.eligible
      exact total_toLineResult hEligible
  | buyXGetY _ _ => rfl
  | advanced _ _ _ _ => rfl

theorem noWorse_of_rank_le {result other : PosEvalLineResult} {saving otherSaving : Int}
    (h : Contends input candidates line result saving)
    (h' : Contends input candidates line other otherSaving)
    (hRank : resultRank line (some result) ≤ resultRank line (some other)) :
    NoWorse saving result.promotionId otherSaving other.promotionId := by
  rw [resultRank, resultRank, h.total_eq, h'.total_eq, Prod.Lex.toLex_le_toLex] at hRank
  rcases hRank with hLess | ⟨hSame, hId⟩
  · exact Or.inl (neg_lt_neg_iff.mp hLess)
  · exact Or.inr ⟨(neg_inj.mp hSame).symm, WithTop.coe_le_coe.mp hId⟩

theorem resultFor_productDiscountResults (hKeys : (input.lines.map PosEvalLine.itemId).Nodup)
    (hLine : line ∈ input.lines) :
    resultFor (productDiscountResults input.lines candidates input) line.itemId =
      (pickBestPerLine line candidates input).map (toLineResult line.itemId) := by
  have hKey : ∀ (line : PosEvalLine) (result : PosEvalLineResult),
      (pickBestPerLine line candidates input).map (toLineResult line.itemId) = some result →
        result.itemId = line.itemId := by
    intro line result hResult
    obtain ⟨winner, _, rfl⟩ := Option.map_eq_some_iff.mp hResult
    exact toLineResult_itemId _ _
  unfold productDiscountResults resultFor
  rw [lookup_filterMap hKey hKeys, lookup_of_mem hKeys hLine, Option.bind_some]

/-- What the buy-x-get-y pass offers to a line. -/
def buyXGetYOffer (candidates : List Promotion) (input : PosEvalInput) (line : PosEvalLine) :
    Option (Option PosEvalLineResult) :=
  (pickBestBuyXGetYPerLine line candidates input).map fun winner =>
    some (winner.toLineResult line.itemId)

/-- A product discount is compared with the buy-x-get-y winner of its line as it stands. -/
theorem buyXGetYRule_eq {pick : Option PerLineCandidate} :
    buyXGetYRule candidates input line (pick.map (toLineResult line.itemId)) =
      keepOffer (resultRank line) (buyXGetYOffer candidates input)
        (pick.map (toLineResult line.itemId)) line := by
  have hKind : notBuyXGetY (pick.map (toLineResult line.itemId)) =
      pick.map (toLineResult line.itemId) := by
    cases pick with
    | none => rfl
    | some winner =>
        simp only [Option.map_some, toLineResult]
        split <;> rfl
  unfold buyXGetYRule keepOffer buyXGetYOffer
  rw [hKind]
  cases pickBestBuyXGetYPerLine line candidates input with
  | none => rfl
  | some winner =>
      have hReplaces := replacesExisting_eq line (pick.map (toLineResult line.itemId)) .buyXGetY
        ⟨line.itemId, winner.promotion.id, winner.promotion.title, winner.lineDiscountCents,
          winner.perUnitRewardCents, winner.discountedUnitCount, winner.getDiscountPercent⟩
      dsimp only at hReplaces
      simp only [hReplaces, Option.map_some, keep, RewardCandidate.toLineResult, decide_eq_true_eq]

/-- The result of a line is kept from its product discount, the buy-x-get-y winner and the advanced
rewards, one after the other. -/
theorem resultFor_evaluateLines (hKeys : (input.lines.map PosEvalLine.itemId).Nodup)
    (hLine : line ∈ input.lines) :
    resultFor (evaluateLines input candidates) line.itemId =
      candidates.foldl (keepOffer (resultRank line) (advancedOffer input line))
        (keepOffer (resultRank line) (buyXGetYOffer candidates input)
          ((pickBestPerLine line candidates input).map (toLineResult line.itemId)) line) := by
  have hPass : resultFor (evaluateBuyXGetYPass input.lines candidates input
      (productDiscountResults input.lines candidates input)) line.itemId =
        buyXGetYRule candidates input line
          (resultFor (productDiscountResults input.lines candidates input) line.itemId) := by
    unfold evaluateBuyXGetYPass resultFor
    rw [lookup_foldl (buyXGetYStep_local candidates input) hKeys, lookup_of_mem hKeys hLine]
  rw [evaluateLines, resultFor_evaluateAdvancedPass hKeys hLine, hPass,
    resultFor_productDiscountResults hKeys hLine, buyXGetYRule_eq]

theorem advancedOffer_eq_some {promo : Promotion} {offered : Option PosEvalLineResult}
    (hPromo : promo ∈ candidates) (h : advancedOffer input line promo = some offered) :
    ∃ result saving, offered = some result ∧ Contends input candidates line result saving := by
  unfold advancedOffer at h
  split at h
  · cases h
  · next reward hReward =>
      obtain ⟨hSaves, h⟩ := Option.ite_none_right_eq_some.mp h
      cases h
      obtain ⟨hMem, hItem⟩ := lookup_eq_some hReward
      exact ⟨_, _, rfl, .advanced hPromo hMem hItem hSaves⟩

theorem advancedOffer_of_reward (hKeys : (input.lines.map PosEvalLine.itemId).Nodup)
    {promo : Promotion} {reward : AdvancedLineReward}
    (hMem : reward ∈ advancedRewards input.lines input promo) (hItem : reward.itemId = line.itemId)
    (hSaves : 0 < reward.lineDiscountCents) :
    advancedOffer input line promo = some (some (reward.toLineResult promo)) := by
  have hLookup : lookup AdvancedLineReward.itemId (advancedRewards input.lines input promo)
      line.itemId = some reward := by
    rw [← hItem]
    exact lookup_of_mem (advancedRewards_itemIds hKeys promo) hMem
  unfold advancedOffer
  simp only [hLookup, hSaves, if_true]

theorem buyXGetYOffer_eq_some {offered : Option PosEvalLineResult}
    (h : buyXGetYOffer candidates input line = some offered) :
    ∃ result saving, offered = some result ∧ Contends input candidates line result saving := by
  obtain ⟨winner, hWinner, rfl⟩ := Option.map_eq_some_iff.mp h
  obtain ⟨_, promo, hPromo, hEligible⟩ := pickBestBuyXGetYPerLine_eq_some hWinner
  exact ⟨_, _, rfl, .buyXGetY hPromo hEligible⟩

/-- The buy-x-get-y pass offers the best of the eligible rewards. -/
theorem buyXGetYOffer_of_candidate (hManual : line.hasManualDiscount = false) {promo : Promotion}
    {reward : RewardCandidate} (hPromo : promo ∈ candidates)
    (hEligible : buyXGetYCandidate line input promo = some reward) :
    ∃ offered, buyXGetYOffer candidates input line = some offered ∧
      resultRank line offered ≤ resultRank line (some (reward.toLineResult line.itemId)) := by
  have hIn : reward ∈ candidates.filterMap (buyXGetYCandidate line input) :=
    List.mem_filterMap.mpr ⟨promo, hPromo, hEligible⟩
  have hBetter : ∀ c d : RewardCandidate,
      ranksHigher c.lineDiscountCents c.promotion.id d.lineDiscountCents d.promotion.id = _ :=
    fun c d => ranksHigher_eq _ _ _ _
  cases hPick : pickBestBuyXGetYPerLine line candidates input with
  | none =>
      unfold pickBestBuyXGetYPerLine at hPick
      rw [if_neg (by simp [hManual])] at hPick
      exact absurd hPick (pickBest_ne_none
        (fun c : RewardCandidate => savingRank c.lineDiscountCents c.promotion.id) hBetter hIn)
  | some winner =>
      refine ⟨some (winner.toLineResult line.itemId), by simp [buyXGetYOffer, hPick], ?_⟩
      unfold pickBestBuyXGetYPerLine at hPick
      rw [if_neg (by simp [hManual])] at hPick
      have hRank := pickBest_le
        (fun c : RewardCandidate => savingRank c.lineDiscountCents c.promotion.id) hBetter hPick hIn
      rw [savingRank, savingRank, Prod.Lex.toLex_le_toLex] at hRank
      rw [resultRank, resultRank, Prod.Lex.toLex_le_toLex]
      exact hRank.imp id fun hTie => ⟨hTie.1, WithTop.coe_le_coe.mpr hTie.2⟩

/-- Whatever contends for a line ranks no higher than what the line is left with. -/
theorem resultRank_le_of_contends (hKeys : (input.lines.map PosEvalLine.itemId).Nodup)
    (hLine : line ∈ input.lines) (hManual : line.hasManualDiscount = false)
    {other : PosEvalLineResult} {saving : Int} (h : Contends input candidates line other saving) :
    resultRank line (resultFor (evaluateLines input candidates) line.itemId) ≤
      resultRank line (some other) := by
  rw [resultFor_evaluateLines hKeys hLine]
  obtain ⟨hMiddle, hAdvanced⟩ := foldl_keepOffer_le (resultRank line) (advancedOffer input line)
    candidates (keepOffer (resultRank line) (buyXGetYOffer candidates input)
      ((pickBestPerLine line candidates input).map (toLineResult line.itemId)) line)
  obtain ⟨hStart, hBuyXGetY⟩ := foldl_keepOffer_le (resultRank line) (buyXGetYOffer candidates input)
    [line] ((pickBestPerLine line candidates input).map (toLineResult line.itemId))
  rw [List.foldl_cons, List.foldl_nil] at hStart hBuyXGetY
  cases h with
  | @productDiscount winner wins =>
      obtain ⟨promo, hPromo, hEligible⟩ := wins.eligible
      obtain ⟨best, hBest⟩ :=
        Option.ne_none_iff_exists'.mp (pickBestPerLine_ne_none hManual hPromo hEligible)
      obtain ⟨hCents, hId⟩ := (ladderWinner_of_pick hBest).unique wins
      have hSame : resultRank line ((pickBestPerLine line candidates input).map
          (toLineResult line.itemId)) = resultRank line (some (toLineResult line.itemId winner)) := by
        obtain ⟨_, _, hBestEligible⟩ := (pickBestPerLine_eq_some hBest).2
        rw [hBest, Option.map_some, resultRank, resultRank, total_toLineResult hBestEligible,
          total_toLineResult hEligible, hCents]
        simp [toLineResult_promotionId, hId]
      exact (hMiddle.trans hStart).trans hSame.le
  | buyXGetY candidate eligible =>
      obtain ⟨offered, hOffered, hRank⟩ := buyXGetYOffer_of_candidate hManual candidate eligible
      exact hMiddle.trans ((hBuyXGetY line List.mem_cons_self offered hOffered).trans hRank)
  | advanced candidate rewarded item saves =>
      exact hAdvanced _ candidate _ (advancedOffer_of_reward hKeys rewarded item saves)

/-- What a line is left with contends for it; without a product discount there may be nothing. -/
theorem contends_of_resultFor (hKeys : (input.lines.map PosEvalLine.itemId).Nodup)
    (hLine : line ∈ input.lines) :
    (resultFor (evaluateLines input candidates) line.itemId = none ∧
        pickBestPerLine line candidates input = none) ∨
      ∃ result saving, resultFor (evaluateLines input candidates) line.itemId = some result ∧
        Contends input candidates line result saving := by
  rw [resultFor_evaluateLines hKeys hLine]
  rcases foldl_keepOffer_mem (resultRank line) (advancedOffer input line) candidates
    (keepOffer (resultRank line) (buyXGetYOffer candidates input)
      ((pickBestPerLine line candidates input).map (toLineResult line.itemId)) line) with
    hSame | ⟨promo, hPromo, hOffer⟩
  · rw [hSame]
    rcases foldl_keepOffer_mem (resultRank line) (buyXGetYOffer candidates input) [line]
      ((pickBestPerLine line candidates input).map (toLineResult line.itemId)) with
      hStart | ⟨other, hOther, hOffer⟩
    · rw [List.foldl_cons, List.foldl_nil] at hStart
      rw [hStart]
      cases hPick : pickBestPerLine line candidates input with
      | none => exact Or.inl ⟨rfl, rfl⟩
      | some winner => exact Or.inr ⟨_, _, rfl, .productDiscount (ladderWinner_of_pick hPick)⟩
    · rw [List.mem_singleton] at hOther
      subst hOther
      exact Or.inr (buyXGetYOffer_eq_some hOffer)
  · exact Or.inr (advancedOffer_eq_some hPromo hOffer)

theorem evaluateLines_wins (hKeys : (input.lines.map PosEvalLine.itemId).Nodup)
    (hLine : line ∈ input.lines) (hManual : line.hasManualDiscount = false) :
    Wins input candidates line (resultFor (evaluateLines input candidates) line.itemId) := by
  have hRank := @resultRank_le_of_contends input candidates line hKeys hLine hManual
  rcases @contends_of_resultFor input candidates line hKeys hLine with
    ⟨hNone, hPick⟩ | ⟨result, saving, hSome, hContends⟩
  · rw [hNone] at hRank ⊢
    intro other saving hOther
    have hLess := hRank hOther
    rw [resultRank, resultRank, hOther.total_eq, Prod.Lex.toLex_le_toLex] at hLess
    have hSaves : saving < 0 := by
      rcases hLess with hLess | ⟨_, hTop⟩
      · simpa [existingLineResultTotalCents] using hLess
      · exact absurd (top_le_iff.mp hTop) (WithTop.coe_ne_top)
    cases hOther with
    | productDiscount wins =>
        obtain ⟨promo, hPromo, hEligible⟩ := wins.eligible
        exact pickBestPerLine_ne_none hManual hPromo hEligible hPick
    | buyXGetY candidate eligible =>
        have hPositive := (buyXGetYCandidate_eq_some eligible).2.2.1
        omega
    | advanced candidate rewarded item saves => omega
  · rw [hSome] at hRank ⊢
    exact ⟨saving, hContends, fun other otherSaving hOther =>
      noWorse_of_rank_le hContends hOther (hRank hOther)⟩

/-! ### What an evaluation emits -/

/-- The promotion of a result is offered to the cart: no veto, an opt-in where it is manual, in
its days and hours, for this customer, and its prices are those of the line. -/
def OfferedTo (input : PosEvalInput) (candidates : List Promotion) (line : PosEvalLine)
    (promotionId : String) : Prop :=
  ∃ promo ∈ candidates, promo.id = promotionId ∧ isOffered promo input = true ∧
    passesPromotionWideGates promo input = true ∧ matchesPriceList promo line = true

/-- One result at most for a line, none for a line with a manual discount, each of a promotion
that is offered, and the winner of its line. -/
structure EmitsWinners (input : PosEvalInput) (candidates : List Promotion)
    (lineResults : List PosEvalLineResult) : Prop where
  once : (lineResults.map PosEvalLineResult.itemId).Nodup
  offered : ∀ result ∈ lineResults, ∃ line ∈ input.lines, result.itemId = line.itemId ∧
    line.hasManualDiscount = false ∧ OfferedTo input candidates line result.promotionId
  wins : ∀ line ∈ input.lines, line.hasManualDiscount = false →
    Wins input candidates line (resultFor lineResults line.itemId)

theorem Ranked.priced (hKeys : (input.lines.map PosEvalLine.itemId).Nodup)
    (hLine : line ∈ input.lines) {result : PosEvalLineResult} {saving : Int}
    (h : Ranked input candidates line result saving) :
    ∃ promo ∈ candidates, promo.id = result.promotionId ∧ matchesPriceList promo line = true := by
  cases h with
  | @productDiscount promo winner hPromo hWinner =>
      obtain ⟨hSame, _⟩ := perLineCandidate_eq_some hWinner
      refine ⟨promo, hPromo, by rw [toLineResult_promotionId, hSame], ?_⟩
      unfold perLineCandidate at hWinner
      split at hWinner
      · split at hWinner
        · cases hWinner
        · exact (Bool.and_eq_true_iff.mp (Option.ite_none_right_eq_some.mp hWinner).1).1
      · cases hWinner
  | @buyXGetY promo winner hPromo hWinner =>
      obtain ⟨hSame, _⟩ := buyXGetYCandidate_eq_some hWinner
      obtain ⟨hGates, _⟩ := Option.ite_none_right_eq_some.mp hWinner
      exact ⟨promo, hPromo, by rw [← hSame]; rfl, (Bool.and_eq_true_iff.mp hGates).2⟩
  | @advanced promo reward hPromo hReward hItem hSaves =>
      obtain ⟨_, rewarded, hRewarded, hOf⟩ := mem_advancedRewards hReward
      obtain ⟨hIn, hSide⟩ := List.mem_filter.mp hRewarded
      have hSame : rewarded = line :=
        List.inj_on_of_nodup_map hKeys hIn hLine (hOf.itemId.symm.trans hItem)
      rw [hSame] at hSide
      simp only [isSideLine, Bool.and_eq_true] at hSide
      exact ⟨promo, hPromo, rfl, hSide.1.1.2⟩

theorem evaluateLines_emitsWinners (hKeys : (input.lines.map PosEvalLine.itemId).Nodup)
    (candidates : List Promotion) :
    EmitsWinners input candidates (evaluateLines input candidates) where
  once := (evaluateLines_sound hKeys).keys
  offered := by
    intro result hMem
    rw [← evaluateLines_isInPlay] at hMem
    obtain ⟨line, hLine, hManual, saving, hRanked⟩ := (evaluateLines_sound hKeys).ranked result hMem
    obtain ⟨promo, hPromo, hId, hPriced⟩ := hRanked.priced hKeys hLine
    obtain ⟨hIn, hPlay⟩ := List.mem_filter.mp hPromo
    obtain ⟨hOffered, hGates⟩ := Bool.and_eq_true_iff.mp hPlay
    exact ⟨line, hLine, hRanked.itemId_eq, hManual, promo, hIn, hId, hOffered, hGates, hPriced⟩
  wins := fun _ hLine hManual => evaluateLines_wins hKeys hLine hManual

end

/-- The candidates that an evaluation is left with: the loaded promotions whose units suffice. -/
def remainingCandidates (input : PosEvalInput) (data : List Promotion) : List Promotion :=
  notExcluded (loadCandidates input data) (evaluate input data).capacityExcludedPromotionIds

theorem evaluate_lines (input : PosEvalInput) (data : List Promotion) :
    (evaluate input data).selection.lines = evaluateLines input (remainingCandidates input data) := by
  obtain ⟨passes, final, hPasses⟩ := passes_end input (loadCandidates input data) []
  rw [remainingCandidates, evaluate_of_passes hPasses,
    notExcluded_congr fun id => (sortByKey_perm _ _).mem_iff]
  rfl

/-- Every pass emits the winners among its candidates, and the evaluation those among the
candidates it is left with. -/
theorem evaluate_emits_winners (input : PosEvalInput)
    (hKeys : (input.lines.map PosEvalLine.itemId).Nodup) :
    (∀ candidates, EmitsWinners input candidates (evaluateLines input candidates)) ∧
      ∀ data, EmitsWinners input (remainingCandidates input data)
        (evaluate input data).selection.lines := by
  refine ⟨evaluateLines_emitsWinners hKeys, fun data => ?_⟩
  rw [evaluate_lines]
  exact evaluateLines_emitsWinners hKeys _

/-- Of two discounts that tie, the one with the lower id wins both lines. -/
theorem evaluate_emits_winners_of_tied :
    (evaluate pairCart tiedPromotions).selection.lines.map PosEvalLineResult.promotionId =
        ["one", "one"] ∧
      EmitsWinners pairCart (remainingCandidates pairCart tiedPromotions)
        (evaluate pairCart tiedPromotions).selection.lines :=
  ⟨by decide +kernel, (evaluate_emits_winners pairCart (by decide)).2 tiedPromotions⟩

end Houndfe.Promotions
