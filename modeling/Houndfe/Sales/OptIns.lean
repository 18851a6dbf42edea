import Houndfe.Sales.DraftPreview

/-! The opt-ins of a draft. A recompute drops the opt-in of a manual promotion whose target has
left the cart, and then no request applies the promotion until the seller opts in again. A
request that skips the recompute drops nothing. -/

namespace Houndfe.Sales

open Promotions Products Keyed Traverse Transition

/-! ### The target of a promotion in the cart -/

/-- What a target is compared with. -/
def SaleItem.product (item : SaleItem) : String × Option String :=
  (item.productId, item.variantId)

/-- The line matches the target, whatever else keeps the promotion from it. -/
def matchesTarget (env : PricingEnvironment) (promo : Promotion) (item : SaleItem) : Bool :=
  (matchTargetTier promo.targetItems (buildPosEvalLine env item) .default).isSome

def hasTargetLine (env : PricingEnvironment) (promo : Promotion) (items : List SaleItem) : Bool :=
  items.any (matchesTarget env promo)

section

variable {env : PricingEnvironment} {promo : Promotion}

theorem matchesTarget_congr {item other : SaleItem} (h : item.product = other.product) :
    matchesTarget env promo item = matchesTarget env promo other := by
  obtain ⟨hProduct, hVariant⟩ := Prod.mk.inj h
  simp only [matchesTarget, matchTargetTier, buildPosEvalLine, hProduct, hVariant]
  rfl

theorem hasTargetLine_congr {items others : List SaleItem}
    (h : items.map SaleItem.product = others.map SaleItem.product) :
    hasTargetLine env promo items = hasTargetLine env promo others := by
  have hMatches : ∀ item, item ∈ items → matchesTarget env promo item = true →
      ∃ other ∈ others, matchesTarget env promo other = true := by
    intro item hItem hMatch
    have hProduct : item.product ∈ others.map SaleItem.product :=
      h ▸ List.mem_map_of_mem hItem
    obtain ⟨other, hOther, hSame⟩ := List.mem_map.mp hProduct
    exact ⟨other, hOther, (matchesTarget_congr hSame).trans hMatch⟩
  have hBack : ∀ other, other ∈ others → matchesTarget env promo other = true →
      ∃ item ∈ items, matchesTarget env promo item = true := by
    intro other hOther hMatch
    have hProduct : other.product ∈ items.map SaleItem.product :=
      h ▸ List.mem_map_of_mem hOther
    obtain ⟨item, hItem, hSame⟩ := List.mem_map.mp hProduct
    exact ⟨item, hItem, (matchesTarget_congr hSame).trans hMatch⟩
  rw [Bool.eq_iff_iff, hasTargetLine, hasTargetLine, List.any_eq_true, List.any_eq_true]
  exact ⟨fun ⟨item, hItem, hMatch⟩ => hMatches item hItem hMatch,
    fun ⟨other, hOther, hMatch⟩ => hBack other hOther hMatch⟩

/-- A promotion that is not for the order is targetable by a line that matches. -/
theorem hasTargetLine_of_hasTargetInCart {sale : Sale} (hLine : promo.type ≠ .orderDiscount)
    (h : hasTargetInCart promo (buildPosEvalInput env sale).lines = true) :
    hasTargetLine env promo sale.items = true := by
  have hAny : ((buildPosEvalInput env sale).lines.any fun line =>
      (matchTargetTier promo.targetItems line .default).isSome) =
        hasTargetLine env promo sale.items := List.any_map
  unfold hasTargetInCart at h
  cases hType : promo.type with
  | orderDiscount => exact absurd hType hLine
  | productDiscount => simpa [hType, hAny] using (Bool.and_eq_true_iff.mp h).2
  | buyXGetY => simpa [hType, hAny] using (Bool.and_eq_true_iff.mp h).2
  | advanced => simp [hType] at h

end

/-! ### What a recompute applies and what it keeps -/

/-- A manual promotion is ranked for a line only when it is opted in and the line matches. -/
theorem optedIn_of_ranked {input : PosEvalInput} {candidates : List Promotion} {line : PosEvalLine}
    {result : PosEvalLineResult} {saving : Int} (h : Ranked input candidates line result saving) :
    ∃ promo ∈ candidates, promo.id = result.promotionId ∧ (promo.method = .manual →
      promo.id ∈ input.optedInManualPromotionIds ∧
        (matchTargetTier promo.targetItems line .default).isSome = true) := by
  have hOffered : ∀ promo : Promotion, isOffered promo input = true → promo.method = .manual →
      promo.id ∈ input.optedInManualPromotionIds := by
    intro promo hOffered hManual
    simpa [isOffered, hManual, List.contains_eq_mem] using (Bool.and_eq_true_iff.mp hOffered).1
  cases h with
  | @productDiscount promo winner hPromo hWinner =>
      unfold perLineCandidate at hWinner
      split at hWinner
      · next hGates =>
          simp only [Bool.and_eq_true] at hGates
          split at hWinner
          · cases hWinner
          · next tier hTier =>
              obtain ⟨_, hWinner⟩ := Option.ite_none_right_eq_some.mp hWinner
              cases hWinner
              refine ⟨promo, hPromo, ?_, fun hManual => ⟨hOffered promo hGates.1.1 hManual, ?_⟩⟩
              · dsimp only [toLineResult]
                split <;> rfl
              · rw [hTier]
                rfl
      · cases hWinner
  | @buyXGetY promo winner hPromo hWinner =>
      unfold buyXGetYCandidate at hWinner
      split at hWinner
      · next hGates =>
          simp only [Bool.and_eq_true] at hGates
          split at hWinner
          · obtain ⟨_, hWinner⟩ := Option.ite_none_right_eq_some.mp hWinner
            cases hWinner
            exact ⟨promo, hPromo, rfl, fun hManual =>
              ⟨hOffered promo hGates.1.1.1.2 hManual, hGates.1.2⟩⟩
          · cases hWinner
      · cases hWinner
  | @advanced promo reward hPromo hReward hItem hSaves =>
      refine ⟨promo, hPromo, rfl, fun hManual => ?_⟩
      simp [advancedRewards, hManual] at hReward

section

variable {env : PricingEnvironment} {sale : Sale} {recomputed : Recomputed}

theorem prepareSale_products {prepared : Sale} (h : prepareSale env sale = .ok prepared) :
    prepared.items.map SaleItem.product = sale.items.map SaleItem.product := by
  obtain ⟨_, items, hItems, rfl⟩ := prepareSale_eq_ok.mp h
  apply map_eq_of_mapM _ hItems
  intro item _ out hOut
  have hCleared : item.clearPromotion.product = item.product := by
    unfold SaleItem.clearPromotion
    split <;> rfl
  rcases repriceNonStickyLine_eq_ok hOut with rfl | ⟨_, _, _, rfl⟩
  · exact hCleared
  · exact hCleared

/-- What a recompute leaves of one promotion. A manual one that a line carries was opted in and
matches a line; one that is still opted in and is not for the order matches a line. -/
structure Heals (env : PricingEnvironment) (sale after : Sale) (id : String) : Prop where
  optedIn : id ∈ after.optedInManualPromotionIds →
    id ∈ sale.optedInManualPromotionIds ∧ ∃ promo ∈ env.promotions, promo.id = id ∧
      (promo.type ≠ .orderDiscount → hasTargetLine env promo sale.items = true)
  applied : ∀ item ∈ after.items, item.promotionId = some id →
    ∃ promo ∈ env.promotions, promo.id = id ∧ (promo.method = .manual →
      id ∈ sale.optedInManualPromotionIds ∧ hasTargetLine env promo sale.items = true)

theorem heals_of_recompute (hWellFormed : sale.WellFormed)
    (h : recomputePricingAndPromotions env sale = .ok recomputed) (id : String) :
    Heals env sale recomputed.sale id := by
  obtain ⟨prepared, _, hPrepared, _, _⟩ := recompute_eq_ok.mp h
  have hSettles := settles_of_recompute hWellFormed hPrepared h
  have hProducts := prepareSale_products hPrepared
  have hSpec := prepareSale_spec hWellFormed hPrepared
  constructor
  · intro hOptedIn
    rw [hSettles.optedIn, List.mem_filter] at hOptedIn
    refine ⟨hOptedIn.1, ?_⟩
    obtain ⟨promo, hPromo, hId⟩ := List.mem_map.mp (List.contains_iff_mem.mp hOptedIn.2)
    obtain ⟨hLoaded, hTargets⟩ := List.mem_filter.mp hPromo
    have hInCart := (Bool.and_eq_true_iff.mp hTargets).2
    refine ⟨promo, hLoaded, hId, fun hLine => ?_⟩
    rw [← hasTargetLine_congr hProducts]
    exact hasTargetLine_of_hasTargetInCart hLine hInCart
  · intro item hItem hApplied
    obtain ⟨line, hLine, hOut⟩ := mem_mapM hSettles.lines hItem
    unfold applyResultFor at hOut
    split at hOut
    · next result hLookup =>
        rw [(applyLineResult_eq_ok hOut).2.2.1, Option.some.injEq] at hApplied
        obtain ⟨ranked, hRankedLine, _, _, saving, hRanked⟩ :=
          ranked_of_selected hWellFormed hPrepared (lookup_eq_some hLookup).1
        obtain ⟨promo, hPromo, hId, hManual⟩ := optedIn_of_ranked hRanked
        refine ⟨promo, hPromo, hId.trans hApplied, fun hMethod => ?_⟩
        obtain ⟨hOptedIn, hMatch⟩ := hManual hMethod
        obtain ⟨_, kept, _, rfl⟩ := prepareSale_eq_ok.mp hPrepared
        rw [hId, hApplied] at hOptedIn
        refine ⟨hOptedIn, ?_⟩
        rw [← hasTargetLine_congr hProducts]
        exact List.any_eq_true.mpr ⟨ranked, hRankedLine, hMatch⟩
    · cases hOut
      obtain ⟨_, hFrom, _⟩ := hSpec.lines item hLine
      rw [hFrom.promotionId] at hApplied
      cases hApplied

end

/-! ### What a mutation does to the opt-ins and to the lines -/

/-- A discount leaves the product of a line, and gives it the promotion of its input. -/
theorem applyDiscount_eq_ok {item updated : SaleItem} {input : ApplySaleItemDiscountInput}
    {now : Int} (h : item.applyDiscount input now = .ok updated) :
    updated.product = item.product ∧ updated.promotionId = input.promotionId := by
  simp only [SaleItem.applyDiscount, bind_eq_ok, throwIf_eq_ok, pure_eq_ok] at h
  obtain ⟨-, -, -, -, -, -, discountCents, -, -, -, rfl⟩ := h
  exact ⟨rfl, rfl⟩

theorem applyGlobalDiscountToItem_eq_ok {item : SaleItem} {input : ApplySaleItemDiscountInput}
    {strategy : DiscountStrategy} {now : Int} {result : SaleItem × List SkippedItem}
    (h : Sale.applyGlobalDiscountToItem input strategy now item = .ok result) :
    result.1.product = item.product ∧
      (result.1.promotionId = item.promotionId ∨ result.1.promotionId = input.promotionId) := by
  unfold Sale.applyGlobalDiscountToItem at h
  split at h
  · cases h
    exact ⟨rfl, .inl rfl⟩
  · split at h
    · next updated hUpdated =>
        cases h
        obtain ⟨hProduct, hPromotion⟩ := applyDiscount_eq_ok hUpdated
        exact ⟨hProduct, .inr hPromotion⟩
    · split at h
      · cases h
        exact ⟨rfl, .inl rfl⟩
      · cases h

/-- The lines that a request leaves when it skips the recompute. -/
def DraftMutation.linesLeft (sale : Sale) : DraftMutation → List SaleItem
  | .clearItems => []
  | _ => sale.items

namespace DraftService

variable {env : DraftEnvironment} {sale mutated : Sale} {mutation : DraftMutation}

theorem mem_pushOnce {ids : List String} {added id : String} (h : id ∈ Sale.pushOnce ids added) :
    id ∈ ids ∨ id = added := by
  unfold Sale.pushOnce at h
  split at h
  · exact .inl h
  · simpa using h

theorem optOutOrphan_optedIn {promotionId : Option String} {id : String}
    (h : id ∈ (sale.optOutOrphan promotionId).optedInManualPromotionIds) :
    id ∈ sale.optedInManualPromotionIds := by
  unfold Sale.optOutOrphan at h
  split at h
  · exact h
  · split at h
    · exact h
    · exact (List.mem_filter.mp h).1

theorem setGlobalPriceList_optedIn {id : Option String} {explicit : Bool}
    (h : sale.setGlobalPriceList id explicit = .ok mutated) :
    mutated.optedInManualPromotionIds = sale.optedInManualPromotionIds := by
  replace h := past (past h)
  cases pure_eq_ok.mp h
  rfl

theorem withCustomer_optedIn {customerId : String} {shippingAddressId : Option String}
    (h : withCustomer env sale customerId shippingAddressId = .ok mutated) :
    mutated.optedInManualPromotionIds = sale.optedInManualPromotionIds := by
  unfold withCustomer at h
  split at h
  · cases h
  next customer _ =>
  obtain ⟨seeded, hSeeded, h⟩ := bind_eq_ok.mp h
  replace h := past (past h)
  cases pure_eq_ok.mp h
  unfold seedCustomerList at hSeeded
  split at hSeeded
  · cases hSeeded
    rfl
  · split at hSeeded
    · cases hSeeded
      rfl
    · have hSame := setGlobalPriceList_optedIn hSeeded
      exact hSame

/-- Only the seller's own request opts in. -/
theorem Mutates.optedIn (h : Mutates env sale mutation mutated) {id : String}
    (hOptedIn : id ∈ mutated.optedInManualPromotionIds) :
    id ∈ sale.optedInManualPromotionIds ∨ mutation = .applyManualPromotion id := by
  cases h with
  | addItem _ h =>
      obtain ⟨_, _, h⟩ := bind_eq_ok.mp h
      obtain ⟨_, _, h⟩ := bind_eq_ok.mp h
      obtain ⟨_, _, h⟩ := bind_eq_ok.mp h
      cases pure_eq_ok.mp h
      exact .inl hOptedIn
  | updateItemQuantity h =>
      obtain ⟨_, _, h⟩ := bind_eq_ok.mp h
      obtain ⟨_, _, h⟩ := bind_eq_ok.mp h
      obtain ⟨_, _, h⟩ := bind_eq_ok.mp h
      cases pure_eq_ok.mp h
      exact .inl hOptedIn
  | clearItems h =>
      replace h := past h
      cases pure_eq_ok.mp h
      exact .inl hOptedIn
  | removeItem h =>
      replace h := past h
      split at h
      · cases h
      · cases pure_eq_ok.mp h
        have hKept := optOutOrphan_optedIn hOptedIn
        exact .inl hKept
  | overrideItemPrice _ _ h =>
      obtain ⟨_, _, h⟩ := bind_eq_ok.mp h
      cases pure_eq_ok.mp h
      exact .inl hOptedIn
  | applyItemDiscount h =>
      obtain ⟨_, _, h⟩ := bind_eq_ok.mp h
      cases pure_eq_ok.mp h
      exact .inl hOptedIn
  | removeItemDiscount h =>
      unfold Sale.removeItemDiscount at h
      split at h
      · cases h
      · obtain ⟨_, _, h⟩ := bind_eq_ok.mp h
        cases pure_eq_ok.mp h
        have hKept := optOutOrphan_optedIn hOptedIn
        exact .inl hKept
  | applyGlobalDiscount h =>
      obtain ⟨_, _, h⟩ := bind_eq_ok.mp h
      cases pure_eq_ok.mp h
      exact .inl hOptedIn
  | removeGlobalDiscount => exact .inl hOptedIn
  | @applyManualPromotion promotionId =>
      rcases mem_pushOnce hOptedIn with hOld | rfl
      · exact .inl hOld
      · exact .inr rfl
  | removeManualPromotion => exact .inl (List.mem_filter.mp hOptedIn).1
  | removeAppliedPromotion =>
      split at hOptedIn
      · exact .inl (List.mem_filter.mp hOptedIn).1
      · exact .inl (List.mem_filter.mp hOptedIn).1
  | assignCustomer h => exact .inl (withCustomer_optedIn h ▸ hOptedIn)
  | clearCustomer h =>
      replace h := past h
      cases pure_eq_ok.mp h
      exact .inl hOptedIn
  | setSalePriceList h => exact .inl (setGlobalPriceList_optedIn h ▸ hOptedIn)

/-- A request that skips the recompute leaves the products of the lines, or no line. -/
theorem Mutates.products (h : Mutates env sale mutation mutated)
    (hSkips : mutation.recomputes = false) :
    mutated.items.map SaleItem.product = (mutation.linesLeft sale).map SaleItem.product := by
  cases h with
  | clearItems h =>
      replace h := past h
      cases pure_eq_ok.mp h
      rfl
  | applyItemDiscount h =>
      obtain ⟨items, hItems, h⟩ := bind_eq_ok.mp h
      cases pure_eq_ok.mp h
      have hFound : ∀ extra, (.error Sale.saleItemNotFound : Except DomainError (List SaleItem)) =
          .ok extra → extra = [] := fun _ hExtra => by cases hExtra
      exact map_updateFirstItem (fun _ _ hUpdate => (applyDiscount_eq_ok hUpdate).1) hFound hItems
  | applyGlobalDiscount h =>
      obtain ⟨results, hResults, h⟩ := bind_eq_ok.mp h
      cases pure_eq_ok.mp h
      dsimp only
      rw [List.map_map]
      exact map_eq_of_mapM (fun _ _ _ hOut => (applyGlobalDiscountToItem_eq_ok hOut).1) hResults
  | removeGlobalDiscount =>
      dsimp only [Sale.removeGlobalDiscount]
      rw [List.map_map]
      rfl
  | clearCustomer h =>
      replace h := past h
      cases pure_eq_ok.mp h
      rfl
  | addItem | updateItemQuantity | removeItem | overrideItemPrice | removeItemDiscount
  | applyManualPromotion | removeManualPromotion | removeAppliedPromotion | assignCustomer
  | setSalePriceList => cases hSkips

/-- A request that skips the recompute puts no line on a promotion. -/
theorem Mutates.unapplied (h : Mutates env sale mutation mutated)
    (hSkips : mutation.recomputes = false) {id : String}
    (hNone : ∀ item ∈ sale.items, item.promotionId ≠ some id) :
    ∀ item ∈ mutated.items, item.promotionId ≠ some id := by
  cases h with
  | clearItems h =>
      replace h := past h
      cases pure_eq_ok.mp h
      exact fun _ hItem => absurd hItem List.not_mem_nil
  | applyItemDiscount h =>
      obtain ⟨items, hItems, h⟩ := bind_eq_ok.mp h
      cases pure_eq_ok.mp h
      refine forall_updateFirstItem hNone ?_ (fun _ hExtra => by cases hExtra) hItems
      intro item updated _ hUpdate
      rw [(applyDiscount_eq_ok hUpdate).2]
      exact fun hSome => by cases hSome
  | applyGlobalDiscount h =>
      obtain ⟨results, hResults, h⟩ := bind_eq_ok.mp h
      cases pure_eq_ok.mp h
      intro item hItem
      obtain ⟨result, hResult, rfl⟩ := List.mem_map.mp hItem
      obtain ⟨old, hOld, hOut⟩ := mem_mapM hResults hResult
      rcases (applyGlobalDiscountToItem_eq_ok hOut).2 with hSame | hInput
      · rw [hSame]
        exact hNone old hOld
      · rw [hInput]
        exact fun hSome => by cases hSome
  | removeGlobalDiscount =>
      intro item hItem
      obtain ⟨old, _, rfl⟩ := List.mem_map.mp hItem
      exact fun hSome => by cases hSome
  | clearCustomer h =>
      replace h := past h
      cases pure_eq_ok.mp h
      exact hNone
  | addItem | updateItemQuantity | removeItem | overrideItemPrice | removeItemDiscount
  | applyManualPromotion | removeManualPromotion | removeAppliedPromotion | assignCustomer
  | setSalePriceList => cases hSkips

end DraftService

/-! ### Runs -/

/-- The opt-in is off, and no line carries the promotion. -/
structure OptedOut (id : String) (sale : Sale) : Prop where
  optedIn : id ∉ sale.optedInManualPromotionIds
  applied : ∀ item ∈ sale.items, item.promotionId ≠ some id

theorem Reloaded.optedOut {saved loaded : Sale} {id : String} (h : Reloaded saved loaded)
    (hOut : OptedOut id saved) : OptedOut id loaded :=
  ⟨fun hIn => hOut.optedIn (h.optedIn.mem_iff.mpr hIn),
    fun item hItem => hOut.applied item (h.items.mem_iff.mpr hItem)⟩

/-- Where a request loads the promotion, it is manual still. -/
def StaysManual (id : String) (request : DraftRequest) : Prop :=
  ∀ promo ∈ request.env.promotions, promo.id = id → promo.method = .manual

theorem optedOut_step {id : String} {draft after : Draft} {request : DraftRequest}
    (hWellFormed : draft.sale.WellFormed) (hOut : OptedOut id draft.sale)
    (hManual : StaysManual id request)
    (hSeller : request.mutation ≠ .applyManualPromotion id)
    (hStep : DraftStep draft request after) : OptedOut id after.sale := by
  cases hStep with
  | keeps _ _ => exact hOut
  | @saves loaded saved hLoaded hFresh hServe =>
      obtain ⟨mutated, hMutates, hSaved⟩ := DraftService.serve_saves hServe
      have hLoadedOut := hLoaded.optedOut hOut
      have hNotIn : id ∉ mutated.optedInManualPromotionIds := by
        intro hIn
        rcases hMutates.optedIn hIn with hBefore | hOwn
        · exact hLoadedOut.optedIn hBefore
        · exact hSeller hOwn
      cases hRecomputes : request.mutation.recomputes with
      | false =>
          simp only [hRecomputes, Bool.false_eq_true, if_false] at hSaved
          subst hSaved
          exact ⟨hNotIn, hMutates.unapplied hRecomputes hLoadedOut.applied⟩
      | true =>
          simp only [hRecomputes, if_true] at hSaved
          obtain ⟨recomputed, hRecompute, hSale⟩ := bind_eq_ok.mp hSaved
          cases pure_eq_ok.mp hSale
          have hMutated := hMutates.wellFormed (hLoaded.wellFormed hWellFormed) hFresh
          have hHeals := heals_of_recompute hMutated hRecompute id
          constructor
          · exact fun hIn => hNotIn (hHeals.optedIn hIn).1
          · intro item hItem hApplied
            obtain ⟨promo, hPromo, hId, hOffered⟩ := hHeals.applied item hItem hApplied
            exact hNotIn (hOffered (hManual promo hPromo hId)).1

theorem optedOut_of_run {id : String} {draft after : Draft} {requests : List DraftRequest}
    (hInvariant : DraftInvariant draft) (hOut : OptedOut id draft.sale)
    (run : Runs DraftStep draft requests after)
    (hManual : ∀ request ∈ requests, StaysManual id request)
    (hSeller : ∀ request ∈ requests, request.mutation ≠ .applyManualPromotion id) :
    OptedOut id after.sale := by
  induction run with
  | zero => exact hOut
  | @succ middle final requests request prior last ih =>
      have hPrior := ih (fun other hOther => hManual other (List.mem_append_left _ hOther))
        (fun other hOther => hSeller other (List.mem_append_left _ hOther))
      have hMiddle := prior.invariant (fun _ _ _ => draftInvariant_step) hInvariant
      exact optedOut_step hMiddle.wellFormed hPrior (hManual request (by simp))
        (hSeller request (by simp)) last

/-- A request that is saved, and whose mutation leaves the promotion opted in over a cart
without a line of its target. -/
inductive LeavesOrphan (promo : Promotion) (draft : Draft) (request : DraftRequest) :
    Draft → Prop where
  | mk {loaded mutated saved : Sale} (hLoaded : Reloaded draft.sale loaded)
      (hFresh : request.mutation.DrawsFresh loaded)
      (hServe : DraftService.serve request.env request.actorId loaded request.mutation =
        .ok (some saved))
      (hMutates : DraftService.Mutates request.env loaded request.mutation mutated)
      (hSaved : if request.mutation.recomputes then
        DraftService.reevaluate request.env mutated = .ok saved else saved = mutated)
      (hOptedIn : promo.id ∈ mutated.optedInManualPromotionIds)
      (hTarget : hasTargetLine request.env.pricing promo mutated.items = false) :
      LeavesOrphan promo draft request ⟨saved, some request⟩

theorem LeavesOrphan.step {promo : Promotion} {draft after : Draft} {request : DraftRequest}
    (h : LeavesOrphan promo draft request after) : DraftStep draft request after := by
  cases h with
  | mk hLoaded hFresh hServe _ _ _ _ => exact .saves hLoaded hFresh hServe

/-- A request that skips the recompute leaves a line of the target of every promotion that is
opted in; one that clears the lines finds the promotion not opted in. -/
def KeepsTarget (promo : Promotion) (draft : Draft) (request : DraftRequest) : Prop :=
  request.mutation.recomputes = false → promo.id ∈ draft.sale.optedInManualPromotionIds →
    hasTargetLine request.env.pricing promo (request.mutation.linesLeft draft.sale) = true

theorem hasTargetLine_linesLeft {env : PricingEnvironment} {promo : Promotion}
    {mutation : DraftMutation} {saved loaded : Sale} (h : Reloaded saved loaded) :
    hasTargetLine env promo (mutation.linesLeft loaded) =
      hasTargetLine env promo (mutation.linesLeft saved) := by
  cases mutation with
  | clearItems => rfl
  | addItem | updateItemQuantity | removeItem | overrideItemPrice | applyItemDiscount
  | removeItemDiscount | applyGlobalDiscount | removeGlobalDiscount | applyManualPromotion
  | removeManualPromotion | removeAppliedPromotion | assignCustomer | clearCustomer
  | setSalePriceList =>
      rw [Bool.eq_iff_iff, hasTargetLine, hasTargetLine, List.any_eq_true, List.any_eq_true]
      exact exists_congr fun item => and_congr_left' h.items.mem_iff.symm

/-- The request recomputes, so that the orphaned opt-in is pruned and nothing is applied. -/
theorem optedOut_of_orphan {promo : Promotion} {draft after : Draft} {request : DraftRequest}
    (hWellFormed : draft.sale.WellFormed) (hManual : promo.method = .manual)
    (hLine : promo.type ≠ .orderDiscount)
    (hLoads : ∀ other ∈ request.env.promotions, other.id = promo.id → other = promo)
    (hOrphan : LeavesOrphan promo draft request after)
    (hKeeps : KeepsTarget promo draft request) : OptedOut promo.id after.sale := by
  cases hOrphan with
  | @mk loaded mutated saved hLoaded hFresh hServe hMutates hSaved hOptedIn hTarget =>
      have hMutated := hMutates.wellFormed (hLoaded.wellFormed hWellFormed) hFresh
      cases hRecomputes : request.mutation.recomputes with
      | false =>
          have hBefore : promo.id ∈ loaded.optedInManualPromotionIds := by
            rcases hMutates.optedIn hOptedIn with hBefore | hOwn
            · exact hBefore
            · rw [hOwn] at hRecomputes
              cases hRecomputes
          have hKept := hKeeps hRecomputes (hLoaded.optedIn.mem_iff.mpr hBefore)
          rw [hasTargetLine_congr (hMutates.products hRecomputes),
            hasTargetLine_linesLeft hLoaded, hKept] at hTarget
          cases hTarget
      | true =>
          simp only [hRecomputes, if_true] at hSaved
          obtain ⟨recomputed, hRecompute, hSale⟩ := bind_eq_ok.mp hSaved
          cases pure_eq_ok.mp hSale
          have hHeals := heals_of_recompute hMutated hRecompute promo.id
          constructor
          · intro hIn
            obtain ⟨_, other, hOther, hId, hHas⟩ := hHeals.optedIn hIn
            cases hLoads other hOther hId
            exact Bool.false_ne_true (hTarget.symm.trans (hHas hLine))
          · intro item hItem hApplied
            obtain ⟨other, hOther, hId, hOffered⟩ := hHeals.applied item hItem hApplied
            cases hLoads other hOther hId
            exact Bool.false_ne_true (hTarget.symm.trans (hOffered hManual).2)

/-- In every run of requests from a new draft: once a request leaves a manual promotion, which
is not for the order, opted in over a cart without a line of its target, and that request
recomputes or is not one that took the last such line away, no later request applies the
promotion until the seller opts in again. -/
theorem opt_in_not_resurrected {id userId : String} {opened : Sale}
    {requests : List DraftRequest} {draft : Draft} (hOpened : Sale.create id userId = .ok opened)
    (run : Runs DraftStep ⟨opened, none⟩ requests draft) {promo : Promotion}
    (hManual : promo.method = .manual) (hLine : promo.type ≠ .orderDiscount)
    {request : DraftRequest} {after : Draft} (hOrphan : LeavesOrphan promo draft request after)
    (hLoads : ∀ other ∈ request.env.promotions, other.id = promo.id → other = promo)
    (hKeeps : KeepsTarget promo draft request)
    {later : List DraftRequest} {final : Draft} (laterRun : Runs DraftStep after later final)
    (hStays : ∀ request ∈ later, StaysManual promo.id request)
    (hSeller : ∀ request ∈ later, request.mutation ≠ .applyManualPromotion promo.id) :
    ∀ item ∈ final.sale.items, item.promotionId ≠ some promo.id := by
  have hDraft := run.invariant (fun _ _ _ => draftInvariant_step) (draftInvariant_opened hOpened)
  have hOut := optedOut_of_orphan hDraft.wellFormed hManual hLine hLoads hOrphan hKeeps
  have hAfter := draftInvariant_step hDraft hOrphan.step
  exact (optedOut_of_run hAfter hOut laterRun hStays hSeller).applied

/-! ### Removing the last line, and clearing all lines -/

/-- One product at ten pesos, and a peso off it that the seller opts in to. -/
def manualPesoOff : DraftEnvironment :=
  { onePesoOff with promotions := [{ fixedDiscount 100 with method := .manual }] }

def sellerAsks (mutation : DraftMutation) : DraftRequest := ⟨manualPesoOff, "seller", mutation⟩

def addUnit : DraftRequest := sellerAsks (.addItem "line" "product" none 1)

def optIn : DraftRequest := sellerAsks (.applyManualPromotion "promotion")

def removeUnit : DraftRequest := sellerAsks (.removeItem "line")

def clearUnits : DraftRequest := sellerAsks .clearItems

/-- Fifty cents off by hand, which takes the place of the promotion on the line. -/
def fiftyCentsOff : DraftRequest :=
  sellerAsks (.applyItemDiscount "line" ⟨.amount, some 50, none, none, none⟩)

def fullPriceDraft : Sale :=
  { Sale.fresh "sale" "seller" with
    items := [{ SaleItem.fresh ⟨"line", "sale", "product", none, "Product", none, none, 1, 1000,
      "MXN"⟩ Quantity.one with priceSource := .priceList }] }

def promotedDraft : Sale :=
  { discountedDraft with optedInManualPromotionIds := ["promotion"] }

/-- The line at nine pesos fifty; the opt-in stays. -/
def handDiscountedDraft : Sale :=
  { promotedDraft with
    items := promotedDraft.items.map fun item => { item with
      discountValue := some 50
      discountAmountCents := some 50
      discountTitle := none
      unitPriceCents := 950
      promotionId := none } }

theorem addUnit_saves {lastWrite : Option DraftRequest} :
    DraftStep ⟨Sale.fresh "sale" "seller", lastWrite⟩ addUnit ⟨fullPriceDraft, some addUnit⟩ :=
  draftStep_of_serve List.not_mem_nil rfl

theorem promotedDraft_reached :
    Runs DraftStep ⟨Sale.fresh "sale" "seller", none⟩ [addUnit, optIn]
      ⟨promotedDraft, some optIn⟩ :=
  (Runs.single addUnit_saves).succ (draftStep_of_serve trivial rfl)

/-- The removal of the only line prunes the opt-in, and the product comes back at its price. -/
theorem opt_in_not_resurrected_by_removal :
    (fullPriceDraft.items.all fun item => item.promotionId ≠ some "promotion") = true := by
  have hRun : Runs DraftStep ⟨Sale.fresh "sale" "seller", none⟩ [addUnit, optIn, fiftyCentsOff]
      ⟨handDiscountedDraft, some fiftyCentsOff⟩ :=
    promotedDraft_reached.succ (draftStep_of_serve trivial rfl)
  have hOrphan : LeavesOrphan { fixedDiscount 100 with method := .manual }
      ⟨handDiscountedDraft, some fiftyCentsOff⟩ removeUnit
      ⟨Sale.fresh "sale" "seller", some removeUnit⟩ :=
    .mk (.refl _) trivial rfl (.removeItem rfl) rfl (List.mem_singleton.mpr rfl) rfl
  have hKept := opt_in_not_resurrected (show Sale.create "sale" "seller" = _ from rfl) hRun rfl
    (fun hOrder => by cases hOrder) hOrphan
    (fun other hOther _ => List.mem_singleton.mp hOther) (fun hSkips => by cases hSkips)
    (Runs.single addUnit_saves)
    (fun request hRequest promo hPromo _ => by
      cases List.mem_singleton.mp hRequest
      cases List.mem_singleton.mp hPromo
      rfl)
    (fun request hRequest => by
      cases List.mem_singleton.mp hRequest
      exact fun hOptIn => by cases hOptIn)
  rw [List.all_eq_true]
  intro item hItem
  exact decide_eq_true (hKept item hItem)

/-- Clearing the lines leaves the opt-in, and the product comes back with its promotion. -/
theorem opt_in_resurrected_by_clearItems : ¬ ∀ (promo : Promotion) (requests : List DraftRequest)
    (draft : Draft) (request : DraftRequest) (after : Draft) (later : List DraftRequest)
    (final : Draft), Runs DraftStep ⟨Sale.fresh "sale" "seller", none⟩ requests draft →
      promo.method = .manual → promo.type ≠ .orderDiscount →
      LeavesOrphan promo draft request after →
      (∀ other ∈ request.env.promotions, other.id = promo.id → other = promo) →
      Runs DraftStep after later final →
      (∀ request ∈ later, StaysManual promo.id request) →
      (∀ request ∈ later, request.mutation ≠ .applyManualPromotion promo.id) →
      ∀ item ∈ final.sale.items, item.promotionId ≠ some promo.id := by
  intro hAll
  have hOrphan : LeavesOrphan { fixedDiscount 100 with method := .manual }
      ⟨promotedDraft, some optIn⟩ clearUnits ⟨{ promotedDraft with items := [] }, some clearUnits⟩ :=
    .mk (.refl _) trivial rfl (.clearItems rfl) rfl (List.mem_singleton.mpr rfl) rfl
  have hBack : DraftStep ⟨{ promotedDraft with items := [] }, some clearUnits⟩ addUnit
      ⟨promotedDraft, some addUnit⟩ := draftStep_of_serve List.not_mem_nil rfl
  refine hAll _ _ _ _ _ _ _ promotedDraft_reached rfl (fun hOrder => by cases hOrder) hOrphan
    (fun other hOther _ => List.mem_singleton.mp hOther) (Runs.single hBack) ?_ ?_ _
    (List.mem_singleton.mpr rfl) rfl
  · intro request hRequest promo hPromo _
    cases List.mem_singleton.mp hRequest
    cases List.mem_singleton.mp hPromo
    rfl
  · intro request hRequest
    cases List.mem_singleton.mp hRequest
    exact fun hOptIn => by cases hOptIn

end Houndfe.Sales
