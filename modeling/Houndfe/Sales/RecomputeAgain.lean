import Houndfe.Promotions.Agreement
import Houndfe.Sales.PromotionApplication

/-! Recomputing a draft that was just recomputed and read back. Clearing takes every applied
result back off its line, the lines are then prepared already, and the engine selects the same
again. -/

namespace Houndfe.Sales

open Promotions Keyed Traverse

/-- The draft as it is read back: the rows of a table come in no particular order. -/
structure Reloaded (saved loaded : Sale) : Prop where
  items : saved.items.Perm loaded.items
  vetoed : saved.vetoedPromotionIds.Perm loaded.vetoedPromotionIds
  optedIn : saved.optedInManualPromotionIds.Perm loaded.optedInManualPromotionIds
  columns : loaded = { saved with
    items := loaded.items
    vetoedPromotionIds := loaded.vetoedPromotionIds
    optedInManualPromotionIds := loaded.optedInManualPromotionIds }

theorem Reloaded.refl (sale : Sale) : Reloaded sale sale :=
  ⟨.refl _, .refl _, .refl _, rfl⟩

theorem Reloaded.wellFormed {saved loaded : Sale} (h : Reloaded saved loaded)
    (hWellFormed : saved.WellFormed) : loaded.WellFormed :=
  ⟨(h.items.map _).nodup hWellFormed.ids,
    fun item hItem => hWellFormed.tidy item (h.items.symm.subset hItem)⟩

section

variable {env : PricingEnvironment}

/-- Clearing takes an applied result back off its line. -/
theorem clearPromotion_applied {now : Int} {result : PosEvalLineResult} {item applied : SaleItem}
    (hUndiscounted : item.Undiscounted) (h : applyLineResult now result item = .ok applied) :
    applied.clearPromotion = item := by
  have hBase := hUndiscounted.baseCents
  cases result with
  | reward kind reward =>
      replace h := past (past (past h))
      cases pure_eq_ok.mp h
      exact hUndiscounted
  | perUnit perUnit =>
      obtain ⟨_, _, h⟩ := bind_eq_ok.mp h
      obtain ⟨_, _, h⟩ := bind_eq_ok.mp h
      obtain ⟨_, _, h⟩ := bind_eq_ok.mp h
      obtain ⟨_, _, h⟩ := bind_eq_ok.mp h
      obtain ⟨_, _, h⟩ := bind_eq_ok.mp h
      cases pure_eq_ok.mp h
      -- what is left is the line at its base price
      have hLine : ({ item with unitPriceCents := item.baseCents } : SaleItem) = item := by
        rw [hBase]
      exact (congrArg SaleItem.clearDiscountFields hLine).trans hUndiscounted

end

section

variable {env : PricingEnvironment} {sale prepared loaded : Sale} {recomputed : Recomputed}

/-- A line with its result prepares to the line without it. -/
theorem prepareLine_applied (hWellFormed : sale.WellFormed)
    (hPrepared : prepareSale env sale = .ok prepared) {item applied : SaleItem}
    (hItem : item ∈ prepared.items)
    (h : applyResultFor env.now (selectedLines env prepared) item = .ok applied) :
    prepareLine env sale.globalPriceListId applied = .ok item := by
  have hSpec := prepareSale_spec hWellFormed hPrepared
  obtain ⟨original, hFrom, hPrepare⟩ := hSpec.lines item hItem
  have hAgain : prepareLine env sale.globalPriceListId item = .ok item := by
    have hClear := SaleItem.clearPromotion_of_none hFrom.promotionId
    unfold prepareLine at hPrepare ⊢
    rw [hClear]
    exact repriceNonStickyLine_again hPrepare
  unfold applyResultFor at h
  split at h
  · next result hLookup =>
      obtain ⟨hResult, hKey⟩ := lookup_eq_some hLookup
      obtain ⟨line, hLine, hUndiscounted, hLineKey, _⟩ :=
        ranked_of_selected hWellFormed hPrepared hResult
      have hSame : line = item := List.inj_on_of_nodup_map (prepared_ids hWellFormed hPrepared)
        hLine hItem (hLineKey.symm.trans hKey)
      subst hSame
      unfold prepareLine at hAgain ⊢
      rw [clearPromotion_applied hUndiscounted h]
      rwa [SaleItem.clearPromotion_of_none hFrom.promotionId] at hAgain
  · cases h
    exact hAgain

@[simp] theorem applyOrderResult_optedIn (sale : Sale) (order : Option PosEvalOrderResult) :
    (applyOrderResult sale order).optedInManualPromotionIds =
      sale.optedInManualPromotionIds := by
  cases order <;> rfl

@[simp] theorem applyOrderResult_vetoed (sale : Sale) (order : Option PosEvalOrderResult) :
    (applyOrderResult sale order).vetoedPromotionIds = sale.vetoedPromotionIds := by
  cases order <;> rfl

@[simp] theorem applyOrderResult_status (sale : Sale) (order : Option PosEvalOrderResult) :
    (applyOrderResult sale order).status = sale.status := by
  cases order <;> rfl

@[simp] theorem applyOrderResult_customerId (sale : Sale) (order : Option PosEvalOrderResult) :
    (applyOrderResult sale order).customerId = sale.customerId := by
  cases order <;> rfl

@[simp] theorem applyOrderResult_globalPriceListId (sale : Sale)
    (order : Option PosEvalOrderResult) :
    (applyOrderResult sale order).globalPriceListId = sale.globalPriceListId := by
  cases order <;> rfl

/-- What a recompute leaves of the columns that another one reads. -/
structure Settles (env : PricingEnvironment) (sale prepared after : Sale) : Prop where
  lines : prepared.items.mapM (applyResultFor env.now (selectedLines env prepared)) =
    .ok after.items
  status : after.status = .draft
  customerId : after.customerId = sale.customerId
  globalPriceListId : after.globalPriceListId = sale.globalPriceListId
  vetoed : after.vetoedPromotionIds = sale.vetoedPromotionIds
  optedIn : after.optedInManualPromotionIds = sale.optedInManualPromotionIds.filter fun id =>
    (targetableManualPromotionIds (buildPosEvalInput env prepared)
      (loadCandidates (buildPosEvalInput env prepared) env.promotions)).contains id
  order : after.orderDiscountCents =
    (((evaluate (buildPosEvalInput env prepared) env.promotions).selection.order).map
      PosEvalOrderResult.discountAmountCents).getD 0

theorem orderDiscountCents_applyOrderResult (sale : Sale) (order : Option PosEvalOrderResult) :
    (applyOrderResult sale order).orderDiscountCents =
      (order.map PosEvalOrderResult.discountAmountCents).getD 0 := by
  cases order <;> rfl

theorem settles_of_recompute (hWellFormed : sale.WellFormed)
    (hPrepared : prepareSale env sale = .ok prepared)
    (h : recomputePricingAndPromotions env sale = .ok recomputed) :
    Settles env sale prepared recomputed.sale := by
  obtain ⟨hLines, hOf⟩ := applied_of_recompute (prepared_ids hWellFormed hPrepared) hPrepared h
  obtain ⟨hDraft, items, _, rfl⟩ := prepareSale_eq_ok.mp hPrepared
  refine ⟨hLines, ?_, ?_, ?_, ?_, ?_, ?_⟩ <;> rw [hOf]
  · exact (applyOrderResult_status _ _).trans hDraft
  · exact applyOrderResult_customerId _ _
  · exact applyOrderResult_globalPriceListId _ _
  · exact applyOrderResult_vetoed _ _
  · exact congrArg (List.filter _) (applyOrderResult_optedIn _ _)
  · exact orderDiscountCents_applyOrderResult _ _

/-- The lines of a recompute prepare to the lines that were prepared before. -/
theorem Settles.prepares {after : Sale} (hWellFormed : sale.WellFormed)
    (hPrepared : prepareSale env sale = .ok prepared) (h : Settles env sale prepared after) :
    after.items.mapM (prepareLine env after.globalPriceListId) = .ok prepared.items := by
  rw [h.globalPriceListId]
  exact mapM_inverse (fun item hItem applied hApplied =>
    prepareLine_applied hWellFormed hPrepared hItem hApplied) h.lines

theorem prepareSale_again {after : Sale} (hWellFormed : sale.WellFormed)
    (hPrepared : prepareSale env sale = .ok prepared) (h : Settles env sale prepared after)
    (hLoaded : Reloaded after loaded) :
    ∃ items, prepareSale env loaded = .ok { loaded with items := items } ∧
      prepared.items.Perm items := by
  have hBack := h.prepares hWellFormed hPrepared
  obtain ⟨items, hItems, hPerm⟩ := mapM_perm hLoaded.items hBack
  have hDraft : loaded.status = .draft := by
    rw [hLoaded.columns]
    exact h.status
  have hList : loaded.globalPriceListId = after.globalPriceListId := by
    rw [hLoaded.columns]
  rw [← hList] at hItems
  exact ⟨items, prepareSale_eq_ok.mpr ⟨hDraft, items, hItems, rfl⟩, hPerm⟩

/-- The engine is told the same again, up to opt-ins that have no target. -/
theorem agrees_again {after : Sale} (hWellFormed : sale.WellFormed)
    (hPrepared : prepareSale env sale = .ok prepared) (h : Settles env sale prepared after)
    (hLoaded : Reloaded after loaded) {items : List SaleItem}
    (hPerm : prepared.items.Perm items) :
    Agrees (loadCandidates (buildPosEvalInput env prepared) env.promotions)
      (buildPosEvalInput env prepared)
      (buildPosEvalInput env { loaded with items := items }) := by
  obtain ⟨_, kept, _, rfl⟩ := prepareSale_eq_ok.mp hPrepared
  constructor
  · rfl
  · rfl
  · rfl
  · rfl
  · show loaded.customerId = sale.customerId
    rw [hLoaded.columns]
    exact h.customerId
  · exact hPerm.map _
  · exact input_ids (prepared_ids hWellFormed hPrepared)
  · intro id
    show id ∈ loaded.vetoedPromotionIds ↔ id ∈ sale.vetoedPromotionIds
    rw [← hLoaded.vetoed.mem_iff, h.vetoed]
  · intro promo hPromo hManual hTarget hNotVetoed
    show promo.id ∈ loaded.optedInManualPromotionIds ↔ promo.id ∈ sale.optedInManualPromotionIds
    rw [← hLoaded.optedIn.mem_iff, h.optedIn, List.mem_filter]
    constructor
    · exact And.left
    · intro hOptedIn
      refine ⟨hOptedIn, ?_⟩
      -- the promotion has a target, so that its opt-in is not pruned
      have hTargetable : promo.id ∈ targetableManualPromotionIds
          (buildPosEvalInput env { sale with items := kept })
          (loadCandidates (buildPosEvalInput env { sale with items := kept }) env.promotions) := by
        apply List.mem_map_of_mem
        rw [List.mem_filter]
        have hOptedIn' : promo.id ∈ (buildPosEvalInput env
            { sale with items := kept }).optedInManualPromotionIds := hOptedIn
        exact ⟨hPromo, by simp [hManual, hOptedIn', hNotVetoed, hTarget]⟩
      simpa [List.contains_eq_mem] using hTargetable

theorem previewTotals_congr {first second : Sale} (hItems : first.items.Perm second.items)
    (hOrder : first.orderDiscountCents = second.orderDiscountCents) :
    first.previewTotals = second.previewTotals := by
  have hBase : Sale.subtotalBaseCents first.items = Sale.subtotalBaseCents second.items :=
    (hItems.map _).sum_eq
  have hPost : Sale.postLineSubtotalCents first.items =
      Sale.postLineSubtotalCents second.items := (hItems.map _).sum_eq
  simp only [Sale.previewTotals, hBase, hPost, hOrder]

/-- Recomputing what a recompute saved succeeds, with the same totals. -/
theorem recompute_again (hWellFormed : sale.WellFormed)
    (h : recomputePricingAndPromotions env sale = .ok recomputed)
    (hLoaded : Reloaded recomputed.sale loaded) :
    ∃ again, recomputePricingAndPromotions env loaded = .ok again ∧
      again.sale.previewTotals = recomputed.sale.previewTotals := by
  obtain ⟨prepared, _, hPrepared, _, _⟩ := recompute_eq_ok.mp h
  have hSettles := settles_of_recompute hWellFormed hPrepared h
  obtain ⟨items, hAgain, hPerm⟩ := prepareSale_again hWellFormed hPrepared hSettles hLoaded
  have hSame := (agrees_again hWellFormed hPrepared hSettles hLoaded hPerm).evaluate
  have hIds : (items.map SaleItem.id).Nodup :=
    (hPerm.map _).nodup (prepared_ids hWellFormed hPrepared)
  have hResults : applyResultFor env.now (selectedLines env { loaded with items := items }) =
      applyResultFor env.now (selectedLines env prepared) := by
    funext item
    have hHere := congrFun hSame.lines item.id
    simp only [applyResultFor, selectedLines]
    rw [hHere]
  obtain ⟨applied, hApplied, hAppliedPerm⟩ := mapM_perm hPerm hSettles.lines
  rw [← hResults] at hApplied
  have hRecompute : recomputePricingAndPromotions env loaded =
      .ok (Recomputed.of env { loaded with items := items } applied) :=
    recompute_eq_ok.mpr ⟨_, applied, hAgain,
      (applyLineResults_eq_ok_iff (selected_keys hIds) hIds).mpr hApplied, rfl⟩
  refine ⟨_, hRecompute, previewTotals_congr ?_ ?_⟩
  · rw [Recomputed.of_items]
    exact hAppliedPerm.symm
  · rw [hSettles.order, ← hSame.order]
    exact orderDiscountCents_applyOrderResult _ _

end

end Houndfe.Sales
