import Houndfe.Sales.RecomputeAgain

/-! The lines of a draft under its operations: ids stay distinct, and a line without a discount
type has no other discount column set. -/

namespace Houndfe.Sales

open Promotions Traverse

/-- Lines with distinct ids, each tidy. -/
def WellFormedLines (items : List SaleItem) : Prop :=
  (items.map SaleItem.id).Nodup ∧ ∀ item ∈ items, item.Tidy

theorem Sale.WellFormed.lines {sale : Sale} (h : sale.WellFormed) : WellFormedLines sale.items :=
  ⟨h.ids, h.tidy⟩

theorem WellFormedLines.sale {sale : Sale} (h : WellFormedLines sale.items) : sale.WellFormed :=
  ⟨h.1, h.2⟩

/-- One line was rewritten, or none was found. -/
theorem updateFirstItem_eq_ok {p : SaleItem → Bool} {f : SaleItem → Except DomainError SaleItem}
    {missing : Except DomainError (List SaleItem)} {items out : List SaleItem}
    (h : updateFirstItem p f missing items = .ok out) :
    (∃ before item updated after, items = before ++ item :: after ∧ f item = .ok updated ∧
        out = before ++ updated :: after) ∨
      ∃ extra, missing = .ok extra ∧ out = items ++ extra := by
  induction items generalizing out with
  | nil => exact .inr ⟨out, h, rfl⟩
  | cons item rest ih =>
      unfold updateFirstItem at h
      split at h
      · obtain ⟨updated, hUpdated, h⟩ := bind_eq_ok.mp h
        cases pure_eq_ok.mp h
        exact .inl ⟨[], item, updated, rest, rfl, hUpdated, rfl⟩
      · obtain ⟨tail, hTail, h⟩ := bind_eq_ok.mp h
        cases pure_eq_ok.mp h
        rcases ih hTail with ⟨before, found, updated, after, rfl, hUpdated, rfl⟩ | ⟨extra, hExtra, rfl⟩
        · exact .inl ⟨item :: before, found, updated, after, rfl, hUpdated, rfl⟩
        · exact .inr ⟨extra, hExtra, rfl⟩

/-- What rewriting leaves of a line, the rewrite of the first one leaves of all. -/
theorem map_updateFirstItem {α : Type} {view : SaleItem → α} {p : SaleItem → Bool}
    {f : SaleItem → Except DomainError SaleItem} {missing : Except DomainError (List SaleItem)}
    {items out : List SaleItem}
    (hKeeps : ∀ item updated, f item = .ok updated → view updated = view item)
    (hMissing : ∀ extra, missing = .ok extra → extra = [])
    (h : updateFirstItem p f missing items = .ok out) : out.map view = items.map view := by
  rcases updateFirstItem_eq_ok h with ⟨before, item, updated, after, rfl, hUpdate, rfl⟩ |
    ⟨extra, hExtra, rfl⟩
  · simp [hKeeps item updated hUpdate]
  · rw [hMissing extra hExtra, List.append_nil]

/-- What holds of every line, and of a line that is rewritten or added, holds of the result. -/
theorem forall_updateFirstItem {p : SaleItem → Bool} {f : SaleItem → Except DomainError SaleItem}
    {missing : Except DomainError (List SaleItem)} {P : SaleItem → Prop}
    {items out : List SaleItem} (hAll : ∀ item ∈ items, P item)
    (hUpdated : ∀ item updated, P item → f item = .ok updated → P updated)
    (hMissing : ∀ extra, missing = .ok extra → ∀ item ∈ extra, P item)
    (h : updateFirstItem p f missing items = .ok out) : ∀ item ∈ out, P item := by
  rcases updateFirstItem_eq_ok h with ⟨before, item, updated, after, rfl, hUpdate, rfl⟩ |
    ⟨extra, hExtra, rfl⟩
  · have hItem := hAll item (by simp)
    intro line hLine
    rcases List.mem_append.mp hLine with hBefore | hRest
    · exact hAll line (by simp [hBefore])
    · rcases List.mem_cons.mp hRest with rfl | hAfter
      · exact hUpdated item line hItem hUpdate
      · exact hAll line (by simp [hAfter])
  · intro line hLine
    rcases List.mem_append.mp hLine with hOld | hNew
    · exact hAll line hOld
    · exact hMissing extra hExtra line hNew

/-- A line that is rewritten under its id and stays tidy. -/
def KeepsLine (f : SaleItem → Except DomainError SaleItem) : Prop :=
  ∀ item updated, f item = .ok updated → updated.id = item.id ∧ (item.Tidy → updated.Tidy)

theorem WellFormedLines.replace {before after : List SaleItem} {item updated : SaleItem}
    (h : WellFormedLines (before ++ item :: after)) (hId : updated.id = item.id)
    (hTidy : item.Tidy → updated.Tidy) : WellFormedLines (before ++ updated :: after) := by
  obtain ⟨hIds, hAll⟩ := h
  constructor
  · simpa [hId] using hIds
  · intro line hLine
    rcases List.mem_append.mp hLine with hBefore | hRest
    · exact hAll line (List.mem_append_left _ hBefore)
    · rcases List.mem_cons.mp hRest with rfl | hAfter
      · exact hTidy (hAll item (by simp))
      · exact hAll line (by simp [hAfter])

theorem WellFormedLines.update {p : SaleItem → Bool}
    {f : SaleItem → Except DomainError SaleItem} {error : DomainError}
    {items out : List SaleItem} (h : WellFormedLines items) (hKeeps : KeepsLine f)
    (hOut : updateFirstItem p f (.error error) items = .ok out) : WellFormedLines out := by
  rcases updateFirstItem_eq_ok hOut with ⟨_, item, updated, _, rfl, hUpdated, rfl⟩ | ⟨_, hNo, _⟩
  · exact h.replace (hKeeps item updated hUpdated).1 (hKeeps item updated hUpdated).2
  · cases hNo

theorem WellFormedLines.sublist {items out : List SaleItem} (h : WellFormedLines items)
    (hSublist : out.Sublist items) : WellFormedLines out :=
  ⟨(hSublist.map _).nodup h.1, fun item hItem => h.2 item (hSublist.subset hItem)⟩

theorem keepsLine_changeQuantity (quantity : SaleItem → Int) :
    KeepsLine fun item => item.changeQuantity (quantity item) := by
  intro item updated h
  obtain ⟨newQuantity, _, h⟩ := bind_eq_ok.mp h
  cases pure_eq_ok.mp h
  refine ⟨rfl, fun hTidy hNone => ?_⟩
  exact congrArg (fun line : SaleItem => { line with quantity := newQuantity }) (hTidy hNone)

theorem keepsLine_overridePrice (input : OverrideSaleItemPriceInput) :
    KeepsLine fun item => item.overridePrice input := by
  intro item updated h
  replace h := past (past h)
  cases pure_eq_ok.mp h
  exact ⟨rfl, fun _ => (SaleItem.undiscounted_clearDiscountFields _).tidy⟩

theorem keepsLine_removeDiscount :
    KeepsLine fun item => .ok item.removeDiscount := by
  intro item updated h
  cases h
  exact ⟨rfl, fun _ => (SaleItem.undiscounted_clearDiscountFields _).tidy⟩

theorem keepsLine_applyDiscount (input : ApplySaleItemDiscountInput) (now : Int) :
    KeepsLine fun item => item.applyDiscount input now := by
  intro item updated h
  obtain ⟨_, _, h⟩ := bind_eq_ok.mp h
  obtain ⟨_, _, h⟩ := bind_eq_ok.mp h
  obtain ⟨_, _, h⟩ := bind_eq_ok.mp h
  obtain ⟨_, _, h⟩ := bind_eq_ok.mp h
  obtain ⟨_, _, h⟩ := bind_eq_ok.mp h
  cases pure_eq_ok.mp h
  exact ⟨rfl, fun _ => SaleItem.tidy_of_discountType (Option.some_ne_none _)⟩

/-! ### The operations of the sale -/

section

variable {sale after : Sale}

theorem addItem_wellFormed {props : SaleItemProps} (hWellFormed : sale.WellFormed)
    (hFresh : props.id ∉ sale.items.map SaleItem.id) (h : sale.addItem props = .ok after) :
    after.WellFormed := by
  replace h := past h
  obtain ⟨newItem, hNew, h⟩ := bind_eq_ok.mp h
  obtain ⟨items, hItems, h⟩ := bind_eq_ok.mp h
  cases pure_eq_ok.mp h
  obtain ⟨_, _, hNew⟩ := bind_eq_ok.mp hNew
  obtain ⟨_, _, hNew⟩ := bind_eq_ok.mp hNew
  obtain ⟨quantity, _, hNew⟩ := bind_eq_ok.mp hNew
  obtain ⟨_, _, hNew⟩ := bind_eq_ok.mp hNew
  cases pure_eq_ok.mp hNew
  apply WellFormedLines.sale
  have hKeeps := keepsLine_changeQuantity fun item =>
    item.quantity.val + (SaleItem.fresh props quantity).quantity.val
  rcases updateFirstItem_eq_ok hItems with ⟨_, item, updated, _, hSplit, hUpdated, rfl⟩ |
    ⟨extra, hExtra, rfl⟩
  · have hLines := hWellFormed.lines
    rw [hSplit] at hLines
    exact hLines.replace (hKeeps item updated hUpdated).1 (hKeeps item updated hUpdated).2
  · cases hExtra
    constructor
    · rw [List.map_append, List.nodup_append]
      refine ⟨hWellFormed.ids, by simp, ?_⟩
      intro id hId other hOther hSame
      simp only [List.map_cons, List.map_nil, List.mem_singleton] at hOther
      rw [hSame, hOther] at hId
      exact hFresh hId
    · intro line hLine
      rcases List.mem_append.mp hLine with hOld | hLast
      · exact hWellFormed.tidy line hOld
      · cases List.mem_singleton.mp hLast
        exact fun _ => rfl

theorem updateItemQuantity_wellFormed {itemId : String} {quantity : Int}
    (hWellFormed : sale.WellFormed) (h : sale.updateItemQuantity itemId quantity = .ok after) :
    after.WellFormed := by
  replace h := past (past h)
  obtain ⟨items, hItems, h⟩ := bind_eq_ok.mp h
  cases pure_eq_ok.mp h
  exact (hWellFormed.lines.update (keepsLine_changeQuantity fun _ => quantity) hItems).sale

theorem optOutOrphan_items (sale : Sale) (promotionId : Option String) :
    (sale.optOutOrphan promotionId).items = sale.items := by
  unfold Sale.optOutOrphan
  split
  · rfl
  · split <;> rfl

theorem removeItem_wellFormed {itemId : String} (hWellFormed : sale.WellFormed)
    (h : sale.removeItem itemId = .ok after) : after.WellFormed := by
  replace h := past h
  split at h
  · cases h
  · cases pure_eq_ok.mp h
    apply WellFormedLines.sale
    rw [optOutOrphan_items]
    exact hWellFormed.lines.sublist List.eraseP_sublist

theorem overrideItemPrice_wellFormed {itemId : String} {input : OverrideSaleItemPriceInput}
    (hWellFormed : sale.WellFormed) (h : sale.overrideItemPrice itemId input = .ok after) :
    after.WellFormed := by
  obtain ⟨items, hItems, h⟩ := bind_eq_ok.mp h
  cases pure_eq_ok.mp h
  exact (hWellFormed.lines.update (keepsLine_overridePrice input) hItems).sale

theorem applyItemDiscount_wellFormed {itemId : String} {input : ApplySaleItemDiscountInput}
    {now : Int} (hWellFormed : sale.WellFormed)
    (h : sale.applyItemDiscount itemId input now = .ok after) : after.WellFormed := by
  obtain ⟨items, hItems, h⟩ := bind_eq_ok.mp h
  cases pure_eq_ok.mp h
  exact (hWellFormed.lines.update (keepsLine_applyDiscount input now) hItems).sale

theorem removeItemDiscount_wellFormed {itemId : String} (hWellFormed : sale.WellFormed)
    (h : sale.removeItemDiscount itemId = .ok after) : after.WellFormed := by
  unfold Sale.removeItemDiscount at h
  split at h
  · cases h
  · obtain ⟨items, hItems, h⟩ := bind_eq_ok.mp h
    cases pure_eq_ok.mp h
    apply WellFormedLines.sale
    rw [optOutOrphan_items]
    exact hWellFormed.lines.update keepsLine_removeDiscount hItems

/-- One line of a global discount keeps its id and stays tidy, skipped or not. -/
theorem applyGlobalDiscountToItem_keeps {input : ApplySaleItemDiscountInput}
    {strategy : DiscountStrategy} {now : Int} {item : SaleItem} {result : SaleItem × List SkippedItem}
    (h : Sale.applyGlobalDiscountToItem input strategy now item = .ok result) :
    result.1.id = item.id ∧ (item.Tidy → result.1.Tidy) := by
  unfold Sale.applyGlobalDiscountToItem at h
  split at h
  · cases h
    exact ⟨rfl, id⟩
  · split at h
    · next updated hUpdated =>
        cases h
        exact keepsLine_applyDiscount input now item updated hUpdated
    · split at h
      · cases h
        exact ⟨rfl, id⟩
      · cases h

theorem applyGlobalDiscount_wellFormed {input : ApplySaleItemDiscountInput}
    {strategy : DiscountStrategy} {now : Int} {result : Sale × List SkippedItem}
    (hWellFormed : sale.WellFormed) (h : sale.applyGlobalDiscount input strategy now = .ok result) :
    result.1.WellFormed := by
  obtain ⟨results, hResults, h⟩ := bind_eq_ok.mp h
  cases pure_eq_ok.mp h
  constructor
  · have hIds : results.map (fun result => result.1.id) = sale.items.map SaleItem.id :=
      map_eq_of_mapM (fun _ _ _ hOut => (applyGlobalDiscountToItem_keeps hOut).1) hResults
    rw [List.map_map]
    exact hIds ▸ hWellFormed.ids
  · intro line hLine
    obtain ⟨result, hResult, rfl⟩ := List.mem_map.mp hLine
    obtain ⟨item, hItem, hOut⟩ := mem_mapM hResults hResult
    exact (applyGlobalDiscountToItem_keeps hOut).2 (hWellFormed.tidy item hItem)

theorem removeGlobalDiscount_wellFormed (hWellFormed : sale.WellFormed) :
    sale.removeGlobalDiscount.WellFormed := by
  constructor
  · have hIds : (sale.items.map SaleItem.removeDiscount).map SaleItem.id =
        sale.items.map SaleItem.id := by
      rw [List.map_map]
      rfl
    exact hIds ▸ hWellFormed.ids
  · intro line hLine
    obtain ⟨item, _, rfl⟩ := List.mem_map.mp hLine
    exact (SaleItem.undiscounted_clearDiscountFields _).tidy

theorem wellFormed_of_items (hWellFormed : sale.WellFormed) (h : after.items = sale.items) :
    after.WellFormed :=
  WellFormedLines.sale (h ▸ hWellFormed.lines)

/-- What a recompute saves is well formed again. -/
theorem recompute_wellFormed {env : PricingEnvironment} {recomputed : Recomputed}
    (hWellFormed : sale.WellFormed)
    (h : recomputePricingAndPromotions env sale = .ok recomputed) :
    recomputed.sale.WellFormed := by
  obtain ⟨prepared, _, hPrepared, _, _⟩ := recompute_eq_ok.mp h
  have hLines := (settles_of_recompute hWellFormed hPrepared h).lines
  constructor
  · rw [map_eq_of_mapM (fun _ _ _ => applyResultFor_id) hLines]
    exact prepared_ids hWellFormed hPrepared
  · intro line hLine
    obtain ⟨item, hItem, hApplied⟩ := mem_mapM hLines hLine
    obtain ⟨_, hFrom, _⟩ := (prepareSale_spec hWellFormed hPrepared).lines item hItem
    unfold applyResultFor at hApplied
    split at hApplied
    · exact SaleItem.tidy_of_discountType (applyLineResult_eq_ok hApplied).2.2.2
    · cases hApplied
      exact hFrom.tidy

end

end Houndfe.Sales
