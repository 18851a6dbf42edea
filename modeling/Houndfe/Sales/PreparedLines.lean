import Houndfe.Base.Traverse
import Houndfe.Promotions.Selection
import Houndfe.Sales.Recompute

/-! The lines of a draft on their way through a recompute: what clearing and repricing leaves
of a line, and how the selected results reach the lines they are for. -/

namespace Houndfe.Sales

open Promotions Keyed Traverse

namespace SaleItem

/-- No discount column is set. -/
def Undiscounted (item : SaleItem) : Prop :=
  item.clearDiscountFields = item

/-- A line without a discount type has no other discount column set either. -/
def Tidy (item : SaleItem) : Prop :=
  item.discountType = none → item.Undiscounted

instance (item : SaleItem) : Decidable item.Undiscounted :=
  inferInstanceAs (Decidable (_ = _))

instance (item : SaleItem) : Decidable item.Tidy :=
  inferInstanceAs (Decidable (_ → _))

theorem undiscounted_clearDiscountFields (item : SaleItem) :
    item.clearDiscountFields.Undiscounted := rfl

theorem Undiscounted.discountType {item : SaleItem} (h : item.Undiscounted) :
    item.discountType = none := by
  rw [← h]
  rfl

theorem Undiscounted.prePrice {item : SaleItem} (h : item.Undiscounted) :
    item.prePriceCentsBeforeDiscount = none := by
  rw [← h]
  rfl

theorem Undiscounted.promotionId {item : SaleItem} (h : item.Undiscounted) :
    item.promotionId = none := by
  rw [← h]
  rfl

theorem Undiscounted.baseCents {item : SaleItem} (h : item.Undiscounted) :
    item.baseCents = item.unitPriceCents := by
  rw [SaleItem.baseCents, h.prePrice]
  rfl

/-- The line at the price of a list. -/
def withListPrice (item : SaleItem) (priceCents : Int) : SaleItem :=
  { item with unitPriceCents := priceCents, priceSource := .priceList }

theorem Undiscounted.withListPrice {item : SaleItem} (h : item.Undiscounted) (priceCents : Int) :
    (item.withListPrice priceCents).Undiscounted :=
  congrArg (fun line : SaleItem => SaleItem.withListPrice line priceCents) h

theorem Undiscounted.tidy {item : SaleItem} (h : item.Undiscounted) : item.Tidy :=
  fun _ => h

theorem tidy_of_discountType {item : SaleItem} (h : item.discountType ≠ none) : item.Tidy :=
  fun hNone => absurd hNone h

theorem clearPromotion_promotionId (item : SaleItem) : item.clearPromotion.promotionId = none := by
  unfold clearPromotion
  split
  · rfl
  · next h => simpa using h

theorem clearPromotion_tidy {item : SaleItem} (h : item.Tidy) : item.clearPromotion.Tidy := by
  unfold clearPromotion
  split
  · exact (undiscounted_clearDiscountFields _).tidy
  · exact h

theorem clearPromotion_of_none {item : SaleItem} (h : item.promotionId = none) :
    item.clearPromotion = item := by
  simp [clearPromotion, h]

end SaleItem

/-! ### Preparing a line -/

section

variable {env : PricingEnvironment} {globalPriceListId : Option String} {item prepared : SaleItem}

/-- The list that a line is priced from. -/
def effectiveListId (env : PricingEnvironment) (globalPriceListId : Option String)
    (item : SaleItem) : Option String :=
  item.appliedPriceListId.or (globalPriceListId.or env.defaultGlobalPriceListId)

/-- Repricing writes the price that the list gives, and its source. -/
structure Repriced (env : PricingEnvironment) (globalPriceListId : Option String)
    (item : SaleItem) (listId : String) (priceCents : Int) : Prop where
  notSticky : item.isSticky = false
  list : effectiveListId env globalPriceListId item = some listId
  price : env.catalog.resolvePrice item.productId item.variantId listId item.quantity.val =
    some priceCents
  nonneg : 0 ≤ priceCents

theorem repriceNonStickyLine_eq_ok
    (h : repriceNonStickyLine env globalPriceListId item = .ok prepared) :
    prepared = item ∨ ∃ listId priceCents,
      Repriced env globalPriceListId item listId priceCents ∧
        prepared = item.withListPrice priceCents := by
  unfold repriceNonStickyLine at h
  split at h
  · cases h
    exact .inl rfl
  next hSticky =>
  split at h
  · cases h
    exact .inl rfl
  next listId hList =>
  split at h
  · cases h
    exact .inl rfl
  next priceCents hPrice =>
  replace h := past h
  obtain ⟨_, hNonneg, h⟩ := bind_eq_ok.mp h
  cases pure_eq_ok.mp h
  have hNotSticky := Bool.eq_false_of_not_eq_true hSticky
  have hPositive := Int.not_lt.mp (throwIf_eq_ok.mp hNonneg)
  exact .inr ⟨listId, priceCents, ⟨hNotSticky, hList, hPrice, hPositive⟩, rfl⟩

/-- A line that was repriced once keeps its price. -/
theorem Repriced.again {listId : String} {priceCents : Int}
    (h : Repriced env globalPriceListId item listId priceCents) :
    repriceNonStickyLine env globalPriceListId (item.withListPrice priceCents) =
      .ok (item.withListPrice priceCents) := by
  have hManual : item.hasManualDiscount = false := (Bool.or_eq_false_iff.mp h.notSticky).2
  have hSticky : (item.withListPrice priceCents).isSticky = false := hManual
  have hList : (item.withListPrice priceCents).appliedPriceListId.or
      (globalPriceListId.or env.defaultGlobalPriceListId) = some listId := h.list
  have hPrice : env.catalog.resolvePrice (item.withListPrice priceCents).productId
      (item.withListPrice priceCents).variantId listId
        (item.withListPrice priceCents).quantity.val = some priceCents := h.price
  have hNonneg : ¬ priceCents < 0 := Int.not_lt.mpr h.nonneg
  simp only [repriceNonStickyLine, hSticky, hList, hPrice, SaleItem.reprice, throwIf, hNonneg]
  rfl

theorem repriceNonStickyLine_again
    (h : repriceNonStickyLine env globalPriceListId item = .ok prepared) :
    repriceNonStickyLine env globalPriceListId prepared = .ok prepared := by
  rcases repriceNonStickyLine_eq_ok h with rfl | ⟨listId, priceCents, hRepriced, rfl⟩
  · exact h
  · exact hRepriced.again

/-- What preparing leaves of a line: the same line, freed of its promotion. -/
structure PreparedFrom (item prepared : SaleItem) : Prop where
  id : prepared.id = item.id
  quantity : prepared.quantity = item.quantity
  promotionId : prepared.promotionId = none
  tidy : prepared.Tidy

theorem prepareLine_spec (hTidy : item.Tidy)
    (h : prepareLine env globalPriceListId item = .ok prepared) :
    PreparedFrom item prepared := by
  have hCleared := SaleItem.clearPromotion_tidy hTidy
  have hPromotion := SaleItem.clearPromotion_promotionId item
  have hId : item.clearPromotion.id = item.id := by
    unfold SaleItem.clearPromotion
    split <;> rfl
  have hQuantity : item.clearPromotion.quantity = item.quantity := by
    unfold SaleItem.clearPromotion
    split <;> rfl
  rcases repriceNonStickyLine_eq_ok h with rfl | ⟨_, priceCents, _, rfl⟩
  · exact ⟨hId, hQuantity, hPromotion, hCleared⟩
  · exact ⟨hId, hQuantity, hPromotion, fun hNone => (hCleared hNone).withListPrice priceCents⟩

/-- A prepared line without a manual discount has no discount at all. -/
theorem PreparedFrom.undiscounted (h : PreparedFrom item prepared)
    (hManual : prepared.hasManualDiscount = false) : prepared.Undiscounted := by
  apply h.tidy
  simpa [SaleItem.hasManualDiscount, h.promotionId] using hManual

end

/-- A draft whose lines have distinct ids and are tidy. -/
structure Sale.WellFormed (sale : Sale) : Prop where
  ids : (sale.items.map SaleItem.id).Nodup
  tidy : ∀ item ∈ sale.items, item.Tidy

/-- The lines of a prepared sale are the lines of the sale, one by one. -/
structure PreparedSale (env : PricingEnvironment) (sale prepared : Sale) : Prop where
  ids : prepared.items.map SaleItem.id = sale.items.map SaleItem.id
  lines : ∀ item ∈ prepared.items, ∃ original, PreparedFrom original item ∧
    prepareLine env sale.globalPriceListId original = .ok item

theorem prepareSale_spec {env : PricingEnvironment} {sale prepared : Sale}
    (hWellFormed : sale.WellFormed) (h : prepareSale env sale = .ok prepared) :
    PreparedSale env sale prepared := by
  obtain ⟨_, items, hItems, rfl⟩ := prepareSale_eq_ok.mp h
  have hLines : ∀ item ∈ items, ∃ original ∈ sale.items,
      prepareLine env sale.globalPriceListId original = .ok item :=
    fun item hMem => mem_mapM hItems hMem
  constructor
  · have hKeeps : ∀ pair ∈ sale.items, ∀ out,
        prepareLine env sale.globalPriceListId pair = .ok out → out.id = pair.id :=
      fun item hMem out hOut => (prepareLine_spec (hWellFormed.tidy item hMem) hOut).id
    exact map_eq_of_mapM hKeeps hItems
  · intro item hMem
    obtain ⟨original, hOriginal, hPrepared⟩ := hLines item hMem
    exact ⟨original, prepareLine_spec (hWellFormed.tidy original hOriginal) hPrepared, hPrepared⟩

/-! ### The results on their lines -/

theorem applyLineResult_eq_ok {now : Int} {result : PosEvalLineResult} {item applied : SaleItem}
    (h : applyLineResult now result item = .ok applied) :
    applied.id = item.id ∧ applied.quantity = item.quantity ∧
      applied.promotionId = some result.promotionId ∧ applied.discountType ≠ none := by
  cases result with
  | reward kind reward =>
      replace h := past (past (past h))
      cases pure_eq_ok.mp h
      exact ⟨rfl, rfl, rfl, Option.some_ne_none _⟩
  | perUnit perUnit =>
      obtain ⟨_, _, h⟩ := bind_eq_ok.mp h
      obtain ⟨_, _, h⟩ := bind_eq_ok.mp h
      obtain ⟨_, _, h⟩ := bind_eq_ok.mp h
      obtain ⟨_, _, h⟩ := bind_eq_ok.mp h
      obtain ⟨_, _, h⟩ := bind_eq_ok.mp h
      cases pure_eq_ok.mp h
      exact ⟨rfl, rfl, rfl, Option.some_ne_none _⟩

/-- The result of a line, if it has one, applied to it. -/
def applyResultFor (now : Int) (lineResults : List PosEvalLineResult) (item : SaleItem) :
    Except DomainError SaleItem :=
  match resultFor lineResults item.id with
  | some result => applyLineResult now result item
  | none => .ok item

theorem applyResultFor_id {now : Int} {lineResults : List PosEvalLineResult}
    {item applied : SaleItem} (h : applyResultFor now lineResults item = .ok applied) :
    applied.id = item.id := by
  unfold applyResultFor at h
  split at h
  · exact (applyLineResult_eq_ok h).1
  · cases h
    rfl

theorem updateFirstItem_eq_mapM (f : SaleItem → Except DomainError SaleItem) (id : String)
    {items : List SaleItem} (hIds : (items.map SaleItem.id).Nodup) :
    updateFirstItem (fun item => item.id = id) f (.ok []) items =
      items.mapM fun item => if item.id = id then f item else .ok item := by
  induction items with
  | nil => rfl
  | cons item rest ih =>
      obtain ⟨hFirst, hRest⟩ := List.nodup_cons.mp hIds
      by_cases hHere : item.id = id
      · have hOthers : rest.mapM (fun item => if item.id = id then f item else .ok item) =
            .ok rest := by
          have hKept : ∀ other ∈ rest,
              (if other.id = id then f other else .ok other) = .ok other := by
            intro other hMem
            have hNe : other.id ≠ id := fun hOther =>
              hFirst (hHere.trans hOther.symm ▸ List.mem_map_of_mem hMem)
            exact if_neg hNe
          have hSame := mapM_eq_ok_map hKept
          rwa [List.map_id'] at hSame
        rw [List.mapM_cons, hOthers]
        simp only [updateFirstItem, hHere, decide_true, if_true]
        rfl
      · rw [List.mapM_cons, ← ih hRest]
        simp only [updateFirstItem, hHere, decide_false, if_false]
        rfl

/-- One result, applied to the line it is for. -/
def applyIfFor (now : Int) (result : PosEvalLineResult) (item : SaleItem) :
    Except DomainError SaleItem :=
  if item.id = result.itemId then applyLineResult now result item else .ok item

theorem applyIfFor_id {now : Int} {result : PosEvalLineResult} {item applied : SaleItem}
    (h : applyIfFor now result item = .ok applied) : applied.id = item.id := by
  unfold applyIfFor at h
  split at h
  · exact (applyLineResult_eq_ok h).1
  · cases h
    rfl

/-- Applying the first result and then the others is applying the one for the line. -/
theorem applyResultFor_cons {now : Int} {result : PosEvalLineResult}
    {rest : List PosEvalLineResult} {item applied : SaleItem}
    (hFirst : result.itemId ∉ rest.map PosEvalLineResult.itemId) :
    (∃ updated, applyIfFor now result item = .ok updated ∧
        applyResultFor now rest updated = .ok applied) ↔
      applyResultFor now (result :: rest) item = .ok applied := by
  by_cases hHere : item.id = result.itemId
  · have hNone : resultFor rest item.id = none := by
      rw [hHere]
      exact lookup_eq_none.mpr fun other hMem hOther =>
        hFirst (List.mem_map.mpr ⟨other, hMem, hOther⟩)
    have hSelf : applyResultFor now (result :: rest) item = applyLineResult now result item := by
      simp only [applyResultFor, resultFor, lookup_cons, hHere, if_true]
    have hDone : ∀ updated, updated.id = item.id → applyResultFor now rest updated = .ok updated :=
      fun updated hId => by rw [applyResultFor, hId, hNone]
    rw [hSelf, applyIfFor, if_pos hHere]
    constructor
    · rintro ⟨updated, hUpdated, hApplied⟩
      rw [hDone updated (applyLineResult_eq_ok hUpdated).1] at hApplied
      cases hApplied
      exact hUpdated
    · intro hApplied
      exact ⟨applied, hApplied, hDone applied (applyLineResult_eq_ok hApplied).1⟩
  · have hOther : applyResultFor now (result :: rest) item = applyResultFor now rest item := by
      simp only [applyResultFor, resultFor, lookup_cons,
        if_neg fun hEq : result.itemId = item.id => hHere hEq.symm]
    rw [hOther, applyIfFor, if_neg hHere]
    simp

/-- With distinct lines and at most one result for each, every line gets its result. -/
theorem applyLineResults_eq_ok_iff {now : Int} {lineResults : List PosEvalLineResult}
    {items applied : List SaleItem}
    (hKeys : (lineResults.map PosEvalLineResult.itemId).Nodup)
    (hIds : (items.map SaleItem.id).Nodup) :
    applyLineResults now lineResults items = .ok applied ↔
      items.mapM (applyResultFor now lineResults) = .ok applied := by
  unfold applyLineResults
  induction lineResults generalizing items with
  | nil =>
      have hKept : ∀ item ∈ items, applyResultFor now [] item = .ok item := fun _ _ => rfl
      rw [mapM_eq_ok_map hKept, List.map_id']
      rfl
  | cons result rest ih =>
      obtain ⟨hFirst, hRest⟩ := List.nodup_cons.mp hKeys
      rw [List.foldlM_cons, bind_eq_ok, updateFirstItem_eq_mapM _ _ hIds,
        ← mapM_comp_eq_ok (f := applyIfFor now result) (g := applyResultFor now rest)
          fun item _ out => applyResultFor_cons hFirst]
      refine exists_congr fun middle => and_congr_right fun hMiddle => ih hRest ?_
      rw [map_eq_of_mapM (fun _ _ _ => applyIfFor_id) hMiddle]
      exact hIds

end Houndfe.Sales
