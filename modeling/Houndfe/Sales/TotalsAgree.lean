import Houndfe.Sales.BotPricing
import Houndfe.Sales.DraftPreview
import Houndfe.Sales.LineRewards
import Mathlib.Algebra.Order.BigOperators.Group.List

/-! The amounts of a line as the entity shows them, as the totals fold them and as the detail
of a confirmed sale reads them from the rows, on every draft that requests or the bot build. -/

namespace Houndfe.Sales

open Promotions Products Traverse Transition

/-! ### The rows of a confirmed sale -/

/-- The enum column `SaleItemRewardKind`. -/
inductive PersistedRewardKind where
  | BUY_X_GET_Y
  | ADVANCED
  deriving DecidableEq, Repr

/-- The columns of a sale item that the detail of a confirmed sale reads. -/
structure SaleItemRow where
  id : String
  saleId : String
  productName : String
  variantName : Option String
  imageUrl : Option String
  quantity : Int
  unitPriceCents : Int
  originalPriceCents : Option Int
  priceSource : PriceSource
  appliedPriceListId : Option String
  discountType : Option DiscountType
  discountValue : Option Int
  discountAmountCents : Option Int
  rewardDiscountPercent : Option Int
  rewardKind : Option PersistedRewardKind
  prePriceCentsBeforeDiscount : Option Int
  discountTitle : Option String
  promotionId : Option String
  deriving DecidableEq, Repr

def RewardKind.persisted : RewardKind → PersistedRewardKind
  | .buyXGetY => .BUY_X_GET_Y
  | .advanced => .ADVANCED

def PersistedRewardKind.wire : PersistedRewardKind → RewardKind
  | .BUY_X_GET_Y => .buyXGetY
  | .ADVANCED => .advanced

/-- The row that the draft and the charge write for a line. -/
def toWriteRow (item : SaleItem) : SaleItemRow where
  id := item.id
  saleId := item.saleId
  productName := item.productName
  variantName := item.variantName
  imageUrl := item.imageUrl
  quantity := item.quantity.val
  unitPriceCents := item.unitPriceCents
  originalPriceCents := item.originalPriceCents
  priceSource := item.priceSource
  appliedPriceListId := item.appliedPriceListId
  discountType := item.discountType
  discountValue := item.discountValue
  discountAmountCents := item.discountAmountCents
  rewardDiscountPercent := item.rewardDiscountPercent
  rewardKind := item.rewardKind.map RewardKind.persisted
  prePriceCentsBeforeDiscount := item.prePriceCentsBeforeDiscount
  discountTitle := item.discountTitle
  promotionId := item.promotionId

/-- A line in the detail of a confirmed sale. -/
structure SaleDetailItem where
  productName : String
  variantName : Option String
  imageUrl : Option String
  unitPriceCents : Int
  quantity : Int
  discountCents : Int
  subtotalCents : Int
  originalPriceCents : Option Int
  priceSource : PriceSource
  appliedPriceListId : Option String
  discountType : Option DiscountType
  discountValue : Option Int
  discountAmountCents : Option Int
  discountTitle : Option String
  prePriceCentsBeforeDiscount : Option Int
  rewardKind : Option RewardKind
  rewardDiscountPercent : Option Int
  promotionId : Option String
  deriving DecidableEq, Repr

namespace SaleItemRow

/-- The discriminator, derived again from the columns of the row. -/
def isBxgy (row : SaleItemRow) : Bool :=
  row.promotionId.isSome && (row.prePriceCentsBeforeDiscount.isSome &&
    (some row.unitPriceCents = row.prePriceCentsBeforeDiscount &&
      0 < row.discountAmountCents.getD 0))

/-- The mapper of the repository. -/
def toDetailItem (row : SaleItemRow) : SaleDetailItem where
  productName := row.productName
  variantName := row.variantName
  imageUrl := row.imageUrl
  unitPriceCents := row.unitPriceCents
  quantity := row.quantity
  discountCents := row.discountAmountCents.getD 0
  subtotalCents := row.unitPriceCents * row.quantity -
    if row.isBxgy then row.discountAmountCents.getD 0 else 0
  originalPriceCents := row.originalPriceCents
  priceSource := row.priceSource
  appliedPriceListId := row.appliedPriceListId
  discountType := row.discountType
  discountValue := row.discountValue
  discountAmountCents := row.discountAmountCents
  discountTitle := row.discountTitle
  prePriceCentsBeforeDiscount := row.prePriceCentsBeforeDiscount
  rewardKind := row.rewardKind.map PersistedRewardKind.wire <|>
    if row.isBxgy then some .buyXGetY else none
  rewardDiscountPercent := if row.isBxgy then row.rewardDiscountPercent else none
  promotionId := row.promotionId

end SaleItemRow

theorem isBxgy_toWriteRow (item : SaleItem) :
    (toWriteRow item).isBxgy = item.isBuyXGetYReward := by
  unfold SaleItemRow.isBxgy SaleItem.isBuyXGetYReward toWriteRow
  cases hPromotion : item.promotionId <;> cases hBefore : item.prePriceCentsBeforeDiscount <;>
    simp [Bool.and_comm, eq_comm]

/-- The detail shows a line as the entity does. -/
theorem toDetailItem_toWriteRow (item : SaleItem) :
    (toWriteRow item).toDetailItem.subtotalCents = item.toResponse.subtotalCents ∧
      (toWriteRow item).toDetailItem.discountCents =
        item.toResponse.discountAmountCents.getD 0 ∧
      (toWriteRow item).toDetailItem.rewardKind = item.toResponse.rewardKind ∧
      (toWriteRow item).toDetailItem.rewardDiscountPercent =
        item.toResponse.rewardDiscountPercent := by
  have hBxgy := isBxgy_toWriteRow item
  have hKind : (item.rewardKind.map RewardKind.persisted).map PersistedRewardKind.wire =
      item.rewardKind := by
    rcases item.rewardKind with _ | kind
    · rfl
    · cases kind <;> rfl
  refine ⟨?_, rfl, ?_, ?_⟩
  · simp only [SaleItemRow.toDetailItem, hBxgy]
    rfl
  · simp only [SaleItemRow.toDetailItem, hBxgy]
    exact congrArg (fun kind => kind <|> _) hKind
  · simp only [SaleItemRow.toDetailItem, hBxgy]
    rfl

/-! ### Lines whose price is not negative -/

/-- Neither the price of a line nor what a discount left of it is out of range. -/
structure Priced (item : SaleItem) : Prop where
  base_nonneg : 0 ≤ item.baseCents
  unit_le : item.unitPriceCents ≤ item.baseCents

namespace Priced

variable {item updated : SaleItem}

theorem of_undiscounted (h : item.Undiscounted) (hPrice : 0 ≤ item.unitPriceCents) :
    Priced item := by
  rw [← h.baseCents] at hPrice
  exact ⟨hPrice, h.baseCents.ge⟩

theorem removeDiscount (h : Priced item) : Priced item.removeDiscount :=
  .of_undiscounted (SaleItem.undiscounted_clearDiscountFields _) h.base_nonneg

theorem clearPromotion (h : Priced item) : Priced item.clearPromotion := by
  unfold SaleItem.clearPromotion
  split
  · exact h.removeDiscount
  · exact h

theorem create {props : SaleItemProps} (h : SaleItem.create props = .ok item) : Priced item := by
  have hColumns := Columns.create h
  cases hColumns with
  | noDiscount hPrice _ _ hBefore =>
      constructor <;> simp [SaleItem.baseCents, hBefore, hPrice]

theorem changeQuantity {newQuantity : Int} (h : Priced item)
    (hUpdate : item.changeQuantity newQuantity = .ok updated) : Priced updated := by
  obtain ⟨_, _, hUpdate⟩ := bind_eq_ok.mp hUpdate
  cases pure_eq_ok.mp hUpdate
  exact ⟨h.base_nonneg, h.unit_le⟩

theorem applyDiscount {input : ApplySaleItemDiscountInput} {now : Int} (h : Priced item)
    (hUpdate : item.applyDiscount input now = .ok updated) : Priced updated := by
  simp only [SaleItem.applyDiscount, bind_eq_ok, throwIf_eq_ok, pure_eq_ok] at hUpdate
  obtain ⟨-, -, -, -, -, -, discountCents, hAmount, -, -, rfl⟩ := hUpdate
  have hNonneg := nonneg_of_computeDiscountAmountCents h.base_nonneg hAmount
  refine ⟨h.base_nonneg, ?_⟩
  show item.baseCents - discountCents ≤ item.baseCents
  omega

theorem applyBuyXGetYReward {input : ApplyBuyXGetYRewardInput} {now : Int}
    (hUpdate : item.applyBuyXGetYReward input now = .ok updated) : Priced updated := by
  have hColumns := Columns.applyBuyXGetYReward hUpdate
  obtain ⟨hPrice, hBase⟩ := hColumns.baseCents_nonneg
  refine ⟨hBase, ?_⟩
  cases hColumns with
  | reward _ _ _ _ _ _ hBefore => simp [SaleItem.baseCents, hBefore]

theorem applyLineResult {now : Int} {result : PosEvalLineResult} (h : Priced item)
    (hUpdate : applyLineResult now result item = .ok updated) : Priced updated := by
  cases result with
  | reward kind reward => exact applyBuyXGetYReward hUpdate
  | perUnit perUnit => exact h.applyDiscount hUpdate

/-- The net amount of a line is at most its amount before any discount. -/
theorem netCents_le (h : Priced item) : item.netCents ≤ item.baseCents * item.quantity.val := by
  have hQuantity := item.quantity.property
  have hReward : 0 ≤ item.rewardCents := by
    unfold SaleItem.rewardCents
    split
    · next hReward =>
        simp only [SaleItem.isBuyXGetYReward, Bool.and_eq_true, decide_eq_true_eq] at hReward
        exact hReward.1.2.le
    · exact le_rfl
  have hGross : item.subtotalCents ≤ item.baseCents * item.quantity.val :=
    mul_le_mul_of_nonneg_right h.unit_le (by omega)
  unfold SaleItem.netCents
  omega

end Priced

/-- An undiscounted line on a list of its own that has a price for it. -/
structure Repriceable (env : PricingEnvironment) (item : SaleItem) : Prop where
  undiscounted : item.Undiscounted
  notCustom : item.priceSource ≠ .custom
  listed : ∃ listId, item.appliedPriceListId = some listId ∧
    (env.catalog.resolvePrice item.productId item.variantId listId item.quantity.val).isSome

/-- Whatever price the line had, preparing it puts the one of the list in its place. -/
theorem Repriceable.priced {env : PricingEnvironment} {globalPriceListId : Option String}
    {item prepared : SaleItem} (h : Repriceable env item)
    (hPrepared : prepareLine env globalPriceListId item = .ok prepared) : Priced prepared := by
  obtain ⟨listId, hList, hResolves⟩ := h.listed
  obtain ⟨priceCents, hPrice⟩ := Option.isSome_iff_exists.mp hResolves
  have hSticky : item.isSticky = false := by
    simp [SaleItem.isSticky, SaleItem.hasManualDiscount, h.undiscounted.discountType, h.notCustom]
  have hReprice : repriceNonStickyLine env globalPriceListId item =
      item.reprice ⟨priceCents, .priceList, item.appliedPriceListId⟩ := by
    simp [repriceNonStickyLine, hSticky, hList, hPrice]
  unfold prepareLine at hPrepared
  rw [SaleItem.clearPromotion_of_none h.undiscounted.promotionId, hReprice] at hPrepared
  obtain ⟨_, _, hPrepared⟩ := bind_eq_ok.mp hPrepared
  obtain ⟨_, hNonneg, hPrepared⟩ := bind_eq_ok.mp hPrepared
  cases pure_eq_ok.mp hPrepared
  have hUndiscounted := h.undiscounted.withListPrice priceCents
  exact .of_undiscounted hUndiscounted (not_lt.mp (throwIf_eq_ok.mp hNonneg))

/-- Lines that a recompute may start from. -/
def Recomputable (env : PricingEnvironment) (item : SaleItem) : Prop :=
  item.Tidy ∧ (Priced item ∨ Repriceable env item)

theorem Recomputable.priced {env : PricingEnvironment} {globalPriceListId : Option String}
    {item prepared : SaleItem} (h : Recomputable env item)
    (hPrepared : prepareLine env globalPriceListId item = .ok prepared) : Priced prepared := by
  obtain ⟨hTidy, hPriced | hRepriceable⟩ := h
  · have hFrom := prepareLine_spec hTidy hPrepared
    rcases repriceNonStickyLine_eq_ok hPrepared with rfl | ⟨_, priceCents, hRepriced, rfl⟩
    · exact hPriced.clearPromotion
    · have hManual := (Bool.or_eq_false_iff.mp hRepriced.notSticky).2
      have hUndiscounted := hFrom.undiscounted hManual
      exact .of_undiscounted hUndiscounted hRepriced.nonneg
  · exact hRepriceable.priced hPrepared

/-! ### The recompute -/

theorem applyLineResults_priced {now : Int} {lineResults : List PosEvalLineResult}
    {items out : List SaleItem} (hAll : ∀ item ∈ items, Priced item)
    (h : applyLineResults now lineResults items = .ok out) : ∀ item ∈ out, Priced item := by
  unfold applyLineResults at h
  induction lineResults generalizing items with
  | nil =>
      cases h
      exact hAll
  | cons result rest ih =>
      rw [List.foldlM_cons, bind_eq_ok] at h
      obtain ⟨middle, hMiddle, h⟩ := h
      refine ih (forall_updateFirstItem hAll ?_ ?_ hMiddle) h
      · exact fun item updated hPriced hUpdate => hPriced.applyLineResult hUpdate
      · intro extra hExtra
        cases hExtra
        exact fun _ hNone => absurd hNone List.not_mem_nil

theorem evaluate_order_pos (input : PosEvalInput) (data : List Promotion)
    {order : PosEvalOrderResult} (h : (evaluate input data).selection.order = some order) :
    0 < order.discountAmountCents := by
  obtain ⟨candidates, _, hPass, _⟩ := evaluate_fits input data
  rw [hPass] at h
  exact (pickBestOrderPromo_eq_some h).1

/-- Lines in range and an order discount that takes nothing back. -/
structure PricedSale (sale : Sale) : Prop where
  lines : ∀ item ∈ sale.items, Priced item
  order : 0 ≤ sale.orderDiscountCents

theorem recomputeFrom_priced {env : PricingEnvironment} {evalInput : Sale → PosEvalInput}
    {sale : Sale} {recomputed : Recomputed} (hLines : ∀ item ∈ sale.items, Recomputable env item)
    (h : recomputeFrom env evalInput sale = .ok recomputed) : PricedSale recomputed.sale := by
  obtain ⟨prepared, hPrepared, h⟩ := bind_eq_ok.mp h
  obtain ⟨items, hItems, h⟩ := bind_eq_ok.mp h
  cases pure_eq_ok.mp h
  obtain ⟨_, kept, hKept, rfl⟩ := prepareSale_eq_ok.mp hPrepared
  have hPriced : ∀ item ∈ kept, Priced item := by
    intro item hItem
    obtain ⟨original, hOriginal, hPrepare⟩ := mem_mapM hKept hItem
    exact (hLines original hOriginal).priced hPrepare
  constructor
  · have hApplied := applyLineResults_priced hPriced hItems
    intro item hItem
    change item ∈ (applyOrderResult _ _).items at hItem
    rw [applyOrderResult_items] at hItem
    exact hApplied item hItem
  · have hOrder := orderDiscountCents_applyOrderResult
      { ({ sale with items := kept } : Sale) with items := items }
      (evaluate (evalInput { sale with items := kept }) env.promotions).selection.order
    show 0 ≤ (applyOrderResult _ _).orderDiscountCents
    rw [hOrder]
    cases hSelected :
        (evaluate (evalInput { sale with items := kept }) env.promotions).selection.order with
    | none => exact le_rfl
    | some order => exact (evaluate_order_pos _ _ hSelected).le

/-! ### Totals -/

/-- The totals of a sale against its lines, as the entity shows them and as the detail of a
confirmed sale reads them from the rows. -/
structure TotalsAgree (sale : Sale) (rows : List SaleItemRow) : Prop where
  total_nonneg : 0 ≤ sale.previewTotals.totalCents
  total_le : sale.previewTotals.totalCents ≤ sale.previewTotals.subtotalCents
  discount : sale.previewTotals.discountCents =
    sale.previewTotals.subtotalCents - sale.previewTotals.totalCents
  total : sale.previewTotals.totalCents =
    max 0 ((sale.items.map fun item => item.toResponse.subtotalCents).sum -
      sale.orderDiscountCents)
  subtotals : (rows.map fun row => row.toDetailItem.subtotalCents).sum =
    (sale.items.map fun item => item.toResponse.subtotalCents).sum
  discounts : (rows.map fun row => row.toDetailItem.discountCents).sum =
    (sale.items.map fun item => item.toResponse.discountAmountCents.getD 0).sum

theorem sum_netCents_le {items : List SaleItem} (h : ∀ item ∈ items, Priced item) :
    Sale.postLineSubtotalCents items ≤ Sale.subtotalBaseCents items :=
  List.sum_le_sum fun item hItem => (h item hItem).netCents_le

theorem subtotalBaseCents_nonneg {items : List SaleItem} (h : ∀ item ∈ items, Priced item) :
    0 ≤ Sale.subtotalBaseCents items := by
  apply List.sum_nonneg
  intro cents hCents
  obtain ⟨item, hItem, rfl⟩ := List.mem_map.mp hCents
  have hQuantity := item.quantity.property
  exact mul_nonneg (h item hItem).base_nonneg (by omega)

/-- The rows come back in any order. -/
theorem PricedSale.totalsAgree {sale : Sale} (h : PricedSale sale) {rows : List SaleItemRow}
    (hRows : rows.Perm (sale.items.map toWriteRow)) : TotalsAgree sale rows := by
  have hNet := sum_netCents_le h.lines
  have hBase := subtotalBaseCents_nonneg h.lines
  have hOrder := h.order
  constructor
  · exact sale.previewTotals_totalCents_nonneg
  · simp only [Sale.previewTotals]
    omega
  · simp only [Sale.previewTotals]
    omega
  · rfl
  · rw [(hRows.map _).sum_eq, List.map_map]
    exact congrArg List.sum (List.map_congr_left fun item _ => (toDetailItem_toWriteRow item).1)
  · rw [(hRows.map _).sum_eq, List.map_map]
    rfl

/-! ### The drafts of the register -/

/-- The custom price that an override uses is not negative. -/
def DraftMutation.PricesUpward : DraftMutation → Prop
  | .overrideItemPrice _ priceListId customPriceCents =>
      priceListId.filter (· ≠ "") = none → 0 ≤ customPriceCents.getD 0
  | _ => True

theorem resolvePrice_isSome_of_applicable {catalog : PriceCatalog} {productId priceListId : String}
    {variantId : Option String} {quantity cents : Int}
    (h : catalog.findApplicablePrice productId variantId priceListId quantity = some cents) :
    (catalog.resolvePrice productId variantId priceListId quantity).isSome := by
  unfold PriceCatalog.findApplicablePrice at h
  unfold PriceCatalog.resolvePrice
  cases variantId with
  | none =>
      obtain ⟨row, hRow, -⟩ := Option.map_eq_some_iff.mp h
      have hKey := List.find?_some hRow
      simp only [Bool.and_eq_true, decide_eq_true_eq] at hKey
      simp only [Option.isSome_map, List.find?_isSome]
      exact ⟨row, by simpa using List.mem_of_find?_eq_some hRow, by simp [hKey]⟩
  | some variantId =>
      obtain ⟨row, hRow, -⟩ := Option.map_eq_some_iff.mp h
      have hKey := List.find?_some hRow
      simp only [Bool.and_eq_true, decide_eq_true_eq] at hKey
      simp only [Option.isSome_map, List.find?_isSome]
      exact ⟨row, by simpa using List.mem_of_find?_eq_some hRow, by simp [hKey]⟩

/-- The line that was found is the line that is rewritten. -/
theorem updateFirstItem_found {p : SaleItem → Bool} {f : SaleItem → Except DomainError SaleItem}
    {missing : Except DomainError (List SaleItem)} {items out : List SaleItem} {found : SaleItem}
    (hFound : items.find? p = some found) (h : updateFirstItem p f missing items = .ok out) :
    ∃ updated, f found = .ok updated ∧ ∀ item ∈ out, item ∈ items ∨ item = updated := by
  induction items generalizing out with
  | nil => cases hFound
  | cons first rest ih =>
      unfold updateFirstItem at h
      by_cases hFirst : p first = true
      · rw [List.find?_cons_of_pos hFirst, Option.some.injEq] at hFound
        subst hFound
        rw [if_pos hFirst] at h
        obtain ⟨updated, hUpdated, h⟩ := bind_eq_ok.mp h
        cases pure_eq_ok.mp h
        refine ⟨updated, hUpdated, fun item hItem => ?_⟩
        rcases List.mem_cons.mp hItem with rfl | hRest
        · exact .inr rfl
        · exact .inl (List.mem_cons_of_mem _ hRest)
      · rw [List.find?_cons_of_neg hFirst] at hFound
        rw [if_neg hFirst] at h
        obtain ⟨tail, hTail, h⟩ := bind_eq_ok.mp h
        cases pure_eq_ok.mp h
        obtain ⟨updated, hUpdated, hAll⟩ := ih hFound hTail
        refine ⟨updated, hUpdated, fun item hItem => ?_⟩
        rcases List.mem_cons.mp hItem with rfl | hRest
        · exact .inl List.mem_cons_self
        · exact (hAll item hRest).imp_left (List.mem_cons_of_mem _)

theorem overridden_priced {env : DraftEnvironment} {item updated : SaleItem}
    {itemId : String} {priceListId : Option String} {customPriceCents : Option Int}
    {input : OverrideSaleItemPriceInput}
    (hUpward : (DraftMutation.overrideItemPrice itemId priceListId customPriceCents).PricesUpward)
    (hInput : DraftService.overrideInput env item priceListId customPriceCents = .ok input)
    (h : item.overridePrice input = .ok updated) :
    Priced updated ∨ Repriceable env.pricing updated := by
  replace h := past (past h)
  cases pure_eq_ok.mp h
  unfold DraftService.overrideInput at hInput
  cases hList : priceListId.filter (· ≠ "") with
  | none =>
      simp only [hList, Except.ok.injEq] at hInput
      subst hInput
      exact .inl (.of_undiscounted (SaleItem.undiscounted_clearDiscountFields _) (hUpward hList))
  | some listId =>
      simp only [hList] at hInput
      obtain ⟨resolved, hResolved, hInput⟩ := bind_eq_ok.mp hInput
      cases pure_eq_ok.mp hInput
      unfold PriceCatalog.resolveListPrice at hResolved
      split at hResolved
      · cases hResolved
      next hPrice =>
      have hSome := resolvePrice_isSome_of_applicable hPrice
      exact .inr ⟨SaleItem.undiscounted_clearDiscountFields _, by simp [SaleItem.clearDiscountFields],
        listId, rfl, hSome⟩

theorem applyGlobalDiscountToItem_priced {input : ApplySaleItemDiscountInput}
    {strategy : DiscountStrategy} {now : Int} {item : SaleItem}
    {result : SaleItem × List SkippedItem} (hPriced : Priced item)
    (h : Sale.applyGlobalDiscountToItem input strategy now item = .ok result) :
    Priced result.1 := by
  unfold Sale.applyGlobalDiscountToItem at h
  split at h
  · cases h
    exact hPriced
  · split at h
    next updated hUpdated =>
      cases h
      exact hPriced.applyDiscount hUpdated
    · split at h
      · cases h
        exact hPriced
      · cases h

theorem optOutOrphan_priced {sale : Sale} {promotionId : Option String}
    (h : ∀ item ∈ sale.items, Priced item) :
    ∀ item ∈ (sale.optOutOrphan promotionId).items, Priced item := by
  rw [optOutOrphan_items]
  exact h

/-- Only an override leaves a line to be priced by the recompute that follows. -/
theorem Mutates.priced {env : DraftEnvironment} {sale mutated : Sale} {mutation : DraftMutation}
    (h : DraftService.Mutates env sale mutation mutated) (hUpward : mutation.PricesUpward)
    (hLines : ∀ item ∈ sale.items, Priced item) : ∀ item ∈ mutated.items,
      Priced item ∨ mutation.recomputes = true ∧ Repriceable env.pricing item := by
  have hKept : ∀ other : Sale, other.items = sale.items → ∀ item ∈ other.items,
      Priced item ∨ mutation.recomputes = true ∧ Repriceable env.pricing item :=
    fun other hSame item hItem => .inl (hLines item (hSame ▸ hItem))
  cases h with
  | addItem hId hMutated =>
      obtain ⟨_, _, hMutated⟩ := bind_eq_ok.mp hMutated
      obtain ⟨newItem, hNew, hMutated⟩ := bind_eq_ok.mp hMutated
      obtain ⟨items, hItems, hMutated⟩ := bind_eq_ok.mp hMutated
      cases pure_eq_ok.mp hMutated
      have hAll := forall_updateFirstItem hLines
        (fun _ _ hPriced hUpdate => hPriced.changeQuantity hUpdate)
        (fun extra hExtra item hItem => by
          cases hExtra
          cases List.mem_singleton.mp hItem
          exact Priced.create hNew) hItems
      exact fun item hItem => .inl (hAll item hItem)
  | updateItemQuantity hMutated =>
      obtain ⟨_, _, hMutated⟩ := bind_eq_ok.mp hMutated
      obtain ⟨_, _, hMutated⟩ := bind_eq_ok.mp hMutated
      obtain ⟨items, hItems, hMutated⟩ := bind_eq_ok.mp hMutated
      cases pure_eq_ok.mp hMutated
      have hAll := forall_updateFirstItem hLines
        (fun _ _ hPriced hUpdate => hPriced.changeQuantity hUpdate)
        (fun _ hExtra => by cases hExtra) hItems
      exact fun item hItem => .inl (hAll item hItem)
  | clearItems hMutated =>
      obtain ⟨_, _, hMutated⟩ := bind_eq_ok.mp hMutated
      cases pure_eq_ok.mp hMutated
      exact fun _ hNone => absurd hNone List.not_mem_nil
  | removeItem hMutated =>
      obtain ⟨_, _, hMutated⟩ := bind_eq_ok.mp hMutated
      split at hMutated
      · cases hMutated
      · cases pure_eq_ok.mp hMutated
        refine fun item hItem => .inl (optOutOrphan_priced ?_ item hItem)
        exact fun item hItem => hLines item (List.mem_of_mem_eraseP hItem)
  | overrideItemPrice hItem hInput hMutated =>
      obtain ⟨items, hItems, hMutated⟩ := bind_eq_ok.mp hMutated
      cases pure_eq_ok.mp hMutated
      obtain ⟨updated, hUpdated, hAll⟩ := updateFirstItem_found hItem hItems
      intro line hLine
      rcases hAll line hLine with hOld | rfl
      · exact .inl (hLines line hOld)
      · exact (overridden_priced hUpward hInput hUpdated).imp_right fun h => ⟨rfl, h⟩
  | applyItemDiscount hMutated =>
      obtain ⟨items, hItems, hMutated⟩ := bind_eq_ok.mp hMutated
      cases pure_eq_ok.mp hMutated
      have hAll := forall_updateFirstItem hLines
        (fun _ _ hPriced hUpdate => hPriced.applyDiscount hUpdate)
        (fun _ hExtra => by cases hExtra) hItems
      exact fun item hItem => .inl (hAll item hItem)
  | removeItemDiscount hMutated =>
      unfold Sale.removeItemDiscount at hMutated
      split at hMutated
      · cases hMutated
      · obtain ⟨items, hItems, hMutated⟩ := bind_eq_ok.mp hMutated
        cases pure_eq_ok.mp hMutated
        have hAll := forall_updateFirstItem hLines
          (fun item updated hPriced hUpdate => by
            cases hUpdate
            exact hPriced.removeDiscount)
          (fun _ hExtra => by cases hExtra) hItems
        exact fun item hItem => .inl (optOutOrphan_priced hAll item hItem)
  | applyGlobalDiscount hMutated =>
      obtain ⟨results, hResults, hMutated⟩ := bind_eq_ok.mp hMutated
      cases pure_eq_ok.mp hMutated
      intro line hLine
      obtain ⟨result, hResult, rfl⟩ := List.mem_map.mp hLine
      obtain ⟨item, hItem, hOut⟩ := mem_mapM hResults hResult
      exact .inl (applyGlobalDiscountToItem_priced (hLines item hItem) hOut)
  | removeGlobalDiscount =>
      intro line hLine
      obtain ⟨item, hItem, rfl⟩ := List.mem_map.mp hLine
      exact .inl (hLines item hItem).removeDiscount
  | applyManualPromotion => exact hKept _ rfl
  | removeManualPromotion => exact hKept _ rfl
  | removeAppliedPromotion =>
      apply hKept
      split <;> rfl
  | assignCustomer hMutated => exact hKept _ (DraftService.withCustomer_items hMutated)
  | clearCustomer hMutated =>
      obtain ⟨_, _, hMutated⟩ := bind_eq_ok.mp hMutated
      cases pure_eq_ok.mp hMutated
      exact hKept _ rfl
  | setSalePriceList hMutated => exact hKept _ (DraftService.setGlobalPriceList_items hMutated)

/-! ### Runs -/

theorem Reloaded.priced {saved loaded : Sale} (h : Reloaded saved loaded)
    (hPriced : PricedSale saved) : PricedSale loaded :=
  ⟨fun item hItem => hPriced.lines item (h.items.symm.subset hItem),
    h.orderDiscountCents ▸ hPriced.order⟩

/-- The lines of the drafts, which every recompute may start from. -/
def PricedDraft (draft : Draft) : Prop :=
  draft.sale.WellFormed ∧ PricedSale draft.sale

theorem PricedDraft.recompute {env : PricingEnvironment} {draft : Draft} {loaded : Sale}
    {recomputed : Recomputed} (h : PricedDraft draft) (hLoaded : Reloaded draft.sale loaded)
    (hRecompute : recomputePricingAndPromotions env loaded = .ok recomputed) :
    PricedSale recomputed.sale := by
  have hWellFormed := hLoaded.wellFormed h.1
  have hLines := (hLoaded.priced h.2).lines
  rw [recompute_eq_recomputeFrom] at hRecompute
  exact recomputeFrom_priced
    (fun item hItem => ⟨hWellFormed.tidy item hItem, .inl (hLines item hItem)⟩) hRecompute

theorem pricedDraft_step {draft after : Draft} {request : DraftRequest} (h : PricedDraft draft)
    (step : DraftStep draft request after) (hUpward : request.mutation.PricesUpward) :
    PricedDraft after := by
  cases step with
  | keeps _ _ => exact h
  | @saves loaded saved hLoaded hFresh hServe =>
      obtain ⟨mutated, hMutates, hSaved⟩ := DraftService.serve_saves hServe
      have hWellFormed := hMutates.wellFormed (hLoaded.wellFormed h.1) hFresh
      have hLines := Mutates.priced hMutates hUpward (hLoaded.priced h.2).lines
      split at hSaved
      · obtain ⟨recomputed, hRecompute, hSale⟩ := bind_eq_ok.mp hSaved
        cases pure_eq_ok.mp hSale
        refine ⟨recompute_wellFormed hWellFormed hRecompute, ?_⟩
        rw [recompute_eq_recomputeFrom] at hRecompute
        refine recomputeFrom_priced (fun item hItem => ?_) hRecompute
        exact ⟨hWellFormed.tidy item hItem, (hLines item hItem).imp_right And.right⟩
      next hSkips =>
        have hSkips := Bool.eq_false_of_not_eq_true hSkips
        subst hSaved
        refine ⟨hWellFormed, ⟨fun item hItem => ?_, ?_⟩⟩
        · exact (hLines item hItem).resolve_right fun h => by simp [hSkips] at h
        · rw [hMutates.orderDiscountCents hSkips]
          exact (hLoaded.priced h.2).order

theorem pricedDraft_opened {id userId : String} {opened : Sale}
    (h : Sale.create id userId = .ok opened) : PricedDraft ⟨opened, none⟩ := by
  have hOpened := draftInvariant_opened h
  replace h := past (past h)
  cases pure_eq_ok.mp h
  exact ⟨hOpened.wellFormed, fun _ hNone => absurd hNone List.not_mem_nil, le_rfl⟩

/-! ### The drafts of the bot -/

/-- A line without a discount, at a price that is not negative. -/
def Plain (item : SaleItem) : Prop :=
  item.Undiscounted ∧ 0 ≤ item.unitPriceCents

theorem plain_of_create {props : SaleItemProps} {item : SaleItem}
    (h : SaleItem.create props = .ok item) : Plain item := by
  simp only [SaleItem.create, bind_eq_ok, throwIf_eq_ok, pure_eq_ok] at h
  obtain ⟨-, -, -, -, quantity, -, -, hPrice, rfl⟩ := h
  exact ⟨rfl, not_lt.mp hPrice⟩

theorem Plain.changeQuantity {item updated : SaleItem} {newQuantity : Int} (h : Plain item)
    (hUpdate : item.changeQuantity newQuantity = .ok updated) : Plain updated := by
  obtain ⟨quantity, _, hUpdate⟩ := bind_eq_ok.mp hUpdate
  cases pure_eq_ok.mp hUpdate
  refine ⟨?_, h.2⟩
  exact congrArg (fun line : SaleItem => { line with quantity := quantity }) h.1

theorem Plain.reprice {item updated : SaleItem} {input : RepriceSaleItemInput} (h : Plain item)
    (hUpdate : item.reprice input = .ok updated) : Plain updated := by
  obtain ⟨_, _, hUpdate⟩ := bind_eq_ok.mp hUpdate
  obtain ⟨_, hPrice, hUpdate⟩ := bind_eq_ok.mp hUpdate
  cases pure_eq_ok.mp hUpdate
  refine ⟨?_, not_lt.mp (throwIf_eq_ok.mp hPrice)⟩
  exact congrArg (fun line : SaleItem => { line with
    unitPriceCents := input.priceCents
    priceSource := input.priceSource
    appliedPriceListId := input.appliedPriceListId }) h.1

theorem addBotItem_plain {sale after : Sale} {item : BotItem} (h : ∀ line ∈ sale.items, Plain line)
    (hAdded : addBotItem sale item = .ok after) : ∀ line ∈ after.items, Plain line := by
  obtain ⟨_, _, hAdded⟩ := bind_eq_ok.mp hAdded
  obtain ⟨newItem, hNew, hAdded⟩ := bind_eq_ok.mp hAdded
  obtain ⟨items, hItems, hAdded⟩ := bind_eq_ok.mp hAdded
  cases pure_eq_ok.mp hAdded
  refine forall_updateFirstItem h (fun _ _ hLine hUpdate => hLine.changeQuantity hUpdate) ?_ hItems
  intro extra hExtra line hLine
  cases hExtra
  cases List.mem_singleton.mp hLine
  exact plain_of_create hNew

theorem foldlM_addBotItem_plain {items : List BotItem} {sale after : Sale}
    (h : ∀ line ∈ sale.items, Plain line) (hAdded : items.foldlM addBotItem sale = .ok after) :
    ∀ line ∈ after.items, Plain line := by
  induction items generalizing sale with
  | nil =>
      cases pure_eq_ok.mp hAdded
      exact h
  | cons item rest ih =>
      rw [List.foldlM_cons, bind_eq_ok] at hAdded
      obtain ⟨middle, hMiddle, hAdded⟩ := hAdded
      exact ih (addBotItem_plain h hMiddle) hAdded

theorem seedBotPreviewPrices_plain {env : PricingEnvironment} {sale after : Sale}
    (h : ∀ line ∈ sale.items, Plain line) (hSeeded : seedBotPreviewPrices env sale = .ok after) :
    ∀ line ∈ after.items, Plain line := by
  obtain ⟨items, hItems, hSeeded⟩ := bind_eq_ok.mp hSeeded
  cases pure_eq_ok.mp hSeeded
  intro line hLine
  obtain ⟨item, hItem, hPrice⟩ := mem_mapM hItems hLine
  unfold seedBotPreviewPrice at hPrice
  split at hPrice
  · cases hPrice
  · exact (h item hItem).reprice hPrice

/-- The order of the bot before its recompute: lines without a discount. -/
theorem assembleBotSale_plain {env : PricingEnvironment} {input : BotPricingInput}
    {customerList : Option String} {seedFromCatalog : Bool} {sale : Sale}
    (h : assembleBotSale env input customerList seedFromCatalog = .ok sale) :
    ∀ line ∈ sale.items, Plain line := by
  obtain ⟨created, hCreated, h⟩ := bind_eq_ok.mp h
  obtain ⟨assigned, hAssigned, h⟩ := bind_eq_ok.mp h
  obtain ⟨sold, hSold, h⟩ := bind_eq_ok.mp h
  obtain ⟨filled, hFilled, h⟩ := bind_eq_ok.mp h
  obtain ⟨bound, hBound, h⟩ := bind_eq_ok.mp h
  have hNone : sold.items = [] := by
    obtain ⟨_, _, hCreated⟩ := bind_eq_ok.mp hCreated
    obtain ⟨_, _, hCreated⟩ := bind_eq_ok.mp hCreated
    cases pure_eq_ok.mp hCreated
    obtain ⟨_, _, hSold⟩ := bind_eq_ok.mp hSold
    cases pure_eq_ok.mp hSold
    unfold assignBotCustomer at hAssigned
    split at hAssigned
    · cases hAssigned
      rfl
    · obtain ⟨_, _, hAssigned⟩ := bind_eq_ok.mp hAssigned
      cases pure_eq_ok.mp hAssigned
      rfl
  have hFresh : ∀ line ∈ sold.items, Plain line := by
    rw [hNone]
    exact fun _ hLine => absurd hLine List.not_mem_nil
  have hLines := foldlM_addBotItem_plain hFresh hFilled
  rw [← DraftService.setGlobalPriceList_items hBound] at hLines
  split at h
  · exact seedBotPreviewPrices_plain hLines h
  · cases pure_eq_ok.mp h
    exact hLines

theorem buildBotPricingSale_priced {env : PricingEnvironment} {input : BotPricingInput}
    {customerList : Option String} {seedFromCatalog : Bool} {recomputed : Recomputed}
    (h : buildBotPricingSale env input customerList seedFromCatalog = .ok recomputed) :
    PricedSale recomputed.sale := by
  obtain ⟨sale, hSale, h⟩ := bind_eq_ok.mp h
  have hLines := assembleBotSale_plain hSale
  refine recomputeFrom_priced (fun item hItem => ?_) h
  obtain ⟨hUndiscounted, hPrice⟩ := hLines item hItem
  exact ⟨hUndiscounted.tidy, .inl (.of_undiscounted hUndiscounted hPrice)⟩

/-! ### After a recompute -/

/-- A draft that was just recomputed: by a request of the register, by the charge, or on the
way to a bot order. -/
inductive AfterRecompute (admitted : DraftRequest → Prop) : Sale → Prop where
  | mutation {id userId : String} {opened : Sale} {requests : List DraftRequest} {draft : Draft}
      (hOpened : Sale.create id userId = .ok opened)
      (run : Runs (Guarded DraftStep fun _ request => admitted request) ⟨opened, none⟩ requests
        draft)
      (hLast : ∃ request ∈ draft.lastWrite, request.mutation.recomputes = true) :
      AfterRecompute admitted draft.sale
  | charge {id userId : String} {opened : Sale} {requests : List DraftRequest} {draft : Draft}
      {env : PricingEnvironment} {loaded : Sale} {recomputed : Recomputed}
      (hOpened : Sale.create id userId = .ok opened)
      (run : Runs (Guarded DraftStep fun _ request => admitted request) ⟨opened, none⟩ requests
        draft)
      (hLoaded : Reloaded draft.sale loaded)
      (hRecompute : recomputePricingAndPromotions env loaded = .ok recomputed) :
      AfterRecompute admitted recomputed.sale
  | bot {env : PricingEnvironment} {input : BotPricingInput} {customerList : Option String}
      {seedFromCatalog : Bool} {recomputed : Recomputed}
      (hBuild : buildBotPricingSale env input customerList seedFromCatalog = .ok recomputed) :
      AfterRecompute admitted recomputed.sale

theorem pricedDraft_of_run {id userId : String} {opened : Sale} {requests : List DraftRequest}
    {draft : Draft} (hOpened : Sale.create id userId = .ok opened)
    (run : Runs (Guarded DraftStep fun _ request => request.mutation.PricesUpward)
      ⟨opened, none⟩ requests draft) : PricedDraft draft :=
  run.invariant (fun _ _ _ h step => pricedDraft_step h step.1 step.2) (pricedDraft_opened hOpened)

/-- After a recompute the totals of a draft agree with its lines, as they are shown and as they
are read from the rows, when no request of its run put a negative price on a line. -/
theorem totals_agree_after_recompute {sale : Sale}
    (h : AfterRecompute (fun request => request.mutation.PricesUpward) sale)
    {rows : List SaleItemRow} (hRows : rows.Perm (sale.items.map toWriteRow)) :
    TotalsAgree sale rows := by
  cases h with
  | mutation hOpened run _ => exact (pricedDraft_of_run hOpened run).2.totalsAgree hRows
  | charge hOpened run hLoaded hRecompute =>
      exact ((pricedDraft_of_run hOpened run).recompute hLoaded hRecompute).totalsAgree hRows
  | bot hBuild => exact (buildBotPricingSale_priced hBuild).totalsAgree hRows

/-! ### A price below zero -/

theorem totals_agree_of_one_peso_off :
    TotalsAgree discountedDraft (discountedDraft.items.map toWriteRow) :=
  totals_agree_after_recompute
    (.mutation (show Sale.create "sale" "seller" = _ from rfl)
      (Runs.single ⟨addOne_saves, trivial⟩) ⟨addOne, rfl, rfl⟩) (.refl _)

/-- The body `priceListId: null, customPriceCents: -5`, of which neither field is validated. -/
def sellAtMinusFive : DraftRequest :=
  ⟨onePesoOff, "seller", .overrideItemPrice "line" none (some (-5))⟩

def minusFiveDraft : Sale :=
  { discountedDraft with
    items := [{ SaleItem.fresh ⟨"line", "sale", "product", none, "Product", none, none, 1, -5,
      "MXN"⟩ Quantity.one with
      originalPriceCents := some 900
      priceSource := .custom
      customPriceCents := some (-5) }] }

/-- A line at minus five cents leaves the total above the subtotal. -/
theorem totals_disagree_below_zero : ¬ ∀ (sale : Sale), AfterRecompute (fun _ => True) sale →
    ∀ rows : List SaleItemRow, rows.Perm (sale.items.map toWriteRow) → TotalsAgree sale rows := by
  intro hAll
  have hServe : DraftService.serve onePesoOff "seller" discountedDraft sellAtMinusFive.mutation =
      .ok (some minusFiveDraft) := rfl
  have hRun : Runs (Guarded DraftStep fun _ _ => True) ⟨Sale.fresh "sale" "seller", none⟩
      [addOne, sellAtMinusFive] ⟨minusFiveDraft, some sellAtMinusFive⟩ :=
    (Runs.single ⟨addOne_saves, trivial⟩).succ ⟨draftStep_of_serve trivial hServe, trivial⟩
  have hAgree := hAll minusFiveDraft
    (.mutation (show Sale.create "sale" "seller" = _ from rfl) hRun ⟨sellAtMinusFive, rfl, rfl⟩)
    _ (.refl _)
  exact absurd hAgree.total_le (by decide)

end Houndfe.Sales
