import Houndfe.Base.Transition
import Houndfe.Quotations.QuotationsService
import Mathlib.Algebra.Order.BigOperators.Group.List

/-! The total columns of the stored quotations against the totals of their lines. No request
writes the columns: they stay zero, and the range filter of the list reads them. -/

namespace Houndfe.Quotations

open Keyed Transition Traverse

/-! ### The table -/

/-- Each filter is absent or a condition; several values of one are alternatives. -/
structure QuotationFindAllQuery where
  status : List QuotationStatus
  customerId : List String
  search : Option String
  createdFrom : Option Int
  createdTo : Option Int
  expiresFrom : Option Int
  expiresTo : Option Int
  minTotalCents : Option Int
  maxTotalCents : Option Int
  deriving DecidableEq, Repr

/-- `gte` and `lte`, each when it is given. -/
def inRange (from? to? : Option Int) (value : Int) : Bool :=
  from?.all (· ≤ value) && to?.all (value ≤ ·)

/-- `buildWhere`. The names of a customer are matched by the database. -/
def buildWhere (nameContains : String → String → Bool) (query : QuotationFindAllQuery)
    (quotation : Quotation) : Bool :=
  (query.status.isEmpty || query.status.contains quotation.status) &&
    (query.customerId.isEmpty || quotation.customerId.any query.customerId.contains) &&
    ((query.search.map Text.trim).all fun search =>
      search = "" || quotation.customerId.any fun customerId => nameContains customerId search) &&
    inRange query.createdFrom query.createdTo quotation.createdAt &&
    ((query.expiresFrom.isNone && query.expiresTo.isNone) ||
      quotation.expiresAt.any (inRange query.expiresFrom query.expiresTo)) &&
    inRange query.minTotalCents query.maxTotalCents quotation.totalCents

/-- The rows that `findAll` counts and cuts into pages. -/
def findAll (nameContains : String → String → Bool) (query : QuotationFindAllQuery)
    (table : List Quotation) : List Quotation :=
  table.filter (buildWhere nameContains query)

/-- A query for a range of totals and nothing else. -/
def totalRange (minTotalCents maxTotalCents : Option Int) : QuotationFindAllQuery :=
  ⟨[], [], none, none, none, none, none, minTotalCents, maxTotalCents⟩

/-- The quotation as it is read back: rows in no particular order, and no discount titles. -/
structure Reloaded (saved loaded : Quotation) : Prop where
  items : (saved.items.map fun item => { item with discountTitle := none }).Perm loaded.items
  vetoed : saved.vetoedPromotionIds.Perm loaded.vetoedPromotionIds
  optedIn : saved.optedInManualPromotionIds.Perm loaded.optedInManualPromotionIds
  columns : loaded = { saved with
    items := loaded.items
    vetoedPromotionIds := loaded.vetoedPromotionIds
    optedInManualPromotionIds := loaded.optedInManualPromotionIds }

inductive QuotationOperation where
  | openDraft (id sellerUserId : String) (customerId globalPriceListId : Option String)
  | change (id : String) (request : QuotationRequest)
  | remove (id : String)

/-- One call of the service: it saves what it made of the stored quotation, removes it, or
fails and leaves the table alone. -/
inductive QuotationStep :
    List Quotation → ServiceEnvironment × QuotationOperation → List Quotation → Prop where
  | opened {table : List Quotation} {env : ServiceEnvironment} {id sellerUserId : String}
      {customerId globalPriceListId : Option String} {draft : Quotation}
      (hDraft : QuotationsService.openDraft env.toQuotationEnvironment id sellerUserId customerId
        globalPriceListId = .ok draft) :
      QuotationStep table (env, .openDraft id sellerUserId customerId globalPriceListId)
        (upsert Quotation.id draft table)
  | changed {table : List Quotation} {env : ServiceEnvironment} {id : String}
      {request : QuotationRequest} {stored loaded saved : Quotation}
      (hStored : lookup Quotation.id table id = some stored) (hLoaded : Reloaded stored loaded)
      (hSaved : QuotationsService.serve env loaded request = .ok saved) :
      QuotationStep table (env, .change id request) (upsert Quotation.id saved table)
  | removed {table : List Quotation} {env : ServiceEnvironment} {id : String}
      {stored : Quotation} (hStored : lookup Quotation.id table id = some stored)
      (hStatus : stored.status = .draft ∨ stored.status = .cancelled) :
      QuotationStep table (env, .remove id) (table.filter fun row => row.id ≠ id)
  | failed {table : List Quotation} {env : ServiceEnvironment} {operation : QuotationOperation} :
      QuotationStep table (env, operation) table

/-! ### What every request keeps -/

/-- What a new draft has and every request keeps, every row of every table has. -/
theorem rows_of_runs {Good : Quotation → Prop} {initial table : List Quotation}
    {operations : List (ServiceEnvironment × QuotationOperation)}
    (hOpened : ∀ env id sellerUserId customerId globalPriceListId draft,
      QuotationsService.openDraft env id sellerUserId customerId globalPriceListId = .ok draft →
        Good draft)
    (hChanged : ∀ env request stored loaded saved, Good stored → Reloaded stored loaded →
      QuotationsService.serve env loaded request = .ok saved → Good saved)
    (hInitial : ∀ quotation ∈ initial, Good quotation)
    (hRun : Runs QuotationStep initial operations table) : ∀ quotation ∈ table, Good quotation := by
  have hStep : ∀ before label after, (∀ quotation ∈ before, Good quotation) →
      QuotationStep before label after → ∀ quotation ∈ after, Good quotation := by
    intro before label after hBefore hStep
    cases hStep with
    | opened hDraft =>
        intro quotation hIn
        rcases mem_upsert hIn with rfl | hOld
        · exact hOpened _ _ _ _ _ _ hDraft
        · exact hBefore quotation hOld
    | changed hStored hLoaded hSaved =>
        intro quotation hIn
        rcases mem_upsert hIn with rfl | hOld
        · exact hChanged _ _ _ _ _ (hBefore _ (lookup_eq_some hStored).1) hLoaded hSaved
        · exact hBefore quotation hOld
    | removed hStored hStatus =>
        exact fun quotation hIn => hBefore quotation (List.mem_of_mem_filter hIn)
    | failed => exact hBefore
  exact hRun.invariant hStep hInitial

/-- The columns are zero and no line is priced below zero. -/
structure Untotalled (quotation : Quotation) : Prop where
  stored : quotation.storedTotals = ⟨0, 0, 0⟩
  priced : PricedLines quotation.items

theorem Untotalled.reloaded {saved loaded : Quotation} (h : Reloaded saved loaded)
    (hSaved : Untotalled saved) : Untotalled loaded := by
  obtain ⟨hItems, _, _, hColumns⟩ := h
  constructor
  · rw [hColumns]
    exact hSaved.stored
  · intro item hItem
    obtain ⟨before, hBefore, rfl⟩ := List.mem_map.mp (hItems.symm.subset hItem)
    have hPriced := hSaved.priced before hBefore
    exact ⟨hPriced.net, hPriced.gross, hPriced.discount⟩

/-- A change of a quotation that keeps the columns and the prices. -/
def Keeps (change : Quotation → Except DomainError Quotation) : Prop :=
  ∀ quotation changed, Untotalled quotation → change quotation = .ok changed → Untotalled changed

section

variable {env : QuotationEnvironment} {quotation changed : Quotation}

theorem Untotalled.withItems {items : List QuotationItem} (h : Untotalled quotation)
    (hItems : PricedLines items) : Untotalled { quotation with items := items } :=
  ⟨h.stored, hItems⟩

theorem addItem_keeps (props : QuotationItemProps) : Keeps fun q => q.addItem props := by
  intro quotation changed hQuotation h
  replace h := past h
  obtain ⟨newItem, hNew, h⟩ := bind_eq_ok.mp h
  obtain ⟨items, hItems, h⟩ := bind_eq_ok.mp h
  cases pure_eq_ok.mp h
  refine hQuotation.withItems (forall_updateFirst hQuotation.priced ?_ ?_ hItems)
  · intro item updated hPriced hUpdated
    exact QuotationItem.changeQuantity_priced hPriced hUpdated
  · intro extra hExtra item hItem
    cases hExtra
    cases List.mem_singleton.mp hItem
    exact QuotationItem.create_priced hNew

theorem updateItem_keeps {itemId : String}
    {f : QuotationItem → Except DomainError QuotationItem}
    (hPriced : ∀ item updated, item.Priced → f item = .ok updated → updated.Priced) :
    Keeps fun q => q.updateItem itemId f := by
  intro quotation changed hQuotation h
  obtain ⟨items, hItems, h⟩ := bind_eq_ok.mp h
  cases pure_eq_ok.mp h
  refine hQuotation.withItems (forall_updateFirst hQuotation.priced hPriced ?_ hItems)
  intro extra hExtra
  cases hExtra

theorem updateItemQuantity_keeps (itemId : String) (newQuantity : Int) :
    Keeps fun q => q.updateItemQuantity itemId newQuantity := by
  intro quotation changed hQuotation h
  replace h := past (past h)
  exact updateItem_keeps (fun _ _ => QuotationItem.changeQuantity_priced) _ _ hQuotation h

theorem removeItem_keeps (itemId : String) : Keeps fun q => q.removeItem itemId := by
  intro quotation changed hQuotation h
  replace h := past (past h)
  cases pure_eq_ok.mp h
  exact hQuotation.withItems fun item hItem => hQuotation.priced item (List.mem_of_mem_eraseP hItem)

theorem overrideItemPrice_keeps (itemId : String) (input : OverrideQuotationItemPriceInput) :
    Keeps fun q => q.overrideItemPrice itemId input := by
  intro quotation changed hQuotation h
  replace h := past h
  exact updateItem_keeps (fun _ _ _ => QuotationItem.overridePrice_priced) _ _ hQuotation h

theorem setGlobalPriceList_keeps (id : Option String) (explicit : Bool) :
    Keeps fun q => q.setGlobalPriceList id explicit := by
  intro quotation changed hQuotation h
  replace h := past (past h)
  cases pure_eq_ok.mp h
  exact ⟨hQuotation.stored, hQuotation.priced⟩

theorem assignCustomer_keeps (customerId : String) (priceListId : Option String) :
    Keeps fun q => q.assignCustomer customerId priceListId := by
  intro quotation changed hQuotation h
  replace h := past (past h)
  cases pure_eq_ok.mp h
  exact ⟨hQuotation.stored, hQuotation.priced⟩

theorem recompute_keeps (env : QuotationEnvironment) :
    Keeps (recomputePricingAndPromotions env) := by
  intro quotation changed hQuotation h
  obtain ⟨items, optedIn, rfl, hItems⟩ := recompute_eq_ok h
  exact ⟨hQuotation.stored, hItems hQuotation.priced⟩

theorem reevaluated_keeps {change : Quotation → Except DomainError Quotation}
    (hChange : Keeps change) :
    Keeps fun q => QuotationsService.reevaluated env q change := by
  intro quotation changed hQuotation h
  replace h := past h
  obtain ⟨middle, hMiddle, h⟩ := bind_eq_ok.mp h
  exact recompute_keeps env _ _ (hChange _ _ hQuotation hMiddle) h

theorem withItem_keeps (itemId productId : String) (variantId : Option String) (quantity : Int) :
    Keeps (QuotationsService.withItem env itemId productId variantId quantity) := by
  intro quotation changed hQuotation h
  obtain ⟨info, _, h⟩ := bind_eq_ok.mp h
  exact addItem_keeps _ _ _ hQuotation h

theorem withCustomer_keeps (customerId : String) :
    Keeps (QuotationsService.withCustomer env customerId) := by
  intro quotation changed hQuotation h
  obtain ⟨customer, _, h⟩ := bind_eq_ok.mp h
  obtain ⟨seeded, hSeeded, h⟩ := bind_eq_ok.mp h
  have hMiddle : Untotalled seeded := by
    unfold QuotationsService.seedCustomerList at hSeeded
    dsimp only at hSeeded
    split at hSeeded
    · exact setGlobalPriceList_keeps _ _ _ _ hQuotation hSeeded
    · cases hSeeded
      exact hQuotation
  exact assignCustomer_keeps _ _ _ _ hMiddle h

theorem setPriceList_keeps (globalPriceListId : Option String) :
    Keeps fun q => QuotationsService.setPriceList env q globalPriceListId := by
  apply reevaluated_keeps
  intro quotation changed hQuotation h
  replace h := past h
  exact setGlobalPriceList_keeps _ _ _ _ hQuotation h

theorem send_keeps : Keeps Quotation.send := by
  intro quotation changed hQuotation h
  replace h := past (past h)
  cases pure_eq_ok.mp h
  exact ⟨hQuotation.stored, hQuotation.priced⟩

theorem cancel_keeps (reason : QuotationCancelReason) (canceledAt : Int)
    (h : Untotalled quotation) : Untotalled (quotation.cancel reason canceledAt) := by
  unfold Quotation.cancel
  split
  · exact h
  · exact ⟨h.stored, h.priced⟩

end

/-- No request touches the columns. -/
theorem serve_keeps (env : ServiceEnvironment) (request : QuotationRequest) :
    Keeps fun q => QuotationsService.serve env q request := by
  cases request with
  | addItem itemId productId variantId quantity => exact reevaluated_keeps (withItem_keeps _ _ _ _)
  | updateItemQuantity itemId quantity => exact reevaluated_keeps (updateItemQuantity_keeps _ _)
  | removeItem itemId => exact reevaluated_keeps (removeItem_keeps _)
  | overrideItemPrice itemId unitPriceCents =>
      exact reevaluated_keeps (overrideItemPrice_keeps _ _)
  | applyManualPromotion promotionId =>
      apply reevaluated_keeps
      intro quotation changed hQuotation h
      replace h := past h
      cases pure_eq_ok.mp h
      exact ⟨hQuotation.stored, hQuotation.priced⟩
  | removeManualPromotion promotionId | vetoPromotion promotionId | optInPromotion promotionId =>
      apply reevaluated_keeps
      intro quotation changed hQuotation h
      cases h
      exact ⟨hQuotation.stored, hQuotation.priced⟩
  | setExpiry expiresAt =>
      intro quotation changed hQuotation h
      replace h := past h
      cases pure_eq_ok.mp h
      exact ⟨hQuotation.stored, hQuotation.priced⟩
  | cancel cancelReason =>
      intro quotation changed hQuotation h
      cases h
      exact cancel_keeps _ _ hQuotation
  | setNotes _ | setTaxRate _ | assignSeller _ =>
      intro quotation changed hQuotation h
      replace h := past (past h)
      cases pure_eq_ok.mp h
      exact ⟨hQuotation.stored, hQuotation.priced⟩
  | assignCustomer customerId => exact reevaluated_keeps (withCustomer_keeps _)
  | setPriceList globalPriceListId => exact setPriceList_keeps _
  | send sendEmail delivery =>
      intro quotation changed hQuotation h
      replace h := past (past (past (past h)))
      exact send_keeps _ _ hQuotation h

theorem openDraft_untotalled {env : QuotationEnvironment} {id sellerUserId : String}
    {customerId globalPriceListId : Option String} {draft : Quotation}
    (h : QuotationsService.openDraft env id sellerUserId customerId globalPriceListId =
      .ok draft) : Untotalled draft := by
  obtain ⟨customer, _, h⟩ := bind_eq_ok.mp h
  obtain ⟨fresh, hFresh, h⟩ := bind_eq_ok.mp h
  have hNew : Untotalled fresh := by
    obtain ⟨_, _, hFresh⟩ := bind_eq_ok.mp hFresh
    obtain ⟨_, _, hFresh⟩ := bind_eq_ok.mp hFresh
    cases pure_eq_ok.mp hFresh
    exact ⟨rfl, fun item hItem => absurd hItem List.not_mem_nil⟩
  split at h
  · exact setGlobalPriceList_keeps _ _ _ _ hNew h
  · cases pure_eq_ok.mp h
    exact hNew

theorem untotalled_of_runs {table : List Quotation}
    {operations : List (ServiceEnvironment × QuotationOperation)}
    (hRun : Runs QuotationStep [] operations table) : ∀ quotation ∈ table, Untotalled quotation := by
  refine rows_of_runs ?_ ?_ (fun quotation hIn => absurd hIn List.not_mem_nil) hRun
  · exact fun _ _ _ _ _ _ hDraft => openDraft_untotalled hDraft
  · intro env request stored loaded saved hStored hLoaded hSaved
    exact serve_keeps _ _ _ _ (hStored.reloaded hLoaded) hSaved

/-! ### When the columns are the totals -/

/-- The columns are the totals of the lines, the list filters by the totals, and both
transitions carry them. -/
structure TotalsPersisted (table : List Quotation) : Prop where
  saved : ∀ quotation ∈ table, quotation.storedTotals = quotation.recomputeTotals
  searched : ∀ nameContains minTotalCents maxTotalCents,
    findAll nameContains (totalRange minTotalCents maxTotalCents) table =
      table.filter fun quotation =>
        inRange minTotalCents maxTotalCents quotation.recomputeTotals.totalCents
  sent : ∀ quotation ∈ table, ∀ sent, quotation.send = .ok sent →
    sent.storedTotals = quotation.recomputeTotals
  cancelled : ∀ quotation ∈ table, ∀ reason canceledAt,
    (quotation.cancel reason canceledAt).storedTotals = quotation.recomputeTotals

/-- A line without a price, before and after its discount. -/
def Free (item : QuotationItem) : Prop :=
  item.unitPriceCents = 0 ∧ item.discountAmountCents = 0

theorem sum_eq_zero_iff {α : Type} {f : α → Int} {xs : List α} (h : ∀ x ∈ xs, 0 ≤ f x) :
    (xs.map f).sum = 0 ↔ ∀ x ∈ xs, f x = 0 := by
  induction xs with
  | nil => simp
  | cons x rest ih =>
      obtain ⟨hHead, hTail⟩ := List.forall_mem_cons.mp h
      have hRest : 0 ≤ (rest.map f).sum := by
        apply List.sum_nonneg
        intro y hy
        obtain ⟨z, hz, rfl⟩ := List.mem_map.mp hy
        exact hTail z hz
      rw [List.map_cons, List.sum_cons, List.forall_mem_cons, ← ih hTail]
      omega

/-- A line of at least one unit costs nothing when its price is nothing. -/
theorem mul_quantity_eq_zero {cents : Int} (item : QuotationItem) :
    cents * item.quantity.val = 0 ↔ cents = 0 := by
  have hQuantity : item.quantity.val ≠ 0 := by
    have hOne := item.quantity.property
    omega
  rw [Int.mul_eq_zero]
  exact or_iff_left hQuantity

theorem mul_quantity_nonneg {cents : Int} (item : QuotationItem) (h : 0 ≤ cents) :
    0 ≤ cents * item.quantity.val :=
  Int.mul_nonneg h (le_trans Int.one_nonneg item.quantity.property)

theorem netCents_eq_zero {items : List QuotationItem} (h : PricedLines items) :
    Quotation.netCents items = 0 ↔ ∀ item ∈ items, item.unitPriceCents = 0 := by
  unfold Quotation.netCents
  rw [sum_eq_zero_iff fun item hItem => mul_quantity_nonneg item (h item hItem).net]
  simp only [mul_quantity_eq_zero]

theorem grossCents_eq_zero {items : List QuotationItem} (h : PricedLines items) :
    Quotation.grossCents items = 0 ↔
      ∀ item ∈ items, item.unitPriceCents + item.discountAmountCents = 0 := by
  unfold Quotation.grossCents
  rw [sum_eq_zero_iff fun item hItem => mul_quantity_nonneg item (h item hItem).gross]
  simp only [mul_quantity_eq_zero]

/-- The totals are zero exactly when every line is free. -/
theorem recomputeTotals_eq_zero {quotation : Quotation} (h : PricedLines quotation.items) :
    quotation.recomputeTotals = ⟨0, 0, 0⟩ ↔ ∀ item ∈ quotation.items, Free item := by
  have hGross := grossCents_eq_zero h
  have hNet := netCents_eq_zero h
  simp only [Quotation.recomputeTotals, QuotationTotals.mk.injEq]
  constructor
  · rintro ⟨hSubtotal, _, hTotal⟩ item hItem
    have hSum := hGross.mp hSubtotal item hItem
    have hUnit := hNet.mp hTotal item hItem
    exact ⟨hUnit, by omega⟩
  · intro hFree
    have hTotal := hNet.mpr fun item hItem => (hFree item hItem).1
    have hSubtotal := hGross.mpr fun item hItem => by
      obtain ⟨hUnit, hDiscount⟩ := hFree item hItem
      omega
    rw [hTotal, hSubtotal]
    decide

@[simp] theorem cancel_storedTotals (quotation : Quotation) (reason : QuotationCancelReason)
    (canceledAt : Int) :
    (quotation.cancel reason canceledAt).storedTotals = quotation.storedTotals := by
  unfold Quotation.cancel
  split <;> rfl

theorem send_storedTotals {quotation sent : Quotation} (h : quotation.send = .ok sent) :
    sent.storedTotals = quotation.storedTotals := by
  replace h := past (past h)
  cases pure_eq_ok.mp h
  rfl

theorem buildWhere_totalRange (nameContains : String → String → Bool)
    (minTotalCents maxTotalCents : Option Int) (quotation : Quotation) :
    buildWhere nameContains (totalRange minTotalCents maxTotalCents) quotation =
      inRange minTotalCents maxTotalCents quotation.totalCents := by
  simp [buildWhere, totalRange, inRange]

/-- In every reachable table the totals are persisted and searchable exactly when every saved
line is free. -/
theorem totals_persisted_iff_free {table : List Quotation}
    {operations : List (ServiceEnvironment × QuotationOperation)}
    (hRun : Runs QuotationStep [] operations table) :
    TotalsPersisted table ↔ ∀ quotation ∈ table, ∀ item ∈ quotation.items, Free item := by
  have hRows := untotalled_of_runs hRun
  constructor
  · intro hPersisted quotation hIn
    have hRow := hRows quotation hIn
    rw [← recomputeTotals_eq_zero hRow.priced, ← hPersisted.saved quotation hIn]
    exact hRow.stored
  · intro hFree
    have hSaved : ∀ quotation ∈ table, quotation.storedTotals = quotation.recomputeTotals := by
      intro quotation hIn
      have hRow := hRows quotation hIn
      rw [hRow.stored, (recomputeTotals_eq_zero hRow.priced).mpr (hFree quotation hIn)]
    refine ⟨hSaved, ?_, ?_, ?_⟩
    · intro nameContains minTotalCents maxTotalCents
      apply List.filter_congr
      intro quotation hIn
      rw [buildWhere_totalRange, ← hSaved quotation hIn]
      rfl
    · intro quotation hIn sent hSent
      rw [send_storedTotals hSent, hSaved quotation hIn]
    · intro quotation hIn reason canceledAt
      rw [cancel_storedTotals, hSaved quotation hIn]

/-! ### One line of a hundred pesos -/

/-- A catalog with one product at 10000 cents, and no promotion. -/
def oneProduct : ServiceEnvironment where
  now := 0
  today := .monday
  catalog := {
    products := [⟨"p", "Producto", true, false⟩]
    variants := []
    prices := ⟨[⟨"p", "p-publico", "publico", 10000, []⟩], []⟩
    defaultGlobalPriceListId := some "publico"
    imageUrl := fun _ _ => none }
  productTaxes := fun _ => ⟨.iva16, true⟩
  productCategoryBrand := fun _ => none
  promotions := []
  customers := []
  globalPriceListIds := ["publico"]
  userIds := []
  promotionMethods := fun _ => none

def emptyQuotation : Quotation :=
  Quotation.fresh "q" "seller" none none 0

def quotedLine : QuotationItem where
  id := "i"
  quotationId := "q"
  productId := "p"
  variantId := none
  productName := "Producto"
  variantName := none
  quantity := Sales.Quantity.one
  unitPriceCents := 10000
  unitPriceCurrency := "MXN"
  priceSource := .priceList
  appliedPriceListId := none
  customPriceCents := none
  discountType := none
  discountValue := none
  discountAmountCents := 0
  discountTitle := none
  promotionId := none
  taxableBaseCents := some 8621
  ivaRateClassification := some .iva16
  chargeProductTaxesSnapshot := some true

def oneLineQuotation : Quotation :=
  { emptyQuotation with items := [quotedLine] }

def oneLineOperations : List (ServiceEnvironment × QuotationOperation) :=
  [(oneProduct, .openDraft "q" "seller" none none), (oneProduct, .change "q" (.addItem "i" "p" none 1))]

theorem oneLine_runs : Runs QuotationStep [] oneLineOperations [oneLineQuotation] := by
  have hOpened : QuotationsService.openDraft oneProduct.toQuotationEnvironment "q" "seller" none
      none = .ok emptyQuotation := rfl
  have hAdded : QuotationsService.serve oneProduct emptyQuotation (.addItem "i" "p" none 1) =
      .ok oneLineQuotation := rfl
  have hReloaded : Reloaded emptyQuotation emptyQuotation := ⟨.refl _, .refl _, .refl _, rfl⟩
  exact .succ (.succ (.zero []) (.opened hOpened)) (.changed rfl hReloaded hAdded)

theorem totals_persisted_iff_free_of_one_line :
    TotalsPersisted [oneLineQuotation] ↔
      ∀ quotation ∈ [oneLineQuotation], ∀ item ∈ quotation.items, Free item :=
  totals_persisted_iff_free oneLine_runs

/-- A quotation of a hundred pesos is stored at zero, and no range from one cent finds it. -/
theorem one_line_stored_at_zero :
    Runs QuotationStep [] oneLineOperations [oneLineQuotation] ∧
      oneLineQuotation.recomputeTotals = ⟨10000, 0, 10000⟩ ∧
      oneLineQuotation.storedTotals = ⟨0, 0, 0⟩ ∧
      findAll (fun _ _ => false) (totalRange (some 1) none) [oneLineQuotation] = [] ∧
      ¬ TotalsPersisted [oneLineQuotation] := by
  refine ⟨oneLine_runs, by decide, by decide, by decide, fun h => ?_⟩
  have hSame := h.saved oneLineQuotation (List.mem_singleton.mpr rfl)
  exact absurd hSame (by decide)

end Houndfe.Quotations
