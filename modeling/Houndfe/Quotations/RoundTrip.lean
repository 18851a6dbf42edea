import Houndfe.Quotations.DraftEdits
import Houndfe.Quotations.QuotationResponse
import Houndfe.Quotations.StoredTotals
import Houndfe.Sales.PromotionApplication

/-! A quotation and its rows. The writer and the reader are separate lists of fields over the
root, the lines and the two junction tables; the title of a line's discount is in neither. -/

namespace Houndfe.Quotations

open Keyed Transition
open Houndfe.Sales (DiscountType Quantity)

/-! ### The rows -/

structure QuotationRow where
  id : String
  sellerUserId : String
  customerId : Option String
  globalPriceListId : Option String
  priceListExplicitlySet : Bool
  status : QuotationStatus
  expiresAt : Option Int
  cancelReason : Option QuotationCancelReason
  canceledAt : Option Int
  subtotalCents : Int
  discountCents : Int
  totalCents : Int
  manuallyEnded : Bool
  customerNotes : Option String
  taxRate : Rat
  createdAt : Int
  deriving DecidableEq, Repr

structure QuotationItemRow where
  id : String
  quotationId : String
  productId : String
  variantId : Option String
  productName : String
  variantName : Option String
  quantity : Quantity
  unitPriceCents : Int
  unitPriceCurrency : String
  priceSource : Option QuotationItemPriceSource
  appliedPriceListId : Option String
  customPriceCents : Option Int
  discountType : Option DiscountType
  discountValue : Option Int
  discountAmountCents : Int
  promotionId : Option String
  taxableBaseCents : Option Int
  ivaRateClassification : Option QuotationIvaRateClassification
  chargeProductTaxesSnapshot : Option Bool
  deriving DecidableEq, Repr

structure QuotationWithRelations where
  root : QuotationRow
  items : List QuotationItemRow
  promotionVetoes : List String
  promotionOptIns : List String
  deriving DecidableEq, Repr

namespace PrismaQuotationRepository

def rootRow (quotation : Quotation) : QuotationRow where
  id := quotation.id
  sellerUserId := quotation.sellerUserId
  customerId := quotation.customerId
  globalPriceListId := quotation.globalPriceListId
  priceListExplicitlySet := quotation.priceListExplicitlySet
  status := quotation.status
  expiresAt := quotation.expiresAt
  cancelReason := quotation.cancelReason
  canceledAt := quotation.canceledAt
  subtotalCents := quotation.subtotalCents
  discountCents := quotation.discountCents
  totalCents := quotation.totalCents
  manuallyEnded := quotation.manuallyEnded
  customerNotes := quotation.customerNotes
  taxRate := quotation.taxRate
  createdAt := quotation.createdAt

/-- A line belongs to the quotation it is saved with. -/
def itemRow (quotationId : String) (item : QuotationItem) : QuotationItemRow where
  id := item.id
  quotationId := quotationId
  productId := item.productId
  variantId := item.variantId
  productName := item.productName
  variantName := item.variantName
  quantity := item.quantity
  unitPriceCents := item.unitPriceCents
  unitPriceCurrency := item.unitPriceCurrency
  priceSource := some item.priceSource
  appliedPriceListId := item.appliedPriceListId
  customPriceCents := item.customPriceCents
  discountType := item.discountType
  discountValue := item.discountValue
  discountAmountCents := item.discountAmountCents
  promotionId := item.promotionId
  taxableBaseCents := item.taxableBaseCents
  ivaRateClassification := item.ivaRateClassification
  chargeProductTaxesSnapshot := item.chargeProductTaxesSnapshot

def rowsOf (quotation : Quotation) : QuotationWithRelations where
  root := rootRow quotation
  items := quotation.items.map (itemRow quotation.id)
  promotionVetoes := quotation.vetoedPromotionIds
  promotionOptIns := quotation.optedInManualPromotionIds

/-- The rows that take the place of the ones before. Each junction table holds a promotion at
most once for a quotation, or refuses the rows. -/
def save (quotation : Quotation) : Option QuotationWithRelations :=
  if quotation.vetoedPromotionIds.Nodup ∧ quotation.optedInManualPromotionIds.Nodup then
    some (rowsOf quotation)
  else none

/-- `QuotationItem.fromPersistence`. -/
def itemToDomain (row : QuotationItemRow) : QuotationItem where
  id := row.id
  quotationId := row.quotationId
  productId := row.productId
  variantId := row.variantId
  productName := row.productName
  variantName := row.variantName
  quantity := row.quantity
  unitPriceCents := row.unitPriceCents
  unitPriceCurrency := row.unitPriceCurrency
  priceSource := row.priceSource.getD .priceList
  appliedPriceListId := row.appliedPriceListId
  customPriceCents := row.customPriceCents
  discountType := row.discountType
  discountValue := row.discountValue
  discountAmountCents := row.discountAmountCents
  discountTitle := none
  promotionId := row.promotionId
  taxableBaseCents := row.taxableBaseCents
  ivaRateClassification := row.ivaRateClassification
  chargeProductTaxesSnapshot := row.chargeProductTaxesSnapshot

def toDomain (data : QuotationWithRelations) : Quotation where
  id := data.root.id
  sellerUserId := data.root.sellerUserId
  status := data.root.status
  subtotalCents := data.root.subtotalCents
  discountCents := data.root.discountCents
  totalCents := data.root.totalCents
  manuallyEnded := data.root.manuallyEnded
  cancelReason := data.root.cancelReason
  canceledAt := data.root.canceledAt
  createdAt := data.root.createdAt
  customerId := data.root.customerId
  globalPriceListId := data.root.globalPriceListId
  priceListExplicitlySet := data.root.priceListExplicitlySet
  expiresAt := data.root.expiresAt
  items := data.items.map itemToDomain
  vetoedPromotionIds := data.promotionVetoes
  optedInManualPromotionIds := data.promotionOptIns
  customerNotes := data.root.customerNotes
  taxRate := data.root.taxRate

end PrismaQuotationRepository

/-- Related rows are read in no particular order. -/
structure ReadBack (written read : QuotationWithRelations) : Prop where
  root : read.root = written.root
  items : written.items.Perm read.items
  vetoes : written.promotionVetoes.Perm read.promotionVetoes
  optIns : written.promotionOptIns.Perm read.promotionOptIns

/-! ### The round trip -/

/-- Two responses that differ in the order of what is found by its id. -/
structure SameResponse (response other : QuotationResponse) : Prop where
  items : response.items.Perm other.items
  appliedPromotions : response.appliedPromotions.Perm other.appliedPromotions
  vetoed : response.vetoedPromotionIds.Perm other.vetoedPromotionIds
  optedIn : response.optedInManualPromotionIds.Perm other.optedInManualPromotionIds
  fields : other = { response with
    items := other.items
    appliedPromotions := other.appliedPromotions
    vetoedPromotionIds := other.vetoedPromotionIds
    optedInManualPromotionIds := other.optedInManualPromotionIds }

/-- The id of a line and the three columns of its tax snapshot. -/
def QuotationItem.taxSnapshot (item : QuotationItem) :
    String × Option Int × Option QuotationIvaRateClassification × Option Bool :=
  (item.id, item.taxableBaseCents, item.ivaRateClassification, item.chargeProductTaxesSnapshot)

/-- The rows are accepted, and however they are read the quotation answers as it did. -/
structure RoundTrips (saved : Quotation) : Prop where
  accepted : PrismaQuotationRepository.save saved = some (PrismaQuotationRepository.rowsOf saved)
  response : ∀ read, ReadBack (PrismaQuotationRepository.rowsOf saved) read →
    SameResponse saved.toResponse (PrismaQuotationRepository.toDomain read).toResponse
  taxSnapshots : ∀ read, ReadBack (PrismaQuotationRepository.rowsOf saved) read →
    (saved.items.map QuotationItem.taxSnapshot).Perm
      ((PrismaQuotationRepository.toDomain read).items.map QuotationItem.taxSnapshot)

open PrismaQuotationRepository

/-- What every save finds: the lines are the quotation's own, and no promotion is vetoed or
opted in twice. -/
structure Filed (quotation : Quotation) : Prop where
  owned : ∀ item ∈ quotation.items, item.quotationId = quotation.id
  vetoes : quotation.vetoedPromotionIds.Nodup
  optIns : quotation.optedInManualPromotionIds.Nodup

/-- Only the title is lost on the way. -/
theorem itemToDomain_itemRow {quotationId : String} {item : QuotationItem}
    (hOwned : item.quotationId = quotationId) :
    itemToDomain (itemRow quotationId item) = { item with discountTitle := none } := by
  subst hOwned
  rfl

/-- The lines as they are read back. -/
def untitled (items : List QuotationItem) : List QuotationItem :=
  items.map fun item => { item with discountTitle := none }

theorem toDomain_items_of_readBack {saved : Quotation} {read : QuotationWithRelations}
    (hFiled : Filed saved) (hRead : ReadBack (rowsOf saved) read) :
    (untitled saved.items).Perm (toDomain read).items := by
  have hSame : (rowsOf saved).items.map itemToDomain = untitled saved.items := by
    rw [rowsOf, untitled, List.map_map]
    apply List.map_congr_left
    intro item hItem
    exact itemToDomain_itemRow (hFiled.owned item hItem)
  rw [← hSame]
  exact hRead.items.map itemToDomain

/-- Reading the rows of a quotation gives what a request loads. -/
theorem reloaded_of_readBack {saved : Quotation} {read : QuotationWithRelations}
    (hFiled : Filed saved) (hRead : ReadBack (rowsOf saved) read) :
    Reloaded saved (toDomain read) := by
  refine ⟨toDomain_items_of_readBack hFiled hRead, hRead.vetoes, hRead.optIns, ?_⟩
  have hRoot := hRead.root
  unfold toDomain
  rw [hRoot]
  rfl

theorem appliedPromotion_untitled {item : QuotationItem} {applied : QuotationAppliedPromotion}
    (hTitle : item.discountTitle = none) (h : item.appliedPromotion = some applied) :
    applied.title = applied.promotionId := by
  obtain ⟨promotionId, _, rfl⟩ := Option.map_eq_some_iff.mp h
  rw [hTitle]
  rfl

/-- Promotions that go by their ids are the same from lines in any order. -/
theorem computeAppliedPromotions_perm {quotation other : Quotation}
    (hPerm : quotation.items.Perm other.items)
    (hTitles : ∀ item ∈ quotation.items, item.discountTitle = none) :
    quotation.computeAppliedPromotions.Perm other.computeAppliedPromotions := by
  have hFirst : ∀ a ∈ quotation.items.filterMap QuotationItem.appliedPromotion,
      ∀ b ∈ quotation.items.filterMap QuotationItem.appliedPromotion,
      a.promotionId = b.promotionId → a.add b = b.add a := by
    intro a ha b hb hSame
    obtain ⟨item, hItem, hA⟩ := List.mem_filterMap.mp ha
    obtain ⟨item', hItem', hB⟩ := List.mem_filterMap.mp hb
    have hTitleA := appliedPromotion_untitled (hTitles item hItem) hA
    have hTitleB := appliedPromotion_untitled (hTitles item' hItem') hB
    simp only [QuotationAppliedPromotion.add, hTitleA, hTitleB, hSame, Int.add_comm]
  have hLater : ∀ kept a b : QuotationAppliedPromotion,
      (kept.add a).add b = (kept.add b).add a := by
    intro kept a b
    simp only [QuotationAppliedPromotion.add, Int.add_right_comm]
  exact groupRows_perm add_promotionId (hPerm.filterMap _) hFirst hLater

theorem untitled_eq_self {items : List QuotationItem}
    (hTitles : ∀ item ∈ items, item.discountTitle = none) : untitled items = items := by
  conv_rhs => rw [← List.map_id items]
  apply List.map_congr_left
  intro item hItem
  have hTitle := hTitles item hItem
  cases item
  simp only at hTitle
  rw [hTitle]
  rfl

/-- A quotation without titles answers the same after its reload. -/
theorem sameResponse_of_reloaded {saved loaded : Quotation} (hLoaded : Reloaded saved loaded)
    (hTitles : ∀ item ∈ saved.items, item.discountTitle = none) :
    SameResponse saved.toResponse loaded.toResponse := by
  have hItems : saved.items.Perm loaded.items := by
    have hUntitled : (untitled saved.items).Perm loaded.items := hLoaded.items
    rwa [untitled_eq_self hTitles] at hUntitled
  have hTotals := recomputeTotals_perm hItems
  have hBreakdown := computeIvaBreakdown_perm hItems
  refine ⟨hItems.map _, computeAppliedPromotions_perm hItems hTitles, hLoaded.vetoed,
    hLoaded.optedIn, ?_⟩
  have hColumns := hLoaded.columns
  generalize hNewItems : loaded.items = items at hColumns
  generalize hNewVetoed : loaded.vetoedPromotionIds = vetoed at hColumns
  generalize hNewOptedIn : loaded.optedInManualPromotionIds = optedIn at hColumns
  subst hColumns
  simp only [Quotation.toResponse, hTotals, hBreakdown]

/-- A title is in no response after a reload. -/
theorem titles_of_sameResponse {saved loaded : Quotation} (hLoaded : Reloaded saved loaded)
    (hSame : SameResponse saved.toResponse loaded.toResponse) :
    ∀ item ∈ saved.items, item.discountTitle = none := by
  intro item hItem
  have hIn : item.toResponse ∈ loaded.items.map QuotationItem.toResponse :=
    hSame.items.subset (List.mem_map_of_mem hItem)
  obtain ⟨line, hLine, hResponse⟩ := List.mem_map.mp hIn
  obtain ⟨before, _, rfl⟩ := List.mem_map.mp (hLoaded.items.symm.subset hLine)
  exact (congrArg QuotationItemResponse.discountTitle hResponse).symm

theorem taxSnapshots_of_reloaded {saved loaded : Quotation} (hLoaded : Reloaded saved loaded) :
    (saved.items.map QuotationItem.taxSnapshot).Perm
      (loaded.items.map QuotationItem.taxSnapshot) := by
  have hSnapshots := hLoaded.items.map QuotationItem.taxSnapshot
  rwa [List.map_map] at hSnapshots

/-! ### Every request files the quotation -/

theorem nodup_pushOnce {ids : List String} {id : String} (h : ids.Nodup) :
    (Quotation.pushOnce ids id).Nodup := by
  unfold Quotation.pushOnce
  split
  · exact h
  · next hNew =>
      rw [List.nodup_append_comm, List.singleton_append]
      exact List.nodup_cons.mpr ⟨hNew, h⟩

namespace Filed

variable {env : QuotationEnvironment} {quotation changed : Quotation}

theorem reloaded {saved loaded : Quotation} (h : Reloaded saved loaded) (hSaved : Filed saved) :
    Filed loaded := by
  have hId : loaded.id = saved.id := by rw [h.columns]
  refine ⟨?_, h.vetoed.nodup_iff.mp hSaved.vetoes, h.optedIn.nodup_iff.mp hSaved.optIns⟩
  intro item hItem
  obtain ⟨before, hBefore, rfl⟩ := List.mem_map.mp (h.items.symm.subset hItem)
  rw [hId]
  exact hSaved.owned before hBefore

theorem updateItem {itemId : String} {f : QuotationItem → Except DomainError QuotationItem}
    (hQuotation : Filed quotation) (hSame : ∀ item line, f item = .ok line → SameLine item line)
    (h : quotation.updateItem itemId f = .ok changed) : Filed changed := by
  obtain ⟨items, hItems, h⟩ := bind_eq_ok.mp h
  cases pure_eq_ok.mp h
  refine ⟨?_, hQuotation.vetoes, hQuotation.optIns⟩
  apply Traverse.forall_updateFirst hQuotation.owned _ _ hItems
  · intro item line hOwned hLine
    exact (hSame item line hLine).quotationId.trans hOwned
  · intro extra hExtra
    cases hExtra

theorem addItem {props : QuotationItemProps} (hQuotation : Filed quotation)
    (hOwner : props.quotationId = quotation.id) (h : quotation.addItem props = .ok changed) :
    Filed changed := by
  replace h := past h
  obtain ⟨newItem, hNew, h⟩ := bind_eq_ok.mp h
  obtain ⟨items, hItems, h⟩ := bind_eq_ok.mp h
  cases pure_eq_ok.mp h
  refine ⟨?_, hQuotation.vetoes, hQuotation.optIns⟩
  apply Traverse.forall_updateFirst hQuotation.owned _ _ hItems
  · intro item line hOwned hLine
    exact (SameLine.of_changeQuantity hLine).quotationId.trans hOwned
  · intro extra hExtra item hItem
    cases hExtra
    cases List.mem_singleton.mp hItem
    exact (create_quotationId hNew).trans hOwner

theorem edit (hQuotation : Filed quotation) (h : DraftEdit quotation changed) :
    Filed changed := by
  cases h with
  | lineAdded hOwner hChanged => exact hQuotation.addItem hOwner hChanged
  | quantityChanged hChanged =>
      obtain ⟨_, _, hChanged⟩ := bind_eq_ok.mp hChanged
      obtain ⟨_, _, hChanged⟩ := bind_eq_ok.mp hChanged
      exact hQuotation.updateItem (fun _ _ => SameLine.of_changeQuantity) hChanged
  | lineRemoved hChanged =>
      obtain ⟨_, _, hChanged⟩ := bind_eq_ok.mp hChanged
      obtain ⟨_, _, hChanged⟩ := bind_eq_ok.mp hChanged
      cases pure_eq_ok.mp hChanged
      exact ⟨fun item hItem => hQuotation.owned item (List.mem_of_mem_eraseP hItem),
        hQuotation.vetoes, hQuotation.optIns⟩
  | priceOverridden hChanged =>
      obtain ⟨_, _, hChanged⟩ := bind_eq_ok.mp hChanged
      exact hQuotation.updateItem (fun _ _ => SameLine.of_overridePrice) hChanged
  | optedIn =>
      exact ⟨hQuotation.owned, hQuotation.vetoes.filter _, nodup_pushOnce hQuotation.optIns⟩
  | optedOut => exact ⟨hQuotation.owned, hQuotation.vetoes, hQuotation.optIns.filter _⟩
  | vetoed =>
      exact ⟨hQuotation.owned, nodup_pushOnce hQuotation.vetoes, hQuotation.optIns.filter _⟩
  | vetoLifted => exact ⟨hQuotation.owned, hQuotation.vetoes.filter _, hQuotation.optIns⟩
  | rebound => exact ⟨hQuotation.owned, hQuotation.vetoes, hQuotation.optIns⟩

theorem recompute (hQuotation : Filed quotation)
    (h : recomputePricingAndPromotions env quotation = .ok changed) : Filed changed := by
  obtain ⟨_, items, _, _, hFrom, rfl⟩ := recompute_lines h
  refine ⟨?_, hQuotation.vetoes, hQuotation.optIns.filter _⟩
  intro line hLine
  obtain ⟨item, hItem, hSame⟩ := hFrom line hLine
  exact hSame.quotationId.trans (hQuotation.owned item hItem)

theorem saves {target : QuotationStatus} (hQuotation : Filed quotation)
    (h : Saves env target quotation changed) :
    Filed changed := by
  cases h with
  | recomputed _ hEdit hSaved => exact (hQuotation.edit hEdit).recompute hSaved
  | annotated _ => exact ⟨hQuotation.owned, hQuotation.vetoes, hQuotation.optIns⟩
  | sent _ => exact ⟨hQuotation.owned, hQuotation.vetoes, hQuotation.optIns⟩
  | cancelled =>
      unfold Quotation.cancel
      split
      · exact hQuotation
      · exact ⟨hQuotation.owned, hQuotation.vetoes, hQuotation.optIns⟩

end Filed

theorem openDraft_filed {env : QuotationEnvironment} {id sellerUserId : String}
    {customerId globalPriceListId : Option String} {draft : Quotation}
    (h : QuotationsService.openDraft env id sellerUserId customerId globalPriceListId =
      .ok draft) : Filed draft := by
  obtain ⟨_, _, _, rfl⟩ := openDraft_eq_ok h
  exact ⟨fun item hItem => absurd hItem List.not_mem_nil, List.nodup_nil, List.nodup_nil⟩

theorem filed_of_runs {table : List Quotation}
    {operations : List (ServiceEnvironment × QuotationOperation)}
    (hRun : Runs QuotationStep [] operations table) : ∀ quotation ∈ table, Filed quotation := by
  refine rows_of_runs ?_ ?_ (fun quotation hIn => absurd hIn List.not_mem_nil) hRun
  · exact fun _ _ _ _ _ _ hDraft => openDraft_filed hDraft
  · intro env request stored loaded saved hStored hLoaded hSaved
    exact (hStored.reloaded hLoaded).saves (serve_saves hSaved)

/-- A saved quotation survives its round trip exactly when none of its lines has a title, that
is, when the request gave no line a discount. -/
theorem round_trips_iff_untitled {table : List Quotation}
    {operations : List (ServiceEnvironment × QuotationOperation)}
    (hRun : Runs QuotationStep [] operations table) {saved : Quotation} (hSaved : saved ∈ table) :
    RoundTrips saved ↔ ∀ item ∈ saved.items, item.discountTitle = none := by
  have hFiled := filed_of_runs hRun saved hSaved
  constructor
  · intro hTrips
    have hRead : ReadBack (rowsOf saved) (rowsOf saved) := ⟨rfl, .refl _, .refl _, .refl _⟩
    exact titles_of_sameResponse (reloaded_of_readBack hFiled hRead) (hTrips.response _ hRead)
  · intro hTitles
    refine ⟨if_pos ⟨hFiled.vetoes, hFiled.optIns⟩, fun read hRead => ?_, fun read hRead => ?_⟩
    · exact sameResponse_of_reloaded (reloaded_of_readBack hFiled hRead) hTitles
    · exact taxSnapshots_of_reloaded (reloaded_of_readBack hFiled hRead)

theorem round_trips_iff_untitled_of_one_line :
    RoundTrips oneLineQuotation ↔ ∀ item ∈ oneLineQuotation.items, item.discountTitle = none :=
  round_trips_iff_untitled oneLine_runs (List.mem_singleton.mpr rfl)

/-! ### A line with a discount -/

/-- Ten pesos off the product. -/
def promotedProduct : ServiceEnvironment :=
  { oneProduct with promotions :=
      [{ Sales.fixedDiscount 1000 with targetItems := [⟨.default, .products, "p"⟩] }] }

def discountedLine : QuotationItem :=
  { quotedLine with
    unitPriceCents := 9000
    discountType := some .amount
    discountValue := some 1000
    discountAmountCents := 1000
    discountTitle := some "Fixed"
    promotionId := some "promotion"
    taxableBaseCents := some 7759 }

def discountedQuotation : Quotation :=
  { emptyQuotation with items := [discountedLine] }

/-- The title that was saved is answered as nothing, and the promotion under its id. -/
theorem title_lost_on_reload :
    Runs QuotationStep []
        [(promotedProduct, .openDraft "q" "seller" none none),
          (promotedProduct, .change "q" (.addItem "i" "p" none 1))] [discountedQuotation] ∧
      discountedQuotation.toResponse.appliedPromotions = [⟨"promotion", "Fixed", 1000⟩] ∧
      (toDomain (rowsOf discountedQuotation)).toResponse.appliedPromotions =
        [⟨"promotion", "promotion", 1000⟩] ∧
      ¬ RoundTrips discountedQuotation := by
  have hOpened : QuotationsService.openDraft promotedProduct.toQuotationEnvironment "q" "seller"
      none none = .ok emptyQuotation := rfl
  have hAdded : QuotationsService.serve promotedProduct emptyQuotation (.addItem "i" "p" none 1) =
      .ok discountedQuotation := rfl
  have hReloaded : Reloaded emptyQuotation emptyQuotation := ⟨.refl _, .refl _, .refl _, rfl⟩
  refine ⟨.succ (.succ (.zero []) (.opened hOpened)) (.changed rfl hReloaded hAdded), by decide,
    by decide, fun hTrips => ?_⟩
  have hSame := hTrips.response _ ⟨rfl, .refl _, .refl _, .refl _⟩
  exact absurd (hSame.items.subset (List.mem_singleton.mpr rfl)) (by decide)

end Houndfe.Quotations
