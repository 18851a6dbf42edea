import Houndfe.Sales.DraftLines
import Houndfe.Sales.DraftService

/-! What a request does to the sale before it recomputes or saves: one case for each request,
with the guards of the service left out where nothing later depends on them. -/

namespace Houndfe.Sales

/-- The requests that recompute before they save. -/
def DraftMutation.recomputes : DraftMutation → Bool
  | .clearItems | .applyItemDiscount _ _ | .applyGlobalDiscount _ _ | .removeGlobalDiscount
  | .clearCustomer => false
  | _ => true

/-- The id of a new line is not the id of a line. -/
def DraftMutation.DrawsFresh (sale : Sale) : DraftMutation → Prop
  | .addItem itemId _ _ _ => itemId ∉ sale.items.map SaleItem.id
  | _ => True

namespace DraftService

/-- The sale as a request leaves it, before any recompute. -/
inductive Mutates (env : DraftEnvironment) (sale : Sale) : DraftMutation → Sale → Prop where
  | addItem {itemId productId : String} {variantId : Option String} {quantity : Int}
      {props : SaleItemProps} {mutated : Sale} (hId : props.id = itemId)
      (hMutated : sale.addItem props = .ok mutated) :
      Mutates env sale (.addItem itemId productId variantId quantity) mutated
  | updateItemQuantity {itemId : String} {quantity : Int} {mutated : Sale}
      (hMutated : sale.updateItemQuantity itemId quantity = .ok mutated) :
      Mutates env sale (.updateItemQuantity itemId quantity) mutated
  | clearItems {mutated : Sale} (hMutated : sale.clearItems = .ok mutated) :
      Mutates env sale .clearItems mutated
  | removeItem {itemId : String} {mutated : Sale}
      (hMutated : sale.removeItem itemId = .ok mutated) :
      Mutates env sale (.removeItem itemId) mutated
  | overrideItemPrice {itemId : String} {priceListId : Option String}
      {customPriceCents : Option Int} {item : SaleItem} {input : OverrideSaleItemPriceInput}
      {mutated : Sale} (hItem : sale.items.find? (fun item => item.id = itemId) = some item)
      (hInput : overrideInput env item priceListId customPriceCents = .ok input)
      (hMutated : sale.overrideItemPrice itemId input = .ok mutated) :
      Mutates env sale (.overrideItemPrice itemId priceListId customPriceCents) mutated
  | applyItemDiscount {itemId : String} {input : ApplySaleItemDiscountInput} {mutated : Sale}
      (hMutated : sale.applyItemDiscount itemId { input with promotionId := none } env.now =
        .ok mutated) :
      Mutates env sale (.applyItemDiscount itemId input) mutated
  | removeItemDiscount {itemId : String} {mutated : Sale}
      (hMutated : sale.removeItemDiscount itemId = .ok mutated) :
      Mutates env sale (.removeItemDiscount itemId) mutated
  | applyGlobalDiscount {input : ApplySaleItemDiscountInput} {strategy : DiscountStrategy}
      {result : Sale × List SkippedItem}
      (hMutated : sale.applyGlobalDiscount { input with promotionId := none } strategy env.now =
        .ok result) :
      Mutates env sale (.applyGlobalDiscount input strategy) result.1
  | removeGlobalDiscount : Mutates env sale .removeGlobalDiscount sale.removeGlobalDiscount
  | applyManualPromotion {promotionId : String} :
      Mutates env sale (.applyManualPromotion promotionId)
        (sale.optInManualPromotion promotionId)
  | removeManualPromotion {promotionId : String} :
      Mutates env sale (.removeManualPromotion promotionId)
        (sale.optOutManualPromotion promotionId)
  | removeAppliedPromotion {promotionId : String} :
      Mutates env sale (.removeAppliedPromotion promotionId)
        (if promotionId ∈ sale.optedInManualPromotionIds then
          sale.optOutManualPromotion promotionId else sale.addVetoedPromotion promotionId)
  | assignCustomer {customerId : String} {shippingAddressId : Option String} {mutated : Sale}
      (hMutated : withCustomer env sale customerId shippingAddressId = .ok mutated) :
      Mutates env sale (.assignCustomer customerId shippingAddressId) mutated
  | clearCustomer {mutated : Sale} (hMutated : sale.clearCustomer = .ok mutated) :
      Mutates env sale .clearCustomer mutated
  | setSalePriceList {globalPriceListId : Option String} {mutated : Sale}
      (hMutated : sale.setGlobalPriceList globalPriceListId true = .ok mutated) :
      Mutates env sale (.setSalePriceList globalPriceListId) mutated

variable {env : DraftEnvironment} {actorId : String} {sale saved : Sale}

/-- What a request saves: its mutation, recomputed or as it is. -/
def Saves (env : DraftEnvironment) (sale : Sale) (mutation : DraftMutation) (saved : Sale) :
    Prop :=
  ∃ mutated, Mutates env sale mutation mutated ∧
    if mutation.recomputes then reevaluate env mutated = .ok saved else saved = mutated

theorem map_some_eq_ok {x : Except DomainError Sale} {saved : Sale}
    (h : x.map some = .ok (some saved)) : x = .ok saved := by
  cases x with
  | error error => cases h
  | ok value =>
      cases h
      rfl

theorem changePromotion_saves {change : Sale → Sale}
    (h : changePromotion env actorId sale change = .ok saved) :
    reevaluate env (change sale) = .ok saved := by
  replace h := past (past h)
  exact h

theorem serve_saves {mutation : DraftMutation}
    (h : serve env actorId sale mutation = .ok (some saved)) : Saves env sale mutation saved := by
  cases mutation with
  | addItem itemId productId variantId quantity =>
      have h := map_some_eq_ok h
      obtain ⟨_, _, h⟩ := bind_eq_ok.mp h
      obtain ⟨_, _, h⟩ := bind_eq_ok.mp h
      obtain ⟨_, _, h⟩ := bind_eq_ok.mp h
      obtain ⟨_, _, h⟩ := bind_eq_ok.mp h
      obtain ⟨added, hAdded, h⟩ := bind_eq_ok.mp h
      exact ⟨added, .addItem rfl hAdded, h⟩
  | updateItemQuantity itemId quantity =>
      have h := map_some_eq_ok h
      replace h := past (past h)
      split at h
      · cases h
      · replace h := past h
        obtain ⟨updated, hUpdated, h⟩ := bind_eq_ok.mp h
        exact ⟨updated, .updateItemQuantity hUpdated, h⟩
  | clearItems =>
      have h := map_some_eq_ok h
      replace h := past h
      exact ⟨saved, .clearItems h, rfl⟩
  | removeItem itemId =>
      have h := map_some_eq_ok h
      replace h := past h
      obtain ⟨removed, hRemoved, h⟩ := bind_eq_ok.mp h
      exact ⟨removed, .removeItem hRemoved, h⟩
  | overrideItemPrice itemId priceListId customPriceCents =>
      have h := map_some_eq_ok h
      replace h := past (past (past h))
      split at h
      · cases h
      next item hItem =>
      obtain ⟨input, hInput, h⟩ := bind_eq_ok.mp h
      obtain ⟨overridden, hOverridden, h⟩ := bind_eq_ok.mp h
      exact ⟨overridden, .overrideItemPrice hItem hInput hOverridden, h⟩
  | applyItemDiscount itemId input =>
      have h := map_some_eq_ok h
      replace h := past (past h)
      exact ⟨saved, .applyItemDiscount h, rfl⟩
  | removeItemDiscount itemId =>
      have h := map_some_eq_ok h
      replace h := past h
      obtain ⟨removed, hRemoved, h⟩ := bind_eq_ok.mp h
      exact ⟨removed, .removeItemDiscount hRemoved, h⟩
  | applyGlobalDiscount input strategy =>
      have h := map_some_eq_ok h
      replace h := past (past (past h))
      obtain ⟨result, hResult, h⟩ := bind_eq_ok.mp h
      cases pure_eq_ok.mp h
      exact ⟨result.1, .applyGlobalDiscount hResult, rfl⟩
  | removeGlobalDiscount =>
      have h := map_some_eq_ok h
      replace h := past (past h)
      cases pure_eq_ok.mp h
      exact ⟨_, .removeGlobalDiscount, rfl⟩
  | applyManualPromotion promotionId =>
      exact ⟨_, .applyManualPromotion, changePromotion_saves (map_some_eq_ok h)⟩
  | removeManualPromotion promotionId =>
      exact ⟨_, .removeManualPromotion, changePromotion_saves (map_some_eq_ok h)⟩
  | removeAppliedPromotion promotionId =>
      exact ⟨_, .removeAppliedPromotion, changePromotion_saves (map_some_eq_ok h)⟩
  | assignCustomer customerId shippingAddressId =>
      have h := map_some_eq_ok h
      replace h := past (past h)
      obtain ⟨assigned, hAssigned, h⟩ := bind_eq_ok.mp h
      exact ⟨assigned, .assignCustomer hAssigned, h⟩
  | clearCustomer =>
      replace h := past (past h)
      split at h
      · cases pure_eq_ok.mp h
      · obtain ⟨cleared, hCleared, h⟩ := bind_eq_ok.mp h
        cases pure_eq_ok.mp h
        exact ⟨saved, .clearCustomer hCleared, rfl⟩
  | setSalePriceList globalPriceListId =>
      have h := map_some_eq_ok h
      replace h := past (past (past h))
      obtain ⟨bound, hBound, h⟩ := bind_eq_ok.mp h
      exact ⟨bound, .setSalePriceList hBound, h⟩

/-! ### What no mutation breaks -/

theorem setGlobalPriceList_items {id : Option String} {explicit : Bool}
    (h : sale.setGlobalPriceList id explicit = .ok saved) : saved.items = sale.items := by
  replace h := past (past h)
  cases pure_eq_ok.mp h
  rfl

theorem seedCustomerList_items {customer : CustomerRow}
    (h : seedCustomerList sale customer = .ok saved) : saved.items = sale.items := by
  unfold seedCustomerList at h
  split at h
  · cases h
    rfl
  · split at h
    · cases h
      rfl
    · exact setGlobalPriceList_items h

theorem withCustomer_items {customerId : String} {shippingAddressId : Option String}
    (h : withCustomer env sale customerId shippingAddressId = .ok saved) :
    saved.items = sale.items := by
  unfold withCustomer at h
  split at h
  · cases h
  · obtain ⟨seeded, hSeeded, h⟩ := bind_eq_ok.mp h
    replace h := past (past h)
    cases pure_eq_ok.mp h
    have hItems := seedCustomerList_items hSeeded
    exact hItems

/-- Distinct ids and tidy lines survive every mutation. -/
theorem Mutates.wellFormed {mutation : DraftMutation} {mutated : Sale}
    (h : Mutates env sale mutation mutated) (hWellFormed : sale.WellFormed)
    (hFresh : mutation.DrawsFresh sale) : mutated.WellFormed := by
  cases h with
  | addItem hId hMutated => exact addItem_wellFormed hWellFormed (hId ▸ hFresh) hMutated
  | updateItemQuantity hMutated => exact updateItemQuantity_wellFormed hWellFormed hMutated
  | clearItems hMutated =>
      obtain ⟨_, _, hMutated⟩ := bind_eq_ok.mp hMutated
      cases pure_eq_ok.mp hMutated
      exact ⟨List.nodup_nil, fun _ hNone => by cases hNone⟩
  | removeItem hMutated => exact removeItem_wellFormed hWellFormed hMutated
  | overrideItemPrice _ _ hMutated => exact overrideItemPrice_wellFormed hWellFormed hMutated
  | applyItemDiscount hMutated => exact applyItemDiscount_wellFormed hWellFormed hMutated
  | removeItemDiscount hMutated => exact removeItemDiscount_wellFormed hWellFormed hMutated
  | applyGlobalDiscount hMutated => exact applyGlobalDiscount_wellFormed hWellFormed hMutated
  | removeGlobalDiscount => exact removeGlobalDiscount_wellFormed hWellFormed
  | applyManualPromotion => exact wellFormed_of_items hWellFormed rfl
  | removeManualPromotion => exact wellFormed_of_items hWellFormed rfl
  | removeAppliedPromotion =>
      apply wellFormed_of_items hWellFormed
      split <;> rfl
  | assignCustomer hMutated => exact wellFormed_of_items hWellFormed (withCustomer_items hMutated)
  | clearCustomer hMutated =>
      obtain ⟨_, _, hMutated⟩ := bind_eq_ok.mp hMutated
      cases pure_eq_ok.mp hMutated
      exact wellFormed_of_items hWellFormed rfl
  | setSalePriceList hMutated =>
      exact wellFormed_of_items hWellFormed (setGlobalPriceList_items hMutated)

theorem Mutates.orderDiscountCents {mutation : DraftMutation} {mutated : Sale}
    (h : Mutates env sale mutation mutated) (hSkips : mutation.recomputes = false) :
    mutated.orderDiscountCents = sale.orderDiscountCents := by
  cases h with
  | clearItems hMutated =>
      obtain ⟨_, _, hMutated⟩ := bind_eq_ok.mp hMutated
      cases pure_eq_ok.mp hMutated
      rfl
  | applyItemDiscount hMutated =>
      obtain ⟨_, _, hMutated⟩ := bind_eq_ok.mp hMutated
      cases pure_eq_ok.mp hMutated
      rfl
  | applyGlobalDiscount hMutated =>
      obtain ⟨_, _, hMutated⟩ := bind_eq_ok.mp hMutated
      cases pure_eq_ok.mp hMutated
      rfl
  | removeGlobalDiscount => rfl
  | clearCustomer hMutated =>
      obtain ⟨_, _, hMutated⟩ := bind_eq_ok.mp hMutated
      cases pure_eq_ok.mp hMutated
      rfl
  | addItem | updateItemQuantity | removeItem | overrideItemPrice | removeItemDiscount
  | applyManualPromotion | removeManualPromotion | removeAppliedPromotion | assignCustomer
  | setSalePriceList => cases hSkips

end DraftService

end Houndfe.Sales
