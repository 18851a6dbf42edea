import Houndfe.Quotations.StoredTotals
import Houndfe.Sales.DraftService
import Houndfe.Sales.RecomputeAgain

/-! The price list a draft is bound to as its customer changes, for sales and quotations alike.
A customer with a list of his own brings it along; one without leaves the bound list as it is,
whoever it came from. -/

namespace Houndfe.Quotations

open Transition
open Houndfe.Sales (Sale)

/-! ### What a draft is bound to -/

/-- The list of each customer that exists. -/
abbrev CustomerLists := String → Option (Option String)

/-- A list of the customer's own. -/
def ownList (lists : CustomerLists) (customerId : String) : Option String :=
  (lists customerId).bind fun list => list.filter (· ≠ "")

/-- A draft of either kind. -/
inductive CustomerDraft where
  | ofSale (sale : Sale)
  | ofQuotation (quotation : Quotation)

namespace CustomerDraft

def customerId : CustomerDraft → Option String
  | .ofSale sale => sale.customerId
  | .ofQuotation quotation => quotation.customerId

def globalPriceListId : CustomerDraft → Option String
  | .ofSale sale => sale.globalPriceListId
  | .ofQuotation quotation => quotation.globalPriceListId

def priceListExplicitlySet : CustomerDraft → Bool
  | .ofSale sale => sale.priceListExplicitlySet
  | .ofQuotation quotation => quotation.priceListExplicitlySet

def isQuotation : CustomerDraft → Bool
  | .ofSale _ => false
  | .ofQuotation _ => true

end CustomerDraft

inductive CustomerCall where
  | assignCustomer (customerId : String)
  | clearCustomer
  deriving DecidableEq, Repr

/-- One call on a draft that is loaded for it; a call that fails, and clearing where there is no
customer, leave the draft as it was. A quotation is cleared by its entity. -/
inductive CustomerStep (lists : CustomerLists) :
    CustomerDraft → CustomerCall → CustomerDraft → Prop where
  | assignedSale {env : Sales.DraftEnvironment} {userId customerId : String}
      {shippingAddressId : Option String} {stored loaded saved : Sale}
      (hLists : ∀ id, (env.customers.find? fun customer => customer.id = id).map
        Sales.CustomerRow.globalPriceListId = lists id)
      (hLoaded : Sales.Reloaded stored loaded)
      (hSaved : Sales.DraftService.assignCustomer env userId loaded customerId shippingAddressId =
        .ok saved) :
      CustomerStep lists (.ofSale stored) (.assignCustomer customerId) (.ofSale saved)
  | clearedSale {userId : String} {stored loaded saved : Sale}
      (hLoaded : Sales.Reloaded stored loaded)
      (hSaved : Sales.DraftService.clearCustomer userId loaded = .ok (some saved)) :
      CustomerStep lists (.ofSale stored) .clearCustomer (.ofSale saved)
  | assignedQuotation {env : QuotationEnvironment} {customerId : String}
      {stored loaded saved : Quotation}
      (hLists : ∀ id, (env.customers.find? fun customer => customer.id = id).map
        CustomerRow.globalPriceListId = lists id)
      (hLoaded : Reloaded stored loaded)
      (hSaved : QuotationsService.assignCustomer env loaded customerId = .ok saved) :
      CustomerStep lists (.ofQuotation stored) (.assignCustomer customerId) (.ofQuotation saved)
  | clearedQuotation {stored loaded saved : Quotation} (hLoaded : Reloaded stored loaded)
      (hSaved : loaded.clearCustomer = .ok saved) :
      CustomerStep lists (.ofQuotation stored) .clearCustomer (.ofQuotation saved)
  | unchanged {draft : CustomerDraft} {call : CustomerCall} : CustomerStep lists draft call draft

/-! ### What a recompute leaves alone -/

theorem recompute_keeps_binding {env : Sales.PricingEnvironment} {sale : Sale}
    {recomputed : Sales.Recomputed}
    (h : Sales.recomputePricingAndPromotions env sale = .ok recomputed) :
    recomputed.sale.customerId = sale.customerId ∧
      recomputed.sale.globalPriceListId = sale.globalPriceListId ∧
      recomputed.sale.priceListExplicitlySet = sale.priceListExplicitlySet := by
  obtain ⟨prepared, items, hPrepared, _, rfl⟩ := Sales.recompute_eq_ok.mp h
  obtain ⟨_, lines, _, rfl⟩ := Sales.prepareSale_eq_ok.mp hPrepared
  unfold Sales.Recomputed.of
  dsimp only [Sales.pruneOptIns]
  cases (Promotions.evaluate _ env.promotions).selection.order with
  | none => exact ⟨rfl, rfl, rfl⟩
  | some order => exact ⟨rfl, rfl, rfl⟩

/-! ### One call -/

/-- What an assignment did: the customer is there, no list counts as chosen, and the bound list
is the customer's own, else the one bound before. -/
structure Assigned (lists : CustomerLists) (customerId : String) (before after : CustomerDraft) :
    Prop where
  customer : after.customerId = some customerId
  list : after.globalPriceListId = (ownList lists customerId).or before.globalPriceListId
  explicit : after.priceListExplicitlySet = false

section

variable {lists : CustomerLists} {customerId : String}

theorem seedCustomerList_sale {sale seeded : Sale} {customer : Sales.CustomerRow}
    (hExplicit : sale.priceListExplicitlySet = false)
    (h : Sales.DraftService.seedCustomerList sale customer = .ok seeded) :
    seeded.globalPriceListId =
        (customer.globalPriceListId.filter (· ≠ "")).or sale.globalPriceListId ∧
      seeded.priceListExplicitlySet = false := by
  unfold Sales.DraftService.seedCustomerList at h
  rw [if_neg (by rw [hExplicit]; exact Bool.false_ne_true)] at h
  cases hList : customer.globalPriceListId with
  | none =>
      rw [hList] at h
      cases h
      exact ⟨rfl, hExplicit⟩
  | some list =>
      rw [hList] at h
      replace h := past h
      obtain ⟨_, hBlank, h⟩ := bind_eq_ok.mp h
      cases pure_eq_ok.mp h
      have hList : list ≠ "" := by
        rintro rfl
        exact throwIf_eq_ok.mp hBlank ⟨"", rfl, rfl⟩
      have hKept : (some list).filter (· ≠ "") = some list := by simp [hList]
      rw [hKept]
      exact ⟨rfl, rfl⟩

theorem assigned_of_sale {env : Sales.DraftEnvironment} {userId : String}
    {shippingAddressId : Option String} {stored loaded saved : Sale}
    (hLists : ∀ id, (env.customers.find? fun customer => customer.id = id).map
      Sales.CustomerRow.globalPriceListId = lists id)
    (hLoaded : Sales.Reloaded stored loaded) (hExplicit : stored.priceListExplicitlySet = false)
    (h : Sales.DraftService.assignCustomer env userId loaded customerId shippingAddressId =
      .ok saved) : Assigned lists customerId (.ofSale stored) (.ofSale saved) := by
  have hStored : loaded.priceListExplicitlySet = false ∧
      loaded.globalPriceListId = stored.globalPriceListId := by
    rw [hLoaded.columns]
    exact ⟨hExplicit, rfl⟩
  replace h := past (past h)
  obtain ⟨assigned, hAssigned, h⟩ := bind_eq_ok.mp h
  obtain ⟨recomputed, hRecomputed, h⟩ := bind_eq_ok.mp h
  cases pure_eq_ok.mp h
  obtain ⟨hCustomer, hList, hStill⟩ := recompute_keeps_binding hRecomputed
  unfold Sales.DraftService.withCustomer at hAssigned
  split at hAssigned
  · cases hAssigned
  next customer hFound =>
  obtain ⟨seeded, hSeeded, hAssigned⟩ := bind_eq_ok.mp hAssigned
  obtain ⟨_, _, hAssigned⟩ := bind_eq_ok.mp hAssigned
  obtain ⟨_, _, hAssigned⟩ := bind_eq_ok.mp hAssigned
  cases pure_eq_ok.mp hAssigned
  obtain ⟨hSeededList, hSeededExplicit⟩ := seedCustomerList_sale hStored.1 hSeeded
  have hRow : lists customerId = some customer.globalPriceListId := by
    rw [← hLists customerId, hFound]
    rfl
  refine ⟨hCustomer, ?_, hStill.trans hSeededExplicit⟩
  show recomputed.sale.globalPriceListId = _
  rw [hList, ownList, hRow]
  exact hSeededList.trans (by rw [hStored.2]; rfl)

theorem seedCustomerList_quotation {draft seeded : Quotation} {customer : CustomerRow}
    (hExplicit : draft.priceListExplicitlySet = false)
    (h : QuotationsService.seedCustomerList draft customer = .ok seeded) :
    seeded.globalPriceListId =
        (customer.globalPriceListId.filter (· ≠ "")).or draft.globalPriceListId ∧
      seeded.priceListExplicitlySet = false := by
  unfold QuotationsService.seedCustomerList at h
  dsimp only at h
  split at h
  · next hSeeds =>
      replace h := past (past h)
      cases pure_eq_ok.mp h
      obtain ⟨list, hList⟩ := Option.isSome_iff_exists.mp hSeeds.2
      exact ⟨by rw [hList]; rfl, rfl⟩
  · next hSeeds =>
      cases h
      have hNone : customer.globalPriceListId.filter (· ≠ "") = none := by
        cases hFiltered : customer.globalPriceListId.filter (· ≠ "") with
        | none => rfl
        | some list => exact absurd ⟨hExplicit, by rw [hFiltered]; rfl⟩ hSeeds
      exact ⟨by rw [hNone]; rfl, hExplicit⟩

theorem assigned_of_quotation {env : QuotationEnvironment} {stored loaded saved : Quotation}
    (hLists : ∀ id, (env.customers.find? fun customer => customer.id = id).map
      CustomerRow.globalPriceListId = lists id)
    (hLoaded : Reloaded stored loaded) (hExplicit : stored.priceListExplicitlySet = false)
    (h : QuotationsService.assignCustomer env loaded customerId = .ok saved) :
    Assigned lists customerId (.ofQuotation stored) (.ofQuotation saved) := by
  have hStored : loaded.priceListExplicitlySet = false ∧
      loaded.globalPriceListId = stored.globalPriceListId := by
    rw [hLoaded.columns]
    exact ⟨hExplicit, rfl⟩
  replace h := past h
  obtain ⟨assigned, hAssigned, h⟩ := bind_eq_ok.mp h
  obtain ⟨items, optedIn, rfl, _⟩ := recompute_eq_ok h
  obtain ⟨customer, hFound, hAssigned⟩ := bind_eq_ok.mp hAssigned
  obtain ⟨seeded, hSeeded, hAssigned⟩ := bind_eq_ok.mp hAssigned
  obtain ⟨_, _, hAssigned⟩ := bind_eq_ok.mp hAssigned
  obtain ⟨_, _, hAssigned⟩ := bind_eq_ok.mp hAssigned
  cases pure_eq_ok.mp hAssigned
  obtain ⟨hSeededList, hSeededExplicit⟩ := seedCustomerList_quotation hStored.1 hSeeded
  unfold QuotationsService.findCustomerOrFail at hFound
  split at hFound
  · cases hFound
  next row hRowFound =>
  cases hFound
  have hRow : lists customerId = some customer.globalPriceListId := by
    rw [← hLists customerId, hRowFound]
    rfl
  have hId : customer.id = customerId := by
    simpa using List.find?_some hRowFound
  refine ⟨congrArg some hId, ?_, hSeededExplicit⟩
  show (if seeded.priceListExplicitlySet then _ else seeded.globalPriceListId) = _
  rw [hSeededExplicit, ownList, hRow]
  exact hSeededList.trans (by rw [hStored.2]; rfl)

end

/-- A sale that is cleared keeps its list. -/
theorem cleared_of_sale {userId : String} {stored loaded saved : Sale}
    (hLoaded : Sales.Reloaded stored loaded)
    (h : Sales.DraftService.clearCustomer userId loaded = .ok (some saved)) :
    saved.customerId = none ∧ saved.priceListExplicitlySet = stored.priceListExplicitlySet := by
  replace h := past (past h)
  split at h
  · cases pure_eq_ok.mp h
  · obtain ⟨cleared, hCleared, h⟩ := bind_eq_ok.mp h
    cases pure_eq_ok.mp h
    obtain ⟨_, _, hCleared⟩ := bind_eq_ok.mp hCleared
    cases pure_eq_ok.mp hCleared
    rw [hLoaded.columns]
    exact ⟨rfl, rfl⟩

theorem cleared_of_quotation {stored loaded saved : Quotation} (hLoaded : Reloaded stored loaded)
    (hExplicit : stored.priceListExplicitlySet = false) (h : loaded.clearCustomer = .ok saved) :
    saved.customerId = none ∧ saved.globalPriceListId = none ∧
      saved.priceListExplicitlySet = false := by
  have hStored : loaded.priceListExplicitlySet = false := by
    rw [hLoaded.columns]
    exact hExplicit
  replace h := past h
  cases pure_eq_ok.mp h
  refine ⟨rfl, ?_, hStored⟩
  show (if loaded.priceListExplicitlySet then _ else none) = none
  rw [hStored]
  rfl

/-! ### Histories -/

/-- No list was chosen, a customer with a list of his own has the draft bound to it, and a
quotation without a customer is bound to none. -/
structure BoundToCustomer (lists : CustomerLists) (draft : CustomerDraft) : Prop where
  explicit : draft.priceListExplicitlySet = false
  list : ∀ customerId ∈ draft.customerId, ∀ list ∈ ownList lists customerId,
    draft.globalPriceListId = some list
  none : draft.isQuotation → draft.customerId = none → draft.globalPriceListId = none

theorem Assigned.boundToCustomer {lists : CustomerLists} {customerId : String}
    {before after : CustomerDraft} (h : Assigned lists customerId before after) :
    BoundToCustomer lists after := by
  refine ⟨h.explicit, ?_, ?_⟩
  · intro other hOther list hList
    cases h.customer.symm.trans hOther
    rw [h.list, Option.mem_def.mp hList]
    rfl
  · intro _ hNone
    rw [h.customer] at hNone
    cases hNone

theorem boundToCustomer_of_step {lists : CustomerLists} {before after : CustomerDraft}
    {call : CustomerCall} (hBefore : BoundToCustomer lists before)
    (hStep : CustomerStep lists before call after) : BoundToCustomer lists after := by
  cases hStep with
  | assignedSale hLists hLoaded hSaved =>
      exact (assigned_of_sale hLists hLoaded hBefore.explicit hSaved).boundToCustomer
  | clearedSale hLoaded hSaved =>
      obtain ⟨hCustomer, hExplicit⟩ := cleared_of_sale hLoaded hSaved
      refine ⟨hExplicit.trans hBefore.explicit, ?_, fun hQuotation => by cases hQuotation⟩
      intro customerId hSome
      cases hCustomer.symm.trans hSome
  | assignedQuotation hLists hLoaded hSaved =>
      exact (assigned_of_quotation hLists hLoaded hBefore.explicit hSaved).boundToCustomer
  | clearedQuotation hLoaded hSaved =>
      obtain ⟨hCustomer, hList, hExplicit⟩ :=
        cleared_of_quotation hLoaded hBefore.explicit hSaved
      refine ⟨hExplicit, ?_, fun _ _ => hList⟩
      intro customerId hSome
      cases hCustomer.symm.trans hSome
  | unchanged => exact hBefore

/-- A draft as it is opened: bound to the list of its customer, if it has one. -/
structure Opened (lists : CustomerLists) (draft : CustomerDraft) : Prop where
  explicit : draft.priceListExplicitlySet = false
  list : draft.globalPriceListId = draft.customerId.bind fun customerId =>
    (lists customerId).join

theorem Opened.boundToCustomer {lists : CustomerLists} {draft : CustomerDraft}
    (h : Opened lists draft) : BoundToCustomer lists draft := by
  refine ⟨h.explicit, ?_, ?_⟩
  · intro customerId hCustomer list hList
    rw [h.list, Option.mem_def.mp hCustomer]
    unfold ownList at hList
    cases hRow : lists customerId with
    | none => simp [hRow] at hList
    | some row =>
        simp only [hRow, Option.bind_some, Option.mem_def, Option.filter_eq_some_iff] at hList
        simpa [hRow] using hList.1
  · intro _ hNone
    rw [h.list, hNone]
    rfl

/-- Two drafts that end with the same customer end bound to his own list, when he has one; two
quotations that end without a customer end bound to none; and a customer without a list of his
own leaves the bound list as it was. -/
theorem same_customer_same_own_list {lists : CustomerLists}
    {start start' last last' : CustomerDraft} {history history' : List CustomerCall}
    (hStart : Opened lists start) (hStart' : Opened lists start')
    (hRun : Runs (CustomerStep lists) start history last)
    (hRun' : Runs (CustomerStep lists) start' history' last')
    (hSame : last.customerId = last'.customerId) :
    (∀ customerId ∈ last.customerId, ∀ list ∈ ownList lists customerId,
        last.globalPriceListId = some list ∧ last'.globalPriceListId = some list) ∧
      (last.customerId = none → last.isQuotation → last'.isQuotation →
        last.globalPriceListId = none ∧ last'.globalPriceListId = none) ∧
      (∀ customerId next, ownList lists customerId = none →
        CustomerStep lists last (.assignCustomer customerId) next →
          next.globalPriceListId = last.globalPriceListId) := by
  have hBound : BoundToCustomer lists last := hRun.invariant
    (fun _ _ _ hBefore hStep => boundToCustomer_of_step hBefore hStep) hStart.boundToCustomer
  have hBound' : BoundToCustomer lists last' := hRun'.invariant
    (fun _ _ _ hBefore hStep => boundToCustomer_of_step hBefore hStep) hStart'.boundToCustomer
  refine ⟨?_, ?_, ?_⟩
  · intro customerId hCustomer list hList
    exact ⟨hBound.list customerId hCustomer list hList,
      hBound'.list customerId (hSame ▸ hCustomer) list hList⟩
  · intro hNone hQuotation hQuotation'
    exact ⟨hBound.none hQuotation hNone, hBound'.none hQuotation' (hSame ▸ hNone)⟩
  · intro customerId next hListless hStep
    cases hStep with
    | assignedSale hLists hLoaded hSaved =>
        have hAssigned := assigned_of_sale hLists hLoaded hBound.explicit hSaved
        rw [hAssigned.list, hListless]
        rfl
    | assignedQuotation hLists hLoaded hSaved =>
        have hAssigned := assigned_of_quotation hLists hLoaded hBound.explicit hSaved
        rw [hAssigned.list, hListless]
        rfl
    | unchanged => rfl

/-! ### A wholesale customer, then one without a list -/

def wholesaleAndPublic : List CustomerRow :=
  [⟨"mayorista", some "mayoreo", none⟩, ⟨"publico", none, none⟩]

def twoCustomers : QuotationEnvironment :=
  { oneProduct.toQuotationEnvironment with customers := wholesaleAndPublic }

def twoCustomerLists : CustomerLists := fun id =>
  (wholesaleAndPublic.find? fun customer => customer.id = id).map CustomerRow.globalPriceListId

def quotationFor (customerId globalPriceListId : Option String) : Quotation :=
  Quotation.fresh "q" "seller" customerId globalPriceListId 0

/-- A quotation without lines is read back as it was saved. -/
theorem assigned_in_one_step {before after : Quotation} {customerId : String}
    (hItems : before.items = [])
    (h : QuotationsService.assignCustomer twoCustomers before customerId = .ok after) :
    CustomerStep twoCustomerLists (.ofQuotation before) (.assignCustomer customerId)
      (.ofQuotation after) :=
  .assignedQuotation (fun _ => rfl) ⟨by rw [hItems]; exact .nil, .refl _, .refl _, rfl⟩ h

theorem opened_without_customer : Opened twoCustomerLists (.ofQuotation (quotationFor none none)) :=
  ⟨rfl, rfl⟩

theorem assigned_mayorista : QuotationsService.assignCustomer twoCustomers
    (quotationFor none none) "mayorista" = .ok (quotationFor (some "mayorista") (some "mayoreo")) :=
  rfl

theorem assigned_publico : QuotationsService.assignCustomer twoCustomers
    (quotationFor none none) "publico" = .ok (quotationFor (some "publico") none) :=
  rfl

/-- With the wholesale customer last, both are bound to his list. -/
theorem same_customer_same_own_list_of_mayorista :
    (quotationFor (some "mayorista") (some "mayoreo")).globalPriceListId = some "mayoreo" ∧
      (quotationFor (some "mayorista") (some "mayoreo")).globalPriceListId = some "mayoreo" := by
  have hLast : QuotationsService.assignCustomer twoCustomers (quotationFor (some "publico") none)
      "mayorista" = .ok (quotationFor (some "mayorista") (some "mayoreo")) := rfl
  have hAtOnce := Runs.single (assigned_in_one_step rfl assigned_mayorista)
  have hFirst := Runs.single (assigned_in_one_step rfl assigned_publico)
  have hSecond := Runs.single (assigned_in_one_step rfl hLast)
  have hBoth := same_customer_same_own_list opened_without_customer opened_without_customer hAtOnce
    (hFirst.trans hSecond) rfl
  exact hBoth.1 "mayorista" rfl "mayoreo" rfl

/-- A wholesale customer and then one without a list, or the latter at once: both end with him,
and the list of the other customer survives in the first. -/
theorem earlier_list_survives : ∃ start last last' : Quotation, ∃ history history',
    Opened twoCustomerLists (.ofQuotation start) ∧
      Runs (CustomerStep twoCustomerLists) (.ofQuotation start) history (.ofQuotation last) ∧
      Runs (CustomerStep twoCustomerLists) (.ofQuotation start) history' (.ofQuotation last') ∧
      last.customerId = last'.customerId ∧ last.priceListExplicitlySet = false ∧
      last'.priceListExplicitlySet = false ∧
      last.globalPriceListId = some "mayoreo" ∧ last'.globalPriceListId = none := by
  have hLast : QuotationsService.assignCustomer twoCustomers
      (quotationFor (some "mayorista") (some "mayoreo")) "publico" =
        .ok (quotationFor (some "publico") (some "mayoreo")) := rfl
  have hFirst := Runs.single (assigned_in_one_step rfl assigned_mayorista)
  have hSecond := Runs.single (assigned_in_one_step rfl hLast)
  have hOnly := Runs.single (assigned_in_one_step rfl assigned_publico)
  refine ⟨quotationFor none none, quotationFor (some "publico") (some "mayoreo"),
    quotationFor (some "publico") none, _, _, opened_without_customer, hFirst.trans hSecond, hOnly,
    ?_⟩
  exact ⟨rfl, rfl, rfl, rfl, rfl⟩

end Houndfe.Quotations
