import Houndfe.Sales.BotQuote

/-! The amounts of a quote, item by item: what the order comes to is spread over the items to the
cent, and no item costs less than nothing or more than it did. -/

namespace Houndfe.Sales

open Promotions Products Keyed Traverse Apportionment

/-- Items whose amounts add up to an order and stay in their range. -/
structure ExactAllocation (items : List CartItem) (sale : Sale) (quote : List EvaluatedCartItem) :
    Prop where
  items : quote.map (fun item => (item.productId, item.variantId, item.quantity)) =
    items.map fun item => (item.productId, item.variantId, item.quantity)
  nonneg : ∀ item ∈ quote, 0 ≤ item.finalPriceCents
  le_original : ∀ item ∈ quote, item.finalPriceCents ≤ item.originalPriceCents
  discount : ∀ item ∈ quote,
    item.discountAmountCents = item.originalPriceCents - item.finalPriceCents
  total : quotedTotalCents quote = sale.previewTotals.totalCents
  subtotal : (quote.map EvaluatedCartItem.originalPriceCents).sum =
    sale.previewTotals.subtotalCents

/-! ### The projection -/

/-- What an item says about its discount, and that it costs no more than before it. -/
structure Discounted (item : EvaluatedCartItem) : Prop where
  le_original : item.finalPriceCents ≤ item.originalPriceCents
  discount : item.discountAmountCents = item.originalPriceCents - item.finalPriceCents

theorem rewardCents_nonneg (line : SaleItem) : 0 ≤ line.rewardCents := by
  unfold SaleItem.rewardCents
  split
  · next hReward =>
      simp only [SaleItem.isBuyXGetYReward, Bool.and_eq_true, decide_eq_true_eq] at hReward
      exact hReward.1.2.le
  · exact le_rfl

theorem discounted_evaluateItem {line : SaleItem} (hPriced : Priced line) {allocated : Int}
    {item : CartItem} (hUnits : 0 ≤ item.quantity) :
    Discounted (evaluateItem line allocated item) := by
  refine ⟨?_, rfl⟩
  have hQuantity : 0 < line.quantity.val := line.quantity.property
  have hGross := Int.mul_le_mul_of_nonneg_right hPriced.unit_le hUnits
  have hShare : line.rewardCents * allocated / line.quantity.val ≤
      line.rewardCents * (allocated + item.quantity) / line.quantity.val := by
    apply Int.ediv_le_ediv hQuantity
    exact Int.mul_le_mul_of_nonneg_left (by omega) (rewardCents_nonneg line)
  unfold evaluateItem
  dsimp only
  omega

theorem discounted_of_projectItems {sale : Sale} (hPriced : ∀ line ∈ sale.items, Priced line)
    {items : List CartItem} (hUnits : ∀ item ∈ items, 0 ≤ item.quantity)
    {allocated : String → Int} {projected : List EvaluatedCartItem}
    (h : projectItems sale allocated items = .ok projected) :
    projected.map (fun item => (item.productId, item.variantId, item.quantity)) =
        items.map (fun item => (item.productId, item.variantId, item.quantity)) ∧
      ∀ item ∈ projected, Discounted item := by
  induction items generalizing allocated projected with
  | nil =>
      cases h
      exact ⟨rfl, fun _ hIn => absurd hIn List.not_mem_nil⟩
  | cons item rest ih =>
      obtain ⟨hItem, hRest⟩ := List.forall_mem_cons.mp hUnits
      obtain ⟨found, tail, hFound, _, hTail, rfl⟩ := projectItems_cons_eq_ok h
      obtain ⟨hSame, hAll⟩ := ih hRest hTail
      refine ⟨?_, ?_⟩
      · rw [List.map_cons, List.map_cons, hSame]
        rfl
      · rw [List.forall_mem_cons]
        exact ⟨discounted_evaluateItem (hPriced found hFound) hItem, hAll⟩

/-- The original amounts are those of the lines before any discount. -/
theorem sum_original_projectItems {sale : Sale} (hLines : Distinct sale.items)
    {items : List CartItem}
    (hUnits : ∀ line ∈ sale.items, unitsFor items line = line.quantity.val)
    {projected : List EvaluatedCartItem}
    (h : projectItems sale (fun _ => 0) items = .ok projected) :
    (projected.map EvaluatedCartItem.originalPriceCents).sum =
      sale.previewTotals.subtotalCents := by
  have hCost : ∀ (line : SaleItem) (allocated : Int) (item : CartItem),
      (evaluateItem line allocated item).originalPriceCents =
        line.baseCents * (allocated + item.quantity) - line.baseCents * allocated := by
    intro line allocated item
    rw [Int.mul_add]
    unfold evaluateItem
    dsimp only
    omega
  rw [sum_projected hLines (fun line units => line.baseCents * units) hCost h]
  show _ = Sale.subtotalBaseCents sale.items
  unfold Sale.subtotalBaseCents
  congr 1
  apply List.map_congr_left
  intro line hLine
  rw [hUnits line hLine, Int.zero_add, Int.mul_zero, Int.sub_zero]

/-! ### The order discount -/

section

variable {orderTitle : Option String} {items : List EvaluatedCartItem} {queue : List Share}
  {share : Share}

/-- What a share leaves of the item at an index. -/
theorem getElem?_chargeShare {index : Nat} {charged : EvaluatedCartItem}
    (h : (chargeShare orderTitle items share)[index]? = some charged) :
    ∃ item, items[index]? = some item ∧
      charged.finalPriceCents =
        item.finalPriceCents - if share.index = index then share.cents else 0 := by
  unfold chargeShare at h
  split at h
  · next hNone =>
      refine ⟨charged, h, ?_⟩
      rw [hNone, ite_self, Int.sub_zero]
  · rw [List.getElem?_modify] at h
    obtain ⟨item, hItem, rfl⟩ := Option.map_eq_some_iff.mp h
    refine ⟨item, hItem, ?_⟩
    split
    · rfl
    · rw [Int.sub_zero]

/-- Where the shares of an item are at most what it costs, it never costs less than nothing. -/
theorem nonneg_chargeShares (hCovered : ∀ index item, items[index]? = some item →
      ((queue.filter fun share => share.index = index).map Share.cents).sum ≤
        item.finalPriceCents) :
    ∀ item ∈ queue.foldl (chargeShare orderTitle) items, 0 ≤ item.finalPriceCents := by
  induction queue generalizing items with
  | nil =>
      intro item hItem
      obtain ⟨index, hIndex⟩ := List.getElem?_of_mem hItem
      simpa using hCovered index item hIndex
  | cons share rest ih =>
      rw [List.foldl_cons]
      apply ih
      intro index charged hCharged
      obtain ⟨item, hItem, hLeft⟩ := getElem?_chargeShare hCharged
      have hBefore := hCovered index item hItem
      rw [hLeft]
      by_cases hHere : share.index = index
      · rw [List.filter_cons_of_pos (by simpa using hHere), List.map_cons, List.sum_cons]
          at hBefore
        rw [if_pos hHere]
        omega
      · rw [List.filter_cons_of_neg (by simpa using hHere)] at hBefore
        rw [if_neg hHere]
        omega

theorem map_chargeShares {α : Type} {f : EvaluatedCartItem → α}
    (hKeeps : ∀ item finalPriceCents discountAmountCents appliedPromotionTitle,
      f { item with
        finalPriceCents := finalPriceCents
        discountAmountCents := discountAmountCents
        appliedPromotionTitle := appliedPromotionTitle } = f item) :
    (queue.foldl (chargeShare orderTitle) items).map f = items.map f := by
  induction queue generalizing items with
  | nil => rfl
  | cons share rest ih =>
      rw [List.foldl_cons, ih]
      unfold chargeShare
      split
      · rfl
      · apply List.ext_getElem?
        intro index
        rw [List.getElem?_map, List.getElem?_map, List.getElem?_modify]
        cases items[index]? with
        | none => rfl
        | some item =>
            simp only [Option.map_eq_map, Option.map_some, Option.some.injEq]
            split
            · exact hKeeps _ _ _ _
            · rfl

theorem discounted_chargeShares (hItems : ∀ item ∈ items, Discounted item)
    (hShares : ∀ share ∈ queue, 0 ≤ share.cents) :
    ∀ item ∈ queue.foldl (chargeShare orderTitle) items, Discounted item := by
  induction queue generalizing items with
  | nil => exact hItems
  | cons share rest ih =>
      obtain ⟨hShare, hRest⟩ := List.forall_mem_cons.mp hShares
      rw [List.foldl_cons]
      refine ih (fun charged hCharged => ?_) hRest
      unfold chargeShare at hCharged
      split at hCharged
      · exact hItems charged hCharged
      · obtain ⟨index, hIndex⟩ := List.getElem?_of_mem hCharged
        rw [List.getElem?_modify] at hIndex
        obtain ⟨item, hItem, rfl⟩ := Option.map_eq_some_iff.mp hIndex
        obtain ⟨hLess, hDiscount⟩ := hItems item (List.mem_of_getElem? hItem)
        split
        · constructor
          · dsimp only
            omega
          · dsimp only
            omega
        · exact ⟨hLess, hDiscount⟩

end

/-- The order discount keeps every item in its range. -/
theorem allocation_spreadOrderDiscount (sale : Sale) {items : List EvaluatedCartItem}
    (hNonneg : ∀ item ∈ items, 0 ≤ item.finalPriceCents)
    (hDiscounted : ∀ item ∈ items, Discounted item) :
    (∀ item ∈ spreadOrderDiscount sale items, 0 ≤ item.finalPriceCents ∧ Discounted item) ∧
      ∀ {α : Type} {f : EvaluatedCartItem → α}, (∀ item finalPriceCents discountAmountCents
          appliedPromotionTitle, f { item with
            finalPriceCents := finalPriceCents
            discountAmountCents := discountAmountCents
            appliedPromotionTitle := appliedPromotionTitle } = f item) →
        (spreadOrderDiscount sale items).map f = items.map f := by
  unfold spreadOrderDiscount
  cases sale.appliedOrderPromotion with
  | none => exact ⟨fun item hItem => ⟨hNonneg item hItem, hDiscounted item hItem⟩, fun _ => rfl⟩
  | some orderPromotion =>
      dsimp only
      split
      · next hCharged =>
          have hWeights : ∀ weight ∈ items.map EvaluatedCartItem.finalPriceCents,
              0 ≤ weight := by
            intro weight hWeight
            obtain ⟨item, hItem, rfl⟩ := List.mem_map.mp hWeight
            exact hNonneg item hItem
          have hMost : (items.map EvaluatedCartItem.finalPriceCents).sum -
              sale.previewTotals.totalCents ≤
                (items.map EvaluatedCartItem.finalPriceCents).sum := by
            have hTotal := sale.previewTotals_totalCents_nonneg
            omega
          refine ⟨fun item hItem => ⟨?_, ?_⟩, fun hKeeps => map_chargeShares hKeeps⟩
          · refine nonneg_chargeShares (fun index item hAt => ?_) item hItem
            apply sum_at_le hCharged.1.le hMost hWeights hCharged.2
            rw [List.getElem?_map, hAt]
            rfl
          · exact discounted_chargeShares hDiscounted (fun share hShare =>
              (cents_bounds hCharged.1.le hMost hWeights hCharged.2 hShare).1) item hItem
      · exact ⟨fun item hItem => ⟨hNonneg item hItem, hDiscounted item hItem⟩, fun _ => rfl⟩

/-- A preview spreads the order that it prices over its items to the cent: what they cost and what
they did cost add up to its totals, and each costs between nothing and what it did. -/
theorem preview_allocates_exactly (customers : List CustomerRow) (env : PricingEnvironment)
    {input : BotPreviewInput} {quote : List EvaluatedCartItem}
    (hIds : (input.items.map CartItem.itemId).Nodup)
    (h : previewBotPricing customers env input = .ok quote) : ∃ customerList priced,
      findCustomerList customers input.customerId = .ok customerList ∧
        buildBotPricingSale env input.toPricing customerList true = .ok priced ∧
          ExactAllocation input.items priced.sale quote := by
  obtain ⟨customerList, priced, items, hCustomer, hPriced, hItems, rfl⟩ := projected_of_preview h
  obtain ⟨customerList', priced', hCustomer', hPriced', hTotal⟩ := quote_total hIds h
  obtain rfl := Except.ok.inj (hCustomer.symm.trans hCustomer')
  obtain rfl := Except.ok.inj (hPriced.symm.trans hPriced')
  have hQuotable := quotable_of_build hPriced
  have hDrawn := itemIds_toPricing hIds
  have hUnits := quantity_nonneg_of_build hPriced
  have hNonneg : ∀ item ∈ items, 0 ≤ item.finalPriceCents := fun item hItem =>
    nonneg_of_projectItems hQuotable.fits hUnits hItems _ (List.mem_map_of_mem hItem)
  obtain ⟨hSame, hDiscounted⟩ :=
    discounted_of_projectItems (buildBotPricingSale_priced hPriced).lines hUnits hItems
  obtain ⟨hRanges, hKeeps⟩ :=
    allocation_spreadOrderDiscount priced.sale hNonneg hDiscounted
  refine ⟨customerList, priced, hCustomer, hPriced, ?_⟩
  exact {
    items := (hKeeps fun _ _ _ _ => rfl).trans hSame
    nonneg := fun item hItem => (hRanges item hItem).1
    le_original := fun item hItem => (hRanges item hItem).2.le_original
    discount := fun item hItem => (hRanges item hItem).2.discount
    total := hTotal
    subtotal := by
      rw [hKeeps fun _ _ _ _ => rfl]
      exact sum_original_projectItems (hQuotable.distinct hDrawn)
        (fun line hLine => hQuotable.unitsFor hLine) hItems }

/-- A product that is asked for twice, and a peso off the order. -/
def pesoOffEnvironment : PricingEnvironment where
  now := 0
  today := .monday
  catalog := ⟨[⟨"soap", "pl-public", "PUBLICO", 1000, []⟩], []⟩
  defaultGlobalPriceListId := some "PUBLICO"
  productCategoryBrand := fun _ => none
  promotions := [{ samplePromotion "peso" .orderDiscount 100 none with botEligible := true }]

def soapTwice : BotPreviewInput :=
  ⟨"preview", none, [⟨"first", "soap", none, 1, 0⟩, ⟨"second", "soap", none, 2, 0⟩]⟩

theorem preview_allocates_peso : ∃ quote priced,
    previewBotPricing [] pesoOffEnvironment soapTwice = .ok quote ∧
      quote.map EvaluatedCartItem.finalPriceCents = [967, 1933] ∧
        ExactAllocation soapTwice.items priced quote := by
  have hQuote : previewBotPricing [] pesoOffEnvironment soapTwice =
      .ok [⟨"soap", none, 1, 1000, 1000, 967, 33, some "peso"⟩,
        ⟨"soap", none, 2, 1000, 2000, 1933, 67, some "peso"⟩] := by
    decide +kernel
  obtain ⟨_, priced, _, _, hExact⟩ :=
    preview_allocates_exactly [] pesoOffEnvironment (by decide) hQuote
  exact ⟨_, priced.sale, hQuote, rfl, hExact⟩

end Houndfe.Sales
