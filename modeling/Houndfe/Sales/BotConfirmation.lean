import Houndfe.Sales.BotQuote

/-! The confirmation of a bot order up to its comparison with the total that the bot expects,
and when it comes to the total that the preview quoted. -/

namespace Houndfe.Sales

open Promotions Products Keyed Renaming

structure BotProductRow where
  id : String
  hasVariants : Bool
  deriving DecidableEq, Repr

structure BotVariantRow where
  id : String
  productId : String
  deriving DecidableEq, Repr

/-- The rows of the tenant that a confirmation looks up. -/
structure BotTables where
  customers : List CustomerRow
  customerAddresses : List CustomerAddressRow
  products : List BotProductRow
  variants : List BotVariantRow
  deriving DecidableEq, Repr

/-- `shippingChargeCents` is the charge of whichever shipping contract was accepted. -/
structure ConfirmBotSaleInput where
  saleId : String
  cashierUserId : String
  customerId : String
  shippingAddressId : Option String
  excludeRegisteredOnlyPromotions : Bool
  items : List BotItem
  expectedTotalCents : Option Int
  shippingChargeCents : Option Int
  deriving DecidableEq, Repr

def ConfirmBotSaleInput.toPricing (input : ConfirmBotSaleInput) : BotPricingInput where
  saleId := input.saleId
  customerId := some input.customerId
  cashierUserId := input.cashierUserId
  shippingAddressId := input.shippingAddressId
  items := input.items
  excludeRegisteredOnlyPromotions := input.excludeRegisteredOnlyPromotions

/-- `getApplicablePrices`: the price on every list that has one. -/
def applicablePrices (catalog : PriceCatalog) (productId : String) (variantId : Option String)
    (quantity : Int) : List Int :=
  match variantId.filter (· ≠ "") with
  | some variantId =>
      (catalog.variantPrices.filter fun row => row.variantId = variantId).map fun row =>
        selectEffectivePrice row.priceCents row.tierPrices quantity
  | none =>
      (catalog.priceLists.filter fun row => row.productId = productId).map fun row =>
        selectEffectivePrice row.priceCents row.tierPrices quantity

/-- The submitted price is on some list, at the quantity of the item. -/
def checkLivePrice (catalog : PriceCatalog) (item : BotItem) : Except DomainError Unit :=
  throwIf (item.unitPriceCents ∉
      applicablePrices catalog item.productId item.variantId item.quantity)
    priceOutOfDate

def checkMembership (tables : BotTables) (item : BotItem) : Except DomainError Unit :=
  match tables.products.find? fun product => product.id = item.productId with
  | none => .error (entityNotFoundError "Product" item.productId)
  | some product =>
      match item.variantId.filter (· ≠ "") with
      | none => throwIf (product.hasVariants = true)
          (businessRuleViolationError "A variant is required for this product"
            "BOT_ITEM_VARIANT_REQUIRED")
      | some variantId => do
          throwIf (product.hasVariants = false)
            (businessRuleViolationError "This product does not allow a variant"
              "BOT_ITEM_VARIANT_NOT_ALLOWED")
          throwIf (⟨variantId, item.productId⟩ ∉ tables.variants)
            (businessRuleViolationError "Variant does not belong to this product"
              "BOT_ITEM_VARIANT_MISMATCH")

def checkShippingAddress (tables : BotTables) (input : ConfirmBotSaleInput) :
    Except DomainError Unit :=
  match input.shippingAddressId with
  | none => .ok ()
  | some addressId =>
      match tables.customerAddresses.find? fun address => address.id = addressId with
      | none => .error (ruleCode "SHIPPING_ADDRESS_NOT_FOUND")
      | some address => throwIf (address.customerId ≠ input.customerId)
          (ruleCode "SHIPPING_ADDRESS_NOT_FOR_CUSTOMER")

/-- The order as the confirmation prices it, after its checks. -/
def priceConfirmation (tables : BotTables) (env : PricingEnvironment)
    (input : ConfirmBotSaleInput) : Except DomainError Recomputed := do
  input.items.forM (checkLivePrice env.catalog)
  input.items.forM (checkMembership tables)
  let customerList ← findCustomerList tables.customers (some input.customerId)
  checkShippingAddress tables input
  buildBotPricingSale env input.toPricing customerList false

def confirmedTotalCents (input : ConfirmBotSaleInput) (priced : Recomputed) : Int :=
  priced.sale.previewTotals.totalCents + input.shippingChargeCents.getD 0

/-- The guard for a total that the bot expects. -/
def checkExpectedTotal (input : ConfirmBotSaleInput) (totalCents : Int) :
    Except DomainError Unit :=
  throwIf (∃ expected ∈ input.expectedTotalCents, expected ≠ totalCents)
    (businessRuleViolationError
      "Promotion re-quote required: client total differs from engine recomputation"
      "PROMO_RE_QUOTE")

/-- `confirmBotSale` up to its first write. -/
def confirmBotSale (tables : BotTables) (env : PricingEnvironment)
    (input : ConfirmBotSaleInput) : Except DomainError Recomputed := do
  let priced ← priceConfirmation tables env input
  throwIf (2147483647 < confirmedTotalCents input priced) (ruleCode "INVALID_SHIPPING_CHARGE")
  checkExpectedTotal input (confirmedTotalCents input priced)
  return priced

/-! ### A quote and its confirmation -/

/-- The confirmation is of the order that was quoted. -/
structure SameOrder (preview : BotPreviewInput) (confirm : ConfirmBotSaleInput) : Prop where
  customerId : preview.customerId = some confirm.customerId
  items : preview.items.map (fun item => item.toBotItem.wanted) =
    confirm.items.map BotItem.wanted
  registered : confirm.excludeRegisteredOnlyPromotions = false

/-- The ids of the lines are drawn without repetition. -/
structure DrawnApart (preview : BotPreviewInput) (confirm : ConfirmBotSaleInput) : Prop where
  preview : (preview.items.map CartItem.itemId).Nodup
  confirm : (confirm.items.map BotItem.itemId).Nodup

/-- The confirmation comes to what was quoted, and accepts it as the expected total. -/
structure QuoteHonoured (tables : BotTables) (env : PricingEnvironment)
    (confirm : ConfirmBotSaleInput) (quote : List EvaluatedCartItem) : Prop where
  total : ∀ priced, priceConfirmation tables env confirm = .ok priced →
    priced.sale.previewTotals.totalCents = quotedTotalCents quote
  accepted : ∀ priced, priceConfirmation tables env confirm = .ok priced →
    confirmedTotalCents confirm priced ≤ 2147483647 →
      confirm.expectedTotalCents =
          some (quotedTotalCents quote + confirm.shippingChargeCents.getD 0) →
        confirmBotSale tables env confirm = .ok priced

/-- Where the list of the order has no price, the first item of a line submits the public one
for all the units of the line. -/
def SubmitsPublicPrices (env : PricingEnvironment) (customerList : Option String)
    (items : List BotItem) : Prop :=
  ∀ item ∈ stackItems items, boundPrice env customerList item.wanted = none →
    publicPrice env item.wanted = some item.unitPriceCents

/-- The lines of the order as the engine sees them. -/
def orderedLines (env : PricingEnvironment) (customerList : Option String)
    (items : List BotItem) : List PosEvalLine :=
  (stackItems items).map fun item =>
    botEvalLine env { Sale.fresh "" "" with globalPriceListId := customerList }
      (plainLine item.itemId item.wanted (quotedPrice env customerList item.wanted))

/-- Two draws of ids sort these lines alike. -/
def SortedAlike (lines others : List PosEvalLine) : Prop :=
  ∀ pair ∈ lines.zip others, ∀ next ∈ lines.zip others,
    (pair.1.itemId ≤ next.1.itemId ↔ pair.2.itemId ≤ next.2.itemId)

/-- The ids that are drawn sort alike the lines that an advanced promotion rewards. -/
def DrawnAlike (env : PricingEnvironment) (customerList : Option String)
    (items others : List BotItem) : Prop :=
  ∀ promo ∈ env.promotions, promo.botEligible = true → promo.type = .advanced →
    SortedAlike (getLines promo (orderedLines env customerList items))
      (getLines promo (orderedLines env customerList others))

section

variable {env : PricingEnvironment} {customerList : Option String} {f : String → String}

theorem stackItems_wanted {preview : BotPreviewInput} {confirm : ConfirmBotSaleInput}
    (h : SameOrder preview confirm) : (stackItems confirm.items).map BotItem.wanted =
      (stackItems preview.toPricing.items).map BotItem.wanted := by
  have hItems : preview.toPricing.items.map BotItem.wanted = confirm.items.map BotItem.wanted := by
    rw [← h.items]
    exact List.map_map
  rw [wanted_stackItems, wanted_stackItems, hItems]

/-- Two columns of two lists that agree apart agree together. -/
theorem map_pairs {α β γ δ : Type} {xs : List α} {ys : List β} {p : α → γ} {p' : β → γ}
    {q : α → δ} {q' : β → δ} (hFirst : xs.map p = ys.map p') (hSecond : xs.map q = ys.map q') :
    (xs.map fun x => (p x, q x)) = ys.map fun y => (p' y, q' y) := by
  rw [← List.zip_map', ← List.zip_map', hFirst, hSecond]

/-- The lines at the prices of the catalog. -/
def quotedLines (env : PricingEnvironment) (customerList : Option String)
    (items : List BotItem) : List SaleItem :=
  (stackItems items).map fun item =>
    plainLine item.itemId item.wanted (quotedPrice env customerList item.wanted)

/-- The lines of one draw are those of another under its ids. -/
theorem quotedLines_renamed {items others : List BotItem}
    (hIds : (stackItems others).map BotItem.itemId =
      ((stackItems items).map BotItem.itemId).map f)
    (hWanted : (stackItems others).map BotItem.wanted = (stackItems items).map BotItem.wanted) :
    quotedLines env customerList others =
      (quotedLines env customerList items).map (relabel f) := by
  rw [List.map_map] at hIds
  have hPairs := congrArg (List.map fun pair : String × Wanted =>
    plainLine pair.1 pair.2 (quotedPrice env customerList pair.2)) (map_pairs hIds hWanted)
  rw [List.map_map, List.map_map] at hPairs
  unfold quotedLines
  rw [List.map_map]
  exact hPairs

/-- The lines of the confirmation are those of the preview under the ids that it draws. -/
theorem relabeled_of_sameOrder {items others : List BotItem}
    (hIds : (stackItems others).map BotItem.itemId =
      ((stackItems items).map BotItem.itemId).map f)
    (hWanted : (stackItems others).map BotItem.wanted = (stackItems items).map BotItem.wanted)
    (hPrices : SubmitsPublicPrices env customerList others) {lines otherLines : List SaleItem}
    (hLines : LinesOf (fun item => quotedPrice env customerList item.wanted) (stackItems items)
      lines)
    (hOthers : LinesOf (fun item => (boundPrice env customerList item.wanted).getD
      item.unitPriceCents) (stackItems others) otherLines) :
    otherLines.map (relabel id) = lines.map (relabel f) := by
  have hPrice : ∀ item ∈ stackItems others, (boundPrice env customerList item.wanted).getD
      item.unitPriceCents = quotedPrice env customerList item.wanted := by
    intro item hItem
    unfold quotedPrice
    cases hBound : boundPrice env customerList item.wanted with
    | none =>
        rw [Option.none_or, hPrices item hItem hBound]
        rfl
    | some boundCents => rfl
  calc otherLines.map (relabel id)
    _ = quotedLines env customerList others := by
        rw [hOthers.relabel]
        apply List.map_congr_left
        intro item hItem
        rw [hPrice item hItem]
    _ = (quotedLines env customerList items).map (relabel f) := quotedLines_renamed hIds hWanted
    _ = (lines.map (relabel id)).map (relabel f) := by
        rw [hLines.relabel]
        rfl
    _ = lines.map (relabel f) := by
        rw [List.map_map]
        rfl

theorem orderedLines_renamed {items others : List BotItem}
    (hIds : (stackItems others).map BotItem.itemId =
      ((stackItems items).map BotItem.itemId).map f)
    (hWanted : (stackItems others).map BotItem.wanted = (stackItems items).map BotItem.wanted) :
    orderedLines env customerList others =
      (orderedLines env customerList items).map (PosEvalLine.rename f) := by
  have hLines : quotedLines env customerList others =
      (quotedLines env customerList items).map (relabel f) := quotedLines_renamed hIds hWanted
  have hOrdered : ∀ items, orderedLines env customerList items =
      (quotedLines env customerList items).map (botEvalLine env
        { Sale.fresh "" "" with globalPriceListId := customerList }) := by
    intro items
    unfold quotedLines
    rw [List.map_map]
    rfl
  rw [hOrdered, hOrdered, hLines, List.map_map, List.map_map]
  exact List.map_congr_left fun item _ => botEvalLine_relabel env _ item

theorem botEvalLines_of_preview {items : List BotItem} {prepared : Sale}
    (hLines : LinesOf (fun item => quotedPrice env customerList item.wanted) (stackItems items)
      prepared.items) (hList : prepared.globalPriceListId = customerList) :
    prepared.items.map (botEvalLine env prepared) = orderedLines env customerList items := by
  have hSame : botEvalLine env prepared =
      botEvalLine env { Sale.fresh "" "" with globalPriceListId := customerList } := by
    funext item
    unfold botEvalLine
    rw [hList]
  have hRelabeled := congrArg (List.map (botEvalLine env prepared)) hLines.relabel
  rw [List.map_map, List.map_map] at hRelabeled
  unfold orderedLines
  rw [← hSame]
  exact (List.map_congr_left fun item _ =>
    (botEvalLine_relabel (f := id) env prepared item).symm).trans hRelabeled

/-- Lines that two draws sort alike are rewarded alike. -/
theorem rewardsAlike_of_sortedAlike (hInjective : f.Injective) {lines : List PosEvalLine}
    {promo : Promotion} (h : promo.type = .advanced → SortedAlike (getLines promo lines)
      (getLines promo (lines.map (PosEvalLine.rename f)))) : RewardsAlike f lines promo := by
  intro hAdvanced line hLine other hOther
  have hSorted := h hAdvanced
  rw [getLines_rename hInjective, SortedAlike] at hSorted
  have hPair : ∀ row ∈ getLines promo lines, (row, row.rename f) ∈ (getLines promo lines).zip
      ((getLines promo lines).map (PosEvalLine.rename f)) := by
    intro row hRow
    have hZip := @List.zip_map' _ _ _ id (PosEvalLine.rename f) (getLines promo lines)
    rw [List.map_id] at hZip
    rw [hZip]
    exact List.mem_map.mpr ⟨row, hRow, rfl⟩
  exact hSorted _ (hPair line hLine) _ (hPair other hOther)

end

/-- A product on the public list and on that of wholesale, and a customer of neither. -/
def soapEnvironment : PricingEnvironment where
  now := 0
  today := .monday
  catalog := ⟨[⟨"soap", "pl-public", "PUBLICO", 1000, []⟩,
    ⟨"soap", "pl-wholesale", "MAYOREO", 900, []⟩], []⟩
  defaultGlobalPriceListId := some "PUBLICO"
  productCategoryBrand := fun _ => none
  promotions := []

def soapTables : BotTables :=
  ⟨[⟨"customer", some "VIP"⟩], [], [⟨"soap", false⟩], []⟩

def soapPreview (unitPriceCents : Int) : BotPreviewInput :=
  ⟨"preview", some "customer", [⟨"line", "soap", none, 2, unitPriceCents⟩]⟩

def soapConfirmation (unitPriceCents : Int) : ConfirmBotSaleInput where
  saleId := "sale"
  cashierUserId := "bot"
  customerId := "customer"
  shippingAddressId := none
  excludeRegisteredOnlyPromotions := false
  items := [⟨"item", "soap", none, "Soap", none, 2, unitPriceCents⟩]
  expectedTotalCents := some 2000
  shippingChargeCents := none

def soapQuote : List EvaluatedCartItem :=
  [⟨"soap", none, 2, 1000, 2000, 2000, 0, none⟩]

theorem soap_sameOrder (unitPriceCents : Int) :
    SameOrder (soapPreview unitPriceCents) (soapConfirmation unitPriceCents) :=
  ⟨rfl, rfl, rfl⟩

theorem soap_drawnApart (unitPriceCents : Int) :
    DrawnApart (soapPreview unitPriceCents) (soapConfirmation unitPriceCents) :=
  ⟨List.nodup_singleton _, List.nodup_singleton _⟩

end Houndfe.Sales
