import Houndfe.Quotations.StoredTotals
import Houndfe.Sales.PromotionApplication

/-! The price-list gate of the promotions against the list that priced a line. Repricing takes
the bound list of the document for a line without a list of its own; the input of the engine
takes it on the bot's path only. -/

namespace Houndfe.Sales

open Promotions

/-- The line of the engine. On the bot's path one without a list of its own stands on the bound
list. -/
def evaluationLine (env : PricingEnvironment) (globalPriceListId : Option String)
    (botEligibleOnly : Bool) (item : SaleItem) : PosEvalLine :=
  let line := buildPosEvalLine env item
  if botEligibleOnly ∧ item.appliedPriceListId = none then
    { line with appliedGlobalPriceListId := globalPriceListId.or env.defaultGlobalPriceListId }
  else line

/-- The global list that `repriceNonStickyLines` resolves the price of a line from: the one of
its own list, else the bound one, else the default. There is none for a line that is not
repriced. -/
def pricingList (env : PricingEnvironment) (globalPriceListId : Option String) (item : SaleItem) :
    Option String :=
  let resolves (listId : String) := (env.catalog.resolvePrice item.productId item.variantId listId
    item.quantity.val).isSome
  if item.isSticky then none
  else
    match item.appliedPriceListId with
    | some listId => if resolves listId then env.catalog.globalIdOf listId else none
    | none => (globalPriceListId.or env.defaultGlobalPriceListId).filter resolves

theorem repriceNonStickyLine_list {env : PricingEnvironment} {globalPriceListId : Option String}
    {item repriced : SaleItem} (h : repriceNonStickyLine env globalPriceListId item = .ok repriced) :
    repriced.appliedPriceListId = item.appliedPriceListId := by
  unfold repriceNonStickyLine at h
  split at h
  · cases h
    rfl
  · split at h
    · cases h
      rfl
    · split at h
      · cases h
        rfl
      · replace h := past (past h)
        cases pure_eq_ok.mp h
        rfl

theorem pricingList_of_own {env : PricingEnvironment} {globalPriceListId : Option String}
    {item : SaleItem} {ownListId listId : String}
    (hOwn : item.appliedPriceListId = some ownListId)
    (h : pricingList env globalPriceListId item = some listId) :
    env.catalog.globalIdOf ownListId = some listId := by
  unfold pricingList at h
  dsimp only at h
  split at h
  · cases h
  · rw [hOwn] at h
    exact (Option.ite_none_right_eq_some.mp h).2

theorem pricingList_of_bound {env : PricingEnvironment} {globalPriceListId : Option String}
    {item : SaleItem} {listId : String} (hOwn : item.appliedPriceListId = none)
    (h : pricingList env globalPriceListId item = some listId) :
    globalPriceListId.or env.defaultGlobalPriceListId = some listId := by
  unfold pricingList at h
  dsimp only at h
  split at h
  · cases h
  · rw [hOwn] at h
    exact (Option.filter_eq_some_iff.mp h).1

end Houndfe.Sales

namespace Houndfe.Quotations

open Promotions Products
open Houndfe.Sales (Sale SaleItem PricingEnvironment)

/-- The same for a line of a quotation. -/
def pricingList (env : QuotationEnvironment) (globalPriceListId : Option String)
    (item : QuotationItem) : Option String :=
  if (resolveLinePrice env globalPriceListId item).isNone then none
  else
    match item.appliedPriceListId with
    | some listId => env.catalog.prices.globalIdOf listId
    | none => globalPriceListId.or env.catalog.defaultGlobalPriceListId

/-- The paths that recompute. Preview and confirmation of the bot share theirs. -/
inductive PricingPath where
  | register
  | bot
  | quotation
  deriving DecidableEq, Repr

/-- A line of a document under a recompute: the list of its own, the list that priced it, and the
line of the engine. -/
inductive RecomputedLine : PricingPath → Option String → String → PosEvalLine → Prop where
  | register {env : PricingEnvironment} {sale prepared : Sale} {item line : SaleItem}
      {listId : String} (hPrepared : Sales.prepareSale env sale = .ok prepared)
      (hItem : item ∈ sale.items)
      (hLine : Sales.prepareLine env sale.globalPriceListId item = .ok line)
      (hList : Sales.pricingList env sale.globalPriceListId item.clearPromotion = some listId) :
      RecomputedLine .register item.appliedPriceListId listId
        (Sales.evaluationLine env prepared.globalPriceListId false line)
  | bot {env : PricingEnvironment} {sale prepared : Sale} {item line : SaleItem}
      {listId : String} (hPrepared : Sales.prepareSale env sale = .ok prepared)
      (hItem : item ∈ sale.items)
      (hLine : Sales.prepareLine env sale.globalPriceListId item = .ok line)
      (hList : Sales.pricingList env sale.globalPriceListId item.clearPromotion = some listId) :
      RecomputedLine .bot item.appliedPriceListId listId
        (Sales.evaluationLine env prepared.globalPriceListId true line)
  | quotation {env : QuotationEnvironment} {draft prepared : Quotation}
      {item repriced line : QuotationItem} {listId : String}
      (hPrepared : prepareQuotation env draft = .ok prepared) (hItem : item ∈ draft.items)
      (hRepriced : repriceNonStickyLine env draft.globalPriceListId item.clearPromotion =
        .ok repriced)
      (hLine : resnapshotLine env draft.globalPriceListId repriced = .ok line)
      (hList : pricingList env draft.globalPriceListId item.clearPromotion = some listId) :
      RecomputedLine .quotation item.appliedPriceListId listId (buildPosEvalLine env line)

/-! ### The lines are the ones the engine is given -/

/-! ### What the gate sees of a line -/

/-- The list on which the line of the engine stands. -/
structure SeenList (path : PricingPath) (own : Option String) (listId : String)
    (line : PosEvalLine) : Prop where
  ofOwn : own ≠ none → line.appliedGlobalPriceListId = some listId
  ofBot : own = none → path = .bot → line.appliedGlobalPriceListId = some listId
  closed : own = none → path ≠ .bot → line.appliedGlobalPriceListId = none

section

variable {env : PricingEnvironment} {globalPriceListId : Option String} {item line : SaleItem}
  {listId : String}

theorem clearPromotion_list (item : SaleItem) :
    item.clearPromotion.appliedPriceListId = item.appliedPriceListId := by
  unfold SaleItem.clearPromotion
  split <;> rfl

theorem prepareLine_list (hLine : Sales.prepareLine env globalPriceListId item = .ok line) :
    line.appliedPriceListId = item.appliedPriceListId :=
  (Sales.repriceNonStickyLine_list hLine).trans (clearPromotion_list item)

theorem evaluationLine_own {ownListId : String} (botEligibleOnly : Bool)
    (hOwn : item.appliedPriceListId = some ownListId)
    (hLine : Sales.prepareLine env globalPriceListId item = .ok line)
    (hList : Sales.pricingList env globalPriceListId item.clearPromotion = some listId) :
    (Sales.evaluationLine env globalPriceListId botEligibleOnly line).appliedGlobalPriceListId =
      some listId := by
  have hKept := (prepareLine_list hLine).trans hOwn
  have hSome : ¬ (botEligibleOnly = true ∧ line.appliedPriceListId = none) := by
    rw [hKept]
    simp
  rw [Sales.evaluationLine, if_neg hSome]
  show line.appliedPriceListId.bind env.catalog.globalIdOf = some listId
  rw [hKept]
  exact Sales.pricingList_of_own ((clearPromotion_list item).trans hOwn) hList

end

theorem resnapshotLine_list {env : QuotationEnvironment} {globalPriceListId : Option String}
    {item repriced line : QuotationItem}
    (hRepriced : repriceNonStickyLine env globalPriceListId item.clearPromotion = .ok repriced)
    (hLine : resnapshotLine env globalPriceListId repriced = .ok line) :
    line.appliedPriceListId = item.appliedPriceListId := by
  have hCleared : item.clearPromotion.appliedPriceListId = item.appliedPriceListId := by
    unfold QuotationItem.clearPromotion
    split <;> rfl
  have hFirst : repriced.appliedPriceListId = item.clearPromotion.appliedPriceListId := by
    unfold repriceNonStickyLine at hRepriced
    split at hRepriced
    · cases hRepriced
      rfl
    · obtain ⟨_, _, h⟩ := bind_eq_ok.mp hRepriced
      replace h := past h
      cases pure_eq_ok.mp h
      rfl
  have hSecond : line.appliedPriceListId = repriced.appliedPriceListId := by
    unfold resnapshotLine at hLine
    split at hLine
    · obtain ⟨_, _, h⟩ := bind_eq_ok.mp hLine
      cases pure_eq_ok.mp h
      rfl
    · cases hLine
      rfl
  rw [hSecond, hFirst, hCleared]

theorem seenList_of_recomputed {path : PricingPath} {own : Option String} {listId : String}
    {line : PosEvalLine} (h : RecomputedLine path own listId line) :
    SeenList path own listId line := by
  cases h with
  | @register env sale prepared item line _ hPrepared hItem hLine hList =>
      obtain ⟨_, _, _, rfl⟩ := Sales.prepareSale_eq_ok.mp hPrepared
      refine ⟨?_, (fun _ hPath => by cases hPath), ?_⟩
      · intro hOwn
        obtain ⟨ownListId, hOwn⟩ := Option.ne_none_iff_exists'.mp hOwn
        exact evaluationLine_own false hOwn hLine hList
      · intro hOwn _
        have hKept := (prepareLine_list hLine).trans hOwn
        simp [Sales.evaluationLine, Sales.buildPosEvalLine, hKept]
  | @bot env sale prepared item line _ hPrepared hItem hLine hList =>
      obtain ⟨_, _, _, rfl⟩ := Sales.prepareSale_eq_ok.mp hPrepared
      refine ⟨?_, ?_, fun _ hPath => absurd rfl hPath⟩
      · intro hOwn
        obtain ⟨ownListId, hOwn⟩ := Option.ne_none_iff_exists'.mp hOwn
        exact evaluationLine_own true hOwn hLine hList
      · intro hOwn _
        have hKept := (prepareLine_list hLine).trans hOwn
        rw [Sales.evaluationLine, if_pos ⟨rfl, hKept⟩]
        exact Sales.pricingList_of_bound ((clearPromotion_list item).trans hOwn) hList
  | @quotation env draft prepared item repriced line _ hPrepared hItem hRepriced hLine hList =>
      have hKept := resnapshotLine_list hRepriced hLine
      have hCleared : item.clearPromotion.appliedPriceListId = item.appliedPriceListId := by
        unfold QuotationItem.clearPromotion
        split <;> rfl
      refine ⟨?_, (fun _ hPath => by cases hPath), ?_⟩
      · intro hOwn
        obtain ⟨ownListId, hOwn⟩ := Option.ne_none_iff_exists'.mp hOwn
        show line.appliedPriceListId.bind env.catalog.prices.globalIdOf = some listId
        rw [hKept, hOwn]
        unfold pricingList at hList
        rw [hCleared, hOwn] at hList
        split at hList
        · cases hList
        · exact hList
      · intro hOwn _
        show line.appliedPriceListId.bind env.catalog.prices.globalIdOf = none
        rw [hKept, hOwn]
        rfl

/-- The gate of a restricted promotion is open for the line exactly when the list that priced the
line is one of the promotion's. -/
def GateSeesPricingList (promo : Promotion) (listId : String) (line : PosEvalLine) : Prop :=
  matchesPriceList promo line = true ↔ listId ∈ promo.priceLists

theorem matchesPriceList_restricted {promo : Promotion} (hRestricted : promo.priceLists ≠ [])
    (line : PosEvalLine) : matchesPriceList promo line = true ↔
      ∃ listId ∈ line.appliedGlobalPriceListId, listId ∈ promo.priceLists := by
  have hEmpty : promo.priceLists.isEmpty = false := by
    simpa using hRestricted
  cases hList : line.appliedGlobalPriceListId with
  | none => simp [matchesPriceList, hEmpty, hList]
  | some listId => simp [matchesPriceList, hEmpty, hList]

/-- The gate sees the pricing list on the bot's path and for a line with a list of its own;
elsewhere it stays closed, which is right only when the list is not one of the promotion's. -/
theorem gate_sees_pricing_list_iff {path : PricingPath} {own : Option String} {listId : String}
    {line : PosEvalLine} (h : RecomputedLine path own listId line) (promo : Promotion)
    (hRestricted : promo.priceLists ≠ []) :
    GateSeesPricingList promo listId line ↔
      path = .bot ∨ own ≠ none ∨ listId ∉ promo.priceLists := by
  have hSeen := seenList_of_recomputed h
  unfold GateSeesPricingList
  rw [matchesPriceList_restricted hRestricted]
  by_cases hOwn : own = none
  · by_cases hPath : path = .bot
    · rw [hSeen.ofBot hOwn hPath]
      simp [hPath]
    · rw [hSeen.closed hOwn hPath]
      simp [hPath, hOwn]
  · rw [hSeen.ofOwn hOwn]
    simp [hOwn]

/-! ### A promotion for the wholesale list -/

/-- A product at ten pesos, and at nine on the wholesale list. -/
def wholesaleProduct (promo : Promotion) : PricingEnvironment where
  now := 0
  today := .monday
  catalog := ⟨[⟨"product", "row", "publico", 1000, []⟩, ⟨"product", "row2", "mayoreo", 900, []⟩], []⟩
  defaultGlobalPriceListId := some "publico"
  productCategoryBrand _ := none
  promotions := [promo]

/-- One peso off, on the wholesale list. -/
def wholesaleDiscount : Promotion :=
  { Sales.fixedDiscount 100 with priceLists := ["mayoreo"] }

def wholesaleLine (unitPriceCents : Int) (priceSource : Sales.PriceSource) : SaleItem :=
  { SaleItem.fresh ⟨"line", "sale", "product", none, "Product", none, none, 1, unitPriceCents, "MXN"⟩
    Sales.Quantity.one with priceSource := priceSource }

/-- A sale bound to the wholesale list. -/
def wholesaleSale (unitPriceCents : Int) (priceSource : Sales.PriceSource) : Sale :=
  { Sale.fresh "sale" "seller" with
    items := [wholesaleLine unitPriceCents priceSource]
    globalPriceListId := some "mayoreo" }

theorem wholesaleSale_prepared :
    Sales.prepareSale (wholesaleProduct wholesaleDiscount) (wholesaleSale 1000 .default) =
        .ok (wholesaleSale 900 .priceList) ∧
      Sales.prepareLine (wholesaleProduct wholesaleDiscount) (some "mayoreo")
        (wholesaleLine 1000 .default) = .ok (wholesaleLine 900 .priceList) ∧
      Sales.pricingList (wholesaleProduct wholesaleDiscount) (some "mayoreo")
        (wholesaleLine 1000 .default).clearPromotion = some "mayoreo" :=
  ⟨rfl, rfl, rfl⟩

/-- On the bot's path the gate is open. -/
theorem gate_sees_pricing_list_of_bot :
    GateSeesPricingList wholesaleDiscount "mayoreo"
      (Sales.evaluationLine (wholesaleProduct wholesaleDiscount) (some "mayoreo") true
        (wholesaleLine 900 .priceList)) := by
  obtain ⟨hPrepared, hLine, hList⟩ := wholesaleSale_prepared
  have hRecomputed := RecomputedLine.bot hPrepared (List.mem_singleton.mpr rfl) hLine hList
  exact (gate_sees_pricing_list_iff hRecomputed wholesaleDiscount (List.cons_ne_nil _ _)).mpr
    (.inl rfl)

/-- At the register the line is repriced from the wholesale list and gets no discount: the gate
is closed for it. -/
theorem wholesale_discount_lost_at_register :
    Sales.recomputePricingAndPromotions (wholesaleProduct wholesaleDiscount)
        (wholesaleSale 1000 .default) = .ok ⟨wholesaleSale 900 .priceList, [], []⟩ ∧
      RecomputedLine .register none "mayoreo"
        (Sales.evaluationLine (wholesaleProduct wholesaleDiscount) (some "mayoreo") false
          (wholesaleLine 900 .priceList)) ∧
      ¬ GateSeesPricingList wholesaleDiscount "mayoreo"
        (Sales.evaluationLine (wholesaleProduct wholesaleDiscount) (some "mayoreo") false
          (wholesaleLine 900 .priceList)) := by
  obtain ⟨hPrepared, hLine, hList⟩ := wholesaleSale_prepared
  refine ⟨rfl, .register hPrepared (List.mem_singleton.mpr rfl) hLine hList, ?_⟩
  intro hSees
  have hOpen := hSees.mpr (List.mem_singleton.mpr rfl)
  exact absurd hOpen (by decide)

end Houndfe.Quotations
