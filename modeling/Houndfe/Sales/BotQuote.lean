import Houndfe.Base.Apportionment
import Houndfe.Sales.BotLines
import Houndfe.Sales.TotalsAgree

/-! The quote of the bot: the order is built and priced as a confirmation would, and its
amounts are projected back on the items that were asked for. The items add up to the order. -/

namespace Houndfe.Sales

open Promotions Products Keyed Traverse Apportionment

/-- An item of the cart with the id that is drawn for it. The price is informational. -/
structure CartItem where
  itemId : String
  productId : String
  variantId : Option String
  quantity : Int
  unitPriceCents : Int
  deriving DecidableEq, Repr

structure BotPreviewInput where
  saleId : String
  customerId : Option String
  items : List CartItem
  deriving DecidableEq, Repr

structure EvaluatedCartItem where
  productId : String
  variantId : Option String
  quantity : Int
  unitPriceCents : Int
  originalPriceCents : Int
  finalPriceCents : Int
  discountAmountCents : Int
  appliedPromotionTitle : Option String
  deriving DecidableEq, Repr

/-- The submitted price is not passed on. -/
def CartItem.toBotItem (item : CartItem) : BotItem where
  itemId := item.itemId
  productId := item.productId
  variantId := item.variantId
  productName := item.productId
  variantName := none
  quantity := item.quantity
  unitPriceCents := 0

def BotPreviewInput.toPricing (input : BotPreviewInput) : BotPricingInput where
  saleId := input.saleId
  customerId := input.customerId
  cashierUserId := "bot-pricing-preview"
  shippingAddressId := none
  items := input.items.map CartItem.toBotItem
  excludeRegisteredOnlyPromotions := false

/-- An item at the price of its line. The reward of the line is spread over its items as they
come, so that what is rounded off one goes to the next. -/
def evaluateItem (line : SaleItem) (allocated : Int) (inputItem : CartItem) :
    EvaluatedCartItem :=
  let unitPriceCents := line.baseCents
  let originalPriceCents := unitPriceCents * inputItem.quantity
  let next := allocated + inputItem.quantity
  let reward := line.rewardCents
  let rewardShare := reward * next / line.quantity.val - reward * allocated / line.quantity.val
  let finalPriceCents := line.unitPriceCents * inputItem.quantity - rewardShare
  { productId := inputItem.productId
    variantId := inputItem.variantId
    quantity := inputItem.quantity
    unitPriceCents := unitPriceCents
    originalPriceCents := originalPriceCents
    finalPriceCents := finalPriceCents
    discountAmountCents := originalPriceCents - finalPriceCents
    appliedPromotionTitle := line.discountTitle }

/-- What the assertion that an item has its line would raise. -/
def lineNotFound : DomainError :=
  invalidArgumentError "Cannot read properties of undefined"

/-- `allocated` holds the units of each line that went to the items before. -/
def projectItems (sale : Sale) (allocated : String → Int) :
    List CartItem → Except DomainError (List EvaluatedCartItem)
  | [] => .ok []
  | inputItem :: rest =>
      match sale.items.find? fun line => line.isFor inputItem.productId inputItem.variantId with
      | none => .error lineNotFound
      | some line => do
          let next := allocated line.id + inputItem.quantity
          let projected ← projectItems sale (Function.update allocated line.id next) rest
          return evaluateItem line (allocated line.id) inputItem :: projected

def joinTitle (title orderTitle : Option String) : Option String :=
  match title.filter (· ≠ "") with
  | some title => some (title ++ " + " ++ orderTitle.getD "null")
  | none => orderTitle

/-- Take a share of the order discount off the item it is for. -/
def chargeShare (orderTitle : Option String) (items : List EvaluatedCartItem) (share : Share) :
    List EvaluatedCartItem :=
  if share.cents = 0 then items
  else
    items.modify share.index fun item =>
      { item with
        finalPriceCents := item.finalPriceCents - share.cents
        discountAmountCents := item.discountAmountCents + share.cents
        appliedPromotionTitle := joinTitle item.appliedPromotionTitle orderTitle }

/-- The order discount that is charged, spread over the items in proportion to their price. -/
def spreadOrderDiscount (sale : Sale) (items : List EvaluatedCartItem) :
    List EvaluatedCartItem :=
  match sale.appliedOrderPromotion with
  | none => items
  | some orderPromotion =>
      let weights := items.map EvaluatedCartItem.finalPriceCents
      let discount := weights.sum - sale.previewTotals.totalCents
      if 0 < discount ∧ 0 < weights.sum then
        (apportion discount weights).foldl (chargeShare orderPromotion.discountTitle) items
      else items

def customerNotFound : DomainError := ruleCode "CUSTOMER_NOT_FOUND"

/-- The list of the customer, if there is one. -/
def findCustomerList (customers : List CustomerRow) :
    Option String → Except DomainError (Option String)
  | none => .ok none
  | some customerId =>
      match customers.find? fun customer => customer.id = customerId with
      | none => .error customerNotFound
      | some customer => .ok customer.globalPriceListId

def previewBotPricing (customers : List CustomerRow) (env : PricingEnvironment)
    (input : BotPreviewInput) : Except DomainError (List EvaluatedCartItem) := do
  let customerList ← findCustomerList customers input.customerId
  let priced ← buildBotPricingSale env input.toPricing customerList true
  let items ← projectItems priced.sale (fun _ => 0) input.items
  return spreadOrderDiscount priced.sale items

def quotedTotalCents (items : List EvaluatedCartItem) : Int :=
  (items.map EvaluatedCartItem.finalPriceCents).sum

/-! ### The projection -/

/-- What the first `units` of a line cost. -/
def partCents (line : SaleItem) (units : Int) : Int :=
  line.unitPriceCents * units - line.rewardCents * units / line.quantity.val

theorem finalPriceCents_evaluateItem (line : SaleItem) (allocated : Int) (inputItem : CartItem) :
    (evaluateItem line allocated inputItem).finalPriceCents =
      partCents line (allocated + inputItem.quantity) - partCents line allocated := by
  unfold evaluateItem partCents
  dsimp only
  rw [Int.mul_add line.unitPriceCents]
  omega

/-- The units that the items ask of a line. -/
def unitsFor (items : List CartItem) (line : SaleItem) : Int :=
  ((items.filter fun item => line.isFor item.productId item.variantId).map
    CartItem.quantity).sum

theorem unitsFor_cons (item : CartItem) (rest : List CartItem) (line : SaleItem) :
    unitsFor (item :: rest) line =
      (if line.isFor item.productId item.variantId then item.quantity else 0) +
        unitsFor rest line := by
  unfold unitsFor
  by_cases hFor : line.isFor item.productId item.variantId = true
  · simp [hFor]
  · simp [hFor]

/-- Lines that are told apart by their ids, and by what they are for. -/
structure Distinct (lines : List SaleItem) : Prop where
  ids : (lines.map SaleItem.id).Nodup
  keys : (lines.map fun line => (line.productId, line.variantId)).Nodup

theorem Distinct.isFor_iff {lines : List SaleItem} (h : Distinct lines) {found line : SaleItem}
    (hFound : found ∈ lines) (hLine : line ∈ lines) {productId : String}
    {variantId : Option String} (hFor : found.isFor productId variantId = true) :
    line.isFor productId variantId = true ↔ line.id = found.id := by
  simp only [SaleItem.isFor, Bool.and_eq_true, decide_eq_true_eq] at hFor ⊢
  constructor
  · rintro ⟨hProduct, hVariant⟩
    have hSame : (line.productId, line.variantId) = (found.productId, found.variantId) := by
      rw [hProduct, hVariant, hFor.1, hFor.2]
    rw [List.inj_on_of_nodup_map h.keys hLine hFound hSame]
  · intro hId
    rw [List.inj_on_of_nodup_map h.ids hLine hFound hId]
    exact hFor

/-- The first item takes its units of the line it is found on. -/
theorem projectItems_cons_eq_ok {sale : Sale} {allocated : String → Int} {item : CartItem}
    {rest : List CartItem} {projected : List EvaluatedCartItem}
    (h : projectItems sale allocated (item :: rest) = .ok projected) : ∃ found tail,
      found ∈ sale.items ∧ found.isFor item.productId item.variantId = true ∧
        projectItems sale (Function.update allocated found.id
          (allocated found.id + item.quantity)) rest = .ok tail ∧
          projected = evaluateItem found (allocated found.id) item :: tail := by
  unfold projectItems at h
  cases hFind : sale.items.find? fun line => line.isFor item.productId item.variantId with
  | none =>
      rw [hFind] at h
      cases h
  | some found =>
      rw [hFind] at h
      obtain ⟨tail, hTail, h⟩ := bind_eq_ok.mp h
      have hFor := List.find?_some hFind
      exact ⟨found, tail, List.mem_of_find?_eq_some hFind, hFor, hTail, (pure_eq_ok.mp h).symm⟩

/-- Item by item, each line goes from the units allocated before to those allocated after: an amount
that an item takes from what its line costs up to some units sums up to what the lines cost. -/
theorem sum_projected {sale : Sale} (hLines : Distinct sale.items)
    {amount : EvaluatedCartItem → Int} (cost : SaleItem → Int → Int)
    (hCost : ∀ line allocated item, amount (evaluateItem line allocated item) =
      cost line (allocated + item.quantity) - cost line allocated)
    {items : List CartItem} {allocated : String → Int} {projected : List EvaluatedCartItem}
    (h : projectItems sale allocated items = .ok projected) :
    (projected.map amount).sum = (sale.items.map fun line =>
      cost line (allocated line.id + unitsFor items line) - cost line (allocated line.id)).sum := by
  induction items generalizing allocated projected with
  | nil =>
      cases h
      simp [unitsFor]
  | cons item rest ih =>
      obtain ⟨found, tail, hFound, hFor, hTail, rfl⟩ := projectItems_cons_eq_ok h
      -- only the line that is found changes what it has allocated
      have hTerms : (sale.items.map fun line =>
          cost line (allocated line.id + unitsFor (item :: rest) line) -
            cost line (allocated line.id)) = sale.items.map fun line =>
          (cost line (Function.update allocated found.id
              (allocated found.id + item.quantity) line.id + unitsFor rest line) -
            cost line (Function.update allocated found.id
              (allocated found.id + item.quantity) line.id)) +
          if line.id = found.id then
            amount (evaluateItem found (allocated found.id) item) else 0 := by
        apply List.map_congr_left
        intro line hLine
        have hIff := hLines.isFor_iff hFound hLine hFor
        rw [unitsFor_cons, hCost]
        by_cases hHere : line.id = found.id
        · have hSame := List.inj_on_of_nodup_map hLines.ids hLine hFound hHere
          subst hSame
          rw [if_pos hFor, if_pos rfl, Function.update_self, Int.add_assoc]
          omega
        · rw [if_neg fun hSame => hHere (hIff.mp hSame), if_neg hHere,
            Function.update_of_ne hHere]
          simp
      rw [hTerms, sum_add_at hLines.ids (List.mem_map_of_mem hFound), ← ih hTail,
        List.map_cons, List.sum_cons]
      omega

theorem sum_projectItems {sale : Sale} (hLines : Distinct sale.items) {items : List CartItem}
    {allocated : String → Int} {projected : List EvaluatedCartItem}
    (h : projectItems sale allocated items = .ok projected) :
    quotedTotalCents projected = (sale.items.map fun line =>
      partCents line (allocated line.id + unitsFor items line) -
        partCents line (allocated line.id)).sum :=
  sum_projected hLines partCents finalPriceCents_evaluateItem h

/-- A line that costs something however much of it is a reward. -/
structure Fits (line : SaleItem) : Prop where
  price : 0 ≤ line.unitPriceCents
  net : 0 ≤ line.netCents

/-- No part of such a line costs less than nothing. -/
theorem Fits.partCents_mono {line : SaleItem} (h : Fits line) {units more : Int}
    (hMore : 0 ≤ more) : partCents line units ≤ partCents line (units + more) := by
  have hQuantity : 0 < line.quantity.val := line.quantity.property
  have hReward : line.rewardCents ≤ line.unitPriceCents * line.quantity.val := by
    have hNet : 0 ≤ line.unitPriceCents * line.quantity.val - line.rewardCents := h.net
    omega
  have hLess : line.rewardCents * (units + more) ≤
      line.rewardCents * units + line.unitPriceCents * more * line.quantity.val := by
    have hProduct := mul_le_mul_of_nonneg_right hReward hMore
    linarith only [hProduct]
  have hDivided := Int.ediv_le_ediv hQuantity hLess
  rw [Int.add_mul_ediv_right _ _ hQuantity.ne'] at hDivided
  unfold partCents
  rw [Int.mul_add line.unitPriceCents]
  omega

theorem nonneg_of_projectItems {sale : Sale} (hFits : ∀ line ∈ sale.items, Fits line)
    {items : List CartItem} (hUnits : ∀ item ∈ items, 0 ≤ item.quantity)
    {allocated : String → Int} {projected : List EvaluatedCartItem}
    (h : projectItems sale allocated items = .ok projected) :
    ∀ cents ∈ projected.map EvaluatedCartItem.finalPriceCents, 0 ≤ cents := by
  induction items generalizing allocated projected with
  | nil =>
      cases h
      exact fun _ hIn => absurd hIn List.not_mem_nil
  | cons item rest ih =>
      obtain ⟨hItem, hRest⟩ := List.forall_mem_cons.mp hUnits
      obtain ⟨found, tail, hFound, _, hTail, rfl⟩ := projectItems_cons_eq_ok h
      rw [List.map_cons, List.forall_mem_cons]
      refine ⟨?_, ih hRest hTail⟩
      rw [finalPriceCents_evaluateItem]
      have hMono : partCents found (allocated found.id) ≤
          partCents found (allocated found.id + item.quantity) :=
        (hFits found hFound).partCents_mono hItem
      omega

/-- When the items take up the units of every line, they cost what the lines cost. -/
theorem quotedTotalCents_projectItems {sale : Sale} (hLines : Distinct sale.items)
    {items : List CartItem}
    (hUnits : ∀ line ∈ sale.items, unitsFor items line = line.quantity.val)
    {projected : List EvaluatedCartItem}
    (h : projectItems sale (fun _ => 0) items = .ok projected) :
    quotedTotalCents projected = Sale.postLineSubtotalCents sale.items := by
  rw [sum_projectItems hLines h]
  unfold Sale.postLineSubtotalCents
  congr 1
  apply List.map_congr_left
  intro line hLine
  have hQuantity : line.quantity.val ≠ 0 := by
    have hPositive := line.quantity.property
    omega
  rw [hUnits line hLine, Int.zero_add]
  unfold partCents
  rw [Int.mul_ediv_cancel _ hQuantity, Int.mul_zero, Int.mul_zero, Int.zero_ediv]
  show line.unitPriceCents * line.quantity.val - line.rewardCents - (0 - 0) =
    line.unitPriceCents * line.quantity.val - line.rewardCents
  omega

/-! ### The order discount -/

theorem sum_modify {items : List EvaluatedCartItem} {index : Nat} (hIndex : index < items.length)
    {f : EvaluatedCartItem → EvaluatedCartItem} {cents : Int}
    (hTakes : ∀ item, (f item).finalPriceCents = item.finalPriceCents - cents) :
    quotedTotalCents (items.modify index f) = quotedTotalCents items - cents := by
  unfold quotedTotalCents
  induction items generalizing index with
  | nil => cases hIndex
  | cons item rest ih =>
      cases index with
      | zero =>
          rw [List.modify_zero_cons, List.map_cons, List.map_cons, List.sum_cons, List.sum_cons,
            hTakes]
          omega
      | succ index =>
          rw [List.modify_succ_cons, List.map_cons, List.map_cons, List.sum_cons, List.sum_cons,
            ih (Nat.lt_of_succ_lt_succ hIndex)]
          omega

theorem quotedTotalCents_chargeShares {orderTitle : Option String} {queue : List Share}
    {items : List EvaluatedCartItem} (hIndices : ∀ share ∈ queue, share.index < items.length) :
    quotedTotalCents (queue.foldl (chargeShare orderTitle) items) =
      quotedTotalCents items - (queue.map Share.cents).sum := by
  induction queue generalizing items with
  | nil => simp
  | cons share rest ih =>
      obtain ⟨hShare, hRest⟩ := List.forall_mem_cons.mp hIndices
      have hLength : (chargeShare orderTitle items share).length = items.length := by
        unfold chargeShare
        split
        · rfl
        · exact List.length_modify _ _ _
      have hCharged : quotedTotalCents (chargeShare orderTitle items share) =
          quotedTotalCents items - share.cents := by
        unfold chargeShare
        split
        · next hNone => rw [hNone, Int.sub_zero]
        · exact sum_modify hShare fun _ => rfl
      rw [List.foldl_cons, ih (fun other hOther => hLength.symm ▸ hRest other hOther), hCharged,
        List.map_cons, List.sum_cons]
      omega

/-- Items that cost what the lines cost come to the total of the order. -/
theorem quotedTotalCents_spreadOrderDiscount {sale : Sale} {items : List EvaluatedCartItem}
    (hNonneg : ∀ cents ∈ items.map EvaluatedCartItem.finalPriceCents, 0 ≤ cents)
    (hOrder : 0 ≤ sale.orderDiscountCents)
    (hLines : quotedTotalCents items = Sale.postLineSubtotalCents sale.items) :
    quotedTotalCents (spreadOrderDiscount sale items) = sale.previewTotals.totalCents := by
  have hSum : 0 ≤ quotedTotalCents items := List.sum_nonneg hNonneg
  have hTotal : sale.previewTotals.totalCents =
      max 0 (quotedTotalCents items - sale.orderDiscountCents) := by
    rw [hLines]
    rfl
  unfold spreadOrderDiscount
  cases hPromotion : sale.appliedOrderPromotion with
  | none =>
      have hZero : sale.orderDiscountCents = 0 := by
        unfold Sale.orderDiscountCents
        rw [hPromotion]
      rw [hTotal, hZero]
      dsimp only
      omega
  | some orderPromotion =>
      dsimp only
      change quotedTotalCents (if 0 < quotedTotalCents items - sale.previewTotals.totalCents ∧
        0 < quotedTotalCents items then _ else _) = _
      split
      · next hCharged =>
          have hIndices : ∀ share ∈ apportion
              (quotedTotalCents items - sale.previewTotals.totalCents)
              (items.map EvaluatedCartItem.finalPriceCents), share.index < items.length := by
            intro share hShare
            have hIndex := index_lt_of_apportion hShare
            rwa [List.length_map] at hIndex
          have hShares := sum_apportion hCharged.1.le hNonneg hCharged.2
          change quotedTotalCents (List.foldl _ items (apportion
            (quotedTotalCents items - sale.previewTotals.totalCents) _)) = _
          rw [quotedTotalCents_chargeShares hIndices, hShares]
          omega
      · omega

/-! ### The order that is quoted -/

/-- What tells a line apart, and its units. -/
def footprint (line : SaleItem) : String × String × Option String × Quantity :=
  (line.id, line.productId, line.variantId, line.quantity)

theorem footprint_of_applyLineResult {now : Int} {result : PosEvalLineResult}
    {item updated : SaleItem} (h : applyLineResult now result item = .ok updated) :
    footprint updated = footprint item := by
  cases result with
  | perUnit perUnit =>
      simp only [applyLineResult, SaleItem.applyDiscount, bind_eq_ok, throwIf_eq_ok,
        pure_eq_ok] at h
      obtain ⟨-, -, -, -, -, -, discountCents, -, -, -, rfl⟩ := h
      rfl
  | reward kind reward =>
      simp only [applyLineResult, SaleItem.applyBuyXGetYReward, bind_eq_ok, throwIf_eq_ok,
        pure_eq_ok] at h
      obtain ⟨-, -, -, -, -, -, rfl⟩ := h
      rfl

theorem fits_of_undiscounted {line : SaleItem} (h : line.Undiscounted)
    (hPrice : 0 ≤ line.unitPriceCents) : Fits line := by
  have hPromotion := h.promotionId
  have hQuantity := line.quantity.property
  have hReward : line.rewardCents = 0 := by
    simp [SaleItem.rewardCents, SaleItem.isBuyXGetYReward, hPromotion]
  refine ⟨hPrice, ?_⟩
  unfold SaleItem.netCents SaleItem.subtotalCents
  rw [hReward, Int.sub_zero]
  exact mul_nonneg hPrice (by omega)

/-- A discount per unit is no reward: a reward leaves the price, and this does not. -/
theorem rewardCents_of_unitDiscount {line : SaleItem} {discountCents : Int}
    (hAmount : line.discountAmountCents = some discountCents)
    (hBefore : line.prePriceCentsBeforeDiscount = some (line.unitPriceCents + discountCents)) :
    line.rewardCents = 0 := by
  have hOther : line.isBuyXGetYReward = false := by
    rw [Bool.eq_false_iff]
    intro hReward
    simp only [SaleItem.isBuyXGetYReward, hAmount, hBefore, Bool.and_eq_true, decide_eq_true_eq,
      Option.getD_some, Option.some.injEq] at hReward
    omega
  simp [SaleItem.rewardCents, hOther]

/-- Whatever the line was, a result that applies leaves it at a price that is not negative. -/
theorem fits_of_applyLineResult {now : Int} {result : PosEvalLineResult}
    {item updated : SaleItem} (h : applyLineResult now result item = .ok updated) :
    Fits updated := by
  cases result with
  | perUnit perUnit =>
      simp only [applyLineResult, SaleItem.applyDiscount, bind_eq_ok, throwIf_eq_ok,
        pure_eq_ok] at h
      obtain ⟨-, -, -, -, -, -, discountCents, -, -, hRemains, rfl⟩ := h
      have hQuantity := item.quantity.property
      have hPrice : 0 ≤ item.baseCents - discountCents := by omega
      have hGross : 0 ≤ (item.baseCents - discountCents) * item.quantity.val :=
        mul_nonneg hPrice (by omega)
      have hBefore : some item.baseCents = some (item.baseCents - discountCents + discountCents) :=
        by rw [Int.sub_add_cancel]
      refine ⟨hPrice, ?_⟩
      unfold SaleItem.netCents
      rw [rewardCents_of_unitDiscount rfl hBefore, Int.sub_zero]
      exact hGross
  | reward kind reward =>
      have hColumns := Columns.applyBuyXGetYReward h
      exact ⟨hColumns.baseCents_nonneg.1, hColumns.rewardState.net⟩

theorem applyLineResults_spec {now : Int} {lineResults : List PosEvalLineResult}
    {items out : List SaleItem} (hFits : ∀ line ∈ items, Fits line)
    (h : applyLineResults now lineResults items = .ok out) :
    out.map footprint = items.map footprint ∧ ∀ line ∈ out, Fits line := by
  unfold applyLineResults at h
  induction lineResults generalizing items with
  | nil =>
      cases h
      exact ⟨rfl, hFits⟩
  | cons result rest ih =>
      rw [List.foldlM_cons, bind_eq_ok] at h
      obtain ⟨middle, hMiddle, h⟩ := h
      have hNone : ∀ extra, (.ok [] : Except DomainError (List SaleItem)) = .ok extra →
          extra = [] := by
        intro extra hExtra
        cases hExtra
        rfl
      have hMap := map_updateFirstItem
        (fun _ _ hUpdate => footprint_of_applyLineResult hUpdate) hNone hMiddle
      have hAll : ∀ line ∈ middle, Fits line := by
        refine forall_updateFirstItem hFits
          (fun _ _ _ hUpdate => fits_of_applyLineResult hUpdate) ?_ hMiddle
        intro extra hExtra
        rw [hNone extra hExtra]
        exact fun _ hIn => absurd hIn List.not_mem_nil
      obtain ⟨hSame, hOut⟩ := ih hAll h
      exact ⟨hSame.trans hMap, hOut⟩

/-- The order that a preview prices, as its projection needs it. -/
structure Quotable (items : List BotItem) (sale : Sale) : Prop where
  lines : sale.items.map footprint =
    (stackItems items).map fun item =>
      (item.itemId, item.productId, item.variantId, ⟨max 1 item.quantity, le_max_left _ _⟩)
  units : ∀ item ∈ stackItems items, 1 ≤ item.quantity
  fits : ∀ line ∈ sale.items, Fits line

theorem quotable_of_build {env : PricingEnvironment} {input : BotPricingInput}
    {customerList : Option String} {priced : Recomputed}
    (h : buildBotPricingSale env input customerList true = .ok priced) :
    Quotable input.items priced.sale := by
  obtain ⟨seeded, hSeeded, h⟩ := bind_eq_ok.mp h
  obtain ⟨prepared, hPrepared, h⟩ := bind_eq_ok.mp h
  obtain ⟨items, hItems, h⟩ := bind_eq_ok.mp h
  cases pure_eq_ok.mp h
  obtain ⟨hLines, _⟩ := prepared_of_preview hSeeded hPrepared
  have hPlain := assembleBotSale_plain hSeeded
  have hFits : ∀ line ∈ prepared.items, Fits line := by
    obtain ⟨_, kept, hKept, rfl⟩ := prepareSale_eq_ok.mp hPrepared
    intro line hLine
    obtain ⟨original, hOriginal, hPrepare⟩ := mem_mapM hKept hLine
    obtain ⟨hUndiscounted, hPrice⟩ := hPlain original hOriginal
    unfold prepareLine at hPrepare
    rw [SaleItem.clearPromotion_of_none hUndiscounted.promotionId] at hPrepare
    rcases repriceNonStickyLine_eq_ok hPrepare with rfl | ⟨_, priceCents, hRepriced, rfl⟩
    · exact fits_of_undiscounted hUndiscounted hPrice
    · exact fits_of_undiscounted (hUndiscounted.withListPrice priceCents) hRepriced.nonneg
  obtain ⟨hSame, hOut⟩ := applyLineResults_spec hFits hItems
  have hApplied : ∀ (draft : Sale) (order : Option PosEvalOrderResult) (ids : List String),
      (pruneOptIns (applyOrderResult { draft with items := items } order) ids).items = items :=
    fun draft order ids => applyOrderResult_items _ order
  constructor
  · rw [hApplied, hSame]
    have hRelabeled := congrArg (List.map footprint) hLines.relabel
    rw [List.map_map, List.map_map] at hRelabeled
    exact hRelabeled
  · intro item hItem
    obtain ⟨line, _, hLine⟩ := hLines.exists_line hItem
    rw [← hLine.quantity]
    exact line.quantity.property
  · rw [hApplied]
    exact hOut

theorem Quotable.distinct {items : List BotItem} {sale : Sale} (h : Quotable items sale)
    (hIds : (items.map BotItem.itemId).Nodup) : Distinct sale.items := by
  have hFirsts := congrArg (List.map Prod.fst) h.lines
  have hKeys := congrArg (List.map fun print : String × String × Option String × Quantity =>
    (print.2.1, print.2.2.1)) h.lines
  rw [List.map_map, List.map_map] at hFirsts hKeys
  constructor
  · change sale.items.map SaleItem.id = (stackItems items).map BotItem.itemId at hFirsts
    rw [hFirsts]
    exact (itemId_stackItems items).nodup hIds
  · change (sale.items.map fun line => (line.productId, line.variantId)) =
      (stackItems items).map fun item => item.wanted.key at hKeys
    rw [hKeys]
    exact nodup_groupRows items

theorem Quotable.unitsFor {items : List CartItem} {sale : Sale}
    (h : Quotable (items.map CartItem.toBotItem) sale) {line : SaleItem}
    (hLine : line ∈ sale.items) : unitsFor items line = line.quantity.val := by
  have hPrint : footprint line ∈ sale.items.map footprint := List.mem_map_of_mem hLine
  rw [h.lines] at hPrint
  obtain ⟨item, hItem, hSame⟩ := List.mem_map.mp hPrint
  have hProduct : item.productId = line.productId := congrArg (fun print => print.2.1) hSame
  have hVariant : item.variantId = line.variantId := congrArg (fun print => print.2.2.1) hSame
  have hQuantity : max 1 item.quantity = line.quantity.val :=
    congrArg (fun print => print.2.2.2.val) hSame
  rw [← hQuantity, max_eq_right (h.units item hItem), quantity_of_stackItems hItem]
  unfold Sales.unitsFor
  rw [List.filter_map, List.map_map]
  congr 1
  apply congrArg
  apply List.filter_congr
  intro other _
  have hKey : item.wanted.key = (line.productId, line.variantId) := by
    rw [← hProduct, ← hVariant]
    rfl
  rw [Function.comp_apply, hKey]
  show (decide (line.productId = other.productId) && decide (line.variantId = other.variantId)) =
    decide ((other.productId, other.variantId) = (line.productId, line.variantId))
  rw [Bool.eq_iff_iff, Bool.and_eq_true, decide_eq_true_eq, decide_eq_true_eq, decide_eq_true_eq,
    Prod.mk.injEq, eq_comm, @eq_comm _ line.variantId]

/-- What a preview projects and spreads. -/
theorem projected_of_preview {customers : List CustomerRow} {env : PricingEnvironment}
    {input : BotPreviewInput} {quote : List EvaluatedCartItem}
    (h : previewBotPricing customers env input = .ok quote) : ∃ customerList priced items,
      findCustomerList customers input.customerId = .ok customerList ∧
        buildBotPricingSale env input.toPricing customerList true = .ok priced ∧
          projectItems priced.sale (fun _ => 0) input.items = .ok items ∧
            quote = spreadOrderDiscount priced.sale items := by
  obtain ⟨customerList, hCustomer, h⟩ := bind_eq_ok.mp h
  obtain ⟨priced, hPriced, h⟩ := bind_eq_ok.mp h
  obtain ⟨items, hItems, h⟩ := bind_eq_ok.mp h
  exact ⟨customerList, priced, items, hCustomer, hPriced, hItems, (pure_eq_ok.mp h).symm⟩

theorem itemIds_toPricing {input : BotPreviewInput}
    (hIds : (input.items.map CartItem.itemId).Nodup) :
    (input.toPricing.items.map BotItem.itemId).Nodup := by
  show ((input.items.map CartItem.toBotItem).map BotItem.itemId).Nodup
  rw [List.map_map]
  exact hIds

/-- An order that was priced asks for no negative quantity. -/
theorem quantity_nonneg_of_build {env : PricingEnvironment} {input : BotPreviewInput}
    {customerList : Option String} {priced : Recomputed}
    (h : buildBotPricingSale env input.toPricing customerList true = .ok priced) :
    ∀ item ∈ input.items, 0 ≤ item.quantity := by
  obtain ⟨seeded, hSeeded, _⟩ := bind_eq_ok.mp h
  obtain ⟨sale, hSale, _⟩ := assembleBotSale_seeded hSeeded
  obtain ⟨_, _, hPositive⟩ := assembleBotSale_lines hSale
  intro item hItem
  have hOne : 1 ≤ item.quantity := hPositive item.toBotItem (List.mem_map_of_mem hItem)
  omega

theorem quote_total {customers : List CustomerRow} {env : PricingEnvironment}
    {input : BotPreviewInput} {quote : List EvaluatedCartItem}
    (hIds : (input.items.map CartItem.itemId).Nodup)
    (h : previewBotPricing customers env input = .ok quote) : ∃ customerList priced,
      findCustomerList customers input.customerId = .ok customerList ∧
        buildBotPricingSale env input.toPricing customerList true = .ok priced ∧
          quotedTotalCents quote = priced.sale.previewTotals.totalCents := by
  obtain ⟨customerList, priced, items, hCustomer, hPriced, hItems, rfl⟩ := projected_of_preview h
  refine ⟨customerList, priced, hCustomer, hPriced, ?_⟩
  have hQuotable := quotable_of_build hPriced
  apply quotedTotalCents_spreadOrderDiscount
  · exact nonneg_of_projectItems hQuotable.fits (quantity_nonneg_of_build hPriced) hItems
  · exact (buildBotPricingSale_priced hPriced).order
  · exact quotedTotalCents_projectItems (hQuotable.distinct (itemIds_toPricing hIds))
      (fun line hLine => hQuotable.unitsFor hLine) hItems

end Houndfe.Sales
