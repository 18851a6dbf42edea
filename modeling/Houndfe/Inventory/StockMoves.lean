import Houndfe.Inventory.StockAccounts

/-! What one accepted change of a stock plan does: it emits one movement of one bucket, and
leaves the stock as the tables can hold it. -/

namespace Houndfe.Inventory

/-- Stock as the tables can hold it: ids are keys, nothing is negative, and a product
holds at least what its lots hold. -/
structure WellStocked (products : List ProductStockState) : Prop where
  productIds : (products.map (·.id)).Nodup
  lotIds : (products.flatMap fun product => product.lots.map (·.id)).Nodup
  variantIds : (products.flatMap fun product => product.variants.map (·.id)).Nodup
  lots : ∀ product ∈ products, ∀ lot ∈ product.lots, 0 ≤ lot.quantity
  variants : ∀ product ∈ products, ∀ variant ∈ product.variants, 0 ≤ variant.quantity
  covered : ∀ product ∈ products, 0 ≤ product.untracked

section

variable {products : List ProductStockState} {product : ProductStockState}

theorem WellStocked.lotKeys (hStock : WellStocked products) (hMem : product ∈ products) :
    (product.lots.map (·.id)).Nodup :=
  (List.nodup_flatMap.mp hStock.lotIds).1 product hMem

theorem WellStocked.variantKeys (hStock : WellStocked products) (hMem : product ∈ products) :
    (product.variants.map (·.id)).Nodup :=
  (List.nodup_flatMap.mp hStock.variantIds).1 product hMem

theorem WellStocked.eq_of_id (hStock : WellStocked products) {other : ProductStockState}
    (hMem : product ∈ products) (hOther : other ∈ products) (hId : other.id = product.id) :
    other = product :=
  List.inj_on_of_nodup_map hStock.productIds hOther hMem hId

theorem WellStocked.quantity_nonneg (hStock : WellStocked products)
    (hMem : product ∈ products) : 0 ≤ product.quantity := by
  have hLots : 0 ≤ (product.lots.map (·.quantity)).sum := by
    apply List.sum_nonneg
    intro quantity hQuantity
    obtain ⟨lot, hLot, rfl⟩ := List.mem_map.mp hQuantity
    exact hStock.lots product hMem lot hLot
  have hCovered := hStock.covered product hMem
  unfold ProductStockState.untracked at hCovered
  omega

/-- Lot ids are keys across the products. -/
theorem WellStocked.lot_unique (hStock : WellStocked products) {other : ProductStockState}
    (hMem : product ∈ products) (hOther : other ∈ products) {lot lot' : LotStockState}
    (hLot : lot ∈ product.lots) (hLot' : lot' ∈ other.lots) (hId : lot'.id = lot.id) :
    other = product ∧ lot' = lot := by
  have hSame := Keyed.group_unique hStock.lotIds hMem hOther (List.mem_map_of_mem hLot)
    (hId ▸ List.mem_map_of_mem hLot')
  cases hSame
  exact ⟨rfl, List.inj_on_of_nodup_map (hStock.lotKeys hMem) hLot' hLot hId⟩

theorem WellStocked.variant_unique (hStock : WellStocked products) {other : ProductStockState}
    (hMem : product ∈ products) (hOther : other ∈ products) {variant variant' : VariantStockState}
    (hVariant : variant ∈ product.variants) (hVariant' : variant' ∈ other.variants)
    (hId : variant'.id = variant.id) : other = product ∧ variant' = variant := by
  have hSame := Keyed.group_unique hStock.variantIds hMem hOther (List.mem_map_of_mem hVariant)
    (hId ▸ List.mem_map_of_mem hVariant')
  cases hSame
  exact ⟨rfl, List.inj_on_of_nodup_map (hStock.variantKeys hMem) hVariant' hVariant hId⟩

end

/-! ### What one accepted change does -/

/-- `next` is `plan` after `movement` of a bucket of `product`. -/
structure Emits (plan next : StockPlan) (product : ProductStockState)
    (movement : PlannedMovement) : Prop where
  mem : product ∈ plan.products
  owner : movement.bucket.productId = product.id
  accepts : product.Accepts movement.bucket
  balance : (product.balance movement.bucket).map (· + movement.delta) = some movement.balanceAfter
  enough : 0 ≤ movement.balanceAfter
  productBalance : movement.productBalanceAfter = (product.receive movement).productBalance
  products : next.products = plan.products.map (·.receive movement)
  movements : next.movements = plan.movements ++ [movement]
  touchedProducts : next.touchedProducts =
    match movement.bucket with
    | .productUntracked productId =>
        Keyed.upsert TouchedProduct.id ⟨productId, (product.receive movement).quantity, true⟩
          plan.touchedProducts
    | .lot productId _ =>
        Keyed.upsert TouchedProduct.id ⟨productId, (product.receive movement).quantity,
          ((Keyed.lookup TouchedProduct.id plan.touchedProducts productId).map
            (·.bumpVersion)).getD false⟩ plan.touchedProducts
    | .variant _ _ => plan.touchedProducts
  touchedLots : next.touchedLots =
    match movement.bucket with
    | .lot _ lotId => Keyed.upsert Prod.fst (lotId, movement.balanceAfter) plan.touchedLots
    | _ => plan.touchedLots
  touchedVariants : next.touchedVariants =
    match movement.bucket with
    | .variant _ variantId =>
        Keyed.upsert Prod.fst (variantId, movement.balanceAfter) plan.touchedVariants
    | _ => plan.touchedVariants

namespace StockPlan

variable {plan next : StockPlan} {product : ProductStockState}

/-- Overwriting the found product is one movement received by all products. -/
theorem setProduct_eq (hStock : WellStocked plan.products) (hMem : product ∈ plan.products)
    {movement : PlannedMovement} (hOwner : movement.bucket.productId = product.id) :
    plan.setProduct (product.receive movement) = plan.products.map (·.receive movement) := by
  apply List.map_congr_left
  intro other hOther
  by_cases hId : other.id = product.id
  · cases hStock.eq_of_id hMem hOther hId
    exact if_pos rfl
  · have hNe : movement.bucket.productId ≠ other.id := fun h => hId (h.symm.trans hOwner)
    rw [ProductStockState.receive_of_ne hNe]
    exact if_neg hId

theorem findProduct_mem {id : String} (h : plan.findProduct id = some product) :
    product ∈ plan.products ∧ product.id = id :=
  Keyed.lookup_eq_some h

theorem receive_untracked {movement : PlannedMovement}
    (hBucket : movement.bucket = .productUntracked product.id) :
    product.receive movement = { product with quantity := product.quantity + movement.delta } := by
  have hLots : LotStockState.receive product.id movement = fun lot => lot := by
    funext lot
    simp [LotStockState.receive, hBucket]
  have hVariants : VariantStockState.receive product.id movement = fun variant => variant := by
    funext variant
    simp [VariantStockState.receive, hBucket]
  simp [ProductStockState.receive, PlannedMovement.countsFor, hBucket, hLots, hVariants]

theorem receive_lot {movement : PlannedMovement} {lotId : String}
    (hBucket : movement.bucket = .lot product.id lotId) :
    product.receive movement = product.withLot lotId movement.delta := by
  have hLots : LotStockState.receive product.id movement = fun lot =>
      if lot.id = lotId then { lot with quantity := lot.quantity + movement.delta } else lot := by
    funext lot
    by_cases hId : lot.id = lotId
    · simp [LotStockState.receive, hBucket, hId]
    · simp [LotStockState.receive, hBucket, hId, Ne.symm hId]
  have hVariants : VariantStockState.receive product.id movement = fun variant => variant := by
    funext variant
    simp [VariantStockState.receive, hBucket]
  simp [ProductStockState.receive, ProductStockState.withLot, PlannedMovement.countsFor, hBucket,
    hLots, hVariants]

theorem receive_variant {movement : PlannedMovement} {variantId : String}
    (hBucket : movement.bucket = .variant product.id variantId) :
    product.receive movement = product.withVariant variantId movement.delta := by
  have hLots : LotStockState.receive product.id movement = fun lot => lot := by
    funext lot
    simp [LotStockState.receive, hBucket]
  have hVariants : VariantStockState.receive product.id movement = fun variant =>
      if variant.id = variantId then { variant with quantity := variant.quantity + movement.delta }
      else variant := by
    funext variant
    by_cases hId : variant.id = variantId
    · simp [VariantStockState.receive, hBucket, hId]
    · simp [VariantStockState.receive, hBucket, hId, Ne.symm hId]
  simp [ProductStockState.receive, ProductStockState.withVariant, PlannedMovement.countsFor,
    hBucket, hLots, hVariants]

theorem emits_untracked (hStock : WellStocked plan.products) (hMem : product ∈ plan.products)
    (hVariants : product.hasVariants = false) (hTracked : product.useStock = true)
    {delta : Int} (hEnough : 0 ≤ product.untracked + delta) :
    ∃ movement, movement.bucket = .productUntracked product.id ∧ movement.delta = delta ∧
      Emits plan (plan.moveUntracked product delta) product movement := by
  let moved : ProductStockState := { product with quantity := product.quantity + delta }
  let movement := moved.record .productUntracked none none delta
    (product.untracked + delta) (product.stockVersion + 1)
  have hReceive : product.receive movement = moved := receive_untracked rfl
  refine ⟨movement, rfl, rfl, hMem, rfl, ⟨hVariants, hTracked⟩, rfl, hEnough, ?_, ?_, rfl, ?_,
    rfl, rfl⟩
  · rw [hReceive]
    rfl
  · rw [← setProduct_eq hStock hMem rfl, hReceive]
    rfl
  · rw [hReceive]
    rfl

theorem emits_lot (hStock : WellStocked plan.products) (hMem : product ∈ plan.products)
    (hVariants : product.hasVariants = false) {lot : LotStockState} {delta : Int}
    (hLot : Keyed.lookup LotStockState.id product.lots lot.id = some lot)
    (hEnough : 0 ≤ lot.quantity + delta) :
    ∃ movement, movement.bucket = .lot product.id lot.id ∧ movement.delta = delta ∧
      Emits plan (plan.moveLot product lot delta) product movement := by
  let moved := product.withLot lot.id delta
  let movement := moved.record .lot (some lot) none delta
    (lot.quantity + delta) (lot.stockVersion + 1)
  have hReceive : product.receive movement = moved := receive_lot rfl
  have hBalance : product.balance movement.bucket = some lot.quantity := by
    show (Keyed.lookup LotStockState.id product.lots lot.id).map _ = _
    rw [hLot, Option.map_some]
  have hIn := List.mem_map_of_mem (f := (·.id)) (Keyed.lookup_eq_some hLot).1
  refine ⟨movement, rfl, rfl, hMem, rfl, ⟨hVariants, hIn⟩, ?_, hEnough, ?_, ?_, rfl, ?_, rfl, rfl⟩
  · rw [hBalance]
    rfl
  · rw [hReceive]
    rfl
  · rw [← setProduct_eq hStock hMem rfl, hReceive]
    rfl
  · rw [hReceive]
    rfl

theorem emits_variant (hStock : WellStocked plan.products) (hMem : product ∈ plan.products)
    {variant : VariantStockState} {delta : Int}
    (hVariant : Keyed.lookup VariantStockState.id product.variants variant.id = some variant)
    (hEnough : 0 ≤ variant.quantity + delta) :
    ∃ movement, movement.bucket = .variant product.id variant.id ∧ movement.delta = delta ∧
      Emits plan (plan.moveVariant product variant delta) product movement := by
  let moved := product.withVariant variant.id delta
  let movement := moved.record .variant none (some variant) delta
    (variant.quantity + delta) (variant.stockVersion + 1)
  have hReceive : product.receive movement = moved := receive_variant rfl
  have hBalance : product.balance movement.bucket = some variant.quantity := by
    show (Keyed.lookup VariantStockState.id product.variants variant.id).map _ = _
    rw [hVariant, Option.map_some]
  have hIn := List.mem_map_of_mem (f := (·.id)) (Keyed.lookup_eq_some hVariant).1
  refine ⟨movement, rfl, rfl, hMem, rfl, hIn, ?_, hEnough, ?_, ?_, rfl, rfl, rfl, rfl⟩
  · rw [hBalance]
    rfl
  · rw [hReceive]
    rfl
  · rw [← setProduct_eq hStock hMem rfl, hReceive]
    rfl

/-- A change of the untracked portion of a product that tracks no stock. -/
def drops (plan : StockPlan) (change : StockChange) : Bool :=
  match change.bucket with
  | .productUntracked productId => ((plan.findProduct productId).map (·.useStock)) = some false
  | _ => false

/-- An accepted change is dropped, or it emits one movement of its bucket. -/
theorem apply_eq_ok (hStock : WellStocked plan.products) {change : StockChange}
    (h : plan.apply change = .ok next) :
    plan.drops change = true ∧ next = plan ∨
      plan.drops change = false ∧ ∃ product movement, movement.bucket = change.bucket ∧
        movement.delta = change.delta.num ∧ Emits plan next product movement := by
  unfold apply at h
  unfold drops
  split at h
  · cases h
  · cases hBucket : change.bucket with
    | productUntracked productId =>
        rw [hBucket] at h
        obtain ⟨product, hFound, hVariants, ⟨hUntracked, _, rfl⟩ | ⟨hTracked, _, hEnough, rfl⟩⟩ :=
          applyUntracked_eq_ok.mp h
        · exact .inl ⟨by simp [hFound, hUntracked], rfl⟩
        · refine .inr ⟨by simp [hFound, hTracked], ?_⟩
          obtain ⟨hMem, rfl⟩ := findProduct_mem hFound
          obtain ⟨movement, hMovement⟩ := emits_untracked hStock hMem hVariants hTracked hEnough
          exact ⟨product, movement, hMovement⟩
    | lot productId lotId =>
        rw [hBucket] at h
        obtain ⟨product, lot, hFound, hLot, hVariants, _, hEnough, _, rfl⟩ := applyLot_eq_ok.mp h
        obtain ⟨hMem, rfl⟩ := findProduct_mem hFound
        obtain ⟨_, rfl⟩ := Keyed.lookup_eq_some hLot
        obtain ⟨movement, hMovement⟩ := emits_lot hStock hMem hVariants hLot hEnough
        exact .inr ⟨rfl, product, movement, hMovement⟩
    | variant productId variantId =>
        rw [hBucket] at h
        obtain ⟨product, variant, hFound, hVariant, _, hEnough, rfl⟩ := applyVariant_eq_ok.mp h
        obtain ⟨hMem, rfl⟩ := findProduct_mem hFound
        obtain ⟨_, rfl⟩ := Keyed.lookup_eq_some hVariant
        obtain ⟨movement, hMovement⟩ := emits_variant hStock hMem hVariant hEnough
        exact .inr ⟨rfl, product, movement, hMovement⟩

/-! ### Loops -/

variable {Inv : StockPlan → Prop}

theorem applyEach_invariant (hApply : ∀ plan next change, Inv plan →
      StockPlan.apply plan change = .ok next → Inv next)
    (hPlan : Inv plan) (changes : List StockChange) : Inv (plan.applyEach changes).1 := by
  induction changes generalizing plan with
  | nil => exact hPlan
  | cons change rest ih =>
      unfold applyEach
      cases hStep : plan.apply change with
      | error e => exact hPlan
      | ok next => exact ih (hApply _ _ _ hPlan hStep)

theorem charge_invariant (hApply : ∀ plan next change, Inv plan →
      StockPlan.apply plan change = .ok next → Inv next)
    (hPlan : Inv plan) (item : StockChargeItem) : Inv (plan.charge item).1 := by
  unfold charge
  split
  · exact applyEach_invariant hApply hPlan _
  · split
    · exact hPlan
    · split
      · exact hPlan
      · split
        · exact hPlan
        · exact applyEach_invariant hApply hPlan _

end StockPlan

section

variable {plan next : StockPlan} {product : ProductStockState} {movement : PlannedMovement}

theorem Emits.lands (h : Emits plan next product movement) : product.Lands movement := by
  exact ProductStockState.lands_of_accepts fun _ => h.accepts

theorem Emits.lands_of_mem (h : Emits plan next product movement)
    (hStock : WellStocked plan.products) {other : ProductStockState}
    (hOther : other ∈ plan.products) : other.Lands movement := by
  intro hOwn
  cases hStock.eq_of_id h.mem hOther (hOwn.symm.trans h.owner)
  exact h.lands hOwn

/-- The movement leaves no bucket negative. -/
theorem Emits.balance_nonneg (h : Emits plan next product movement)
    (hStock : WellStocked plan.products) {other : ProductStockState}
    (hOther : other ∈ plan.products) (bucket : StockBucketRef)
    (hOwn : bucket.productId = other.id)
    (hNonneg : ∀ quantity, other.balance bucket = some quantity → 0 ≤ quantity) {quantity : Int}
    (hBalance : (other.receive movement).balance bucket = some quantity) : 0 ≤ quantity := by
  rw [ProductStockState.balance_receive hOwn (hStock.lotKeys hOther)
    (h.lands_of_mem hStock hOther)] at hBalance
  by_cases hHere : movement.bucket = bucket
  · cases hHere
    cases hStock.eq_of_id h.mem hOther (hOwn.symm.trans h.owner)
    rw [if_pos rfl, h.balance] at hBalance
    cases hBalance
    exact h.enough
  · rw [if_neg hHere] at hBalance
    simp only [add_zero, Option.map_id'] at hBalance
    exact hNonneg quantity hBalance

theorem Emits.wellStocked (h : Emits plan next product movement)
    (hStock : WellStocked plan.products) : WellStocked next.products := by
  rw [h.products]
  constructor
  · simpa [Function.comp_def] using hStock.productIds
  · simpa [List.flatMap_map] using hStock.lotIds
  · simpa [List.flatMap_map] using hStock.variantIds
  · intro after hAfter lot hLot
    obtain ⟨before, hBefore, rfl⟩ := List.mem_map.mp hAfter
    have hKeys : ((before.receive movement).lots.map (·.id)).Nodup := by
      simpa using hStock.lotKeys hBefore
    apply h.balance_nonneg hStock hBefore (.lot before.id lot.id) rfl
    · intro quantity hBalance
      obtain ⟨earlier, hMem, _, rfl⟩ := ProductStockState.balance_lot hBalance
      exact hStock.lots before hBefore earlier hMem
    · show (Keyed.lookup LotStockState.id _ lot.id).map _ = _
      rw [Keyed.lookup_of_mem hKeys hLot]
      rfl
  · intro after hAfter variant hVariant
    obtain ⟨before, hBefore, rfl⟩ := List.mem_map.mp hAfter
    have hKeys : ((before.receive movement).variants.map (·.id)).Nodup := by
      simpa using hStock.variantKeys hBefore
    apply h.balance_nonneg hStock hBefore (.variant before.id variant.id) rfl
    · intro quantity hBalance
      obtain ⟨earlier, hMem, _, rfl⟩ := ProductStockState.balance_variant hBalance
      exact hStock.variants before hBefore earlier hMem
    · show (Keyed.lookup VariantStockState.id _ variant.id).map _ = _
      rw [Keyed.lookup_of_mem hKeys hVariant]
      rfl
  · intro after hAfter
    obtain ⟨before, hBefore, rfl⟩ := List.mem_map.mp hAfter
    apply h.balance_nonneg hStock hBefore (.productUntracked before.id) rfl
    · intro quantity hBalance
      cases hBalance
      exact hStock.covered before hBefore
    · rfl

end

end Houndfe.Inventory
