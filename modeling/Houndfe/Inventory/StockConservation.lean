import Houndfe.Inventory.StockMoves

/-! Conservation in a stock plan: its stock, its movement rows with their running balances and
its touched rows agree after any mix of charges and changes. -/

namespace Houndfe.Inventory

/-! ### The touched rows -/

/-- A product holds this quantity. -/
def ProductHolds (products : List ProductStockState) (id : String) (quantity : Int) : Prop :=
  ∃ product ∈ products, product.id = id ∧ product.quantity = quantity

def LotHolds (products : List ProductStockState) (id : String) (quantity : Int) : Prop :=
  ∃ product ∈ products, ∃ lot ∈ product.lots, lot.id = id ∧ lot.quantity = quantity

def VariantHolds (products : List ProductStockState) (id : String) (quantity : Int) : Prop :=
  ∃ product ∈ products, ∃ variant ∈ product.variants, variant.id = id ∧
    variant.quantity = quantity

section

variable {plan next : StockPlan} {product : ProductStockState} {movement : PlannedMovement}
  {id : String} {quantity : Int}

theorem LotStockState.receive_of_ne {productId : String} {lot : LotStockState}
    (hNe : movement.bucket ≠ .lot productId lot.id) : lot.receive productId movement = lot := by
  simp [LotStockState.receive, hNe]

theorem VariantStockState.receive_of_ne {productId : String} {variant : VariantStockState}
    (hNe : movement.bucket ≠ .variant productId variant.id) :
    variant.receive productId movement = variant := by
  simp [VariantStockState.receive, hNe]

theorem Emits.lotHolds_of_ne (h : Emits plan next product movement)
    (hNe : ∀ productId, movement.bucket ≠ .lot productId id) :
    LotHolds next.products id quantity ↔ LotHolds plan.products id quantity := by
  rw [h.products]
  constructor
  · rintro ⟨after, hAfter, lot, hLot, rfl, rfl⟩
    obtain ⟨before, hBefore, rfl⟩ := List.mem_map.mp hAfter
    obtain ⟨earlier, hEarlier, rfl⟩ := List.mem_map.mp hLot
    have hSame : earlier.receive before.id movement = earlier :=
      LotStockState.receive_of_ne (hNe before.id)
    rw [hSame]
    exact ⟨before, hBefore, earlier, hEarlier, rfl, rfl⟩
  · rintro ⟨before, hBefore, lot, hLot, rfl, rfl⟩
    refine ⟨before.receive movement, List.mem_map_of_mem hBefore, lot, ?_, rfl, rfl⟩
    exact List.mem_map.mpr ⟨lot, hLot, LotStockState.receive_of_ne (hNe before.id)⟩

theorem Emits.variantHolds_of_ne (h : Emits plan next product movement)
    (hNe : ∀ productId, movement.bucket ≠ .variant productId id) :
    VariantHolds next.products id quantity ↔ VariantHolds plan.products id quantity := by
  rw [h.products]
  constructor
  · rintro ⟨after, hAfter, variant, hVariant, rfl, rfl⟩
    obtain ⟨before, hBefore, rfl⟩ := List.mem_map.mp hAfter
    obtain ⟨earlier, hEarlier, rfl⟩ := List.mem_map.mp hVariant
    have hSame : earlier.receive before.id movement = earlier :=
      VariantStockState.receive_of_ne (hNe before.id)
    rw [hSame]
    exact ⟨before, hBefore, earlier, hEarlier, rfl, rfl⟩
  · rintro ⟨before, hBefore, variant, hVariant, rfl, rfl⟩
    refine ⟨before.receive movement, List.mem_map_of_mem hBefore, variant, ?_, rfl, rfl⟩
    exact List.mem_map.mpr ⟨variant, hVariant, VariantStockState.receive_of_ne (hNe before.id)⟩

theorem Emits.productHolds_of_ne (h : Emits plan next product movement)
    (hNe : movement.countsFor id = false) :
    ProductHolds next.products id quantity ↔ ProductHolds plan.products id quantity := by
  rw [h.products]
  constructor
  · rintro ⟨after, hAfter, rfl, rfl⟩
    obtain ⟨before, hBefore, rfl⟩ := List.mem_map.mp hAfter
    exact ⟨before, hBefore, rfl, by simp_all [ProductStockState.receive]⟩
  · rintro ⟨before, hBefore, rfl, rfl⟩
    exact ⟨before.receive movement, List.mem_map_of_mem hBefore, rfl,
      by simp [ProductStockState.receive, hNe]⟩

/-- The bucket that moved holds the balance its row carries. -/
theorem Emits.balance_after (h : Emits plan next product movement)
    (hStock : WellStocked plan.products) :
    (product.receive movement).balance movement.bucket = some movement.balanceAfter := by
  rw [ProductStockState.balance_receive h.owner (hStock.lotKeys h.mem) h.lands, if_pos rfl]
  exact h.balance

theorem Emits.mem_after (h : Emits plan next product movement) :
    product.receive movement ∈ next.products := by
  rw [h.products]
  exact List.mem_map_of_mem h.mem

theorem Emits.lotHolds_self (h : Emits plan next product movement)
    (hStock : WellStocked plan.products) {productId : String}
    (hBucket : movement.bucket = .lot productId id) :
    LotHolds next.products id quantity ↔ quantity = movement.balanceAfter := by
  have hBalance := h.balance_after hStock
  rw [hBucket] at hBalance
  obtain ⟨lot, hLot, rfl, hQuantity⟩ := ProductStockState.balance_lot hBalance
  constructor
  · rintro ⟨other, hOther, lot', hLot', hId, rfl⟩
    obtain ⟨_, rfl⟩ := (h.wellStocked hStock).lot_unique h.mem_after hOther hLot hLot' hId
    exact hQuantity
  · rintro rfl
    exact ⟨_, h.mem_after, lot, hLot, rfl, hQuantity⟩

theorem Emits.variantHolds_self (h : Emits plan next product movement)
    (hStock : WellStocked plan.products) {productId : String}
    (hBucket : movement.bucket = .variant productId id) :
    VariantHolds next.products id quantity ↔ quantity = movement.balanceAfter := by
  have hBalance := h.balance_after hStock
  rw [hBucket] at hBalance
  obtain ⟨variant, hVariant, rfl, hQuantity⟩ := ProductStockState.balance_variant hBalance
  constructor
  · rintro ⟨other, hOther, variant', hVariant', hId, rfl⟩
    obtain ⟨_, rfl⟩ :=
      (h.wellStocked hStock).variant_unique h.mem_after hOther hVariant hVariant' hId
    exact hQuantity
  · rintro rfl
    exact ⟨_, h.mem_after, variant, hVariant, rfl, hQuantity⟩

theorem Emits.productHolds_self (h : Emits plan next product movement)
    (hStock : WellStocked plan.products) :
    ProductHolds next.products product.id quantity ↔
      quantity = (product.receive movement).quantity := by
  constructor
  · rintro ⟨other, hOther, hId, rfl⟩
    cases (h.wellStocked hStock).eq_of_id h.mem_after hOther hId
    rfl
  · rintro rfl
    exact ⟨_, h.mem_after, rfl, rfl⟩

end

/-! ### A plan that agrees with itself -/

/-- The row carries the balances that its bucket and its product had running. -/
def CarriesBalances (initial : List ProductStockState) (before : List PlannedMovement)
    (movement : PlannedMovement) : Prop :=
  ∃ product ∈ initial, movement.bucket.productId = product.id ∧
    (product.balance movement.bucket).map (· + moved movement.bucket (before ++ [movement])) =
      some movement.balanceAfter ∧
    movement.productBalanceAfter =
      product.productBalance + product.shownMoved (before ++ [movement])

/-- Stock, movements and touched rows of a plan agree with the state it was made from. -/
structure Conserved (initial : List ProductStockState) (plan : StockPlan) : Prop where
  wellStocked : WellStocked plan.products
  accepts : ∀ product ∈ initial, ∀ movement ∈ plan.movements,
    movement.bucket.productId = product.id → product.Accepts movement.bucket
  products : plan.products = initial.map (·.plus plan.movements)
  untracked : ∀ product ∈ initial, (product.plus plan.movements).untracked =
    product.untracked + moved (.productUntracked product.id) plan.movements
  balances : Journal.EachWritten (CarriesBalances initial) plan.movements
  touchedProducts : Keyed.Marked TouchedProduct.id plan.touchedProducts
    (fun id => ∃ movement ∈ plan.movements, movement.countsFor id)
    (fun touched => ProductHolds plan.products touched.id touched.quantity ∧
      (touched.bumpVersion ↔
        ∃ movement ∈ plan.movements, movement.bucket = .productUntracked touched.id))
  touchedLots : Keyed.Marked Prod.fst plan.touchedLots
    (fun lotId => ∃ movement ∈ plan.movements, ∃ productId, movement.bucket = .lot productId lotId)
    (fun touched => LotHolds plan.products touched.1 touched.2)
  touchedVariants : Keyed.Marked Prod.fst plan.touchedVariants
    (fun variantId => ∃ movement ∈ plan.movements, ∃ productId,
      movement.bucket = .variant productId variantId)
    (fun touched => VariantHolds plan.products touched.1 touched.2)

section

variable {initial : List ProductStockState} {plan next : StockPlan} {product : ProductStockState}
  {movement : PlannedMovement}

theorem Emits.touchedLots_marked (h : Emits plan next product movement)
    (hPlan : Conserved initial plan) :
    Keyed.Marked Prod.fst next.touchedLots
      (fun lotId => ∃ movement ∈ next.movements, ∃ productId,
        movement.bucket = .lot productId lotId)
      (fun touched => LotHolds next.products touched.1 touched.2) := by
  rw [h.touchedLots, h.movements]
  cases hBucket : movement.bucket with
  | lot productId lotId =>
      apply hPlan.touchedLots.upsert
      · intro k
        simp [hBucket, or_and_right, exists_or, eq_comm]
      · rintro ⟨k, quantity⟩ rfl
        rw [h.lotHolds_self hPlan.wellStocked hBucket, Prod.mk.injEq]
        simp
      · rintro ⟨k, quantity⟩ hNe
        apply h.lotHolds_of_ne
        intro owner hOwner
        rw [hBucket] at hOwner
        cases hOwner
        exact hNe rfl
  | productUntracked productId | variant productId variantId =>
      apply hPlan.touchedLots.congr
      · intro k
        simp [hBucket, or_and_right, exists_or]
      · intro touched
        apply h.lotHolds_of_ne
        simp [hBucket]

theorem Emits.touchedVariants_marked (h : Emits plan next product movement)
    (hPlan : Conserved initial plan) :
    Keyed.Marked Prod.fst next.touchedVariants
      (fun variantId => ∃ movement ∈ next.movements, ∃ productId,
        movement.bucket = .variant productId variantId)
      (fun touched => VariantHolds next.products touched.1 touched.2) := by
  rw [h.touchedVariants, h.movements]
  cases hBucket : movement.bucket with
  | variant productId variantId =>
      apply hPlan.touchedVariants.upsert
      · intro k
        simp [hBucket, or_and_right, exists_or, eq_comm]
      · rintro ⟨k, quantity⟩ rfl
        rw [h.variantHolds_self hPlan.wellStocked hBucket, Prod.mk.injEq]
        simp
      · rintro ⟨k, quantity⟩ hNe
        apply h.variantHolds_of_ne
        intro owner hOwner
        rw [hBucket] at hOwner
        cases hOwner
        exact hNe rfl
  | productUntracked productId | lot productId lotId =>
      apply hPlan.touchedVariants.congr
      · intro k
        simp [hBucket, or_and_right, exists_or]
      · intro touched
        apply h.variantHolds_of_ne
        simp [hBucket]

/-- Every movement is of a product that the plan was made from. -/
theorem Conserved.product_of_movement (hPlan : Conserved initial plan)
    (hMem : movement ∈ plan.movements) :
    ∃ product ∈ initial, movement.bucket.productId = product.id := by
  obtain ⟨before, after, hSplit⟩ := List.append_of_mem hMem
  obtain ⟨product, hProduct, hOwner, _⟩ := hPlan.balances before movement after hSplit
  exact ⟨product, hProduct, hOwner⟩

/-- The version of a touched product is bumped when its untracked bucket moved. -/
theorem Conserved.bumped_iff (hPlan : Conserved initial plan) (id : String) :
    ((Keyed.lookup TouchedProduct.id plan.touchedProducts id).map (·.bumpVersion)).getD false ↔
      ∃ movement ∈ plan.movements, movement.bucket = .productUntracked id := by
  classical
  cases hTouched : Keyed.lookup TouchedProduct.id plan.touchedProducts id with
  | some touched =>
      obtain ⟨_, rfl⟩ := Keyed.lookup_eq_some hTouched
      exact ((hPlan.touchedProducts touched).mp hTouched).2.2
  | none =>
      simp only [Option.map_none, Option.getD_none, Bool.false_eq_true, false_iff]
      rintro ⟨movement, hMem, hBucket⟩
      obtain ⟨product, hProduct, hOwner⟩ := hPlan.product_of_movement hMem
      rw [hBucket] at hOwner
      have hMem' : product.plus plan.movements ∈ plan.products := by
        rw [hPlan.products]
        exact List.mem_map_of_mem hProduct
      have hRow := (hPlan.touchedProducts ⟨id, (product.plus plan.movements).quantity,
        decide (∃ movement ∈ plan.movements, movement.bucket = .productUntracked id)⟩).mpr
        ⟨⟨movement, hMem, by simp [PlannedMovement.countsFor, hBucket]⟩,
          ⟨_, hMem', hOwner.symm, rfl⟩, by simp⟩
      rw [hTouched] at hRow
      cases hRow

theorem Emits.touchedProducts_marked (h : Emits plan next product movement)
    (hPlan : Conserved initial plan) :
    Keyed.Marked TouchedProduct.id next.touchedProducts
      (fun id => ∃ movement ∈ next.movements, movement.countsFor id)
      (fun touched => ProductHolds next.products touched.id touched.quantity ∧
        (touched.bumpVersion ↔
          ∃ movement ∈ next.movements, movement.bucket = .productUntracked touched.id)) := by
  have hOwner := h.owner
  rw [h.touchedProducts, h.movements]
  simp only [Journal.exists_mem_snoc]
  cases hBucket : movement.bucket with
  | productUntracked productId =>
      rw [hBucket] at hOwner
      cases hOwner
      have hCounts : ∀ k, movement.countsFor k ↔ k = product.id := by
        intro k
        simp only [PlannedMovement.countsFor, hBucket, decide_eq_true_eq]
        exact eq_comm
      apply hPlan.touchedProducts.upsert
      · intro k
        rw [hCounts]
      · rintro ⟨k, quantity, bump⟩ rfl
        rw [h.productHolds_self hPlan.wellStocked, TouchedProduct.mk.injEq]
        simp
      · rintro ⟨k, quantity, bump⟩ hNe
        have hApart : movement.countsFor k = false := by simpa using (hCounts k).not.mpr hNe
        rw [h.productHolds_of_ne hApart]
        simp [Ne.symm hNe]
  | lot productId lotId =>
      rw [hBucket] at hOwner
      cases hOwner
      have hCounts : ∀ k, movement.countsFor k ↔ k = product.id := by
        intro k
        simp only [PlannedMovement.countsFor, hBucket, decide_eq_true_eq]
        exact eq_comm
      simp only [reduceCtorEq, or_false]
      apply hPlan.touchedProducts.upsert
      · intro k
        rw [hCounts]
      · rintro ⟨k, quantity, bump⟩ rfl
        rw [h.productHolds_self hPlan.wellStocked, ← hPlan.bumped_iff, ← Bool.eq_iff_iff,
          TouchedProduct.mk.injEq]
        simp only [true_and]
      · rintro ⟨k, quantity, bump⟩ hNe
        have hApart : movement.countsFor k = false := by simpa using (hCounts k).not.mpr hNe
        rw [h.productHolds_of_ne hApart]
  | variant productId variantId =>
      have hCounts : ∀ k, movement.countsFor k = false := by
        intro k
        simp [PlannedMovement.countsFor, hBucket]
      simp only [reduceCtorEq, or_false]
      apply hPlan.touchedProducts.congr
      · intro k
        simp [hCounts]
      · intro touched
        rw [h.productHolds_of_ne (hCounts _)]

theorem Conserved.lands (hPlan : Conserved initial plan) (hMem : product ∈ initial) :
    ∀ movement ∈ plan.movements, product.Lands movement :=
  fun movement hMovement =>
    ProductStockState.lands_of_accepts (hPlan.accepts product hMem movement hMovement)

/-- One movement keeps the plan in agreement with itself. -/
theorem Emits.conserved (h : Emits plan next product movement) (hPlan : Conserved initial plan)
    (hStart : WellStocked initial) : Conserved initial next := by
  have hMem' : ∀ other ∈ initial, other.plus plan.movements ∈ plan.products := by
    intro other hOther
    rw [hPlan.products]
    exact List.mem_map_of_mem hOther
  have hAccepts : ∀ other ∈ initial, ∀ entry ∈ next.movements,
      entry.bucket.productId = other.id → other.Accepts entry.bucket := by
    intro other hOther
    rw [h.movements, List.forall_mem_append]
    refine ⟨hPlan.accepts other hOther, ?_⟩
    intro entry hEntry hOwn
    cases List.mem_singleton.mp hEntry
    have hSame := hPlan.wellStocked.eq_of_id h.mem (hMem' other hOther) (hOwn.symm.trans h.owner)
    have hProduct := h.accepts
    rwa [← hSame, ProductStockState.accepts_plus] at hProduct
  have hLands : ∀ other ∈ initial, ∀ entry ∈ next.movements, other.Lands entry :=
    fun other hOther entry hEntry =>
      ProductStockState.lands_of_accepts (hAccepts other hOther entry hEntry)
  refine ⟨h.wellStocked hPlan.wellStocked, hAccepts, ?_, ?_, ?_, h.touchedProducts_marked hPlan,
    h.touchedLots_marked hPlan, h.touchedVariants_marked hPlan⟩
  · rw [h.products, h.movements, hPlan.products, List.map_map]
    simp only [ProductStockState.plus_snoc, Function.comp_def]
  · intro other hOther
    exact ProductStockState.untracked_plus (hStart.lotKeys hOther) (hLands other hOther)
  · rw [h.movements, Journal.eachWritten_snoc]
    refine ⟨hPlan.balances, ?_⟩
    obtain ⟨start, hInitial, hSame⟩ : ∃ start ∈ initial, start.plus plan.movements = product := by
      have hMem := h.mem
      rw [hPlan.products] at hMem
      exact List.mem_map.mp hMem
    subst hSame
    have hOwner : movement.bucket.productId = start.id := h.owner
    refine ⟨start, hInitial, hOwner, ?_, ?_⟩
    · rw [← h.balance, ProductStockState.balance_plus hOwner (hStart.lotKeys hInitial)
        (hPlan.lands hInitial), Option.map_map, moved_snoc, if_pos rfl]
      simp only [Function.comp_def, add_assoc]
    · rw [h.productBalance, ← ProductStockState.plus_snoc]
      apply ProductStockState.productBalance_plus (hStart.variantKeys hInitial)
      rw [← h.movements]
      exact hLands start hInitial

theorem conserved_create (hStart : WellStocked initial) (today : String) :
    Conserved initial (StockPlan.create initial today) where
  wellStocked := hStart
  accepts := by simp [StockPlan.create]
  products := by simp [StockPlan.create]
  untracked := by simp [StockPlan.create, moved]
  balances := Journal.eachWritten_nil
  touchedProducts := by simp [Keyed.Marked, StockPlan.create]
  touchedLots := by simp [Keyed.Marked, StockPlan.create]
  touchedVariants := by simp [Keyed.Marked, StockPlan.create]

theorem Conserved.apply (hPlan : Conserved initial plan) (hStart : WellStocked initial)
    {change : StockChange} (h : plan.apply change = .ok next) : Conserved initial next := by
  rcases StockPlan.apply_eq_ok hPlan.wellStocked h with ⟨_, rfl⟩ | ⟨_, product, movement, _, _, hEmits⟩
  · exact hPlan
  · exact hEmits.conserved hPlan hStart

/-- A loop of changes conserves stock wherever it stops. -/
theorem Conserved.applyEach (hPlan : Conserved initial plan) (hStart : WellStocked initial)
    (changes : List StockChange) : Conserved initial (plan.applyEach changes).1 :=
  StockPlan.applyEach_invariant (fun _ _ _ h hApply => h.apply hStart hApply) hPlan changes

theorem Conserved.charge (hPlan : Conserved initial plan) (hStart : WellStocked initial)
    (item : StockChargeItem) : Conserved initial (plan.charge item).1 :=
  StockPlan.charge_invariant (fun _ _ _ h hApply => h.apply hStart hApply) hPlan item

end

/-! ### Any sequence of calls -/

/-- A call of a plan by its owner. -/
inductive StockCall where
  | charge (item : StockChargeItem)
  | apply (change : StockChange)

/-- The plan after a call and what the call threw. -/
def StockPlan.call (plan : StockPlan) : StockCall → StockPlan × Option StockError
  | .charge item => plan.charge item
  | .apply change => plan.applyEach [change]

def StockPlan.calls (plan : StockPlan) (calls : List StockCall) : StockPlan :=
  calls.foldl (fun plan call => (plan.call call).1) plan

/-- From stock that the tables can hold, a plan agrees with itself after every sequence of
charges and changes, the rejected ones included. -/
theorem stock_plan_conserves (initial : List ProductStockState) (today : String)
    (hStart : WellStocked initial) (calls : List StockCall) :
    Conserved initial ((StockPlan.create initial today).calls calls) := by
  have hRun : ∀ plan, Conserved initial plan → Conserved initial (plan.calls calls) := by
    induction calls with
    | nil => exact fun _ hPlan => hPlan
    | cons call rest ih =>
        intro plan hPlan
        apply ih
        cases call with
        | charge item => exact hPlan.charge hStart item
        | apply change => exact hPlan.applyEach hStart [change]
  exact hRun _ (conserved_create hStart today)

/-- Ten units, four of them in a lot. -/
def oneLotProduct : ProductStockState where
  id := "product"
  name := "Product"
  quantity := 10
  stockVersion := 0
  useStock := true
  hasVariants := false
  lots := [⟨"lot", "L-1", 4, 0, 0⟩]
  variants := []

theorem wellStocked_oneLotProduct : WellStocked [oneLotProduct] where
  productIds := by decide
  lotIds := by decide
  variantIds := by decide
  lots := by decide
  variants := by decide
  covered := by decide

theorem stock_plan_conserves_of_one_lot :
    Conserved [oneLotProduct] ((StockPlan.create [oneLotProduct] "2026-01-01").calls [
      .apply { bucket := .lot "product" "lot", delta := -3 },
      .charge ⟨"product", none, 5⟩,
      .apply { bucket := .lot "product" "lot", delta := -2 }]) :=
  stock_plan_conserves [oneLotProduct] "2026-01-01" wellStocked_oneLotProduct _

end Houndfe.Inventory
