import Houndfe.Inventory.StockLoops
import Mathlib.Data.List.Flatten

/-! What a journal write does to the tables: the touched rows are overwritten with the final
quantities of the plan, so that every product receives the movements the write appends. -/

namespace Houndfe.Inventory

/-- The stock of a product without its version counters. -/
def ProductStockState.unversioned (product : ProductStockState) : ProductStockState :=
  { product with
    stockVersion := 0
    lots := product.lots.map fun lot => { lot with stockVersion := 0 }
    variants := product.variants.map fun variant => { variant with stockVersion := 0 } }

/-- The stock of the tables without version counters. -/
def StockTables.bare (tables : StockTables) : List ProductStockState :=
  tables.stock.map (·.unversioned)

theorem ProductStockState.unversioned_plus (product : ProductStockState)
    (movements : List PlannedMovement) :
    (product.plus movements).unversioned = product.unversioned.plus movements := by
  simp [ProductStockState.unversioned, ProductStockState.plus, Function.comp_def]

theorem ProductStockState.untracked_unversioned (product : ProductStockState) :
    product.unversioned.untracked = product.untracked := by
  simp [ProductStockState.unversioned, ProductStockState.untracked, Function.comp_def]

theorem wellStocked_unversioned {products : List ProductStockState} :
    WellStocked (products.map (·.unversioned)) ↔ WellStocked products := by
  have hLots : (products.map (·.unversioned)).flatMap (fun product => product.lots.map (·.id)) =
      products.flatMap fun product => product.lots.map (·.id) := by
    simp [List.flatMap_map, ProductStockState.unversioned, Function.comp_def]
  have hVariants :
      (products.map (·.unversioned)).flatMap (fun product => product.variants.map (·.id)) =
        products.flatMap fun product => product.variants.map (·.id) := by
    simp [List.flatMap_map, ProductStockState.unversioned, Function.comp_def]
  constructor
  · intro h
    refine ⟨?_, hLots ▸ h.lotIds, hVariants ▸ h.variantIds, ?_, ?_, ?_⟩
    · simpa [Function.comp_def, ProductStockState.unversioned] using h.productIds
    · simpa [ProductStockState.unversioned] using h.lots
    · simpa [ProductStockState.unversioned] using h.variants
    · simpa [ProductStockState.untracked_unversioned] using h.covered
  · intro h
    refine ⟨?_, hLots.symm ▸ h.lotIds, hVariants.symm ▸ h.variantIds, ?_, ?_, ?_⟩
    · simpa [Function.comp_def, ProductStockState.unversioned] using h.productIds
    · simpa [ProductStockState.unversioned] using h.lots
    · simpa [ProductStockState.unversioned] using h.variants
    · simpa [ProductStockState.untracked_unversioned] using h.covered

section

variable {initial : List ProductStockState} {plan : StockPlan} {product : ProductStockState}

/-! ### Rows that the plan did not touch -/

theorem Conserved.mem_plus (hPlan : Conserved initial plan) (hMem : product ∈ initial) :
    product.plus plan.movements ∈ plan.products := by
  rw [hPlan.products]
  exact List.mem_map_of_mem hMem

theorem Conserved.countsFor_of_untouched (hPlan : Conserved initial plan) {id : String}
    (hNone : Keyed.lookup TouchedProduct.id plan.touchedProducts id = none) :
    ∀ movement ∈ plan.movements, movement.countsFor id = false := by
  classical
  intro movement hMovement
  by_contra hCounts
  rw [Bool.not_eq_false] at hCounts
  obtain ⟨product, hProduct, hOwner⟩ := hPlan.product_of_movement hMovement
  have hId : product.id = id := by
    unfold PlannedMovement.countsFor at hCounts
    cases hBucket : movement.bucket <;> simp_all
  have hRow := (hPlan.touchedProducts ⟨id, (product.plus plan.movements).quantity,
    decide (∃ movement ∈ plan.movements, movement.bucket = .productUntracked id)⟩).mpr
    ⟨⟨movement, hMovement, hCounts⟩, ⟨_, hPlan.mem_plus hProduct, hId, rfl⟩, by simp⟩
  rw [hNone] at hRow
  cases hRow

/-- Every movement is of a bucket that a product of the plan has. -/
theorem Conserved.accepts_of_movement (hPlan : Conserved initial plan) {movement : PlannedMovement}
    (hMem : movement ∈ plan.movements) : ∃ product ∈ plan.products,
      product.Accepts movement.bucket := by
  obtain ⟨product, hProduct, hOwner⟩ := hPlan.product_of_movement hMem
  exact ⟨_, hPlan.mem_plus hProduct,
    ProductStockState.accepts_plus.mpr (hPlan.accepts product hProduct movement hMem hOwner)⟩

theorem Conserved.lot_of_untouched (hPlan : Conserved initial plan) {lotId : String}
    (hNone : Keyed.lookup Prod.fst plan.touchedLots lotId = none) (productId : String) :
    ∀ movement ∈ plan.movements, movement.bucket ≠ .lot productId lotId := by
  intro movement hMovement hBucket
  obtain ⟨product, hProduct, hAccepts⟩ := hPlan.accepts_of_movement hMovement
  rw [hBucket] at hAccepts
  obtain ⟨lot, hLot, hId⟩ := List.mem_map.mp hAccepts.2
  have hRow := (hPlan.touchedLots (lotId, lot.quantity)).mpr
    ⟨⟨movement, hMovement, productId, hBucket⟩, product, hProduct, lot, hLot, hId, rfl⟩
  rw [hNone] at hRow
  cases hRow

theorem Conserved.variant_of_untouched (hPlan : Conserved initial plan) {variantId : String}
    (hNone : Keyed.lookup Prod.fst plan.touchedVariants variantId = none) (productId : String) :
    ∀ movement ∈ plan.movements, movement.bucket ≠ .variant productId variantId := by
  intro movement hMovement hBucket
  obtain ⟨product, hProduct, hAccepts⟩ := hPlan.accepts_of_movement hMovement
  rw [hBucket] at hAccepts
  obtain ⟨variant, hVariant, hId⟩ := List.mem_map.mp hAccepts
  have hRow := (hPlan.touchedVariants (variantId, variant.quantity)).mpr
    ⟨⟨movement, hMovement, productId, hBucket⟩, product, hProduct, variant, hVariant,
      hId, rfl⟩
  rw [hNone] at hRow
  cases hRow

/-! ### The rows written -/

variable {stock : List ProductStockState}

theorem moved_eq_zero {bucket : StockBucketRef} {movements : List PlannedMovement}
    (h : ∀ movement ∈ movements, movement.bucket ≠ bucket) : moved bucket movements = 0 :=
  Journal.total_eq_zero (by simpa using h)

open StockJournalWriter

theorem storedProduct_quantity (hPlan : Conserved initial plan) (hStock : WellStocked stock)
    (hLoaded : ∀ other ∈ initial, other ∈ stock) (hMem : product ∈ stock) :
    (storedProduct plan product).quantity = (product.plus plan.movements).quantity := by
  show ((Keyed.lookup TouchedProduct.id plan.touchedProducts product.id).map _).getD _ = _
  cases hTouched : Keyed.lookup TouchedProduct.id plan.touchedProducts product.id with
  | some touched =>
      obtain ⟨_, hKey⟩ := Keyed.lookup_eq_some hTouched
      rw [← hKey] at hTouched
      obtain ⟨_, ⟨after, hAfter, hId, hQuantity⟩, _⟩ := (hPlan.touchedProducts touched).mp hTouched
      rw [hPlan.products] at hAfter
      obtain ⟨before, hBefore, rfl⟩ := List.mem_map.mp hAfter
      cases hStock.eq_of_id hMem (hLoaded before hBefore) (hId.trans hKey)
      exact hQuantity.symm
  | none =>
      have hNone := hPlan.countsFor_of_untouched hTouched
      have hMoved : productMoved product.id plan.movements = 0 := Journal.total_eq_zero hNone
      simp [ProductStockState.plus, hMoved]

theorem storedLot_quantity (hPlan : Conserved initial plan) (hStock : WellStocked stock)
    (hLoaded : ∀ other ∈ initial, other ∈ stock) (hMem : product ∈ stock) {lot : LotStockState}
    (hLot : lot ∈ product.lots) : (storedLot plan lot).quantity =
      lot.quantity + moved (.lot product.id lot.id) plan.movements := by
  unfold storedLot
  cases hTouched : Keyed.lookup Prod.fst plan.touchedLots lot.id with
  | some touched =>
      obtain ⟨lotId, quantity⟩ := touched
      obtain ⟨_, hKey⟩ := Keyed.lookup_eq_some hTouched
      cases hKey
      obtain ⟨_, after, hAfter, lot', hLot', hId, hQuantity⟩ :=
        (hPlan.touchedLots (lot.id, quantity)).mp hTouched
      rw [hPlan.products] at hAfter
      obtain ⟨before, hBefore, rfl⟩ := List.mem_map.mp hAfter
      obtain ⟨earlier, hEarlier, rfl⟩ := List.mem_map.mp hLot'
      obtain ⟨rfl, rfl⟩ := hStock.lot_unique hMem (hLoaded before hBefore) hLot hEarlier hId
      exact hQuantity.symm
  | none =>
      have hNone := hPlan.lot_of_untouched hTouched product.id
      simp [moved_eq_zero hNone]

theorem storedVariant_quantity (hPlan : Conserved initial plan) (hStock : WellStocked stock)
    (hLoaded : ∀ other ∈ initial, other ∈ stock) (hMem : product ∈ stock)
    {variant : VariantStockState} (hVariant : variant ∈ product.variants) :
    (storedVariant plan variant).quantity =
      variant.quantity + moved (.variant product.id variant.id) plan.movements := by
  unfold storedVariant
  cases hTouched : Keyed.lookup Prod.fst plan.touchedVariants variant.id with
  | some touched =>
      obtain ⟨variantId, quantity⟩ := touched
      obtain ⟨_, hKey⟩ := Keyed.lookup_eq_some hTouched
      cases hKey
      obtain ⟨_, after, hAfter, variant', hVariant', hId, hQuantity⟩ :=
        (hPlan.touchedVariants (variant.id, quantity)).mp hTouched
      rw [hPlan.products] at hAfter
      obtain ⟨before, hBefore, rfl⟩ := List.mem_map.mp hAfter
      obtain ⟨earlier, hEarlier, rfl⟩ := List.mem_map.mp hVariant'
      obtain ⟨rfl, rfl⟩ :=
        hStock.variant_unique hMem (hLoaded before hBefore) hVariant hEarlier hId
      exact hQuantity.symm
  | none =>
      have hNone := hPlan.variant_of_untouched hTouched product.id
      simp [moved_eq_zero hNone]

/-- A product is stored as it stands after the movements of the plan. -/
theorem storedProduct_unversioned (hPlan : Conserved initial plan) (hStock : WellStocked stock)
    (hLoaded : ∀ other ∈ initial, other ∈ stock) (hMem : product ∈ stock) :
    (storedProduct plan product).unversioned = (product.plus plan.movements).unversioned := by
  have hLots : (storedProduct plan product).unversioned.lots =
      (product.plus plan.movements).unversioned.lots := by
    simp only [ProductStockState.unversioned, ProductStockState.plus, storedProduct,
      List.map_map]
    apply List.map_congr_left
    intro lot hLot
    have hQuantity := storedLot_quantity hPlan hStock hLoaded hMem hLot
    simp only [Function.comp_apply, hQuantity]
    unfold storedLot
    split <;> rfl
  have hVariants : (storedProduct plan product).unversioned.variants =
      (product.plus plan.movements).unversioned.variants := by
    simp only [ProductStockState.unversioned, ProductStockState.plus, storedProduct,
      List.map_map]
    apply List.map_congr_left
    intro variant hVariant
    have hQuantity := storedVariant_quantity hPlan hStock hLoaded hMem hVariant
    simp only [Function.comp_apply, hQuantity]
    unfold storedVariant
    split <;> rfl
  have hQuantity := storedProduct_quantity hPlan hStock hLoaded hMem
  exact ProductStockState.ext rfl rfl hQuantity rfl rfl rfl hLots hVariants

/-! ### A whole write -/

variable {context : StockJournalContext} {tables after : StockTables} {today : String}

theorem persist_eq_ok : persist plan context tables = .ok after ↔
    fitsColumns plan ∧ after = {
      products := tables.products.map fun row =>
        { row with toProductStockState := storedProduct plan row.toProductStockState }
      movements := tables.movements ++ plan.movements.map (movementRow context) } := by
  unfold persist
  cases fitsColumns plan <;> simp [eq_comm]

theorem settle_eq_ok {end_ : StockPlan × Option StockError} :
    settle end_ = .ok plan ↔ end_ = (plan, none) := by
  obtain ⟨left, error⟩ := end_
  cases error <;> simp [settle]

theorem wellStocked_filter {p : ProductStockState → Bool} (hStock : WellStocked stock) :
    WellStocked (stock.filter p) where
  productIds := hStock.productIds.sublist (List.filter_sublist.map _)
  lotIds := hStock.lotIds.sublist (List.filter_sublist.flatMap _)
  variantIds := hStock.variantIds.sublist (List.filter_sublist.flatMap _)
  lots := fun product hMem => hStock.lots product (List.mem_of_mem_filter hMem)
  variants := fun product hMem => hStock.variants product (List.mem_of_mem_filter hMem)
  covered := fun product hMem => hStock.covered product (List.mem_of_mem_filter hMem)

theorem ProductStockState.plus_of_absent {movements : List PlannedMovement}
    (h : ∀ movement ∈ movements, movement.bucket.productId ≠ product.id) :
    product.plus movements = product := by
  induction movements using List.reverseRecOn with
  | nil => exact plus_nil
  | append_singleton earlier last ih =>
      obtain ⟨hEarlier, hLast⟩ := List.forall_mem_append.mp h
      rw [plus_snoc, ih hEarlier]
      exact receive_of_ne (hLast last (List.mem_singleton_self _))

/-- What the plan says of the products it loaded, it says of the whole stock. -/
theorem Conserved.wellStocked_plus {p : ProductStockState → Bool} (hStock : WellStocked stock)
    (hPlan : Conserved (stock.filter p) plan) :
    WellStocked (stock.map (·.plus plan.movements)) := by
  have hEach : ∀ product ∈ stock, product.plus plan.movements ∈ plan.products ∨
      product.plus plan.movements = product := by
    intro product hMem
    by_cases hLoaded : product ∈ stock.filter p
    · exact .inl (hPlan.mem_plus hLoaded)
    · right
      apply ProductStockState.plus_of_absent
      intro movement hMovement hOwner
      obtain ⟨owner, hOwnerMem, hId⟩ := hPlan.product_of_movement hMovement
      have hSame := hStock.eq_of_id hMem (List.mem_of_mem_filter hOwnerMem)
        (hId.symm.trans hOwner)
      exact hLoaded (hSame ▸ hOwnerMem)
  refine ⟨?_, ?_, ?_, ?_, ?_, ?_⟩
  · simpa [Function.comp_def] using hStock.productIds
  · simpa [List.flatMap_map] using hStock.lotIds
  · simpa [List.flatMap_map] using hStock.variantIds
  · rw [List.forall_mem_map]
    intro product hMem
    rcases hEach product hMem with hIn | hSame
    · exact hPlan.wellStocked.lots _ hIn
    · rw [hSame]
      exact hStock.lots product hMem
  · rw [List.forall_mem_map]
    intro product hMem
    rcases hEach product hMem with hIn | hSame
    · exact hPlan.wellStocked.variants _ hIn
    · rw [hSame]
      exact hStock.variants product hMem
  · rw [List.forall_mem_map]
    intro product hMem
    rcases hEach product hMem with hIn | hSame
    · exact hPlan.wellStocked.covered _ hIn
    · rw [hSame]
      exact hStock.covered product hMem

/-- `after` is `tables` once `movements` were written: every product received them, and they
were appended to the journal. -/
structure Written (tables after : StockTables) (movements : List PlannedMovement) : Prop where
  bare : after.bare = tables.bare.map (·.plus movements)
  journal : after.movements.map (·.toPlannedMovement) =
    tables.movements.map (·.toPlannedMovement) ++ movements
  accepts : ∀ product ∈ tables.bare, ∀ movement ∈ movements,
    movement.bucket.productId = product.id → product.Accepts movement.bucket
  owned : ∀ movement ∈ movements, ∃ product ∈ tables.bare,
    movement.bucket.productId = product.id
  wellStocked : WellStocked after.bare

theorem ProductStockState.accepts_unversioned {bucket : StockBucketRef} :
    product.unversioned.Accepts bucket ↔ product.Accepts bucket := by
  cases bucket <;> simp [Accepts, unversioned]

theorem written_of_persist (hStock : WellStocked tables.stock) {productIds : List String}
    (hPlan : Conserved (lockAndPlan tables productIds today).products plan)
    (h : persist plan context tables = .ok after) : Written tables after plan.movements := by
  obtain ⟨_, rfl⟩ := persist_eq_ok.mp h
  have hLoaded : ∀ product ∈ (lockAndPlan tables productIds today).products,
      product ∈ tables.stock := fun product hMem => List.mem_of_mem_filter hMem
  have hOwned : ∀ movement ∈ plan.movements, ∃ product ∈ tables.stock,
      product ∈ (lockAndPlan tables productIds today).products ∧
        movement.bucket.productId = product.id := by
    intro movement hMovement
    obtain ⟨product, hMem, hId⟩ := hPlan.product_of_movement hMovement
    exact ⟨product, hLoaded product hMem, hMem, hId⟩
  refine ⟨?_, by simp [movementRow, Function.comp_def], ?_, ?_, ?_⟩
  · simp only [StockTables.bare, StockTables.stock, List.map_map]
    apply List.map_congr_left
    intro row hRow
    have hMem : row.toProductStockState ∈ tables.stock := List.mem_map_of_mem hRow
    simp only [Function.comp_apply]
    rw [storedProduct_unversioned hPlan hStock hLoaded hMem, ProductStockState.unversioned_plus]
  · intro bare hBare movement hMovement hOwner
    obtain ⟨product, hMem, rfl⟩ := List.mem_map.mp hBare
    obtain ⟨owner, hOwnerMem, hIn, hId⟩ := hOwned movement hMovement
    cases hStock.eq_of_id hMem hOwnerMem (hId.symm.trans hOwner)
    rw [ProductStockState.accepts_unversioned]
    exact hPlan.accepts product hIn movement hMovement hId
  · intro movement hMovement
    obtain ⟨owner, hOwnerMem, _, hId⟩ := hOwned movement hMovement
    exact ⟨owner.unversioned, List.mem_map_of_mem hOwnerMem, hId⟩
  · have hStored : (tables.products.map fun row => { row with
        toProductStockState := storedProduct plan row.toProductStockState }).map
          (fun row => row.toProductStockState.unversioned) =
        (tables.stock.map (·.plus plan.movements)).map (·.unversioned) := by
      simp only [StockTables.stock, List.map_map]
      apply List.map_congr_left
      intro row hRow
      exact storedProduct_unversioned hPlan hStock hLoaded (List.mem_map_of_mem hRow)
    have hAll := wellStocked_unversioned.mpr (hPlan.wellStocked_plus hStock)
    rw [← hStored] at hAll
    simpa [StockTables.bare, StockTables.stock, Function.comp_def] using hAll

/-! ### The calls of the writer -/

theorem wellStocked_loaded (today : String) (hStock : WellStocked tables.stock)
    (productIds : List String) :
    WellStocked (lockAndPlan tables productIds today).products :=
  wellStocked_filter hStock

theorem tracksStock_loaded (hStock : WellStocked tables.stock) {productIds : List String}
    {id : String} (h : tracksStock (lockAndPlan tables productIds today) id = true) :
    ∀ product ∈ tables.stock, product.id = id → product.useStock = true := by
  intro product hMem hId
  unfold tracksStock at h
  cases hFound : (lockAndPlan tables productIds today).findProduct id with
  | none => simp [hFound] at h
  | some found =>
      obtain ⟨hIn, hFoundId⟩ := StockPlan.findProduct_mem hFound
      cases hStock.eq_of_id (List.mem_of_mem_filter hIn) hMem (hId.trans hFoundId.symm)
      simpa [hFound] using h

/-- Movements that put units nowhere but in products that track stock. -/
def PutsOnTracked (tables : StockTables) (movements : List PlannedMovement) : Prop :=
  ∀ movement ∈ movements, movement.delta < 0 ∨
    ∀ product ∈ tables.stock, product.id = movement.bucket.productId → product.useStock = true

/-- What a loop of changes made from what is loaded, persisted. -/
theorem written_of_applyEach (hStock : WellStocked tables.stock) {productIds : List String}
    {changes : List StockChange}
    (hLoop : (lockAndPlan tables productIds today).applyEach changes = (plan, none))
    (hPersist : persist plan context tables = .ok after) :
    Written tables after plan.movements ∧
      plan.movements.map (·.entry) =
        (changes.filter (!(lockAndPlan tables productIds today).drops ·)).map (·.entry) := by
  have hLoaded := wellStocked_loaded today hStock productIds
  have hPlan := (conserved_create hLoaded today).applyEach hLoaded changes
  obtain ⟨emitted, hMovements, hEntries⟩ := applyEach_eq_ok hLoaded hLoop
  have hAll : plan.movements = emitted := hMovements
  have hEnd : (StockPlan.applyEach (lockAndPlan tables productIds today) changes).1 = plan := by
    rw [hLoop]
  exact ⟨written_of_persist hStock (hEnd ▸ hPlan) hPersist, hAll ▸ hEntries⟩

theorem written_apply (hStock : WellStocked tables.stock) {changes : List StockChange}
    (h : apply today changes context tables = .ok after) :
    ∃ movements, Written tables after movements ∧
      movements.map (·.entry) = (changes.filter
        (!(lockAndPlan tables (changes.map (·.bucket.productId)) today).drops ·)).map
          (·.entry) := by
  obtain ⟨plan, hSettle, hPersist⟩ := bind_eq_ok.mp h
  exact ⟨plan.movements, written_of_applyEach hStock (settle_eq_ok.mp hSettle) hPersist⟩

theorem written_charge (hStock : WellStocked tables.stock) {items : List StockChargeItem}
    {saleId : String} (hQuantity : ∀ item ∈ items, 0 < item.quantity)
    (h : charge today items saleId tables = .ok after) :
    ∃ movements, Written tables after movements ∧ PutsOnTracked tables movements := by
  obtain ⟨plan, hSettle, hPersist⟩ := bind_eq_ok.mp h
  have hLoop := settle_eq_ok.mp hSettle
  have hLoaded := wellStocked_loaded today hStock (items.map (·.productId))
  have hPlan := (conserved_create hLoaded today).chargeEach hLoaded items
  have hMoves := chargeEach_movements hLoaded hQuantity hLoop
  have hEnd : (chargeEach (lockAndPlan tables (items.map (·.productId)) today) items).1 = plan := by
    rw [hLoop]
  refine ⟨plan.movements, written_of_persist hStock (hEnd ▸ hPlan) hPersist, ?_⟩
  intro movement hMovement
  rcases hMoves movement hMovement with hEarlier | hTakes | hTracked
  · cases hEarlier
  · exact .inl hTakes
  · exact .inr (tracksStock_loaded hStock hTracked)

/-- A restoring loop writes the movements of the changes it keeps and does not drop. -/
theorem written_restore (hStock : WellStocked tables.stock) {productIds : List String}
    {keep : StockPlan → StockChange → Bool}
    (hKeep : ∀ plan next product movement, Emits plan next product movement →
      keep next = keep plan) {changes : List StockChange} {count : Nat}
    (hRestore : restoreEach keep (lockAndPlan tables productIds today) 0 changes =
      .ok (plan, count)) (hPersist : persist plan context tables = .ok after) :
    Written tables after plan.movements ∧
      plan.movements.map (·.entry) =
        ((changes.filter (keep (lockAndPlan tables productIds today))).filter
          (!(lockAndPlan tables productIds today).drops ·)).map (·.entry) := by
  have hLoaded := wellStocked_loaded today hStock productIds
  exact written_of_applyEach hStock ((restoreEach_eq_ok hKeep hLoaded).mp ⟨count, hRestore⟩) hPersist

/-- No movement of the sale is of a lot or a variant that a product without stock tracking
still has. -/
def RestoresTracked (tables : StockTables) (consumed : List StockMovementRow) : Prop :=
  ∀ product ∈ tables.products, product.useStock = false → ∀ movement ∈ consumed,
    movement.productId = product.id → movement.delta < 0 →
      (∀ variant ∈ product.variants, movement.variantId ≠ some variant.id) ∧
        ∀ lot ∈ product.lots, movement.lotId ≠ some lot.id

/-- A loaded product that `has` finds is the stored one. -/
theorem has_loaded (hStock : WellStocked tables.stock) {productIds : List String}
    {bucket : StockBucketRef} (h : (lockAndPlan tables productIds today).has bucket = true)
    (hMem : product ∈ tables.stock) (hId : product.id = bucket.productId) :
    (lockAndPlan tables productIds today).findProduct bucket.productId = some product ∧
      product.Has bucket := by
  obtain ⟨found, hFound, hHas⟩ := StockPlan.has_iff.mp h
  obtain ⟨hIn, hFoundId⟩ := StockPlan.findProduct_mem hFound
  cases hStock.eq_of_id (List.mem_of_mem_filter hIn) hMem (hId.trans hFoundId.symm)
  exact ⟨hFound, hHas⟩

/-- A restored movement of a product without stock tracking has its lot or variant still. -/
theorem tracked_of_restored (hStock : WellStocked tables.stock)
    {consumed : List StockMovementRow} (hTracked : RestoresTracked tables consumed)
    {productIds existing : List String} {movement : PlannedMovement}
    (hMovement : movement ∈ consumed.map (·.toPlannedMovement)) (hDelta : movement.delta < 0)
    {change : StockChange} (hBucket : change.bucket = reversalBucket existing movement)
    (hHas : (lockAndPlan tables productIds today).has change.bucket = true)
    (hDrops : (lockAndPlan tables productIds today).drops change = false) :
    ∀ product ∈ tables.stock, product.id = change.bucket.productId → product.useStock = true := by
  intro product hMem hId
  by_contra hUntracked
  rw [Bool.not_eq_true] at hUntracked
  obtain ⟨hFound, hHas⟩ := has_loaded hStock hHas hMem hId
  obtain ⟨row, hRow, rfl⟩ := List.mem_map.mp hMem
  obtain ⟨consumedRow, hConsumed, rfl⟩ := List.mem_map.mp hMovement
  have hOwner : consumedRow.productId = row.id := by
    rw [hId, hBucket, productId_reversalBucket]
  obtain ⟨hVariants, hLots⟩ := hTracked row hRow hUntracked consumedRow hConsumed hOwner hDelta
  cases hCase : change.bucket with
  | productUntracked productId =>
      rw [hCase] at hFound
      have hNot := hDrops
      unfold StockPlan.drops at hNot
      rw [hCase] at hNot
      simp [show (lockAndPlan tables productIds today).findProduct productId = _ from hFound,
        hUntracked] at hNot
  | lot productId lotId =>
      rw [hCase] at hHas hBucket
      obtain ⟨lot, hLot, rfl⟩ := List.mem_map.mp hHas
      exact hLots lot hLot (lotId_of_reversalBucket hBucket.symm)
  | variant productId variantId =>
      rw [hCase] at hHas hBucket
      obtain ⟨variant, hVariant, rfl⟩ := List.mem_map.mp hHas
      exact hVariants variant hVariant (variantId_of_reversalBucket hBucket.symm)

theorem written_reverseLegacySale (hStock : WellStocked tables.stock) {activatedAt : Option Int}
    {sale : SaleToReverse} {outcome : SaleReversalOutcome}
    (h : reverseLegacySale today activatedAt sale tables = .ok (outcome, after)) :
    after = tables ∨ ∃ movements, Written tables after movements ∧
      PutsOnTracked tables movements := by
  unfold reverseLegacySale at h
  dsimp only at h
  split at h
  · cases h
    exact .inl rfl
  · cases h
    exact .inl rfl
  · split at h
    · cases h
    · split at h
      · cases h
        exact .inl rfl
      · split at h
        · cases h
          exact .inl rfl
        · obtain ⟨⟨plan, skipped⟩, hRestore, h⟩ := bind_eq_ok.mp h
          obtain ⟨stored, hPersist, h⟩ := bind_eq_ok.mp h
          cases pure_eq_ok.mp h
          obtain ⟨hWritten, hEntries⟩ := written_restore hStock
            (fun plan next product movement hEmits => by
              funext change
              rw [hEmits.has, hEmits.tracksStock]) hRestore hPersist
          refine .inr ⟨plan.movements, hWritten, ?_⟩
          intro movement hMovement
          right
          obtain ⟨change, hChange, hSame⟩ := exists_change_of_entries hEntries hMovement
          have hKept := (List.mem_filter.mp (List.mem_of_mem_filter hChange)).2
          rw [Bool.and_eq_true] at hKept
          have hBucket : change.bucket = movement.bucket := (Prod.mk.inj hSame).1
          rw [← hBucket]
          exact tracksStock_loaded hStock hKept.2

/-- A reversal writes nothing, or movements that put units only on tracked products as long
as what it restores is tracked. -/
theorem written_reverseSale (hStock : WellStocked tables.stock) {activatedAt : Option Int}
    {sale : SaleToReverse} {consumed : List StockMovementRow} {outcome : SaleReversalOutcome}
    (h : reverseSale today activatedAt sale consumed tables = .ok (outcome, after)) :
    after = tables ∨ ∃ movements, Written tables after movements ∧
      (RestoresTracked tables consumed → PutsOnTracked tables movements) := by
  unfold reverseSale at h
  dsimp only at h
  split at h
  · rcases written_reverseLegacySale hStock h with hSame | ⟨movements, hWritten, hPuts⟩
    · exact .inl hSame
    · exact .inr ⟨movements, hWritten, fun _ => hPuts⟩
  · split at h
    · cases h
      exact .inl rfl
    · obtain ⟨⟨plan, skipped⟩, hRestore, h⟩ := bind_eq_ok.mp h
      obtain ⟨stored, hPersist, h⟩ := bind_eq_ok.mp h
      cases pure_eq_ok.mp h
      obtain ⟨hWritten, hEntries⟩ := written_restore hStock
        (fun plan next product movement hEmits => by
          funext change
          rw [hEmits.has]) hRestore hPersist
      refine .inr ⟨plan.movements, hWritten, ?_⟩
      intro hTracked movement hMovement
      right
      obtain ⟨change, hChange, hSame⟩ := exists_change_of_entries hEntries hMovement
      obtain ⟨hKept, hDrops⟩ := List.mem_filter.mp hChange
      obtain ⟨hIn, hHas⟩ := List.mem_filter.mp hKept
      obtain ⟨restored, hRestored, rfl⟩ := List.mem_map.mp hIn
      obtain ⟨source, hSource, rfl⟩ := List.mem_map.mp hRestored
      obtain ⟨hSource, hDelta⟩ := List.mem_filter.mp hSource
      have hBucket := (Prod.mk.inj hSame).1
      rw [show movement.bucket = _ from hBucket.symm]
      exact tracked_of_restored hStock hTracked hSource (by simpa using hDelta) rfl hHas
        (by simpa using hDrops)

end

end Houndfe.Inventory
