import Houndfe.Inventory.StockPlan

/-! The single writer of stock quantities. Each method plans over the rows it locked and
writes the touched rows and the movement rows in the transaction of its caller, so that a
throw leaves the tables as they were. -/

namespace Houndfe.Inventory

inductive StockMovementType where
  | opening
  | initial
  | adjustment
  | sale
  | saleCancellation
  | removal
  deriving DecidableEq, Repr

inductive StockMovementGroupType where
  | sale
  | adjustment
  | product
  deriving DecidableEq, Repr

/-- What all rows of one call share. -/
structure StockJournalContext where
  type : StockMovementType
  groupType : StockMovementGroupType
  groupId : String

structure StockMovementRow extends PlannedMovement where
  type : StockMovementType
  groupType : StockMovementGroupType
  groupId : String
  deriving DecidableEq, Repr

inductive ProductType where
  | product
  | service
  deriving DecidableEq, Repr

structure ProductRow extends ProductStockState where
  type : ProductType
  useLotsAndExpirations : Bool
  deriving DecidableEq, Repr

/-- The tables of one tenant; lots and variants stand in the row of their product, with which
they are deleted. -/
structure StockTables where
  products : List ProductRow
  movements : List StockMovementRow
  deriving DecidableEq, Repr

def StockTables.stock (tables : StockTables) : List ProductStockState :=
  tables.products.map (·.toProductStockState)

def StockTables.findProduct (tables : StockTables) (id : String) : Option ProductRow :=
  Keyed.lookup (fun row : ProductRow => row.id) tables.products id

namespace StockJournalWriter

/-- Load the products that the call names, with their lots and variants. -/
def lockAndPlan (tables : StockTables) (productIds : List String) (today : String) : StockPlan :=
  StockPlan.create (tables.stock.filter fun product => productIds.contains product.id) today

def maxPostgresInt : Int := 2147483647

/-- What an INT column can hold. -/
def fitsColumn (value : Int) : Bool :=
  -2147483648 ≤ value && value ≤ maxPostgresInt

def fitsColumns (plan : StockPlan) : Bool :=
  plan.touchedProducts.all (fun touched => fitsColumn touched.quantity) &&
    plan.touchedLots.all (fun touched => fitsColumn touched.2) &&
    plan.touchedVariants.all (fun touched => fitsColumn touched.2) &&
    plan.movements.all fun movement => fitsColumn movement.delta &&
      fitsColumn movement.balanceAfter && fitsColumn movement.productBalanceAfter

def storedLot (plan : StockPlan) (lot : LotStockState) : LotStockState :=
  match Keyed.lookup Prod.fst plan.touchedLots lot.id with
  | some (_, quantity) =>
      { lot with quantity := quantity, stockVersion := lot.stockVersion + 1 }
  | none => lot

def storedVariant (plan : StockPlan) (variant : VariantStockState) : VariantStockState :=
  match Keyed.lookup Prod.fst plan.touchedVariants variant.id with
  | some (_, quantity) =>
      { variant with quantity := quantity, stockVersion := variant.stockVersion + 1 }
  | none => variant

/-- The product after the updates by id of the touched rows. -/
def storedProduct (plan : StockPlan) (product : ProductStockState) : ProductStockState :=
  let touched := Keyed.lookup TouchedProduct.id plan.touchedProducts product.id
  { product with
    quantity := (touched.map (·.quantity)).getD product.quantity
    stockVersion := product.stockVersion +
      if (touched.map (·.bumpVersion)).getD false then 1 else 0
    lots := product.lots.map (storedLot plan)
    variants := product.variants.map (storedVariant plan) }

def movementRow (context : StockJournalContext) (movement : PlannedMovement) :
    StockMovementRow :=
  { movement with
    type := context.type
    groupType := context.groupType
    groupId := context.groupId }

def persist (plan : StockPlan) (context : StockJournalContext) (tables : StockTables) :
    Except StockError StockTables :=
  if fitsColumns plan then
    .ok {
      products := tables.products.map fun row =>
        { row with toProductStockState := storedProduct plan row.toProductStockState }
      movements := tables.movements ++ plan.movements.map (movementRow context) }
  else .error .columnOverflow

/-- The plan that a loop left behind, unless the loop threw. -/
def settle : StockPlan × Option StockError → Except StockError StockPlan
  | (plan, none) => .ok plan
  | (_, some e) => .error e

/-- Explicit signed bucket changes. -/
def apply (today : String) (changes : List StockChange) (context : StockJournalContext)
    (tables : StockTables) : Except StockError StockTables := do
  let plan ← settle
    ((lockAndPlan tables (changes.map (·.bucket.productId)) today).applyEach changes)
  persist plan context tables

def chargeEach : StockPlan → List StockChargeItem → StockPlan × Option StockError
  | plan, [] => (plan, none)
  | plan, item :: rest =>
      match plan.charge item with
      | (next, none) => chargeEach next rest
      | (next, some e) => (next, some e)

/-- Charges sale lines, with one `SALE` row for each bucket they take from. -/
def charge (today : String) (items : List StockChargeItem) (saleId : String)
    (tables : StockTables) : Except StockError StockTables := do
  let plan ← settle (chargeEach (lockAndPlan tables (items.map (·.productId)) today) items)
  persist plan ⟨.sale, .sale, saleId⟩ tables

/-! ### Reversing a sale -/

/-- The bucket a consumed movement goes back to: its own, or the untracked portion when its
lot no longer exists. -/
def reversalBucket (existingLotIds : List String) (movement : PlannedMovement) :
    StockBucketRef :=
  match movement.bucketKind, movement.variantId.filter (· ≠ ""), movement.lotId.filter (· ≠ "") with
  | .variant, some variantId, _ => .variant movement.productId variantId
  | .lot, _, some lotId =>
      if existingLotIds.contains lotId then .lot movement.productId lotId
      else .productUntracked movement.productId
  | _, _, _ => .productUntracked movement.productId

section

variable {existingLotIds : List String} {movement : PlannedMovement}

theorem productId_reversalBucket :
    (reversalBucket existingLotIds movement).productId = movement.productId := by
  unfold reversalBucket
  split
  · rfl
  · split <;> rfl
  · rfl

theorem variantId_of_reversalBucket {productId variantId : String}
    (h : reversalBucket existingLotIds movement = .variant productId variantId) :
    movement.variantId = some variantId := by
  unfold reversalBucket at h
  split at h
  · next hVariant =>
      cases h
      exact (Option.filter_eq_some_iff.mp hVariant).1
  · split at h <;> cases h
  · cases h

theorem lotId_of_reversalBucket {productId lotId : String}
    (h : reversalBucket existingLotIds movement = .lot productId lotId) :
    movement.lotId = some lotId := by
  unfold reversalBucket at h
  split at h
  · cases h
  · next hLot =>
      split at h
      · cases h
        exact (Option.filter_eq_some_iff.mp hLot).1
      · cases h
  · cases h

end

/-- The changes that restore the movements of a sale: same bucket, inverted sign. -/
def mapSaleReversal (saleMovements : List PlannedMovement) (existingLotIds : List String) :
    List StockChange :=
  (saleMovements.filter (·.delta < 0)).map fun movement =>
    { bucket := reversalBucket existingLotIds movement, delta := -movement.delta }

/-- Apply the changes that `keep` keeps, and count the others. -/
def restoreEach (keep : StockPlan → StockChange → Bool) :
    StockPlan → Nat → List StockChange → Except StockError (StockPlan × Nat)
  | plan, skipped, [] => .ok (plan, skipped)
  | plan, skipped, change :: rest =>
      if keep plan change then do
        let next ← plan.apply change
        restoreEach keep next skipped rest
      else restoreEach keep plan (skipped + 1) rest

inductive SaleReversalOutcome where
  | reversed (movements : List PlannedMovement) (skipped : Nat)
  | nothingToRestore
  | alreadyReversed

structure SaleToReverse where
  saleId : String
  lines : List StockChargeItem
  confirmedAt : Option Int

/-- The rows of a sale with this type. -/
def rowsOfSale (tables : StockTables) (saleId : String) (type : StockMovementType) :
    List StockMovementRow :=
  tables.movements.filter fun row =>
    row.groupType = .sale && row.groupId = saleId && row.type = type

def cancellation (saleId : String) : StockJournalContext :=
  ⟨.saleCancellation, .sale, saleId⟩

def legacyChange (line : StockChargeItem) : StockChange where
  bucket :=
    match line.variantId.filter (· ≠ "") with
    | some variantId => .variant line.productId variantId
    | none => .productUntracked line.productId
  delta := line.quantity

/-- `tracksStock` of the plan. -/
def tracksStock (plan : StockPlan) (productId : String) : Bool :=
  ((plan.findProduct productId).map (·.useStock)).getD false

/-- A sale confirmed before the journal went live is restored from its lines. -/
def reverseLegacySale (today : String) (activatedAt : Option Int) (sale : SaleToReverse)
    (tables : StockTables) : Except StockError (SaleReversalOutcome × StockTables) :=
  let lines := sale.lines.filter (0 < ·.quantity)
  match lines, sale.confirmedAt with
  | [], _ => .ok (.nothingToRestore, tables)
  | _, none => .ok (.nothingToRestore, tables)
  | _, some confirmedAt =>
      match activatedAt with
      | none => .error .activationMarkerMissing
      | some activation =>
          if confirmedAt ≥ activation then .ok (.nothingToRestore, tables)
          else if rowsOfSale tables sale.saleId .saleCancellation ≠ [] then
            .ok (.alreadyReversed, tables)
          else do
            let (plan, skipped) ← restoreEach
              (fun plan change =>
                plan.has change.bucket && tracksStock plan change.bucket.productId)
              (lockAndPlan tables (lines.map (·.productId)) today) 0 (lines.map legacyChange)
            let after ← persist plan (cancellation sale.saleId) tables
            return (.reversed plan.movements skipped, after)

/-- The lots of the consumed movements that still exist. -/
def existingLots (plan : StockPlan) (consumed : List PlannedMovement) : List String :=
  consumed.filterMap fun movement =>
    match movement.lotId.filter (· ≠ "") with
    | some lotId => if plan.has (.lot movement.productId lotId) then some lotId else none
    | none => none

/-- Restores what a sale consumed, once; `consumed` is what the query for its `SALE` rows
returned. -/
def reverseSale (today : String) (activatedAt : Option Int) (sale : SaleToReverse)
    (consumed : List StockMovementRow) (tables : StockTables) :
    Except StockError (SaleReversalOutcome × StockTables) :=
  let movements := consumed.map (·.toPlannedMovement)
  if movements = [] then reverseLegacySale today activatedAt sale tables
  else
    let start := lockAndPlan tables (movements.map (·.productId)) today
    if rowsOfSale tables sale.saleId .saleCancellation ≠ [] then .ok (.alreadyReversed, tables)
    else do
      let changes := mapSaleReversal movements (existingLots start movements)
      let (plan, skipped) ← restoreEach (fun plan change => plan.has change.bucket) start 0
        (changes.map fun change => { change with skipIfNotStocked := true })
      let after ← persist plan (cancellation sale.saleId) tables
      return (.reversed plan.movements skipped, after)

end StockJournalWriter

end Houndfe.Inventory
