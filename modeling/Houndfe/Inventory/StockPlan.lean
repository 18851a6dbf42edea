import Houndfe.Base.Journal
import Houndfe.Base.Keyed
import Mathlib.Data.Prod.Lex
import Mathlib.Data.String.Basic

/-! The stock a journal write starts from (products with their lots and variants), the changes
asked of it, the errors they meet, the FEFO split of a sale line; and the planner of one journal
write: signed changes applied to a copy of the stock state, the movement rows they emit, and the
rows that have to be persisted. -/

namespace Houndfe.Inventory

inductive StockBucketKind where
  | productUntracked
  | variant
  | lot
  deriving DecidableEq, Repr

/-- The smallest unit whose quantity is journaled. -/
inductive StockBucketRef where
  | productUntracked (productId : String)
  | variant (productId variantId : String)
  | lot (productId lotId : String)
  deriving DecidableEq, Repr

def StockBucketRef.productId : StockBucketRef → String
  | .productUntracked productId => productId
  | .variant productId _ => productId
  | .lot productId _ => productId

section

variable (productId id : String)

@[simp] theorem StockBucketRef.productId_productUntracked :
    (StockBucketRef.productUntracked productId).productId = productId := rfl

@[simp] theorem StockBucketRef.productId_variant :
    (StockBucketRef.variant productId id).productId = productId := rfl

@[simp] theorem StockBucketRef.productId_lot :
    (StockBucketRef.lot productId id).productId = productId := rfl

end

/-- One quantity change of one bucket; `delta` is any number the caller passes. -/
structure StockChange where
  bucket : StockBucketRef
  delta : Rat
  expectedVersion : Option Int := none
  skipIfNotStocked : Bool := false

/-- A sale line to charge; an empty variant id counts as none. -/
structure StockChargeItem where
  productId : String
  variantId : Option String
  quantity : Rat

structure LotStockState where
  id : String
  lotNumber : String
  quantity : Int
  stockVersion : Int
  /-- Milliseconds since the epoch. -/
  expirationDate : Int
  deriving DecidableEq, Repr

structure VariantStockState where
  id : String
  name : String
  quantity : Int
  stockVersion : Int
  deriving DecidableEq, Repr

@[ext] structure ProductStockState where
  id : String
  name : String
  quantity : Int
  stockVersion : Int
  useStock : Bool
  hasVariants : Bool
  lots : List LotStockState
  variants : List VariantStockState
  deriving DecidableEq, Repr

/-- What the journal refuses, with the bucket kind and id that its messages name. -/
inductive StockError where
  | insufficientStock (bucketKind bucketId : String) (available requested : Int)
  | stockVersionConflict (bucketKind bucketId : String) (currentVersion : Int)
  | stockBucketNotFound (bucketKind bucketId : String)
  | stockNotTracked (productId : String)
  | rangeError (message : String)
  /-- A value that its INT column cannot hold. -/
  | columnOverflow
  /-- The migration that started the journal left no marker. -/
  | activationMarkerMissing
  deriving DecidableEq

/-! ### Calendar dates -/

def padded (width n : Nat) : String :=
  String.ofList ((Nat.toDigits 10 n).leftpad width '0')

/-- The proleptic Gregorian date of a day counted from 1970-01-01. -/
def civilDate (day : Int) : Int × Nat × Nat :=
  let z := day + 719468
  let era := z / 146097
  let dayOfEra := z % 146097
  let yearOfEra :=
    (dayOfEra - dayOfEra / 1460 + dayOfEra / 36524 - dayOfEra / 146096) / 365
  let dayOfYear := dayOfEra - (365 * yearOfEra + yearOfEra / 4 - yearOfEra / 100)
  let monthFromMarch := (5 * dayOfYear + 2) / 153
  let dayOfMonth := dayOfYear - (153 * monthFromMarch + 2) / 5 + 1
  let month := if monthFromMarch < 10 then monthFromMarch + 3 else monthFromMarch - 9
  let year := yearOfEra + era * 400 + if month ≤ 2 then 1 else 0
  (year, month.toNat, dayOfMonth.toNat)

/-- `toISOString().slice(0, 10)`: years outside 0..9999 are written with a sign and six
digits, so that the slice loses the day. -/
def isoDate (time : Int) : String :=
  let (year, month, day) := civilDate (time / 86400000)
  let yearText :=
    if 0 ≤ year ∧ year ≤ 9999 then padded 4 year.toNat
    else (if year < 0 then "-" else "+") ++ padded 6 year.natAbs
  String.ofList
    ((yearText ++ "-" ++ padded 2 month ++ "-" ++ padded 2 day ++ "T").toList.take 10)

/-- A lot is expired when its expiration date is before `today` (`YYYY-MM-DD`). -/
def isLotExpired (expirationDate : Int) (today : String) : Bool :=
  isoDate expirationDate < today

/-! ### The FEFO split of a sale line -/

/-- `lotId` is absent for the untracked portion of the product. -/
structure FefoAllocation where
  lotId : Option String
  quantity : Int
  deriving DecidableEq, Repr

/-- Take from the lots in order until nothing remains; what remains comes second. -/
def takeFromLots (remaining : Int) : List LotStockState → List FefoAllocation × Int
  | [] => ([], remaining)
  | lot :: rest =>
      if remaining = 0 then ([], 0)
      else
        let take := min lot.quantity remaining
        let (allocations, left) := takeFromLots (remaining - take) rest
        (⟨some lot.id, take⟩ :: allocations, left)

/-- Sellable lots by expiration then id, the remainder from the untracked portion. -/
def allocateFefo (productId : Option String) (quantity : Rat) (untrackedAvailable : Int)
    (lots : List LotStockState) (today : String) : Except StockError (List FefoAllocation) :=
  if !quantity.isInt || quantity ≤ 0 then
    .error (.rangeError "FEFO quantity must be a positive integer")
  else
    let sellable := Keyed.sortByKey (fun lot => toLex (lot.expirationDate, lot.id))
      (lots.filter fun lot => 0 < lot.quantity && !isLotExpired lot.expirationDate today)
    let (allocations, remaining) := takeFromLots quantity.num sellable
    if remaining > 0 then
      if untrackedAvailable < remaining then
        .error (.insufficientStock "PRODUCT" (productId.getD "sellable")
          ((sellable.map (·.quantity)).sum + max untrackedAvailable 0) quantity.num)
      else .ok (allocations ++ [⟨none, remaining⟩])
    else .ok allocations

end Houndfe.Inventory

/-! ### The planner -/

namespace Houndfe.Inventory

/-- A movement row before an id, a date and an actor are attached. -/
structure PlannedMovement where
  bucketKind : StockBucketKind
  productId : String
  variantId : Option String
  lotId : Option String
  productName : String
  variantLabel : Option String
  lotNumber : Option String
  delta : Int
  balanceAfter : Int
  productBalanceAfter : Int
  bucketVersionAfter : Int
  deriving DecidableEq, Repr

structure TouchedProduct where
  id : String
  quantity : Int
  bumpVersion : Bool
  deriving DecidableEq, Repr

/-- The plan; the maps of the source are lists with one entry a key. -/
structure StockPlan where
  products : List ProductStockState
  today : String
  movements : List PlannedMovement
  touchedProducts : List TouchedProduct
  touchedLots : List (String × Int)
  touchedVariants : List (String × Int)

def StockPlan.create (products : List ProductStockState) (today : String) : StockPlan :=
  ⟨products, today, [], [], [], []⟩

/-- What the product has outside its lots. -/
def ProductStockState.untracked (product : ProductStockState) : Int :=
  product.quantity - (product.lots.map (·.quantity)).sum

/-- The total that a movement row of the product shows. -/
def ProductStockState.productBalance (product : ProductStockState) : Int :=
  if product.hasVariants then (product.variants.map (·.quantity)).sum else product.quantity

namespace StockPlan

variable (plan : StockPlan)

def findProduct (id : String) : Option ProductStockState :=
  Keyed.lookup ProductStockState.id plan.products id

/-- The loaded products with the one of this id overwritten. -/
def setProduct (product : ProductStockState) : List ProductStockState :=
  plan.products.map fun other => if other.id = product.id then product else other

/-- Whether the bucket exists in the loaded state. -/
def has : StockBucketRef → Bool
  | .productUntracked productId =>
      match plan.findProduct productId with
      | some product => !product.hasVariants
      | none => false
  | .lot productId lotId =>
      match plan.findProduct productId with
      | some product => product.lots.any fun lot => lot.id = lotId
      | none => false
  | .variant productId variantId =>
      match plan.findProduct productId with
      | some product => product.variants.any fun variant => variant.id = variantId
      | none => false

end StockPlan

def StockChange.versionConflict (change : StockChange) (current : Int) : Bool :=
  match change.expectedVersion with
  | some expected => expected != current
  | none => false

/-! ### What one accepted change writes -/

def ProductStockState.withLot (product : ProductStockState) (lotId : String) (delta : Int) :
    ProductStockState :=
  { product with
    quantity := product.quantity + delta
    lots := product.lots.map fun lot =>
      if lot.id = lotId then { lot with quantity := lot.quantity + delta } else lot }

def ProductStockState.withVariant (product : ProductStockState) (variantId : String)
    (delta : Int) : ProductStockState :=
  { product with
    variants := product.variants.map fun variant =>
      if variant.id = variantId then { variant with quantity := variant.quantity + delta }
      else variant }

/-- The movement row of a change, with the totals of the product it left behind. -/
def ProductStockState.record (product : ProductStockState) (bucketKind : StockBucketKind)
    (lot : Option LotStockState) (variant : Option VariantStockState)
    (delta balanceAfter bucketVersionAfter : Int) : PlannedMovement where
  bucketKind := bucketKind
  productId := product.id
  variantId := variant.map (·.id)
  lotId := lot.map (·.id)
  productName := product.name
  variantLabel := variant.map (·.name)
  lotNumber := lot.map (·.lotNumber)
  delta := delta
  balanceAfter := balanceAfter
  productBalanceAfter := product.productBalance
  bucketVersionAfter := bucketVersionAfter

namespace StockPlan

variable (plan : StockPlan)

def moveUntracked (product : ProductStockState) (delta : Int) : StockPlan :=
  let moved := { product with quantity := product.quantity + delta }
  { plan with
    products := plan.setProduct moved
    touchedProducts := Keyed.upsert TouchedProduct.id
      ⟨product.id, moved.quantity, true⟩ plan.touchedProducts
    movements := plan.movements ++ [moved.record .productUntracked none none delta
      (product.untracked + delta) (product.stockVersion + 1)] }

def moveLot (product : ProductStockState) (lot : LotStockState) (delta : Int) : StockPlan :=
  let moved := product.withLot lot.id delta
  let prior := Keyed.lookup TouchedProduct.id plan.touchedProducts product.id
  { plan with
    products := plan.setProduct moved
    touchedLots := Keyed.upsert Prod.fst (lot.id, lot.quantity + delta) plan.touchedLots
    touchedProducts := Keyed.upsert TouchedProduct.id
      ⟨product.id, moved.quantity, (prior.map (·.bumpVersion)).getD false⟩ plan.touchedProducts
    movements := plan.movements ++ [moved.record .lot (some lot) none delta
      (lot.quantity + delta) (lot.stockVersion + 1)] }

def moveVariant (product : ProductStockState) (variant : VariantStockState) (delta : Int) :
    StockPlan :=
  let moved := product.withVariant variant.id delta
  { plan with
    products := plan.setProduct moved
    touchedVariants :=
      Keyed.upsert Prod.fst (variant.id, variant.quantity + delta) plan.touchedVariants
    movements := plan.movements ++ [moved.record .variant none (some variant) delta
      (variant.quantity + delta) (variant.stockVersion + 1)] }

/-! ### Applying a change -/

def applyUntracked (productId : String) (delta : Int) (change : StockChange) :
    Except StockError StockPlan :=
  match plan.findProduct productId with
  | none => .error (.stockBucketNotFound "PRODUCT_UNTRACKED" productId)
  | some product =>
      if product.hasVariants then .error (.stockBucketNotFound "PRODUCT_UNTRACKED" productId)
      else if !product.useStock then
        if change.skipIfNotStocked then .ok plan else .error (.stockNotTracked productId)
      else if change.versionConflict product.stockVersion then
        .error (.stockVersionConflict "PRODUCT_UNTRACKED" productId product.stockVersion)
      else if product.untracked + delta < 0 then
        .error (.insufficientStock "PRODUCT_UNTRACKED" productId product.untracked (-delta))
      else .ok (plan.moveUntracked product delta)

def applyLot (productId lotId : String) (delta : Int) (change : StockChange) :
    Except StockError StockPlan :=
  match plan.findProduct productId with
  | none => .error (.stockBucketNotFound "LOT" productId)
  | some product =>
      match Keyed.lookup LotStockState.id product.lots lotId with
      | none => .error (.stockBucketNotFound "LOT" lotId)
      | some lot =>
          if product.hasVariants then .error (.stockBucketNotFound "LOT" lotId)
          else if change.versionConflict lot.stockVersion then
            .error (.stockVersionConflict "LOT" lotId lot.stockVersion)
          else if lot.quantity + delta < 0 then
            .error (.insufficientStock "LOT" lotId lot.quantity (-delta))
          else if product.quantity + delta < 0 then
            .error (.insufficientStock "PRODUCT" productId product.quantity (-delta))
          else .ok (plan.moveLot product lot delta)

def applyVariant (productId variantId : String) (delta : Int) (change : StockChange) :
    Except StockError StockPlan :=
  match plan.findProduct productId with
  | none => .error (.stockBucketNotFound "VARIANT" productId)
  | some product =>
      match Keyed.lookup VariantStockState.id product.variants variantId with
      | none => .error (.stockBucketNotFound "VARIANT" variantId)
      | some variant =>
          if change.versionConflict variant.stockVersion then
            .error (.stockVersionConflict "VARIANT" variantId variant.stockVersion)
          else if variant.quantity + delta < 0 then
            .error (.insufficientStock "VARIANT" variantId variant.quantity (-delta))
          else .ok (plan.moveVariant product variant delta)

section

variable {plan} {next : StockPlan} {productId lotId variantId : String} {delta : Int}
  {change : StockChange}

/-- The untracked bucket takes a change of a tracked product without variants, and drops one
of an untracked product when the change allows it. -/
theorem applyUntracked_eq_ok : plan.applyUntracked productId delta change = .ok next ↔
    ∃ product, plan.findProduct productId = some product ∧ product.hasVariants = false ∧
      (product.useStock = false ∧ change.skipIfNotStocked = true ∧ plan = next ∨
        product.useStock = true ∧ change.versionConflict product.stockVersion = false ∧
          0 ≤ product.untracked + delta ∧ plan.moveUntracked product delta = next) := by
  unfold applyUntracked
  cases hFound : plan.findProduct productId with
  | none => simp
  | some product =>
      simp only [Option.some.injEq, exists_eq_left']
      cases hVariants : product.hasVariants with
      | true => simp
      | false =>
          cases hTracked : product.useStock with
          | false => cases hSkip : change.skipIfNotStocked <;> simp
          | true =>
              cases hConflict : change.versionConflict product.stockVersion with
              | true => simp
              | false =>
                  rcases Int.lt_or_le (product.untracked + delta) 0 with hLack | hEnough
                  · simp [hLack, Int.not_le.mpr hLack]
                  · simp [hEnough, Int.not_lt.mpr hEnough]

/-- A lot takes a change of a product without variants, tracked or not. -/
theorem applyLot_eq_ok : plan.applyLot productId lotId delta change = .ok next ↔
    ∃ product lot, plan.findProduct productId = some product ∧
      Keyed.lookup LotStockState.id product.lots lotId = some lot ∧ product.hasVariants = false ∧
      change.versionConflict lot.stockVersion = false ∧ 0 ≤ lot.quantity + delta ∧
      0 ≤ product.quantity + delta ∧ plan.moveLot product lot delta = next := by
  unfold applyLot
  cases hFound : plan.findProduct productId with
  | none => simp
  | some product =>
      cases hLot : Keyed.lookup LotStockState.id product.lots lotId with
      | none => simp [hLot]
      | some lot =>
          simp only [Option.some.injEq, exists_and_left, exists_eq_left', hLot]
          cases hVariants : product.hasVariants with
          | true => simp
          | false =>
              cases hConflict : change.versionConflict lot.stockVersion with
              | true => simp
              | false =>
                  rcases Int.lt_or_le (lot.quantity + delta) 0 with hLack | hEnough
                  · simp [hLack, Int.not_le.mpr hLack]
                  · rcases Int.lt_or_le (product.quantity + delta) 0 with hLack | hTotal
                    · simp [hEnough, hLack, Int.not_lt.mpr hEnough, Int.not_le.mpr hLack]
                    · simp [hEnough, hTotal, Int.not_lt.mpr hEnough, Int.not_lt.mpr hTotal]

/-- A variant takes a change whatever the flags of its product. -/
theorem applyVariant_eq_ok : plan.applyVariant productId variantId delta change = .ok next ↔
    ∃ product variant, plan.findProduct productId = some product ∧
      Keyed.lookup VariantStockState.id product.variants variantId = some variant ∧
      change.versionConflict variant.stockVersion = false ∧ 0 ≤ variant.quantity + delta ∧
      plan.moveVariant product variant delta = next := by
  unfold applyVariant
  cases hFound : plan.findProduct productId with
  | none => simp
  | some product =>
      cases hVariant : Keyed.lookup VariantStockState.id product.variants variantId with
      | none => simp [hVariant]
      | some variant =>
          simp only [Option.some.injEq, exists_and_left, exists_eq_left', hVariant]
          cases hConflict : change.versionConflict variant.stockVersion with
          | true => simp
          | false =>
              rcases Int.lt_or_le (variant.quantity + delta) 0 with hLack | hEnough
              · simp [hLack, Int.not_le.mpr hLack]
              · simp [hEnough, Int.not_lt.mpr hEnough]

end

/-- All that `apply` throws it throws before its first write. -/
def apply (change : StockChange) : Except StockError StockPlan :=
  if !change.delta.isInt || change.delta = 0 then
    .error (.rangeError "Stock delta must be a non-zero integer")
  else
    match change.bucket with
    | .productUntracked productId => plan.applyUntracked productId change.delta.num change
    | .lot productId lotId => plan.applyLot productId lotId change.delta.num change
    | .variant productId variantId =>
        plan.applyVariant productId variantId change.delta.num change

/-- A loop of `apply`: the plan as it stands when the loop ends or throws. -/
def applyEach : StockPlan → List StockChange → StockPlan × Option StockError
  | plan, [] => (plan, none)
  | plan, change :: rest =>
      match plan.apply change with
      | .error e => (plan, some e)
      | .ok next => applyEach next rest

/-- The change of one allocation of a sale line; an empty lot id counts as none. -/
def allocationChange (productId : String) (allocation : FefoAllocation) : StockChange where
  bucket :=
    match allocation.lotId.filter (· ≠ "") with
    | some lotId => .lot productId lotId
    | none => .productUntracked productId
  delta := -allocation.quantity

/-- Sale line: variant lines hit the variant, product lines go FEFO. -/
def charge (item : StockChargeItem) : StockPlan × Option StockError :=
  match item.variantId.filter (· ≠ "") with
  | some variantId =>
      plan.applyEach [{ bucket := .variant item.productId variantId, delta := -item.quantity }]
  | none =>
      match plan.findProduct item.productId with
      | none => (plan, some (.stockBucketNotFound "PRODUCT_UNTRACKED" item.productId))
      | some product =>
          if !product.useStock then (plan, none)
          else
            match allocateFefo (some item.productId) item.quantity product.untracked
              product.lots plan.today with
            | .error e => (plan, some e)
            | .ok allocations =>
                plan.applyEach (allocations.map (allocationChange item.productId))

end StockPlan

end Houndfe.Inventory
