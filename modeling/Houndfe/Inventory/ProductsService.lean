import Houndfe.Inventory.StockJournal
import Houndfe.Shared.DomainError
import Houndfe.Shared.Text

/-! The product operations that create, configure and remove stock: the stock fields of the
product entity, and the service methods that write its rows and call the journal. -/

namespace Houndfe.Inventory

/-! ### The product entity -/

/-- The stock configuration of a product as the entity holds it. -/
structure Product where
  id : String
  type : ProductType
  useStock : Bool
  useLotsAndExpirations : Bool
  quantity : Rat
  hasVariants : Bool

/-- Untracked products and products with variants hold no quantity of their own. -/
def Product.normalizeStockConfiguration (product : Product) : Product :=
  if !product.useStock then
    { product with useLotsAndExpirations := false, quantity := 0 }
  else if product.hasVariants then
    { product with useLotsAndExpirations := false, quantity := 0 }
  else product

structure CreateVariantDto where
  name : Option String
  option : Option String
  value : Option String
  quantity : Option Rat

structure CreateLotDto where
  lotNumber : String
  quantity : Option Rat
  expirationDate : Int

/-- Inline variants and lots stand with the id they are stored under. -/
structure CreateProductDto where
  name : String
  type : Option ProductType
  useStock : Option Bool
  useLotsAndExpirations : Option Bool
  quantity : Option Rat
  hasVariants : Option Bool
  variants : List (String × CreateVariantDto)
  lots : List (String × CreateLotDto)

structure UpdateProductDto where
  type : Option ProductType
  useStock : Option Bool
  useLotsAndExpirations : Option Bool
  hasVariants : Option Bool
  /-- Carried only to be rejected. -/
  quantity : Option Rat

/-- What a product operation throws: a rule of the domain, an error of the journal, or the
unique key of a table. -/
inductive ProductError where
  | domain (error : DomainError)
  | stock (error : StockError)
  | uniqueViolation (table : String)

abbrev Outcome := Except ProductError StockTables

/-- A write of the journal inside a product operation. -/
def journaled (result : Except StockError StockTables) : Outcome :=
  result.mapError .stock

def refuse (error : DomainError) : Outcome :=
  .error (.domain error)

/-- `Product.create`: services and lot products start empty. -/
def Product.create (id : String) (dto : CreateProductDto) : Except DomainError Product :=
  let isService := dto.type = some .service
  let startsEmpty := isService ∨ dto.useLotsAndExpirations = some true
  let quantity := if startsEmpty then 0 else dto.quantity.getD 0
  if quantity < 0 then .error (invalidArgumentError "Quantity cannot be negative")
  else .ok (Product.normalizeStockConfiguration {
    id := id
    type := dto.type.getD .product
    useStock := if isService then false else dto.useStock.getD true
    useLotsAndExpirations := if isService then false else dto.useLotsAndExpirations.getD false
    quantity := quantity
    hasVariants := dto.hasVariants.getD false })

/-- The entity of a stored product. -/
def Product.fromPersistence (row : ProductRow) : Product :=
  Product.normalizeStockConfiguration {
    id := row.id
    type := row.type
    useStock := row.useStock
    useLotsAndExpirations := row.useLotsAndExpirations
    quantity := row.quantity
    hasVariants := row.hasVariants }

def typeChangeBlocked : DomainError :=
  businessRuleViolationError "Cannot convert a PRODUCT to SERVICE while stock or active lots remain"
    "PRODUCT_TYPE_CHANGE_BLOCKED"

/-- `assertTypeChangeAllowed` of a product that becomes a service. -/
def Product.typeChangeAllowed (current : Product) (activeLots : Nat) : Bool :=
  !(0 < current.quantity || 0 < activeLots)

/-- A variant is named by its value when option and value are given. -/
def resolveVariantName (fallbackName option value : Option String) : Except DomainError String :=
  let normalizedOption := Text.trim (option.getD "")
  let normalizedValue := Text.trim (value.getD "")
  if normalizedOption ≠ "" ∧ normalizedValue ≠ "" then .ok normalizedValue
  else if Text.trim (fallbackName.getD "") ≠ "" then .ok (Text.trim (fallbackName.getD ""))
  else .error
    (invalidArgumentError "Variant name is required when option/value are not both provided")

/-! ### Rows -/

def StockTables.updateProduct (tables : StockTables) (id : String)
    (change : ProductRow → ProductRow) : StockTables :=
  { tables with
    products := tables.products.map fun row => if row.id = id then change row else row }

def StockTables.hasLot (tables : StockTables) (id : String) : Bool :=
  tables.products.any fun row => row.lots.any fun lot => lot.id = id

def StockTables.hasVariant (tables : StockTables) (id : String) : Bool :=
  tables.products.any fun row => row.variants.any fun variant => variant.id = id

/-- An empty variant row. -/
def newVariant (id name : String) : VariantStockState :=
  ⟨id, name, 0, 0⟩

/-- An empty lot row. -/
def newLot (id : String) (dto : CreateLotDto) : LotStockState :=
  ⟨id, Text.trim dto.lotNumber, 0, 0, dto.expirationDate⟩

/-! ### The product side of the journal -/

/-- `INITIAL` movements of the strictly positive deltas. -/
def recordInitial (today productId : String) (changes : List StockChange)
    (tables : StockTables) : Outcome :=
  match changes.filter (0 < ·.delta) with
  | [] => .ok tables
  | initial => journaled
      (StockJournalWriter.apply today initial ⟨.initial, .product, productId⟩ tables)

def removal (today productId : String) (changes : List StockChange) (tables : StockTables) :
    Outcome :=
  match changes.filter (·.delta < 0) with
  | [] => .ok tables
  | removable => journaled
      (StockJournalWriter.apply today removable ⟨.removal, .product, productId⟩ tables)

/-- The removal of all stock a product holds. -/
def removalChanges (row : ProductRow) : List StockChange :=
  let lots := Keyed.sortByKey LotStockState.id (row.lots.filter (0 < ·.quantity))
  let variants := Keyed.sortByKey VariantStockState.id (row.variants.filter (0 < ·.quantity))
  let own : List StockChange :=
    if row.hasVariants then []
    else
      let untracked := row.quantity - (lots.map (·.quantity)).sum
      (lots.map fun lot => { bucket := .lot row.id lot.id, delta := -lot.quantity }) ++
        if 0 < untracked then
          [{ bucket := .productUntracked row.id, delta := -untracked, skipIfNotStocked := true }]
        else []
  own ++ variants.map fun variant =>
    { bucket := .variant row.id variant.id, delta := -variant.quantity }

def removeProductStock (today productId : String) (tables : StockTables) : Outcome :=
  match tables.findProduct productId with
  | none => .ok tables
  | some row => removal today productId (removalChanges row) tables

def removeVariantStock (today productId variantId : String) (tables : StockTables) : Outcome :=
  match tables.findProduct productId with
  | none => .ok tables
  | some row =>
      match Keyed.lookup VariantStockState.id (row.variants.filter (0 < ·.quantity)) variantId with
      | none => .ok tables
      | some variant => removal today productId
          [{ bucket := .variant productId variantId, delta := -variant.quantity }] tables

/-! ### Creating a product -/

def inlineVariants (index : Nat) :
    List (String × CreateVariantDto) → Except DomainError (List VariantStockState)
  | [] => .ok []
  | (id, dto) :: rest =>
      match resolveVariantName dto.name dto.option dto.value with
      | .error _ => .error (invalidArgumentError ("variants[" ++ toString index ++
          "]: name is required when option/value are not both provided"))
      | .ok name => (inlineVariants (index + 1) rest).map (newVariant id name :: ·)

/-- Lot numbers are distinct within one request. -/
def duplicateLotNumber (index : Nat) (seen : List String) :
    List (String × CreateLotDto) → Option DomainError
  | [] => none
  | (_, dto) :: rest =>
      let trimmed := Text.trim dto.lotNumber
      if seen.contains trimmed then
        some (invalidArgumentError ("lots[" ++ toString index ++
          "].lotNumber: Duplicate lot number \"" ++ trimmed ++ "\" within the same request"))
      else duplicateLotNumber (index + 1) (trimmed :: seen) rest

/-- The stock that a request brings, bucket by bucket. -/
def initialChanges (product : Product) (dto : CreateProductDto) : List StockChange :=
  let own : List StockChange :=
    if 0 < product.quantity then
      [{ bucket := .productUntracked product.id, delta := product.quantity }]
    else []
  own ++
    (dto.variants.filter fun entry => 0 < entry.2.quantity.getD 0).map (fun entry =>
      { bucket := .variant product.id entry.1, delta := entry.2.quantity.getD 0 }) ++
    (dto.lots.filter fun entry => 0 < entry.2.quantity.getD 0).map fun entry =>
      { bucket := .lot product.id entry.1, delta := entry.2.quantity.getD 0 }

/-- What a service may not bring. -/
def serviceRefusal (dto : CreateProductDto) : Option DomainError :=
  if dto.type ≠ some .service then none
  else if dto.lots ≠ [] then
    some (invalidArgumentError "lots: SERVICE products cannot have lots")
  else if dto.useLotsAndExpirations = some true then
    some (invalidArgumentError "useLotsAndExpirations: SERVICE products cannot enable lots")
  else none

/-- The variant rows of a create request that keeps its rules about variants and lots. -/
def checkCreate (dto : CreateProductDto) : Except DomainError (List VariantStockState) := do
  let hasVariants := dto.hasVariants.getD false
  throwIf (dto.variants ≠ [] ∧ hasVariants = false)
    (invalidArgumentError "variants: Cannot provide variants when hasVariants is false")
  throwIf (dto.lots ≠ [] ∧ (dto.useLotsAndExpirations.getD false = false ∨ hasVariants = true))
    (invalidArgumentError "lots: Lots require useLotsAndExpirations=true and hasVariants=false")
  let variants ← inlineVariants 0 dto.variants
  match (duplicateLotNumber 0 [] dto.lots).or (serviceRefusal dto) with
  | some error => .error error
  | none => .ok variants

/-- The ids of the new rows are in no table yet. -/
def freshIds (productId : String) (dto : CreateProductDto) (tables : StockTables) : Bool :=
  (tables.findProduct productId).isNone &&
    decide (dto.variants.map Prod.fst).Nodup && decide (dto.lots.map Prod.fst).Nodup &&
    dto.variants.all (fun entry => !tables.hasVariant entry.1) &&
    dto.lots.all fun entry => !tables.hasLot entry.1

/-- A product with its inline variants and lots: the rows start at zero, and the stock of
the request is journaled once they exist. -/
def create (today productId : String) (dto : CreateProductDto) (tables : StockTables) :
    Outcome :=
  match checkCreate dto, Product.create productId dto with
  | .error error, _ => refuse error
  | .ok _, .error error => refuse error
  | .ok variants, .ok product =>
      if freshIds productId dto tables then
        let row : ProductRow := {
          id := productId
          name := dto.name
          quantity := 0
          stockVersion := 0
          useStock := product.useStock
          hasVariants := product.hasVariants
          lots := dto.lots.map fun entry => newLot entry.1 entry.2
          variants := variants
          type := product.type
          useLotsAndExpirations := product.useLotsAndExpirations }
        recordInitial today productId (initialChanges product dto)
          { tables with products := tables.products ++ [row] }
      else .error (.uniqueViolation "products")

/-! ### Updating a product -/

def productNotFound (id : String) : DomainError :=
  entityNotFoundError "Product" id

/-- The units that `assertNoStockToUntrack` counts. -/
def unitsToUntrack (product : Product) (row : ProductRow) : Rat :=
  product.quantity + ((row.variants.map (·.quantity)).sum : Int)

/-- `assertNoStockToUntrack` refuses: tracking is switched off while units remain. A product
that becomes a service has a guard of its own. -/
def untrackBlocked (dto : UpdateProductDto) (product : Product) (row : ProductRow) : Bool :=
  dto.useStock = some false && product.useStock &&
    !(product.type = .product && dto.type = some .service) && 0 < unitsToUntrack product row

def stockTrackingHasStock (id : String) (quantity : Rat) : DomainError :=
  businessRuleViolationError ("Product " ++ id ++ " still has " ++ toString quantity ++
    " units; adjust it to 0 before turning stock tracking off") "STOCK_TRACKING_HAS_STOCK"

/-- The part of an update that changes the type. -/
def changeType (today : String) (dto : UpdateProductDto) (product : Product) (row : ProductRow)
    (tables : StockTables) : Except ProductError (Product × StockTables) :=
  match product.type, dto.type with
  | .product, some .service =>
      if product.typeChangeAllowed (row.lots.filter (0 < ·.quantity)).length then do
        let emptied ← removeProductStock today product.id tables
        return ({ product with
          useStock := false, useLotsAndExpirations := false, quantity := 0 }, emptied)
      else .error (.domain typeChangeBlocked)
  | .service, some .product =>
      .ok ({ product with
        useStock := dto.useStock.getD true
        useLotsAndExpirations := dto.useLotsAndExpirations.getD false }, tables)
  | _, _ => .ok (product, tables)

/-- The part of an update that sets `hasVariants`; turning it on removes the product's own
stock first. -/
def changeHasVariants (today : String) (dto : UpdateProductDto) (product : Product)
    (tables : StockTables) : Except ProductError (Product × StockTables) :=
  match dto.hasVariants with
  | none => .ok (product, tables)
  | some hasVariants =>
      if hasVariants && !product.hasVariants then do
        let emptied ← removeProductStock today product.id tables
        return ({ product with hasVariants := true }, emptied)
      else .ok ({ product with hasVariants := hasVariants }, tables)

/-- `save` writes the configuration of the entity, never its quantity. -/
def save (product : Product) (tables : StockTables) : StockTables :=
  tables.updateProduct product.id fun row =>
    { row with
      type := product.type
      useStock := product.useStock
      useLotsAndExpirations := product.useLotsAndExpirations
      hasVariants := product.hasVariants }

def productHasVariants : DomainError :=
  businessRuleViolationError "Cannot disable variants while the Product still has Variants"
    "PRODUCT_HAS_VARIANTS"

def quantityReadOnly (resource : String) : DomainError :=
  invalidArgumentWithCode ("quantity: the stock of a " ++ resource ++
    " cannot be edited directly; use an inventory adjustment") "STOCK_QUANTITY_READ_ONLY"

def update (today id : String) (dto : UpdateProductDto) (tables : StockTables) : Outcome :=
  if dto.quantity.isSome then refuse (quantityReadOnly "product")
  else
    match tables.findProduct id with
    | none => refuse (productNotFound id)
    | some row =>
        let current := Product.fromPersistence row
        if untrackBlocked dto current row then
          refuse (stockTrackingHasStock id (unitsToUntrack current row))
        else do
          let (retyped, tables) ← changeType today dto current row tables
          let configured := { retyped with
            type := dto.type.getD retyped.type
            useStock := dto.useStock.getD retyped.useStock
            useLotsAndExpirations :=
              dto.useLotsAndExpirations.getD retyped.useLotsAndExpirations }
          let (toggled, tables) ← changeHasVariants today dto configured tables
          let product := toggled.normalizeStockConfiguration
          if dto.hasVariants = some false ∧ row.variants ≠ [] then refuse productHasVariants
          else return save product tables

/-- A product with all its stock removed first. -/
def remove (today id : String) (tables : StockTables) : Outcome :=
  match tables.findProduct id with
  | none => refuse (productNotFound id)
  | some _ => do
      let emptied ← removeProductStock today id tables
      return { emptied with products := emptied.products.filter (·.id ≠ id) }

/-! ### Variants -/

/-- The first variant takes over: the product's own stock is removed before. -/
def firstVariant (today productId : String) (tables : StockTables) : Outcome := do
  let emptied ← removeProductStock today productId tables
  return emptied.updateProduct productId fun row =>
    { row with hasVariants := true, useLotsAndExpirations := false, quantity := 0 }

def addVariant (today productId variantId : String) (dto : CreateVariantDto)
    (tables : StockTables) : Outcome :=
  match tables.findProduct productId with
  | none => refuse (productNotFound productId)
  | some row =>
      match resolveVariantName dto.name dto.option dto.value with
      | .error error => refuse error
      | .ok name =>
          if tables.hasVariant variantId then .error (.uniqueViolation "variants")
          else do
            let inserted := tables.updateProduct productId fun row =>
              { row with variants := row.variants ++ [newVariant variantId name] }
            let converted ←
              if row.hasVariants then .ok inserted else firstVariant today productId inserted
            recordInitial today productId
              [{ bucket := .variant productId variantId, delta := dto.quantity.getD 0 }] converted

def variantNotFound (id : String) : DomainError :=
  entityNotFoundError "Variant" id

/-- Delete a variant; the product that loses its last one has none any more. -/
def deleteVariant (productId variantId : String) (tables : StockTables) : StockTables :=
  tables.updateProduct productId fun row =>
    let remaining := row.variants.filter (·.id ≠ variantId)
    { row with
      variants := remaining
      hasVariants := if remaining = [] then false else row.hasVariants }

def removeVariant (today productId variantId : String) (tables : StockTables) : Outcome :=
  match tables.findProduct productId with
  | none => refuse (variantNotFound variantId)
  | some row =>
      if row.variants.any fun variant => variant.id = variantId then do
        let emptied ← removeVariantStock today productId variantId tables
        return deleteVariant productId variantId emptied
      else refuse (variantNotFound variantId)

/-! ### Lots -/

/-- The first rule a product breaks that is asked for a lot. -/
def lotRefusal (product : Product) (row : ProductRow) (lotNumber : String) :
    Option DomainError :=
  if product.type = .service then
    some (businessRuleViolationError "Lots are not allowed on service products"
      "LOTS_NOT_ALLOWED_ON_SERVICE")
  else if !product.useLotsAndExpirations then
    some (businessRuleViolationError "Product does not use lots and expirations"
      "LOTS_NOT_ENABLED")
  else if product.hasVariants then
    some (businessRuleViolationError "Products with variants cannot have lots"
      "PRODUCT_HAS_VARIANTS")
  else if row.lots.any fun lot => lot.lotNumber = Text.trim lotNumber then
    some (entityAlreadyExistsError "Lot" lotNumber)
  else none

def addLot (today productId lotId : String) (dto : CreateLotDto) (tables : StockTables) :
    Outcome :=
  match tables.findProduct productId with
  | none => refuse (productNotFound productId)
  | some row =>
      match lotRefusal (Product.fromPersistence row) row dto.lotNumber with
      | some error => refuse error
      | none =>
          if tables.hasLot lotId then .error (.uniqueViolation "lots")
          else
            recordInitial today productId
              [{ bucket := .lot productId lotId, delta := dto.quantity.getD 0 }]
              (tables.updateProduct productId fun row =>
                { row with lots := row.lots ++ [newLot lotId dto] })

def lotNotFound (id : String) : DomainError :=
  entityNotFoundError "Lot" id

/-- A lot's expiration is what `updateLot` writes and a sale reads. -/
def updateLot (productId lotId : String) (expirationDate : Int) (tables : StockTables) :
    Outcome :=
  match tables.findProduct productId with
  | none => refuse (lotNotFound lotId)
  | some row =>
      if row.lots.any fun lot => lot.id = lotId then
        .ok (tables.updateProduct productId fun row =>
          { row with
            lots := row.lots.map fun lot =>
              if lot.id = lotId then { lot with expirationDate := expirationDate } else lot })
      else refuse (lotNotFound lotId)

def lotHasStock (lotId : String) (quantity : Int) : DomainError :=
  businessRuleViolationError ("Lot " ++ lotId ++ " still has " ++ toString quantity ++
    " units; adjust it to 0 before deleting it") "LOT_HAS_STOCK"

/-- Only an empty lot is deleted. -/
def removeLot (productId lotId : String) (tables : StockTables) : Outcome :=
  match tables.findProduct productId with
  | none => refuse (lotNotFound lotId)
  | some row =>
      match Keyed.lookup LotStockState.id row.lots lotId with
      | none => refuse (lotNotFound lotId)
      | some lot =>
          if 0 < lot.quantity then refuse (lotHasStock lotId lot.quantity)
          else
            .ok (tables.updateProduct productId fun row =>
              { row with lots := row.lots.filter (·.id ≠ lotId) })

/-! ### Adjustments -/

structure AdjustmentInput where
  target : StockBucketRef
  expectedVersion : Int
  delta : Int

def stockNotTracked : DomainError :=
  ruleCode "STOCK_NOT_TRACKED"

/-- The columns an adjustment adds to: lots add to the product total, variants own theirs. -/
def adjustedColumns (row : ProductRow) : StockBucketRef → List Int
  | .variant _ variantId =>
      ((Keyed.lookup VariantStockState.id row.variants variantId).map (·.quantity)).toList
  | .lot _ lotId =>
      row.quantity :: ((Keyed.lookup LotStockState.id row.lots lotId).map (·.quantity)).toList
  | .productUntracked _ => [row.quantity]

/-- A counted correction of one bucket of a tracked product. -/
def adjust (today groupId : String) (input : AdjustmentInput) (tables : StockTables) : Outcome :=
  match tables.findProduct input.target.productId with
  | none => refuse (ruleCode "NOT_FOUND")
  | some row =>
      if !row.useStock || row.type = .service then refuse stockNotTracked
      else if (adjustedColumns row input.target).any fun quantity =>
          StockJournalWriter.maxPostgresInt < quantity + input.delta then
        refuse (ruleCode "MALFORMED")
      else journaled (StockJournalWriter.apply today
        [{ bucket := input.target
           delta := input.delta
           expectedVersion := some input.expectedVersion }]
        ⟨.adjustment, .adjustment, groupId⟩ tables)

end Houndfe.Inventory
