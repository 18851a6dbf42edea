import Houndfe.Base.KeyedTable
import Houndfe.Base.Services
import Houndfe.Promotions.PromotionRequests
import Houndfe.Shared.Instant

/-! The tables of the promotions of all tenants and the requests that write them, statement by
statement: the commands of `PromotionsService` and the claim of an expiry alert. -/

namespace Houndfe.Promotions

open Transactions

structure PromotionRow where
  tenantId : String
  promotion : Promotion
  status : PromotionStatus
  deriving DecidableEq, Repr

/-- What makes an alert the same alert. -/
@[ext]
structure AlertKey where
  tenantId : String
  promotionId : String
  endDateFingerprint : String
  deriving DecidableEq, Repr

structure ExpiryAlertState where
  key : AlertKey
  alerted : Bool
  alertEpoch : Nat
  deriving DecidableEq, Repr

/-- The payload of `promotion.expiring.detected`. -/
structure ExpiringEvent where
  key : AlertKey
  endDate : String
  occurredAt : String
  deriving DecidableEq, Repr

/-- The rows of the promotions by their primary key, and the clock of the database. -/
structure Tables where
  catalog : String → Catalog
  promotions : Keyed.Rows fun row : PromotionRow => row.promotion.id
  alertStates : List ExpiryAlertState
  outbox : List ExpiringEvent
  clock : Int

inductive Lock where
  | promotion (id : String)
  deriving DecidableEq, Repr

inductive Failure where
  | domain (error : DomainError)
  | uniqueViolation
  | recordNotFound
  deriving DecidableEq, Repr

def checked {α : Type} (x : Except DomainError α) : Except Failure α :=
  x.mapError .domain

abbrev Pending := Tables → Except Failure Tables

abbrev PromotionTx := Tx Lock Tables Failure

namespace Tables

/-- The row of an id, as the client of the tenant sees it. -/
def findPromotion (tables : Tables) (tenantId id : String) : Option PromotionRow :=
  (tables.promotions.find id).filter (·.tenantId = tenantId)

def owns (tenantId id : String) (tables : Tables) : Bool :=
  (tables.findPromotion tenantId id).isSome

end Tables

/-! ### The repository -/

def findById (tenantId id : String) (pending : Pending) : PromotionTx PromotionRow := do
  let row ← Tx.queryOwn pending (·.findPromotion tenantId id)
  match row with
  | none => .fail (.domain (entityNotFoundError "Promotion" id))
  | some row => return row

/-- What an upsert leaves of the row that is there: its owner, its id and type and its counter. -/
def PromotionRow.overwrite (stored row : PromotionRow) : PromotionRow where
  tenantId := stored.tenantId
  promotion := { row.promotion with
    id := stored.promotion.id
    type := stored.promotion.type
    consumedProductUnits := stored.promotion.consumedProductUnits }
  status := row.status

theorem PromotionRow.id_overwrite (row stored : PromotionRow) :
    (stored.overwrite row).promotion.id = stored.promotion.id := rfl

/-- The cap has to leave room for what the row counts by now. -/
def recap (maxProductUnits : Option Int) (consumedProductUnits : Int) : Except Failure Unit :=
  checked (throwIf (∃ cap ∈ maxProductUnits, cap < consumedProductUnits) (invalidArgumentWithCode
    "consumedProductUnits cannot exceed maxProductUnits" "PRODUCT_UNIT_CAPACITY_EXCEEDED"))

/-- The unique keys of the join tables. Only that of the targets has an error of its own. -/
def replaceJoins (promotion : Promotion) : Except Failure Unit := do
  checked (throwIf (¬ promotion.targetItems.Nodup) (invalidArgumentWithCode
    "Duplicate target mapping for promotion" "duplicate_target"))
  if promotion.customers.Nodup ∧ promotion.priceLists.Nodup ∧ promotion.daysOfWeek.Nodup then
    .ok ()
  else .error .uniqueViolation

/-- The row that is there is updated, capped and its joins are replaced, all or nothing. -/
def overwrite (row : PromotionRow) : Pending := fun tables =>
  match tables.findPromotion row.tenantId row.promotion.id with
  | none => .error .recordNotFound
  | some stored => do
      recap row.promotion.maxProductUnits stored.promotion.consumedProductUnits
      replaceJoins row.promotion
      return { tables with
        promotions := tables.promotions.modify row.promotion.id (·.overwrite row) row.id_overwrite }

/-- The row is inserted, unless somebody has its id by now. -/
def insert (row : PromotionRow) : Pending := fun tables =>
  match tables.promotions.insert row with
  | none => .error .uniqueViolation
  | some promotions => do
      recap row.promotion.maxProductUnits row.promotion.consumedProductUnits
      replaceJoins row.promotion
      return { tables with promotions := promotions }

/-- The columns of `updateStatus`. Every caller gives an end date. -/
structure StatusWrite where
  status : PromotionStatus
  endDate : Option Int
  manuallyEnded : Option Bool
  deriving DecidableEq, Repr

def PromotionRow.withStatus (row : PromotionRow) (write : StatusWrite) : PromotionRow where
  tenantId := row.tenantId
  promotion := { row.promotion with
    manuallyEnded := write.manuallyEnded.getD (write.status = .ended)
    endDate := write.endDate }
  status := write.status

theorem PromotionRow.id_withStatus (write : StatusWrite) (row : PromotionRow) :
    (row.withStatus write).promotion.id = row.promotion.id := rfl

def updateStatus (tenantId id : String) (write : StatusWrite) : Pending := fun tables =>
  match tables.findPromotion tenantId id with
  | none => .error .recordNotFound
  | some _ => .ok { tables with
      promotions := tables.promotions.modify id (·.withStatus write) (PromotionRow.id_withStatus write) }

/-- The status writes of a transaction, in the order it made them. -/
abbrev StatusWrites := List (String × StatusWrite)

def updateStatuses (tenantId : String) : StatusWrites → Pending
  | [], tables => .ok tables
  | (id, write) :: rest, tables => do
      let tables ← updateStatus tenantId id write tables
      updateStatuses tenantId rest tables

/-! ### The service -/

/-- What a request did; an update tells the row that it had loaded. -/
inductive Outcome where
  | created (id : String)
  | updated (loaded : PromotionRow)
  | ended (ids : List String)
  | activated (ids : List String)
  | claimed (key : AlertKey)
  | alreadyAlerted (key : AlertKey)
  | notEligible (reason : String)
  | elapsed
  deriving DecidableEq, Repr

abbrev Ending := Commit Tables Failure Outcome

/-- Writing a row waits until nobody else holds it. -/
def lockPromotion (tenantId id : String) : PromotionTx Bool :=
  Tx.lockRow (.promotion id) (Tables.owns tenantId id)

/-- The upsert sees whether the row is there when it locks it. -/
def save (row : PromotionRow) : PromotionTx Pending := do
  let found ← lockPromotion row.tenantId row.promotion.id
  return if found then overwrite row else insert row

def create (zoneOffset : ZoneOffset) (tenantId id : String) (dto : CreatePromotionDto) (now : Int) :
    PromotionTx Ending := do
  let params := dto.params zoneOffset id
  liftM (checked (if params.botEligible then assertBotEligibilitySupported params else .ok ()))
  let targetItems ← Tx.query fun tables =>
    resolveTargetItems (tables.catalog tenantId) dto.targetInput
  let targetItems ← liftM (checked targetItems)
  let customers ← Tx.query fun tables => resolveCustomers (tables.catalog tenantId) dto.customerIds
  let customers ← liftM (checked customers)
  let priceLists ← Tx.query fun tables =>
    resolvePriceLists (tables.catalog tenantId) dto.priceListIds
  let priceLists ← liftM (checked priceLists)
  let promotion ← liftM (checked (Promotion.create params))
  liftM (checked (assertBuyXGetYTargeted promotion.type promotion.appliesTo targetItems))
  liftM (checked (assertAdvancedSideTargets promotion.type promotion.buyTargetType
    promotion.getTargetType targetItems))
  let row : PromotionRow := {
    tenantId := tenantId
    promotion := { promotion with
      targetItems := targetItems
      customers := customers
      priceLists := priceLists
      daysOfWeek := dto.daysOfWeek }
    status := promotion.getEffectiveStatus now }
  let saved ← save row
  return ⟨saved, .created id⟩

/-- The relation of an update: what the request does not name stays. -/
def resolveOrKeep (resolve : List String → Except DomainError (List String))
    (kept : List String) : Option (List String) → Except DomainError (List String)
  | none => .ok kept
  | some ids => resolve ids

def update (zoneOffset : ZoneOffset) (tenantId id : String) (dto : UpdatePromotionDto) (now : Int) :
    PromotionTx Ending := do
  let loaded ← findById tenantId id .ok
  let existing := loaded.promotion
  liftM (checked (throwIf (dto.hasType = true) (invalidArgumentWithCode
    "Cannot change promotion type after creation" "INVALID_FIELD_CHANGE")))
  let merged := buildMergedValidationParams zoneOffset existing dto
  let _ ← liftM (checked (Promotion.create merged))
  let targetItems ← Tx.query fun tables =>
    resolveTargetItems (tables.catalog tenantId) (buildTargetResolutionInput existing dto)
  let targetItems ← liftM (checked targetItems)
  liftM (checked (assertBuyXGetYTargeted existing.type merged.appliesTo targetItems))
  let capped ← liftM (checked ((existing.assign merged).updateMaxProductUnits
    merged.maxProductUnits))
  liftM (checked (assertAdvancedSideTargets existing.type capped.buyTargetType capped.getTargetType
    targetItems))
  let customers ← Tx.query fun tables =>
    resolveOrKeep (resolveCustomers (tables.catalog tenantId)) existing.customers dto.customerIds
  let customers ← liftM (checked customers)
  let priceLists ← Tx.query fun tables =>
    resolveOrKeep (resolvePriceLists (tables.catalog tenantId)) existing.priceLists
      dto.priceListIds
  let priceLists ← liftM (checked priceLists)
  let promotion : Promotion := { capped with
    targetItems := targetItems
    customers := customers
    priceLists := priceLists
    daysOfWeek := dto.daysOfWeek.getD existing.daysOfWeek }
  let saved ← save ⟨tenantId, promotion, promotion.getEffectiveStatus now⟩
  return ⟨saved, .updated loaded⟩

/-- The write of `end()`. -/
def endWrite (now : Int) (promotion : Promotion) : Option StatusWrite :=
  some ⟨.ended, (promotion.finish now).endDate, none⟩

/-- The write of `activate()`, when it changed something. -/
def activateWrite (now : Int) (promotion : Promotion) : Option StatusWrite :=
  let (activated, changed) := promotion.activate now
  if changed then
    some ⟨activated.getEffectiveStatus now, activated.endDate, some activated.manuallyEnded⟩
  else none

/-- One promotion is loaded, worked on and written, after what the transaction wrote before. -/
def changeStatus (write : Promotion → Option StatusWrite) (tenantId id : String)
    (written : StatusWrites) : PromotionTx StatusWrites := do
  let row ← findById tenantId id (updateStatuses tenantId written)
  match write row.promotion with
  | none => return written
  | some columns =>
      let found ← lockPromotion tenantId id
      if found then return written ++ [(id, columns)] else .fail .recordNotFound

def endPromotion (tenantId id : String) (now : Int) : PromotionTx Ending := do
  let written ← changeStatus (endWrite now) tenantId id []
  return ⟨updateStatuses tenantId written, .ended [id]⟩

def activatePromotion (tenantId id : String) (now : Int) : PromotionTx Ending := do
  let written ← changeStatus (activateWrite now) tenantId id []
  return ⟨updateStatuses tenantId written, .activated [id]⟩

/-- The ids one after another in one transaction, each with its own reading of the clock. -/
def changeEach (write : Int → Promotion → Option StatusWrite) (tenantId : String)
    (clock : Nat → Int) : List String → Nat → StatusWrites → PromotionTx StatusWrites
  | [], _, written => return written
  | id :: rest, turn, written => do
      let written ← changeStatus (write (clock turn)) tenantId id written
      changeEach write tenantId clock rest (turn + 1) written

/-- Every id has to be one of the tenant's before the transaction of a batch begins. -/
def preflight (tenantId : String) (ids : List String) : PromotionTx Unit := do
  let missing ← Tx.query fun tables => ids.filter fun id => ¬ tables.owns tenantId id
  liftM (checked (throwIf (missing ≠ []) (businessRuleViolationError
    ("Promotion(s) not found in this tenant: " ++ ", ".intercalate missing)
    "BATCH_DELETE_NOT_FOUND")))

def batchEnd (tenantId : String) (ids : List String) (clock : Nat → Int) : PromotionTx Ending := do
  preflight tenantId ids
  let written ← changeEach endWrite tenantId clock ids 0 []
  return ⟨updateStatuses tenantId written, .ended ids⟩

def batchActivate (tenantId : String) (ids : List String) (clock : Nat → Int) :
    PromotionTx Ending := do
  preflight tenantId ids
  let written ← changeEach activateWrite tenantId clock ids 0 []
  return ⟨updateStatuses tenantId written, .activated ids⟩

/-! ### The claim of an expiry alert -/

def alertWindowMs : Int := 7 * 24 * 60 * 60 * 1000

/-- The end date of a promotion that may be alerted at `readAt`, or why it may not. -/
def evaluateEligibility (promotion : Promotion) (readAt : Int) : Except String Int :=
  if promotion.manuallyEnded then .error "manually_ended"
  else if ∃ start ∈ promotion.startDate, readAt < start then .error "not_started"
  else match promotion.endDate with
    | none => .error "end_date_missing"
    | some endDate =>
        if endDate ≤ readAt then .error "expired"
        else if readAt + alertWindowMs < endDate then .error "end_date_out_of_window"
        else .ok endDate

/-- `INSERT … ON CONFLICT DO NOTHING` of an armed row. -/
def seed (key : AlertKey) (tables : Tables) : Tables :=
  if ∃ state ∈ tables.alertStates, state.key = key then tables
  else { tables with alertStates := tables.alertStates ++ [⟨key, false, 0⟩] }

/-- The gate: the row is there and has not alerted. -/
def armed (key : AlertKey) (tables : Tables) : Bool :=
  tables.alertStates.any fun state => state.key = key && !state.alerted

def flip (key : AlertKey) (tables : Tables) : Tables :=
  { tables with
    alertStates := tables.alertStates.map fun state =>
      if state.key = key ∧ state.alerted = false then ⟨key, true, state.alertEpoch + 1⟩ else state }

def publish (event : ExpiringEvent) (tables : Tables) : Tables :=
  { tables with outbox := tables.outbox ++ [event] }

structure ExpiryAlertClaim where
  tenantId : String
  promotionId : String
  deriving DecidableEq, Repr

def claimExpiryAlert (claim : ExpiryAlertClaim) : PromotionTx Ending := do
  liftM (checked (throwIf (claim.tenantId = "" ∨ claim.promotionId = "") (invalidArgumentWithCode
    "Promotion expiry alert claims require a non-empty tenantId and promotionId"
    "PROMOTION_EXPIRY_ALERT_CLAIM_INVALID")))
  -- `SELECT … FOR UPDATE` returns the row that it locked
  let found ← lockPromotion claim.tenantId claim.promotionId
  let locked ← Tx.query fun tables =>
    if found then tables.findPromotion claim.tenantId claim.promotionId else none
  match locked with
  | none => return ⟨pure, .notEligible "promotion_not_found"⟩
  | some row =>
      let readAt ← Tx.query (·.clock)
      match evaluateEligibility row.promotion readAt with
      | .error reason => return ⟨pure, .notEligible reason⟩
      | .ok endDate =>
          let fingerprint := Instant.toISOString endDate
          let key : AlertKey := ⟨claim.tenantId, claim.promotionId, fingerprint⟩
          let flipped ← Tx.query fun tables => armed key (seed key tables)
          if flipped then
            let event : ExpiringEvent := ⟨key, fingerprint, Instant.toISOString readAt⟩
            return ⟨fun tables => .ok (publish event (flip key (seed key tables))), .claimed key⟩
          else return ⟨fun tables => .ok (seed key tables), .alreadyAlerted key⟩

/-! ### The requests -/

/-- Time passes, and other services change the catalog: the targets of a promotion are no foreign
keys, so that any of them may go. -/
inductive Request where
  | create (tenantId id : String) (dto : CreatePromotionDto) (now : Int)
  | update (tenantId id : String) (dto : UpdatePromotionDto) (now : Int)
  | endPromotion (tenantId id : String) (now : Int)
  | batchEnd (tenantId : String) (ids : List String) (clock : Nat → Int)
  | activatePromotion (tenantId id : String) (now : Int)
  | batchActivate (tenantId : String) (ids : List String) (clock : Nat → Int)
  | claimExpiryAlert (claim : ExpiryAlertClaim)
  | editTargets (tenantId : String) (targetIds : PromotionTargetType → List String)
  | tick (ms : Nat)

def editTargets (tenantId : String) (targetIds : PromotionTargetType → List String) :
    PromotionTx Ending :=
  return ⟨fun tables => .ok { tables with
    catalog := Function.update tables.catalog tenantId
      { tables.catalog tenantId with
        categories := targetIds .categories
        brands := targetIds .brands
        products := targetIds .products
        variants := targetIds .variants } }, .elapsed⟩

def tick (ms : Nat) : PromotionTx Ending :=
  return ⟨fun tables => .ok { tables with clock := tables.clock + ms }, .elapsed⟩

def Request.body (zoneOffset : ZoneOffset) : Request → PromotionTx Ending
  | .create tenantId id dto now => Promotions.create zoneOffset tenantId id dto now
  | .update tenantId id dto now => Promotions.update zoneOffset tenantId id dto now
  | .endPromotion tenantId id now => Promotions.endPromotion tenantId id now
  | .batchEnd tenantId ids clock => Promotions.batchEnd tenantId ids clock
  | .activatePromotion tenantId id now => Promotions.activatePromotion tenantId id now
  | .batchActivate tenantId ids clock => Promotions.batchActivate tenantId ids clock
  | .claimExpiryAlert claim => Promotions.claimExpiryAlert claim
  | .editTargets tenantId targetIds => Promotions.editTargets tenantId targetIds
  | .tick ms => Promotions.tick ms

end Houndfe.Promotions
