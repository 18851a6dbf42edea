import Houndfe.Cash.CashTables

/-! Registers, the opening of a session on its float, and the movements of an open session,
statement by statement. -/

namespace Houndfe.Cash

open PaymentMethods Transactions

/-! ### Handover rules -/

structure CashHandoverReceiptInput where
  kind : CashHandoverKind
  declaredCents : Int
  receivedCents : Option Int
  senderUserId : String
  receiverUserId : String
  receiptActorUserId : Option String
  declaredAt : Int
  receivedAt : Option Int

/-- The amount and the instant of a receipt, which come together. -/
def receiptOf (input : CashHandoverReceiptInput) : Except DomainError (Int × Int) :=
  match input.receivedCents, input.receivedAt with
  | some receivedCents, some receivedAt => .ok (receivedCents, receivedAt)
  | _, _ => .error (cashRuleViolation "CASH_HANDOVER_NOT_RECEIVED"
      "handover funds are not reusable until the receiver confirms receipt")

def assertHandoverReceipt (input : CashHandoverReceiptInput) : Except DomainError Unit := do
  assertNonNegativeCents input.declaredCents "declaredCents"
  assertStorageRangeCents input.declaredCents "declaredCents"
  assertNonEmptyText input.senderUserId "senderUserId"
  let (receivedCents, receivedAt) ← receiptOf input
  assertNonNegativeCents receivedCents "receivedCents"
  assertStorageRangeCents receivedCents "receivedCents"
  throwIf (¬ Text.isNonEmptyText input.receiverUserId)
    (cashRuleViolation "CASH_HANDOVER_RECEIVER_REQUIRED" "a receipt requires a designated receiver")
  throwIf (¬ Text.isNonEmptyText (input.receiptActorUserId.getD ""))
    (cashRuleViolation "CASH_HANDOVER_RECEIPT_ACTOR_REQUIRED"
      "a receipt requires the authenticated receiving actor")
  throwIf (input.receiptActorUserId ≠ some input.receiverUserId)
    (cashRuleViolation "CASH_HANDOVER_RECEIPT_ACTOR_MISMATCH"
      "the authenticated receipt actor must be the designated receiver")
  throwIf (input.kind = .withdrawal ∧ input.receiverUserId = input.senderUserId)
    (cashRuleViolation "CASH_HANDOVER_SELF_WITHDRAWAL"
      "a withdrawal cannot be received by its own sender")
  throwIf (receivedAt < input.declaredAt)
    (cashRuleViolation "CASH_HANDOVER_RECEIPT_BEFORE_DECLARATION"
      "handover receipt cannot predate its declaration")

def CashHandover.receipt (handover : CashHandover) : CashHandoverReceiptInput where
  kind := handover.kind
  declaredCents := handover.declaredCents
  receivedCents := handover.receivedCents
  senderUserId := handover.createdByUserId
  receiverUserId := handover.recipientUserId
  receiptActorUserId := handover.receivedByUserId
  declaredAt := handover.createdAt
  receivedAt := handover.receivedAt

/-- The received amount of a float, never what the sender declared. -/
def resolveOpeningFundCents (handover : CashHandover) : Except DomainError Int := do
  throwIf (handover.kind ≠ .float)
    (cashRuleViolation "CASH_HANDOVER_NOT_FLOAT"
      "only a retained FLOAT handover can fund the next session")
  assertHandoverReceipt handover.receipt
  orThrow handover.receivedCents (cashRuleViolation "CASH_HANDOVER_NOT_RECEIVED"
    "handover funds are not reusable until the receiver confirms receipt")

/-! ### Projections -/

/-- The only blindness rule: a declarant never sees expected amounts of his own session before
he submitted its count, whatever else he may audit. -/
def SessionRow.projectCashSession (session : SessionRow) (viewerUserId : String)
    (expectedCashCents : Int) (declaredCents : Option Int)
    (hasAuditVisibility declarationSubmitted : Bool) :
    Except DomainError CashSessionProjectionView := do
  assertNonEmptyText viewerUserId "viewerUserId"
  assertStorageRangeCents expectedCashCents "expectedCashCents"
  match declaredCents with
  | some declaredCents => assertStorageRangeCents declaredCents "declaredCents"
  | none => pure ()
  let isDeclarant : Bool := viewerUserId = session.cashierUserId.val
  let blind := isDeclarant && !declarationSubmitted
  let canSeeExpected := !blind && (isDeclarant || hasAuditVisibility)
  let base : CashSessionProjectionView := {
    id := session.id.val
    registerId := session.registerId
    status := session.status
    cashierUserId := session.cashierUserId.val
    openingCents := session.openingCents.val
    frozenAt := session.frozenAt
    drawerReleasedAt := session.drawerReleasedAt
    blind
    expectedCashCents := none
    differenceCents := none }
  if canSeeExpected then
    match declaredCents with
    | none => return { base with expectedCashCents := some expectedCashCents }
    | some declaredCents => do
        let differenceCents ← subtractCents declaredCents expectedCashCents "differenceCents"
        return { base with
          expectedCashCents := some expectedCashCents
          differenceCents := some differenceCents }
  else return base

namespace Adapter

/-! ### Registers -/

def createRegisterRequirement : CashAbilityRequirement := ⟨.create, .cashRegister⟩

def registerNameConflict : DomainError :=
  businessRuleViolationError "A cash register with that name already exists in this tenant"
    "CASH_REGISTER_NAME_CONFLICT"

def registerNotFound : DomainError :=
  businessRuleViolationError "Cash register not found" "CASH_REGISTER_NOT_FOUND"

def createRegister (surroundings : Surroundings) (actor : CashActor) (name : String) :
    CashTx CashEnding := do
  assertAbility actor createRegisterRequirement (some (.newRegister actor.userId))
  assertNonEmptyText name "name"
  let trimmed := Text.trim name
  let existing ← Tx.query fun tables => tables.registers.rows.find? fun row => row.name = trimmed
  throwIf (existing.isSome) registerNameConflict
  let row : CashRegister := ⟨surroundings.newId.val, trimmed, true, surroundings.databaseNow⟩
  return {
    write := fun tables => (insertRegister row tables).mapError fun _ => registerNameConflict
    answer := .register row }

def checkNewName : Option String → Except DomainError Unit
  | some name => assertNonEmptyText name "name"
  | none => .ok ()

def updateRegister (surroundings : Surroundings) (actor : CashActor) (id : String)
    (name : Option String) (isActive : Option Bool) : CashTx CashEnding := do
  let locked ← lockRegisterRow id
  throwIf (locked = false) registerNotFound
  let found ← Tx.query fun tables => findRegister tables id
  let row ← orThrow found registerNotFound
  assertAbility actor ⟨.update, .cashRegister⟩ (some (registerInstance row))
  checkNewName name
  let newName := (name.map Text.trim).getD row.name
  -- the other names are read without a lock; the index of the table decides
  throwIf (newName ≠ row.name ∧ ∃ other ∈ surroundings.seen.registers.rows, other.name = newName)
    registerNameConflict
  let newIsActive := isActive.getD row.isActive
  return {
    write := saveRegister row.id newName newIsActive
    answer := .register { row with name := newName, isActive := newIsActive } }

/-! ### Opening -/

def openingHandoverNotFound (message : String) : DomainError :=
  businessRuleViolationError message "CASH_OPENING_HANDOVER_NOT_FOUND"

/-- What the float must be for this actor to open this register on it. -/
def checkOpeningHandover (actor : CashActor) (registerId : String) (handover : CashHandover)
    (sourceSession : SessionRow) (openingCents : Int) : Except DomainError Unit := do
  throwIf (handover.kind ≠ .float)
    (cashRuleViolation "CASH_HANDOVER_NOT_FLOAT"
      "only a retained FLOAT handover can fund the next session")
  throwIf (handover.recipientUserId ≠ actor.userId ∨
      handover.receivedByUserId ≠ some actor.userId)
    (businessRuleViolationError
      "The opening FLOAT must have been received by the opening cashier"
      "CASH_HANDOVER_RECIPIENT_INVALID")
  let received ← resolveOpeningFundCents handover
  throwIf (received ≠ openingCents)
    (businessRuleViolationError "The opening fund must equal the received FLOAT amount"
      "CASH_OPENING_FUNDS_MISMATCH")
  throwIf (sourceSession.registerId = registerId ∧ sourceSession.drawerReleasedAt = none)
    (businessRuleViolationError
      "The source drawer must be released before its funds are reused on the same register"
      "CASH_OPENING_SOURCE_DRAWER_NOT_RELEASED")

/-- The source session is locked before the handover row. -/
def resolveOpeningHandover (actor : CashActor) (registerId handoverId : String)
    (openingCents : Int) : CashTx String := do
  let found ← Tx.query fun tables => findHandover tables handoverId
  let preview ← orThrow found (openingHandoverNotFound "Opening FLOAT handover not found")
  let _ ← lockSessionRow preview.sourceSessionId
  let found ← Tx.query fun tables => findHandover tables handoverId
  let handover ← orThrow found (openingHandoverNotFound "Opening FLOAT handover not found")
  let _ ← lockHandoverRow handover.id
  let found ← Tx.query fun tables => findSession tables handover.sourceSessionId
  let sourceSession ← orThrow found
    (openingHandoverNotFound "Opening FLOAT source session not found")
  checkOpeningHandover actor registerId handover sourceSession openingCents
  let reuse ← Tx.query fun tables =>
    tables.sessions.rows.find? fun row => row.openingHandoverId = some handover.id
  throwIf (reuse.isSome)
    (businessRuleViolationError "This FLOAT handover already funds another session"
      "CASH_OPENING_FLOAT_REUSE")
  return handover.id

structure OpenSessionCommand where
  registerId : String
  openingCents : Int
  openingHandoverId : Option String
  openingConfirmed : Bool
  deriving DecidableEq

/-- The row of a new session. -/
def newSession (surroundings : Surroundings) (actor : CashActor) (registerId : String)
    (openingCents : Int) (openingHandoverId : Option String) : Except DomainError SessionRow := do
  let session ← Cash.openSession surroundings.newId actor.userId openingCents
  return {
    toCashSession := session
    registerId
    openedAt := surroundings.databaseNow
    submittedAt := none
    closedAt := none
    drawerReleasedAt := none
    openingHandoverId }

/-- The insert of the session, shown to its cashier. -/
def createSession (surroundings : Surroundings) (actor : CashActor) (register : CashRegister)
    (openingCents : Int) (openingHandoverId : Option String) : CashTx CashEnding := do
  let row ← newSession surroundings actor register.id openingCents openingHandoverId
  let view ← row.projectCashSession actor.userId row.openingCents.val none
    (canInstanceAbility actor cashAuditRequirement (sessionInstance row)) false
  return { write := insertSession row, answer := .opened view register }

def openSession (surroundings : Surroundings) (actor : CashActor)
    (command : OpenSessionCommand) : CashTx CashEnding := do
  let locked ← lockRegisterRow command.registerId
  throwIf (locked = false) registerNotFound
  let found ← Tx.query fun tables => findRegister tables command.registerId
  let register ← orThrow found registerNotFound
  assertAbility actor ⟨.create, .cashSession⟩
    (some (.session surroundings.newId.val register.id actor.userId .opened))
  throwIf (register.isActive = false)
    (businessRuleViolationError "Cash register is inactive" "CASH_REGISTER_INACTIVE")
  throwIf (command.openingConfirmed = false)
    (businessRuleViolationError "Opening the drawer requires an explicit confirmation"
      "CASH_OPENING_NOT_CONFIRMED")
  assertNonNegativeCents command.openingCents "openingCents"
  assertStorageRangeCents command.openingCents "openingCents"
  let unreleased ← Tx.query fun tables => tables.sessions.rows.find? fun row =>
    row.registerId = register.id ∧ row.drawerReleasedAt = none
  throwIf (unreleased.isSome)
    (businessRuleViolationError "The register already has an unreleased cash session"
      "CASH_REGISTER_UNRELEASED_SESSION")
  match command.openingHandoverId with
  | some handoverId => do
      let openingHandoverId ←
        resolveOpeningHandover actor register.id handoverId command.openingCents
      createSession surroundings actor register command.openingCents (some openingHandoverId)
  | none => createSession surroundings actor register command.openingCents none

/-! ### Movements of an open session -/

/-- The movements of a session in the order a load returns them. -/
def loadSessionMovements (surroundings : Surroundings) (sessionId : String) :
    CashTx (List CashMovement) := do
  let rows ← Tx.query fun tables => movementsOf tables sessionId
  return (surroundings.load rows).map fun row => row.movement

/-- The rows that record movements of one instant. -/
def movementRows (surroundings : Surroundings) (actorId : String) (occurredAt : Int)
    (movements : List CashMovement) : List MovementRow :=
  movements.mapIdx fun index movement =>
    ⟨⟨movement, occurredAt⟩, surroundings.rowId index, actorId⟩

structure ManualCommand where
  kind : ManualKind
  sessionId : String
  amountCents : Int
  reason : String
  deriving DecidableEq

def manualRequirement : ManualKind → CashAbilityRequirement
  | .cashIn => ⟨.create, .cashIn⟩
  | .cashOut => ⟨.create, .cashOut⟩

/-- A manual movement is one row; its answer names it. -/
def manualDocument (row : MovementRow) : CashDocument :=
  .movement row.id row.movement.sessionId row.movement.kind row.movement.deltaCents
    row.occurredAt

def manualMovement (surroundings : Surroundings) (actor : CashActor)
    (command : ManualCommand) : CashTx CashEnding := do
  let session ← requireSessionLocked command.sessionId
  assertAbility actor (manualRequirement command.kind) (some (sessionInstance session))
  let existing ← loadSessionMovements surroundings session.id.val
  let added ← Cash.manualMovement session.toCashSession existing actor.userId command.kind
    command.amountCents command.reason surroundings.newId.val
  let rows := movementRows surroundings actor.userId surroundings.now added
  return {
    write := insertMovements rows uniqueViolation
    answer := (rows.head?.map manualDocument).getD .nothing }

/-! ### Ledger calls of the sale transactions -/

def assertOpenSession (surroundings : Surroundings) (sessionId actorId : String) :
    CashTx Unit := do
  let session ← requireSessionLocked sessionId
  Cash.requireSessionForLedger session.toCashSession actorId (surroundings.standing actorId)

/-- What a recording call reads of the session and of the tenant's sources. -/
def ledgerReads (surroundings : Surroundings) (actorId sessionId : String) :
    CashTx LedgerReads := do
  let existing ← loadSessionMovements surroundings sessionId
  let taken ← Tx.query fun tables => tables.movements.map fun row => row.movement.source
  return ⟨surroundings.standing actorId, existing, taken⟩

def duplicateSource : DomainError :=
  cashRuleViolation "CASH_MOVEMENT_DUPLICATE_SOURCE" "cash movement source already recorded"

structure PaymentsInput where
  sessionId : String
  actorId : String
  saleId : String
  payments : List CashLedgerPayment
  changeDueCents : Int
  occurredAt : Int

/-- A charge or a collection bound to a session: the session is asserted first and its
movements are recorded when the payments are stored. -/
def recordPayments (surroundings : Surroundings) (input : PaymentsInput) :
    CashTx CashEnding := do
  assertOpenSession surroundings input.sessionId input.actorId
  let session ← requireSessionLocked input.sessionId
  let reads ← ledgerReads surroundings input.actorId session.id.val
  let planned ← Cash.recordPayments session.toCashSession reads input.actorId input.saleId
    input.payments input.changeDueCents
  let rows := movementRows surroundings input.actorId input.occurredAt planned
  return { write := insertMovements rows duplicateSource, answer := .nothing }

structure RefundInput where
  sessionId : String
  actorId : String
  settlementId : String
  amountCents : Int
  method : TenderMethod
  occurredAt : Int

def recordRefund (surroundings : Surroundings) (input : RefundInput) : CashTx CashEnding := do
  assertOpenSession surroundings input.sessionId input.actorId
  let session ← requireSessionLocked input.sessionId
  let reads ← ledgerReads surroundings input.actorId session.id.val
  let planned ← Cash.recordRefund session.toCashSession reads input.actorId input.settlementId
    input.amountCents input.method
  let rows := movementRows surroundings input.actorId input.occurredAt planned
  return { write := insertMovements rows duplicateSource, answer := .nothing }

end Adapter

end Houndfe.Cash
