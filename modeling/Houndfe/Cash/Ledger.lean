import Houndfe.Cash.Channel

/-! The ledger of a cash session: the movements a sale plans, what may be recorded on an
open session, and the freeze that starts the count. -/

namespace Houndfe.Cash

open PaymentMethods

/-! ### Planning the movements of a sale -/

structure CashLedgerPayment where
  paymentId : String
  method : TenderMethod
  amountCents : Int
  metadataJson : Option PaymentMetadata
  deriving DecidableEq

def readCatalogIdentity : Option PaymentMetadata → Option CashCatalogIdentity
  | some (.catalog paymentMethodId name _) => some ⟨paymentMethodId, name⟩
  | some (.origin _ _) => none
  | none => none

/-- The tender movement of one payment; a zero tender is skipped. -/
def planTender (sessionId : String) (payment : CashLedgerPayment) :
    Except DomainError (Option CashMovement) :=
  if payment.amountCents = 0 then .ok none
  else do
    assertNonNegativeCents payment.amountCents "amountCents"
    assertStorageRangeCents payment.amountCents "amountCents"
    let channel ← resolveCashChannel payment.method (readCatalogIdentity payment.metadataJson)
    let movement : CashMovement := {
      sessionId := sessionId
      deltaCents := payment.amountCents
      method := payment.method
      channelKey := channel.channelKey
      channelLabel := channel.channelLabel
      kind := .salePayment
      sourceType := .payment
      sourceId := payment.paymentId
      reason := none }
    assertValidCashMovement movement
    return some movement

/-- The one negative movement of the change, if there is any. -/
def planChangeMovement (sessionId saleId : String) (changeDueCents : Int)
    (channel : CashChannel) : Except DomainError (Option CashMovement) := do
  assertNonEmptyText sessionId "sessionId"
  assertNonEmptyText saleId "saleId"
  assertNonNegativeCents changeDueCents "changeDueCents"
  assertStorageRangeCents changeDueCents "changeDueCents"
  if changeDueCents = 0 then return none
  else
    throwIf (channel.method ≠ .cash)
      (cashRuleViolation "CASH_CHANGE_NOT_CASH" "customer change is always physical cash")
    let change : CashMovement := {
      sessionId := sessionId
      deltaCents := -changeDueCents
      method := .cash
      channelKey := channel.channelKey
      channelLabel := channel.channelLabel
      kind := .saleChange
      sourceType := .sale
      sourceId := saleId
      reason := none }
    assertValidCashMovement change
    return some change

def planTenders (sessionId : String) : List CashLedgerPayment →
    Except DomainError (List CashMovement)
  | [] => .ok []
  | payment :: rest => do
      let tender ← planTender sessionId payment
      let tenders ← planTenders sessionId rest
      return tender.toList ++ tenders

def planLedgerPayments (sessionId saleId : String) (payments : List CashLedgerPayment)
    (changeDueCents : Int) : Except DomainError (List CashMovement) := do
  let tenders ← planTenders sessionId payments
  let change ← planChangeMovement sessionId saleId changeDueCents pooledCashChannel
  return tenders ++ change.toList

/-! ### Sessions -/

inductive CashSessionStatus where
  | opened
  | counting
  | submitted
  | closed
  deriving DecidableEq, Repr

/-- An identifier that is not blank. -/
abbrev Identifier := { id : String // Text.isNonEmptyText id = true }

/-- A counted opening fund. -/
abbrev OpeningFund := { cents : Int // 0 ≤ cents ∧ InRange cents }

structure ExpectedChannel where
  channelKey : String
  channelLabel : String
  method : TenderMethod
  expectedCents : Int
  deriving DecidableEq, Repr

structure ExpectedSnapshot where
  cashExpectedCents : Int
  frozenAt : Int
  channels : List ExpectedChannel
  deriving DecidableEq, Repr

structure CashSession where
  id : Identifier
  cashierUserId : Identifier
  status : CashSessionStatus
  openingCents : OpeningFund
  frozenAt : Option Int
  expectedJson : Option ExpectedSnapshot
  deriving DecidableEq

/-- Opening a session: the fund is checked, then the session is shown to its cashier. -/
def openSession (sessionId : Identifier) (cashierUserId : String) (openingCents : Int) :
    Except DomainError CashSession :=
  if hNegative : openingCents < 0 then
    .error (cashRuleViolation "CASH_CENTS_NEGATIVE" "openingCents must not be negative")
  else if hRange : InRange openingCents then
    if hViewer : Text.isNonEmptyText cashierUserId then
      .ok {
        id := sessionId
        cashierUserId := ⟨cashierUserId, hViewer⟩
        status := .opened
        openingCents := ⟨openingCents, Int.not_lt.mp hNegative, hRange⟩
        frozenAt := none
        expectedJson := none }
    else .error (cashRuleViolation "CASH_IDENTITY_REQUIRED"
      "viewerUserId must be a non-empty identifier")
  else .error (cashRuleViolation "CASH_CENTS_OUT_OF_RANGE"
    "openingCents must fit the Int cents storage range")

def isFrozen (session : CashSession) : Prop :=
  session.status ≠ .opened ∨ session.frozenAt ≠ none

instance (session : CashSession) : Decidable (isFrozen session) :=
  inferInstanceAs (Decidable (_ ∨ _))

def assertOperationalWriteAllowed (session : CashSession) : Except DomainError Unit :=
  throwIf (isFrozen session) (cashRuleViolation "CASH_SESSION_NOT_WRITABLE"
    "Cash session no longer accepts operational movements")

def assertCanFreezeSession (session : CashSession) : Except DomainError Unit :=
  throwIf (isFrozen session) (cashRuleViolation "CASH_SESSION_NOT_WRITABLE"
    "Cash session can only be frozen once from OPEN")

/-- What the user table says of the actor. -/
inductive ActorStanding where
  | active
  | inactive
  | notMember
  deriving DecidableEq, Repr

def assertActiveMember : ActorStanding → Except DomainError Unit
  | .active => .ok ()
  | .inactive => .error (businessRuleViolationError "Cash actor is not an active user"
      "CASH_ACTOR_INACTIVE")
  | .notMember => .error (businessRuleViolationError
      "Cash actor is not a member of the active tenant" "CASH_TENANT_MEMBERSHIP_REQUIRED")

def requireSessionForLedger (session : CashSession) (actorId : String)
    (standing : ActorStanding) : Except DomainError Unit := do
  assertActiveMember standing
  throwIf (session.cashierUserId.val ≠ actorId)
    (businessRuleViolationError "Only the session owner may bind POS money to this session"
      "CASH_SESSION_NOT_OWNED")
  assertOperationalWriteAllowed session

def assertSessionOwner (session : CashSession) (userId : String) : Except DomainError Unit :=
  throwIf (session.cashierUserId.val ≠ userId)
    (businessRuleViolationError "Only the session owner may perform this action"
      "CASH_SESSION_NOT_OWNED")

/-! ### Recording -/

def CashMovement.source (movement : CashMovement) : CashSourceType × String :=
  (movement.sourceType, movement.sourceId)

/-- One step of the bound check before a write. -/
def addExpected (expected : Int) (movement : CashMovement) : Except DomainError Int := do
  assertValidCashMovement movement
  if movement.method = .cash then addCents expected movement.deltaCents "expectedCashCents"
  else return expected

/-- The checks before the movements are stored: `existing` is the session as loaded,
`taken` the sources the tenant has already recorded. -/
def persistLedgerMovements (session : CashSession) (existing planned : List CashMovement)
    (taken : List (CashSourceType × String)) : Except DomainError Unit := do
  let expected ← expectedCashCents session.openingCents.val existing
  let _ ← planned.foldlM addExpected expected
  throwIf (∃ movement ∈ planned, movement.source ∈ taken)
    (cashRuleViolation "CASH_MOVEMENT_DUPLICATE_SOURCE" "cash movement source already recorded")
  -- the unique key of the table, within the batch
  throwIf (¬ (planned.map CashMovement.source).Nodup)
    (cashRuleViolation "CASH_MOVEMENT_DUPLICATE_SOURCE" "cash movement source already recorded")

/-- What a recording call reads besides its input. -/
structure LedgerReads where
  standing : ActorStanding
  existing : List CashMovement
  taken : List (CashSourceType × String)

def recordPayments (session : CashSession) (reads : LedgerReads) (actorId saleId : String)
    (payments : List CashLedgerPayment) (changeDueCents : Int) :
    Except DomainError (List CashMovement) := do
  requireSessionForLedger session actorId reads.standing
  assertNonEmptyText saleId "saleId"
  assertStorageRangeCents changeDueCents "changeDueCents"
  let planned ← planLedgerPayments session.id.val saleId payments changeDueCents
  -- a tender of nothing is an accepted no-op
  if planned = [] then return []
  else
    persistLedgerMovements session reads.existing planned reads.taken
    return planned

def recordRefund (session : CashSession) (reads : LedgerReads) (actorId settlementId : String)
    (amountCents : Int) (method : TenderMethod) : Except DomainError (List CashMovement) := do
  requireSessionForLedger session actorId reads.standing
  assertNonEmptyText settlementId "settlementId"
  throwIf (amountCents ≤ 0) (cashRuleViolation "CASH_MOVEMENT_ZERO_DELTA"
    "a refund settlement must settle a positive amount")
  let channel ← resolveCashChannel method none
  let movement : CashMovement := {
    sessionId := session.id.val
    deltaCents := -amountCents
    method := method
    channelKey := channel.channelKey
    channelLabel := channel.channelLabel
    kind := .refundSettlement
    sourceType := .refund
    sourceId := settlementId
    reason := none }
  assertValidCashMovement movement
  persistLedgerMovements session reads.existing [movement] reads.taken
  return [movement]

inductive ManualKind where
  | cashIn
  | cashOut
  deriving DecidableEq, Repr

/-- `movementId` is the id the command generates for its source. -/
def manualMovement (session : CashSession) (existing : List CashMovement)
    (actorId : String) (kind : ManualKind) (amountCents : Int) (reason movementId : String) :
    Except DomainError (List CashMovement) := do
  assertSessionOwner session actorId
  assertOperationalWriteAllowed session
  assertNonNegativeCents amountCents "amountCents"
  assertStorageRangeCents amountCents "amountCents"
  assertNonEmptyText reason "reason"
  let signed := match kind with
    | .cashIn => amountCents
    | .cashOut => -amountCents
  let movement : CashMovement := {
    sessionId := session.id.val
    deltaCents := signed
    method := .cash
    channelKey := pooledCashChannel.channelKey
    channelLabel := pooledCashChannel.channelLabel
    kind := match kind with
      | .cashIn => .cashIn
      | .cashOut => .cashOut
    sourceType := .manual
    sourceId := movementId
    reason := some (Text.trim reason) }
  assertValidCashMovement movement
  let before ← expectedCashCents session.openingCents.val existing
  let _ ← addCents before signed "expectedCashCents"
  return [movement]

/-! ### Freezing -/

/-- The expected amount of one channel: the drawer also holds the opening fund. -/
def expectedChannel (openingCents : Int) (group : CashChannelTotal) :
    Except DomainError ExpectedChannel := do
  let expectedCents ←
    if group.method = .cash then addCents openingCents group.totalCents "expectedCashCents"
    else .ok group.totalCents
  return ⟨group.channelKey, group.channelLabel, group.method, expectedCents⟩

def buildExpectedSnapshot (collate : String → String → Bool) (openingCents : Int)
    (movements : List CashMovement) (frozenAt : Int) : Except DomainError ExpectedSnapshot := do
  let grouped ← groupMovementsByChannel collate movements
  let channels ← grouped.mapM (expectedChannel openingCents)
  let withCash :=
    if channels.any (fun channel => channel.channelKey = pooledCashChannel.channelKey) then channels
    else ⟨pooledCashChannel.channelKey, pooledCashChannel.channelLabel, .cash, openingCents⟩ ::
      channels
  let cashExpectedCents := match withCash.find? (fun channel => channel.method = .cash) with
    | some cash => cash.expectedCents
    | none => openingCents
  return ⟨cashExpectedCents, frozenAt, withCash⟩

/-- The checks of the projection that is returned; the declared amount is still absent. -/
def projectCashSession (viewerUserId : String) (expectedCashCents : Int) :
    Except DomainError Unit := do
  assertNonEmptyText viewerUserId "viewerUserId"
  assertStorageRangeCents expectedCashCents "expectedCashCents"

/-- `START_COUNT` by an actor who holds the ability. -/
def startCount (collate : String → String → Bool) (session : CashSession)
    (movements : List CashMovement) (actorUserId : String) (now : Int) :
    Except DomainError CashSession := do
  assertSessionOwner session actorUserId
  assertCanFreezeSession session
  let frozen ← buildExpectedSnapshot collate session.openingCents.val movements now
  projectCashSession actorUserId frozen.cashExpectedCents
  return { session with status := .counting, frozenAt := some now, expectedJson := some frozen }

end Houndfe.Cash
