import Houndfe.Cash.SessionCommands

/-! Counting, custody and the final cut of a session, statement by statement. -/

namespace Houndfe.Cash

open PaymentMethods Transactions

/-! ### Rules -/

def assertIndependentVerifier (cashierUserId verifierUserId : String) :
    Except DomainError Unit :=
  throwIf (cashierUserId = verifierUserId)
    (cashRuleViolation "CASH_SELF_VERIFICATION_FORBIDDEN"
      "A cashier cannot verify their own declaration")

def assertIndependentCloser (cashierUserId closerUserId : String) : Except DomainError Unit :=
  throwIf (cashierUserId = closerUserId)
    (cashRuleViolation "CASH_SELF_CLOSING_FORBIDDEN" "A cashier cannot close their own session")

structure CashHandoverAllocation where
  handoverId : String
  allocatedCents : Int
  deriving DecidableEq

/-- One turn of the allocation loop; `seen` are the handovers it has counted. -/
def allocate (state : List String × Int) (allocation : CashHandoverAllocation) :
    Except DomainError (List String × Int) := do
  assertNonEmptyText allocation.handoverId "handoverId"
  throwIf (allocation.handoverId ∈ state.1)
    (cashRuleViolation "CASH_HANDOVER_DUPLICATE_ALLOCATION"
      "declared cash can only be allocated once per handover")
  assertNonNegativeCents allocation.allocatedCents "allocatedCents"
  assertStorageRangeCents allocation.allocatedCents "allocatedCents"
  let allocated ← addCents state.2 allocation.allocatedCents "allocatedCents"
  return (allocation.handoverId :: state.1, allocated)

def assertCashFullyAllocated (declaredCents : Int) (allocations : List CashHandoverAllocation) :
    Except DomainError Unit := do
  assertNonNegativeCents declaredCents "declaredCents"
  assertStorageRangeCents declaredCents "declaredCents"
  let (_, allocated) ← allocations.foldlM allocate ([], 0)
  throwIf (allocated ≠ declaredCents)
    (cashRuleViolation "CASH_HANDOVER_ALLOCATION_MISMATCH"
      "all declared cash must be allocated before the drawer is released")

def drawerReleaseBlocked : DomainError :=
  cashRuleViolation "CASH_DRAWER_RELEASE_BLOCKED"
    "drawer release requires a frozen session with a cash declaration"

def assertDrawerReleaseAllowed (session : CashSession) (declaredCountCents : Option Int)
    (allocations : List CashHandoverAllocation) : Except DomainError Unit := do
  throwIf (¬ isFrozen session) drawerReleaseBlocked
  let declaredCents ← orThrow declaredCountCents drawerReleaseBlocked
  assertCashFullyAllocated declaredCents allocations

def allocationOf (handover : CashHandover) : CashHandoverAllocation :=
  ⟨handover.id, handover.declaredCents⟩

namespace Adapter

/-! ### Counts -/

def startCount (surroundings : Surroundings) (actor : CashActor) (sessionId : String) :
    CashTx CashEnding := do
  let session ← requireSessionLocked sessionId
  assertAbility actor ⟨.create, .cashCount⟩ (some (sessionInstance session))
  let movements ← loadSessionMovements surroundings session.id.val
  let counting ← Cash.startCount surroundings.collate session.toCashSession movements
    actor.userId surroundings.now
  let frozen ← orThrow counting.expectedJson sessionNotFound
  let view ← SessionRow.projectCashSession { session with toCashSession := counting }
    actor.userId frozen.cashExpectedCents none
    (canInstanceAbility actor cashAuditRequirement (sessionInstance session)) false
  let freeze (row : SessionRow) : SessionRow := { row with
    status := counting.status
    frozenAt := counting.frozenAt
    expectedJson := counting.expectedJson }
  return {
    write := fun tables => .ok (updateSession session.id.val freeze (fun _ => rfl) tables)
    answer := .counting view }

structure CountCommand where
  sessionId : String
  lines : List CashCountLine
  denominations : Option (List CashDenominationLine)
  notes : Option String
  deriving DecidableEq

def sessionNotWritable (message : String) : DomainError :=
  cashRuleViolation "CASH_SESSION_NOT_WRITABLE" message

def declarationNotFound (message : String) : DomainError :=
  businessRuleViolationError message "CASH_DECLARATION_NOT_FOUND"

/-- The channels a count of this session must cover. -/
def requiredChannels (expected : ExpectedSnapshot) : List String :=
  expected.channels.map ExpectedChannel.channelKey

def declare (surroundings : Surroundings) (actor : CashActor) (command : CountCommand) :
    CashTx CashEnding := do
  let session ← requireSessionLocked command.sessionId
  assertAbility actor ⟨.create, .cashCount⟩ (some (sessionInstance session))
  assertSessionOwner session.toCashSession actor.userId
  throwIf (session.status ≠ .counting)
    (sessionNotWritable "A declaration requires a frozen counting session")
  let expected ← orThrow session.expectedJson
    (sessionNotWritable "A declaration requires a frozen counting session")
  let counts ← Tx.query fun tables => countsOf tables session.id.val
  throwIf (∃ count ∈ counts, count.kind = .declaration)
    (businessRuleViolationError "This session already has a blind declaration"
      "CASH_DECLARATION_ALREADY_SUBMITTED")
  let validated ← validateCashCount surroundings.collate command.lines
    (requiredChannels expected) command.denominations
  let comparison ← compareSafely ⟨expected.cashExpectedCents, validated.cashCents, none,
    command.notes, none⟩
  let count : CashCount := {
    sessionId := session.id.val
    kind := .declaration
    revision := 1
    actorUserId := actor.userId
    lines := validated.lines
    denominations := command.denominations
    notes := command.notes
    createdAt := surroundings.databaseNow }
  let submit (row : SessionRow) : SessionRow := { row with
    status := .submitted
    submittedAt := some surroundings.now }
  return {
    write := fun tables => (insertCount count tables).map
      (updateSession session.id.val submit fun _ => rfl)
    answer := .declared session.id.val .submitted
      ⟨1, none, validated.lines, command.denominations, command.notes, some validated.cashCents⟩
      comparison }

def annotateDeclaration (surroundings : Surroundings) (actor : CashActor)
    (sessionId notes : String) : CashTx CashEnding := do
  let session ← requireSessionLocked sessionId
  assertAbility actor ⟨.create, .cashCount⟩ (some (sessionInstance session))
  assertSessionOwner session.toCashSession actor.userId
  let counts ← Tx.query fun tables => countsOf tables session.id.val
  throwIf ((∃ count ∈ counts, count.kind = .verification) ∨ session.status = .closed)
    (businessRuleViolationError
      "Declaration notes cannot change after verification or closing" "CASH_ANNOTATION_BLOCKED")
  let declaration ← orThrow (latestOf .declaration counts)
    (declarationNotFound "No declaration exists to annotate")
  assertNonEmptyText notes "notes"
  let count : CashCount := { declaration with
    sessionId := session.id.val
    kind := .declaration
    revision := declaration.revision + 1
    actorUserId := actor.userId
    notes := some (Text.trim notes)
    createdAt := surroundings.databaseNow }
  return {
    write := insertCount count
    answer := .annotated session.id.val
      ⟨count.revision, none, count.lines, count.denominations, count.notes, none⟩ }

def verify (surroundings : Surroundings) (actor : CashActor) (command : CountCommand) :
    CashTx CashEnding := do
  let session ← requireSessionLocked command.sessionId
  assertAbility actor ⟨.create, .cashVerification⟩ (some (sessionInstance session))
  throwIf (session.status ≠ .submitted)
    (sessionNotWritable "Verification requires a submitted declaration")
  assertIndependentVerifier session.cashierUserId.val actor.userId
  let expected ← orThrow session.expectedJson
    (sessionNotWritable "Expected snapshot is missing for verification")
  let counts ← Tx.query fun tables => countsOf tables session.id.val
  let declaration ← orThrow (latestOf .declaration counts)
    (declarationNotFound "No declaration exists to verify")
  throwIf (∃ count ∈ counts, count.kind = .verification)
    (businessRuleViolationError "This session already has an independent verification"
      "CASH_ALREADY_VERIFIED")
  let validated ← validateCashCount surroundings.collate command.lines
    (requiredChannels expected) command.denominations
  assertChannelExplanations expected declaration.lines validated.lines declaration.notes
    command.notes
  let comparison ← compareCashCounts ⟨expected.cashExpectedCents, cashCents declaration.lines,
    some validated.cashCents, declaration.notes, command.notes⟩
  let count : CashCount := {
    sessionId := session.id.val
    kind := .verification
    revision := 1
    actorUserId := actor.userId
    lines := validated.lines
    denominations := command.denominations
    notes := command.notes
    createdAt := surroundings.databaseNow }
  return {
    write := insertCount count
    answer := .verified session.id.val
      ⟨1, some actor.userId, validated.lines, command.denominations, command.notes,
        some validated.cashCents⟩ comparison }

/-! ### Custody -/

structure HandoverCommand where
  sessionId : String
  handoverKind : CashHandoverKind
  recipientUserId : String
  declaredCents : Int
  notes : Option String
  deriving DecidableEq

/-- One step of the sum of what is allocated already. -/
def addAllocated (allocated : Int) (handover : CashHandover) : Except DomainError Int :=
  addCents allocated handover.declaredCents "allocatedCents"

def allocatedCents (declaredCents : Int) (existing : List CashHandover) :
    Except DomainError Int :=
  existing.foldlM addAllocated declaredCents

def createHandover (surroundings : Surroundings) (actor : CashActor)
    (command : HandoverCommand) : CashTx CashEnding := do
  let session ← requireSessionLocked command.sessionId
  assertAbility actor ⟨.create, .cashHandover⟩ (some (sessionInstance session))
  assertSessionOwner session.toCashSession actor.userId
  throwIf (session.status ≠ .submitted)
    (sessionNotWritable "Handovers require a submitted declaration")
  assertNonNegativeCents command.declaredCents "declaredCents"
  assertStorageRangeCents command.declaredCents "declaredCents"
  assertActiveMember (surroundings.standing command.recipientUserId)
  throwIf (command.handoverKind = .withdrawal ∧ command.recipientUserId = actor.userId)
    (cashRuleViolation "CASH_HANDOVER_SELF_WITHDRAWAL"
      "a withdrawal cannot be received by its own sender")
  let counts ← Tx.query fun tables => countsOf tables session.id.val
  let declaration ← orThrow (latestOf .declaration counts)
    (declarationNotFound "No declaration exists for handover allocation")
  let existing ← Tx.query fun tables => handoversOf tables session.id.val
  let allocated ← allocatedCents command.declaredCents existing
  throwIf (cashCents declaration.lines < allocated)
    (businessRuleViolationError "Handovers cannot allocate more than the counted cash"
      "CASH_HANDOVER_ALLOCATION_EXCEEDED")
  let row : CashHandover := {
    id := surroundings.newId.val
    sourceSessionId := session.id.val
    kind := command.handoverKind
    recipientUserId := command.recipientUserId
    createdByUserId := actor.userId
    declaredCents := command.declaredCents
    receivedCents := none
    notes := command.notes
    receiptNotes := none
    receivedAt := none
    receivedByUserId := none
    createdAt := surroundings.databaseNow }
  return { write := insertHandover row, answer := .handover row }

structure ReceiveCommand where
  id : String
  receivedCents : Int
  notes : Option String
  deriving DecidableEq

def handoverNotFound : DomainError :=
  businessRuleViolationError "Cash handover not found" "CASH_HANDOVER_NOT_FOUND"

/-- The columns a receipt fills in. -/
def CashHandover.receive (handover : CashHandover) (actorUserId : String)
    (receivedAt : Int) (command : ReceiveCommand) : CashHandover :=
  { handover with
    receivedCents := some command.receivedCents
    receivedAt := some receivedAt
    receivedByUserId := some actorUserId
    receiptNotes := command.notes }

def checkReceipt (actor : CashActor) (now : Int) (handover : CashHandover)
    (command : ReceiveCommand) : Except DomainError Unit := do
  throwIf (handover.receivedAt ≠ none ∨ handover.receivedByUserId ≠ none)
    (businessRuleViolationError "This handover was already received"
      "CASH_HANDOVER_ALREADY_RECEIVED")
  throwIf (handover.recipientUserId ≠ actor.userId)
    (businessRuleViolationError "Only the designated recipient may confirm receipt"
      "CASH_HANDOVER_RECIPIENT_INVALID")
  assertNonNegativeCents command.receivedCents "receivedCents"
  assertStorageRangeCents command.receivedCents "receivedCents"
  assertHandoverReceipt { handover.receipt with
    receivedCents := some command.receivedCents
    receiptActorUserId := some actor.userId
    receivedAt := some now }
  throwIf (command.receivedCents ≠ handover.declaredCents ∧ ¬ HasNotes command.notes)
    (businessRuleViolationError
      "A received amount that differs from the declared amount requires a note"
      "CASH_RECEIPT_NOTES_REQUIRED")

def receiveHandover (surroundings : Surroundings) (actor : CashActor)
    (command : ReceiveCommand) : CashTx CashEnding := do
  let found ← Tx.query fun tables => findHandover tables command.id
  let preview ← orThrow found handoverNotFound
  -- the source session before the handover row
  let _ ← lockSessionRow preview.sourceSessionId
  let locked ← lockHandoverRow command.id
  throwIf (locked = false) handoverNotFound
  let found ← Tx.query fun tables => findHandover tables command.id
  let handover ← orThrow found handoverNotFound
  assertAbility actor ⟨.update, .cashHandover⟩ (some (handoverInstance handover))
  checkReceipt actor surroundings.now handover command
  let receive (row : CashHandover) := CashHandover.receive row actor.userId surroundings.now command
  return {
    write := fun tables => .ok (updateHandover handover.id receive (fun _ => rfl) tables)
    answer := .handover (receive handover) }

def requireReceived (message : String) (handovers : List CashHandover) :
    Except DomainError Unit :=
  handovers.forM fun handover => throwIf (handover.receivedAt = none)
    (businessRuleViolationError message "CASH_CUSTODY_NOT_RECEIVED")

def releaseDrawer (surroundings : Surroundings) (actor : CashActor) (sessionId : String) :
    CashTx CashEnding := do
  let session ← requireSessionLocked sessionId
  assertAbility actor ⟨.create, .cashHandover⟩ (some (sessionInstance session))
  assertSessionOwner session.toCashSession actor.userId
  throwIf (session.drawerReleasedAt ≠ none)
    (businessRuleViolationError "The drawer was already released" "CASH_DRAWER_ALREADY_RELEASED")
  let counts ← Tx.query fun tables => countsOf tables session.id.val
  let handovers ← Tx.query fun tables => handoversOf tables session.id.val
  requireReceived "All handovers must be received before the drawer is released" handovers
  assertDrawerReleaseAllowed session.toCashSession
    ((latestOf .declaration counts).map fun declaration => cashCents declaration.lines)
    (handovers.map allocationOf)
  let release (row : SessionRow) : SessionRow :=
    { row with drawerReleasedAt := some surroundings.now }
  return {
    write := fun tables => .ok (updateSession session.id.val release (fun _ => rfl) tables)
    answer := .released session.id.val surroundings.now }

/-! ### The final cut -/

def buildClosingChannel (declaredLines verifiedLines : List CashCountLine)
    (channel : ExpectedChannel) : Except DomainError CashSnapshotChannelLine := do
  let amountIn (lines : List CashCountLine) :=
    (lines.find? fun line => line.channelKey = channel.channelKey).map CashCountLine.amountCents
  let declaredCents := (amountIn declaredLines).getD 0
  let differenceCents ← subtractCents declaredCents channel.expectedCents "differenceCents"
  return {
    channelKey := channel.channelKey
    channelLabel := channel.channelLabel
    method := channel.method
    expectedCents := channel.expectedCents
    declaredCents
    verifiedCents := amountIn verifiedLines
    differenceCents }

def copyChannelLine (line : CashSnapshotChannelLine) : Except DomainError Unit := do
  assertStorageRangeCents line.expectedCents "channel.expectedCents"
  assertStorageRangeCents line.declaredCents "channel.declaredCents"
  match line.verifiedCents with
  | some verifiedCents => assertStorageRangeCents verifiedCents "channel.verifiedCents"
  | none => pure ()
  assertStorageRangeCents line.differenceCents "channel.differenceCents"

def toSnapshotHandover (handover : CashHandover) : Except DomainError CashSnapshotHandover := do
  assertNonEmptyText handover.id "handoverId"
  assertNonEmptyText handover.createdByUserId "handover.senderUserId"
  assertStorageRangeCents handover.declaredCents "handover.declaredCents"
  match handover.receivedCents with
  | some receivedCents => assertStorageRangeCents receivedCents "handover.receivedCents"
  | none => pure ()
  return {
    handoverId := handover.id
    kind := handover.kind
    declaredCents := handover.declaredCents
    receivedCents := handover.receivedCents
    senderUserId := handover.createdByUserId
    receiverUserId := handover.recipientUserId
    receiptActorUserId := handover.receivedByUserId
    declaredAt := handover.createdAt
    receivedAt := handover.receivedAt }

structure CloseCommand where
  sessionId : String
  notes : Option String
  deriving DecidableEq

/-- The frozen copy of a cut: every amount in it is checked, and the handovers are copied. -/
def createCashClosingSnapshot (input : CashClosingSnapshot) (handovers : List CashHandover) :
    Except DomainError CashClosingSnapshot := do
  throwIf (¬ Text.isNonEmptyText input.folio)
    (cashRuleViolation "CASH_FOLIO_REQUIRED" "a closing snapshot requires a folio")
  assertNonEmptyText input.closedByUserId "closedByUserId"
  assertNonEmptyText input.verifierUserId "verifierUserId"
  assertStorageRangeCents input.expectedCents "expectedCents"
  assertStorageRangeCents input.declaredCents "declaredCents"
  assertStorageRangeCents input.verifiedCents "verifiedCents"
  input.channels.forM copyChannelLine
  let rows ← handovers.mapM toSnapshotHandover
  return { input with folio := Text.trim input.folio, handovers := rows }

/-- What blocks a close: an explanation that is missing, custody that was not received, and
cash that was not handed over. -/
def checkClosing (expected : ExpectedSnapshot) (declaration verification : CashCount)
    (handovers : List CashHandover) : Except DomainError CashComparison := do
  assertChannelExplanations expected declaration.lines verification.lines declaration.notes
    verification.notes
  let comparison ← compareCashCounts ⟨expected.cashExpectedCents, cashCents declaration.lines,
    some (cashCents verification.lines), declaration.notes, verification.notes⟩
  requireReceived "All handovers must be received before closing" handovers
  assertCashFullyAllocated (cashCents declaration.lines) (handovers.map allocationOf)
  return comparison

/-- The final cut of a session: what was expected, declared and verified, and who did it. -/
def closingSnapshot (surroundings : Surroundings) (actor : CashActor) (command : CloseCommand)
    (session : SessionRow) (expected : ExpectedSnapshot)
    (original declaration verification : CashCount) (handovers : List CashHandover) :
    Except DomainError CashClosingSnapshot := do
  let comparison ← checkClosing expected declaration verification handovers
  let channels ← expected.channels.mapM (buildClosingChannel declaration.lines verification.lines)
  createCashClosingSnapshot {
    sessionId := session.id.val
    registerId := session.registerId
    folio := surroundings.folioId
    cashierUserId := session.cashierUserId.val
    openingCents := session.openingCents.val
    expectedCents := expected.cashExpectedCents
    declaredCents := cashCents declaration.lines
    verifiedCents := cashCents verification.lines
    verifierUserId := verification.actorUserId
    channels
    handovers := []
    countedAt := original.createdAt
    verifiedAt := verification.createdAt
    closedAt := surroundings.now
    closedByUserId := actor.userId
    registerName := (findRegister surroundings.seen session.registerId).map CashRegister.name
    cashierName := surroundings.userName session.cashierUserId.val
    verifierName := surroundings.userName verification.actorUserId
    closedByName := surroundings.userName actor.userId
    declarationNotes := declaration.notes
    verificationNotes := verification.notes
    comparison
    closingNotes := command.notes } handovers

def close (surroundings : Surroundings) (actor : CashActor) (command : CloseCommand) :
    CashTx CashEnding := do
  let session ← requireSessionLocked command.sessionId
  assertAbility actor ⟨.create, .cashClosing⟩ (some (sessionInstance session))
  throwIf (session.status ≠ .submitted)
    (sessionNotWritable "Closing requires a submitted declaration")
  assertIndependentCloser session.cashierUserId.val actor.userId
  throwIf (session.drawerReleasedAt = none)
    (businessRuleViolationError "The drawer must be released before closing"
      "CASH_DRAWER_NOT_RELEASED")
  let expected ← orThrow session.expectedJson
    (sessionNotWritable "Expected snapshot is missing for closing")
  let counts ← Tx.query fun tables => countsOf tables session.id.val
  let declaration ← orThrow (latestOf .declaration counts)
    (declarationNotFound "No declaration exists to close")
  let verification ← orThrow (latestOf .verification counts)
    (businessRuleViolationError "An independent verification is required to close"
      "CASH_VERIFICATION_REQUIRED")
  let original ← orThrow
    (counts.find? fun count => count.kind = .declaration ∧ count.revision = 1)
    (declarationNotFound "The original declaration is required to close")
  let handovers ← Tx.query fun tables => handoversOf tables session.id.val
  let snapshot ← closingSnapshot surroundings actor command session expected original
    declaration verification handovers
  let row : CashClosing := ⟨surroundings.newId.val, session.id.val, surroundings.folioId,
    actor.userId, snapshot, surroundings.databaseNow⟩
  let shut (session : SessionRow) : SessionRow := { session with
    status := .closed
    closedAt := some surroundings.now }
  return {
    write := fun tables => (insertClosing row tables).map
      (updateSession session.id.val shut fun _ => rfl)
    answer := .closing row }

end Adapter

end Houndfe.Cash
