import Houndfe.Base.KeyedTable
import Houndfe.Base.Transactions
import Houndfe.Cash.CountRules
import Houndfe.Cash.Counting

/-! The cash register's tables, seen from one tenant: every statement carries the tenant's id.
The rows, the locks a command takes on them, and the answers it gives. -/

namespace Houndfe.Cash

open PaymentMethods Transactions

/-! ### Rows -/

structure CashRegister where
  id : String
  name : String
  isActive : Bool
  createdAt : Int
  deriving DecidableEq

structure SessionRow extends CashSession where
  registerId : String
  openedAt : Int
  submittedAt : Option Int
  closedAt : Option Int
  drawerReleasedAt : Option Int
  openingHandoverId : Option String
  deriving DecidableEq

/-- The primary key of the session table. -/
def SessionRow.key (row : SessionRow) : String := row.id.val

structure MovementRow extends RecordedMovement where
  id : String
  actorUserId : String
  deriving DecidableEq

inductive CashCountKind where
  | declaration
  | verification
  deriving DecidableEq, Repr

structure CashCount where
  sessionId : String
  kind : CashCountKind
  revision : Nat
  actorUserId : String
  lines : List CashCountLine
  denominations : Option (List CashDenominationLine)
  notes : Option String
  createdAt : Int
  deriving DecidableEq

inductive CashHandoverKind where
  | withdrawal
  | float
  deriving DecidableEq, Repr

structure CashHandover where
  id : String
  sourceSessionId : String
  kind : CashHandoverKind
  recipientUserId : String
  createdByUserId : String
  declaredCents : Int
  receivedCents : Option Int
  notes : Option String
  receiptNotes : Option String
  receivedAt : Option Int
  receivedByUserId : Option String
  createdAt : Int
  deriving DecidableEq

structure CashSnapshotChannelLine where
  channelKey : String
  channelLabel : String
  method : TenderMethod
  expectedCents : Int
  declaredCents : Int
  verifiedCents : Option Int
  differenceCents : Int
  deriving DecidableEq

structure CashSnapshotHandover where
  handoverId : String
  kind : CashHandoverKind
  declaredCents : Int
  receivedCents : Option Int
  senderUserId : String
  receiverUserId : String
  receiptActorUserId : Option String
  declaredAt : Int
  receivedAt : Option Int
  deriving DecidableEq

structure CashClosingSnapshot where
  sessionId : String
  registerId : String
  folio : String
  cashierUserId : String
  openingCents : Int
  expectedCents : Int
  declaredCents : Int
  verifiedCents : Int
  verifierUserId : String
  channels : List CashSnapshotChannelLine
  handovers : List CashSnapshotHandover
  countedAt : Int
  verifiedAt : Int
  closedAt : Int
  closedByUserId : String
  registerName : Option String
  cashierName : Option String
  verifierName : Option String
  closedByName : Option String
  declarationNotes : Option String
  verificationNotes : Option String
  comparison : CashComparison
  closingNotes : Option String
  deriving DecidableEq

structure CashClosing where
  id : String
  sessionId : String
  folio : String
  closedByUserId : String
  snapshot : CashClosingSnapshot
  createdAt : Int
  deriving DecidableEq

/-! ### Answers -/

/-- A session as its viewer may see it: expected amounts are absent, not null, when hidden. -/
structure CashSessionProjectionView where
  id : String
  registerId : String
  status : CashSessionStatus
  cashierUserId : String
  openingCents : Int
  frozenAt : Option Int
  drawerReleasedAt : Option Int
  blind : Bool
  expectedCashCents : Option Int
  differenceCents : Option Int
  deriving DecidableEq

structure CountDocument where
  revision : Nat
  actorUserId : Option String
  lines : List CashCountLine
  denominations : Option (List CashDenominationLine)
  notes : Option String
  cashCents : Option Int
  deriving DecidableEq

/-- What a command answers; a ledger call answers nothing. -/
inductive CashDocument where
  | nothing
  | register (row : CashRegister)
  | opened (session : CashSessionProjectionView) (register : CashRegister)
  | movement (id sessionId : String) (kind : CashMovementKind) (deltaCents occurredAt : Int)
  | counting (session : CashSessionProjectionView)
  | declared (sessionId : String) (status : CashSessionStatus) (declaration : CountDocument)
      (comparison : SafeComparison)
  | annotated (sessionId : String) (declaration : CountDocument)
  | verified (sessionId : String) (verification : CountDocument) (comparison : CashComparison)
  | handover (row : CashHandover)
  | released (sessionId : String) (drawerReleasedAt : Int)
  | closing (row : CashClosing)
  deriving DecidableEq

structure CommandRow where
  key : String
  requestHash : String
  response : CashDocument
  deriving DecidableEq

structure CashTables where
  registers : Keyed.Rows CashRegister.id
  sessions : Keyed.Rows SessionRow.key
  movements : List MovementRow
  counts : List CashCount
  handovers : Keyed.Rows CashHandover.id
  closings : Keyed.Rows CashClosing.sessionId
  commands : Keyed.Rows CommandRow.key

def CashTables.empty : CashTables :=
  ⟨.empty _, .empty _, [], [], .empty _, .empty _, .empty _⟩

/-! ### Actors -/

inductive AppAction where
  | create
  | read
  | update
  deriving DecidableEq, Repr

inductive AppSubject where
  | cashRegister
  | cashSession
  | cashIn
  | cashOut
  | cashCount
  | cashVerification
  | cashHandover
  | cashClosing
  | cashSessionAudit
  deriving DecidableEq, Repr

def AppAction.text : AppAction → String
  | .create => "create"
  | .read => "read"
  | .update => "update"

def AppSubject.text : AppSubject → String
  | .cashRegister => "CashRegister"
  | .cashSession => "CashSession"
  | .cashIn => "CashIn"
  | .cashOut => "CashOut"
  | .cashCount => "CashCount"
  | .cashVerification => "CashVerification"
  | .cashHandover => "CashHandover"
  | .cashClosing => "CashClosing"
  | .cashSessionAudit => "CashSessionAudit"

structure CashAbilityRequirement where
  action : AppAction
  subject : AppSubject
  deriving DecidableEq

/-- What a conditional permission can be evaluated against: the columns of the row, never its
amounts. -/
inductive CashInstance where
  | newRegister (ownerUserId : String)
  | register (id name : String) (isActive : Bool)
  | session (id registerId cashierUserId : String) (status : CashSessionStatus)
  | handover (id sessionId senderUserId recipientUserId : String) (kind : CashHandoverKind)
  deriving DecidableEq

def registerInstance (row : CashRegister) : CashInstance :=
  .register row.id row.name row.isActive

def sessionInstance (row : SessionRow) : CashInstance :=
  .session row.id.val row.registerId row.cashierUserId.val row.status

def handoverInstance (row : CashHandover) : CashInstance :=
  .handover row.id row.sourceSessionId row.createdByUserId row.recipientUserId row.kind

/-- An authenticated user; `can` is the library's decision on a subject, or on an instance of
it when one is given. -/
structure CashActor where
  userId : String
  can : CashAbilityRequirement → Option CashInstance → Bool

def assertAbility (actor : CashActor) (requirement : CashAbilityRequirement)
    (target : Option CashInstance) : Except DomainError Unit :=
  throwIf (actor.can requirement target = false)
    (businessRuleViolationError
      ("Missing permission " ++ requirement.action.text ++ ":" ++ requirement.subject.text)
      "CASH_PERMISSION_DENIED")

def canInstanceAbility (actor : CashActor) (requirement : CashAbilityRequirement)
    (target : CashInstance) : Bool :=
  actor.can requirement (some target)

def cashAuditRequirement : CashAbilityRequirement := ⟨.read, .cashSessionAudit⟩

/-- What a request finds around it: its clocks, the ids it is given, the order its loads come
in, the users, and the committed tables that a statement outside its locks happens to see. -/
structure Surroundings where
  now : Int
  databaseNow : Int
  newId : Identifier
  rowId : Nat → String
  folioId : String
  load : List MovementRow → List MovementRow
  collate : String → String → Bool
  standing : String → ActorStanding
  userName : String → Option String
  seen : CashTables

/-- A load sorts by date; rows of one date come in any order. -/
def Surroundings.Loads (surroundings : Surroundings) : Prop :=
  ∀ rows, (surroundings.load rows).Perm rows ∧
    (surroundings.load rows).Pairwise fun earlier later => earlier.occurredAt ≤ later.occurredAt

/-! ### Lookups -/

def findRegister (tables : CashTables) (id : String) : Option CashRegister :=
  tables.registers.find id

def findSession (tables : CashTables) (id : String) : Option SessionRow :=
  tables.sessions.find id

def findHandover (tables : CashTables) (id : String) : Option CashHandover :=
  tables.handovers.find id

def findCommand (tables : CashTables) (key : String) : Option CommandRow :=
  tables.commands.find key

/-- The movements of a session, as they were inserted. -/
def movementsOf (tables : CashTables) (sessionId : String) : List MovementRow :=
  tables.movements.filter fun row => row.movement.sessionId = sessionId

def countsOf (tables : CashTables) (sessionId : String) : List CashCount :=
  tables.counts.filter fun row => row.sessionId = sessionId

def handoversOf (tables : CashTables) (sessionId : String) : List CashHandover :=
  tables.handovers.rows.filter fun row => row.sourceSessionId = sessionId

/-- The count of a kind with the highest revision. -/
def latestOf (kind : CashCountKind) (counts : List CashCount) : Option CashCount :=
  (counts.filter fun count => count.kind = kind).foldl (fun best candidate =>
    match best with
    | none => some candidate
    | some best => some (if candidate.revision > best.revision then candidate else best)) none

/-! ### Statements -/

inductive CashLock where
  | key (key : String)
  | register (id : String)
  | session (id : String)
  | handover (id : String)
  deriving DecidableEq

abbrev CashTx (α : Type) := Tx CashLock CashTables DomainError α

abbrev CashEnding := Commit CashTables DomainError CashDocument

def lockRegisterRow (id : String) : CashTx Bool :=
  Tx.lockRow (.register id) fun tables => (findRegister tables id).isSome

def lockSessionRow (id : String) : CashTx Bool :=
  Tx.lockRow (.session id) fun tables => (findSession tables id).isSome

def lockHandoverRow (id : String) : CashTx Bool :=
  Tx.lockRow (.handover id) fun tables => (findHandover tables id).isSome

/-- `if (!row) throw error`. -/
def orThrow {α : Type} (row : Option α) (error : DomainError) : Except DomainError α :=
  match row with
  | some row => .ok row
  | none => .error error

theorem orThrow_eq_ok {α : Type} {row : Option α} {error : DomainError} {a : α} :
    orThrow row error = .ok a ↔ row = some a := by
  cases row <;> simp [orThrow]

def sessionNotFound : DomainError :=
  businessRuleViolationError "Cash session not found" "CASH_SESSION_NOT_FOUND"

def requireSessionLocked (sessionId : String) : CashTx SessionRow := do
  let locked ← lockSessionRow sessionId
  throwIf (locked = false) sessionNotFound
  let row ← Tx.query fun tables => findSession tables sessionId
  orThrow row sessionNotFound

/-! ### Writes -/

/-- A unique key of the database refuses the write. -/
def uniqueViolation : DomainError :=
  businessRuleViolationError "Unique constraint failed" "P2002"

def insertRegister (row : CashRegister) (tables : CashTables) : Except DomainError CashTables := do
  throwIf (∃ other ∈ tables.registers.rows, other.name = row.name) uniqueViolation
  let registers ← orThrow (tables.registers.insert row) uniqueViolation
  return { tables with registers }

/-- The update of a register's own columns. -/
def saveRegister (id name : String) (isActive : Bool) (tables : CashTables) :
    Except DomainError CashTables := do
  throwIf (∃ other ∈ tables.registers.rows, other.id ≠ id ∧ other.name = name) uniqueViolation
  return { tables with
    registers := tables.registers.modify id (fun row => { row with name, isActive }) fun _ => rfl }

/-- The indexes of the session table besides its key: a handover funds at most one session, and
a register has at most one session that is not released. -/
def insertSession (row : SessionRow) (tables : CashTables) : Except DomainError CashTables := do
  throwIf (∃ other ∈ tables.sessions.rows,
      (row.openingHandoverId ≠ none ∧ other.openingHandoverId = row.openingHandoverId) ∨
      (row.drawerReleasedAt = none ∧ other.drawerReleasedAt = none ∧
        other.registerId = row.registerId))
    uniqueViolation
  let sessions ← orThrow (tables.sessions.insert row) uniqueViolation
  return { tables with sessions }

def updateSession (id : String) (change : SessionRow → SessionRow)
    (hKey : ∀ row : SessionRow, (change row).key = row.key) (tables : CashTables) : CashTables :=
  { tables with sessions := tables.sessions.modify id change hKey }

def insertMovements (rows : List MovementRow) (error : DomainError) (tables : CashTables) :
    Except DomainError CashTables := do
  throwIf (∃ row ∈ rows, ∃ other ∈ tables.movements,
    other.movement.source = row.movement.source ∨ other.id = row.id) error
  throwIf (¬ (rows.map fun row => row.movement.source).Nodup ∨ ¬ (rows.map MovementRow.id).Nodup)
    error
  return { tables with movements := tables.movements ++ rows }

def insertCount (row : CashCount) (tables : CashTables) : Except DomainError CashTables := do
  throwIf (∃ other ∈ tables.counts, other.sessionId = row.sessionId ∧ other.kind = row.kind ∧
    other.revision = row.revision) uniqueViolation
  return { tables with counts := tables.counts ++ [row] }

def insertHandover (row : CashHandover) (tables : CashTables) : Except DomainError CashTables := do
  let handovers ← orThrow (tables.handovers.insert row) uniqueViolation
  return { tables with handovers }

def updateHandover (id : String) (change : CashHandover → CashHandover)
    (hKey : ∀ row : CashHandover, (change row).id = row.id) (tables : CashTables) : CashTables :=
  { tables with handovers := tables.handovers.modify id change hKey }

def insertClosing (row : CashClosing) (tables : CashTables) : Except DomainError CashTables := do
  throwIf (∃ other ∈ tables.closings.rows, other.folio = row.folio) uniqueViolation
  let closings ← orThrow (tables.closings.insert row) uniqueViolation
  return { tables with closings }

/-- A command that raced on its key is told so. -/
def insertCommand (row : CommandRow) (tables : CashTables) : Except DomainError CashTables := do
  let commands ← orThrow (tables.commands.insert row)
    (businessRuleViolationError "Idempotency key raced with a concurrent request"
      "CASH_IDEMPOTENCY_CONFLICT")
  return { tables with commands }

section

variable {tables after : CashTables} {error : DomainError}

theorem insertRegister_eq_ok {row : CashRegister} : insertRegister row tables = .ok after ↔
    (∀ other ∈ tables.registers.rows, other.name ≠ row.name) ∧
      ∃ registers, tables.registers.insert row = some registers ∧
        { tables with registers } = after := by
  simp only [insertRegister, bind_eq_ok, throwIf_eq_ok, exists_const, orThrow_eq_ok, pure_eq_ok,
    not_exists, not_and, ne_eq]

theorem saveRegister_eq_ok {id name : String} {isActive : Bool} :
    saveRegister id name isActive tables = .ok after ↔
      (∀ other ∈ tables.registers.rows, other.id ≠ id → other.name ≠ name) ∧
        { tables with
          registers := tables.registers.modify id (fun row => { row with name, isActive })
            fun _ => rfl } = after := by
  simp only [saveRegister, bind_eq_ok, throwIf_eq_ok, exists_const, pure_eq_ok, not_exists,
    not_and, ne_eq]

/-- An insert that the indexes of the session table do not refuse. -/
theorem insertSession_eq_ok {row : SessionRow} : insertSession row tables = .ok after ↔
    (∀ other ∈ tables.sessions.rows,
      (row.openingHandoverId ≠ none → other.openingHandoverId ≠ row.openingHandoverId) ∧
      (row.drawerReleasedAt = none → other.drawerReleasedAt = none →
        other.registerId ≠ row.registerId)) ∧
      ∃ sessions, tables.sessions.insert row = some sessions ∧
        { tables with sessions } = after := by
  simp only [insertSession, bind_eq_ok, throwIf_eq_ok, exists_const, orThrow_eq_ok, pure_eq_ok,
    not_exists, not_and, not_or, ne_eq]

theorem insertMovements_eq_ok {rows : List MovementRow} :
    insertMovements rows error tables = .ok after ↔
      (∀ row ∈ rows, ∀ other ∈ tables.movements,
        other.movement.source ≠ row.movement.source ∧ other.id ≠ row.id) ∧
      ((rows.map fun row => row.movement.source).Nodup ∧ (rows.map MovementRow.id).Nodup) ∧
        { tables with movements := tables.movements ++ rows } = after := by
  simp only [insertMovements, bind_eq_ok, throwIf_eq_ok, exists_const, pure_eq_ok, not_exists,
    not_and, not_or, not_not, ne_eq]

theorem insertCount_eq_ok {row : CashCount} : insertCount row tables = .ok after ↔
    (∀ other ∈ tables.counts, other.sessionId = row.sessionId → other.kind = row.kind →
      other.revision ≠ row.revision) ∧
        { tables with counts := tables.counts ++ [row] } = after := by
  simp only [insertCount, bind_eq_ok, throwIf_eq_ok, exists_const, pure_eq_ok, not_exists,
    not_and, ne_eq]

theorem insertHandover_eq_ok {row : CashHandover} : insertHandover row tables = .ok after ↔
    ∃ handovers, tables.handovers.insert row = some handovers ∧
      { tables with handovers } = after := by
  simp only [insertHandover, bind_eq_ok, orThrow_eq_ok, pure_eq_ok]

theorem insertClosing_eq_ok {row : CashClosing} : insertClosing row tables = .ok after ↔
    (∀ other ∈ tables.closings.rows, other.folio ≠ row.folio) ∧
      ∃ closings, tables.closings.insert row = some closings ∧
        { tables with closings } = after := by
  simp only [insertClosing, bind_eq_ok, throwIf_eq_ok, exists_const, orThrow_eq_ok, pure_eq_ok,
    not_exists, not_and, ne_eq]

theorem insertCommand_eq_ok {row : CommandRow} : insertCommand row tables = .ok after ↔
    ∃ commands, tables.commands.insert row = some commands ∧
      { tables with commands } = after := by
  simp only [insertCommand, bind_eq_ok, orThrow_eq_ok, pure_eq_ok]

end

end Houndfe.Cash
