import Houndfe.Cash.CountCommands

/-! The requests of the cash register: one transaction holds the receipt of its key, the
command and the answer. -/

namespace Houndfe.Cash

open Transactions

inductive CashCommand where
  | createRegister (name : String)
  | updateRegister (id : String) (name : Option String) (isActive : Option Bool)
  | openSession (command : Adapter.OpenSessionCommand)
  | manualMovement (command : Adapter.ManualCommand)
  | startCount (sessionId : String)
  | declare (command : Adapter.CountCommand)
  | annotateDeclaration (sessionId notes : String)
  | verify (command : Adapter.CountCommand)
  | createHandover (command : Adapter.HandoverCommand)
  | receiveHandover (command : Adapter.ReceiveCommand)
  | releaseDrawer (sessionId : String)
  | close (command : Adapter.CloseCommand)
  deriving DecidableEq

/-- The coarse permission of each command. -/
def cashCommandAbility : CashCommand → CashAbilityRequirement
  | .createRegister _ => ⟨.create, .cashRegister⟩
  | .updateRegister .. => ⟨.update, .cashRegister⟩
  | .openSession _ => ⟨.create, .cashSession⟩
  | .manualMovement command => Adapter.manualRequirement command.kind
  | .startCount _ => ⟨.create, .cashCount⟩
  | .declare _ => ⟨.create, .cashCount⟩
  | .annotateDeclaration .. => ⟨.create, .cashCount⟩
  | .verify _ => ⟨.create, .cashVerification⟩
  | .createHandover _ => ⟨.create, .cashHandover⟩
  | .receiveHandover _ => ⟨.update, .cashHandover⟩
  | .releaseDrawer _ => ⟨.create, .cashHandover⟩
  | .close _ => ⟨.create, .cashClosing⟩

/-- The key that the receipt is kept under. -/
def requireIdempotencyKey (raw : String) : Except DomainError String := do
  let key := Text.trim raw
  throwIf (key = "") (businessRuleViolationError "An idempotency key is required"
    "CASH_IDEMPOTENCY_KEY_REQUIRED")
  throwIf (200 < Text.utf16Length key)
    (businessRuleViolationError "Idempotency key must be at most 200 characters"
      "CASH_IDEMPOTENCY_KEY_TOO_LONG")
  return key

/-- The session an answer names, for the recheck of an opening. -/
def CashDocument.sessionId? : CashDocument → Option String
  | .opened session _ => some session.id
  | .counting session => some session.id
  | _ => none

/-- The session a command is about, when it is not found through its own row. -/
def CashCommand.sessionId : CashCommand → String
  | .manualMovement command => command.sessionId
  | .startCount sessionId => sessionId
  | .declare command => command.sessionId
  | .annotateDeclaration sessionId _ => sessionId
  | .verify command => command.sessionId
  | .createHandover command => command.sessionId
  | .releaseDrawer sessionId => sessionId
  | .close command => command.sessionId
  | .createRegister _ => ""
  | .updateRegister .. => ""
  | .openSession _ => ""
  | .receiveHandover _ => ""

/-- The recheck of a replay: the permission against the row as it is now. The state of the row
is not checked again. -/
def recheckReplayAbility (tables : CashTables) (actor : CashActor) (command : CashCommand)
    (storedResponse : CashDocument) : Except DomainError Unit :=
  match command with
  | .createRegister _ =>
      assertAbility actor (cashCommandAbility command) (some (.newRegister actor.userId))
  | .openSession opening => do
      let row ← orThrow (storedResponse.sessionId?.bind fun id => tables.sessions.rows.find? fun row =>
          row.id.val = id ∧ row.registerId = opening.registerId ∧
            row.cashierUserId.val = actor.userId)
        (businessRuleViolationError "The original cash session was not found"
          "CASH_SESSION_NOT_FOUND")
      assertAbility actor (cashCommandAbility command) (some (sessionInstance row))
  | .updateRegister id _ _ => do
      let row ← orThrow (findRegister tables id) Adapter.registerNotFound
      assertAbility actor (cashCommandAbility command) (some (registerInstance row))
  | .receiveHandover receive => do
      let row ← orThrow (findHandover tables receive.id) Adapter.handoverNotFound
      assertAbility actor (cashCommandAbility command) (some (handoverInstance row))
  | command => do
      let row ← orThrow (findSession tables command.sessionId) sessionNotFound
      assertAbility actor (cashCommandAbility command) (some (sessionInstance row))

def dispatch (surroundings : Surroundings) (actor : CashActor) : CashCommand → CashTx CashEnding
  | .createRegister name => Adapter.createRegister surroundings actor name
  | .updateRegister id name isActive => Adapter.updateRegister surroundings actor id name isActive
  | .openSession command => Adapter.openSession surroundings actor command
  | .manualMovement command => Adapter.manualMovement surroundings actor command
  | .startCount sessionId => Adapter.startCount surroundings actor sessionId
  | .declare command => Adapter.declare surroundings actor command
  | .annotateDeclaration sessionId notes =>
      Adapter.annotateDeclaration surroundings actor sessionId notes
  | .verify command => Adapter.verify surroundings actor command
  | .createHandover command => Adapter.createHandover surroundings actor command
  | .receiveHandover command => Adapter.receiveHandover surroundings actor command
  | .releaseDrawer sessionId => Adapter.releaseDrawer surroundings actor sessionId
  | .close command => Adapter.close surroundings actor command

def runCommand (surroundings : Surroundings) (actor : CashActor) (command : CashCommand) :
    CashTx CashEnding := do
  assertActiveMember (surroundings.standing actor.userId)
  dispatch surroundings actor command

def idempotencyConflict : DomainError :=
  businessRuleViolationError "Idempotency key was already used with a different request"
    "CASH_IDEMPOTENCY_CONFLICT"

/-- A request of an actor: its command, its idempotency key and the hash of its contents. -/
structure CashRequest where
  actor : CashActor
  command : CashCommand
  idempotencyKey : String
  requestHash : String

/-- An exact replay skips the lifecycle guards and answers what was stored. -/
def replay (surroundings : Surroundings) (request : CashRequest) (stored : CommandRow) :
    Except DomainError CashDocument := do
  throwIf (stored.requestHash ≠ request.requestHash) idempotencyConflict
  assertActiveMember (surroundings.standing request.actor.userId)
  recheckReplayAbility surroundings.seen request.actor request.command stored.response
  return stored.response

/-- The row that keeps the answer of a key. -/
def receipt (key : String) (request : CashRequest) (response : CashDocument) : CommandRow :=
  ⟨key, request.requestHash, response⟩

def execute (surroundings : Surroundings) (request : CashRequest) : CashTx CashEnding := do
  let key ← requireIdempotencyKey request.idempotencyKey
  -- the coarse capability fails fast, before any lock
  assertAbility request.actor (cashCommandAbility request.command) none
  Tx.lockKey (.key key)
  let existing ← Tx.query fun tables => findCommand tables key
  match existing with
  | some stored => do
      let response ← replay surroundings request stored
      return { write := .ok, answer := response }
  | none =>
      (runCommand surroundings request.actor request.command).andWrite fun response =>
        insertCommand (receipt key request response)

/-- The transactions that touch these tables: requests, and the ledger calls of sales. -/
inductive CashBody : CashTx CashEnding → Prop where
  | request (surroundings : Surroundings) (loads : surroundings.Loads) (request : CashRequest) :
      CashBody (execute surroundings request)
  | payments (surroundings : Surroundings) (loads : surroundings.Loads)
      (input : Adapter.PaymentsInput) : CashBody (Adapter.recordPayments surroundings input)
  | refund (surroundings : Surroundings) (loads : surroundings.Loads)
      (input : Adapter.RefundInput) : CashBody (Adapter.recordRefund surroundings input)

end Houndfe.Cash
