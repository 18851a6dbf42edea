import Houndfe.Base.KeyedTable
import Houndfe.Base.Services
import Houndfe.Shared.DomainError
import Houndfe.Shared.Instant
import Houndfe.Shared.Text

/-! Time off of the employees of all tenants. A review and a cancellation read the request and
check its status in one statement and update it by its id in another, with nothing in between that
holds the row. -/

namespace Houndfe.Employees

open Transactions

inductive TimeOffType where
  | vacation
  | sick
  | personal
  | unpaid
  deriving DecidableEq, Repr

def TimeOffType.text : TimeOffType → String
  | .vacation => "VACATION"
  | .sick => "SICK"
  | .personal => "PERSONAL"
  | .unpaid => "UNPAID"

inductive TimeOffStatus where
  | pending
  | approved
  | rejected
  | cancelled
  deriving DecidableEq, Repr

def TimeOffStatus.text : TimeOffStatus → String
  | .pending => "PENDING"
  | .approved => "APPROVED"
  | .rejected => "REJECTED"
  | .cancelled => "CANCELLED"

inductive ReviewDecision where
  | approved
  | rejected
  deriving DecidableEq, Repr

def ReviewDecision.status : ReviewDecision → TimeOffStatus
  | .approved => .approved
  | .rejected => .rejected

/-- A row of `employee_time_off`; instants are milliseconds, dates the first instant of the day. -/
structure EmployeeTimeOff where
  id : String
  employeeId : String
  tenantId : String
  type : TimeOffType
  startDate : Int
  endDate : Int
  reason : Option String
  status : TimeOffStatus
  reviewerUserId : Option String
  reviewedAt : Option Int
  reviewerNotes : Option String
  requestedByUserId : Option String
  deriving DecidableEq, Repr

structure Employee where
  id : String
  tenantId : String
  firstName : Option String
  lastName : Option String
  deriving DecidableEq, Repr

structure NotificationConfig where
  enabled : Bool
  enabledActions : List String
  deriving DecidableEq, Repr

/-- The payload of `hr.timeoff.requested`. -/
structure TimeOffRequestedPayload where
  tenantId : String
  timeOffId : String
  employeeId : String
  type : String
  startDate : String
  endDate : String
  employeeName : String
  requestedByUserId : Option String
  deriving DecidableEq, Repr

structure Tables where
  employees : List Employee
  timeOff : Keyed.Rows EmployeeTimeOff.id
  notificationConfig : String → NotificationConfig
  outbox : List TimeOffRequestedPayload

/-- The errors of the date range and of a transition have classes of their own. -/
inductive Failure where
  | domain (error : DomainError)
  | timeOff (message code : String)
  | forbidden (message : String)
  | uniqueViolation
  | recordNotFound
  deriving DecidableEq, Repr

/-- No statement of the service takes a lock for a later one. -/
abbrev TimeOffTx := Tx Empty Tables Failure

/-! ### Errors -/

def employeeNotFoundError (id : String) : Failure :=
  .domain (entityNotFoundError "Employee" id)

def timeOffNotFoundError (id : String) : Failure :=
  .domain (entityNotFoundError "EmployeeTimeOff" id)

def timeOffInvalidTransitionError (currentStatus attemptedAction : String) : Failure :=
  .timeOff ("Cannot " ++ attemptedAction ++ " time-off request with status \"" ++ currentStatus ++
    "\"") "TIME_OFF_INVALID_TRANSITION"

def timeOffInvalidDateRangeError (startDate endDate : String) : Failure :=
  .timeOff ("Invalid date range: endDate (" ++ endDate ++ ") is before startDate (" ++ startDate ++
    ")") "TIME_OFF_INVALID_DATE_RANGE"

/-! ### The rows that a client sees -/

/-- The client of a tenant sees the rows of the tenant, the client of a super admin without one
sees all. -/
def visible (client : Option String) (tenantId : String) : Bool :=
  client.all (tenantId = ·)

namespace Tables

def findEmployee (tables : Tables) (client : Option String) (id : String) : Option Employee :=
  tables.employees.find? fun employee => employee.id = id && visible client employee.tenantId

def findTimeOff (tables : Tables) (client : Option String) (employeeId id : String) :
    Option EmployeeTimeOff :=
  (tables.timeOff.find id).filter fun row =>
    row.employeeId = employeeId && visible client row.tenantId

end Tables

/-! ### Requests for time off -/

/-- A date string of a body, with the instant that it names. -/
structure DateText where
  text : String
  instant : Int
  deriving DecidableEq, Repr

structure CreateTimeOffDto where
  type : TimeOffType
  startDate : DateText
  endDate : DateText
  reason : Option String
  deriving DecidableEq, Repr

/-- A column of type `DATE` keeps the day of an instant. -/
def dayOf (instant : Int) : Int :=
  instant - instant % 86400000

def buildDisplayName (firstName lastName : Option String) : String :=
  let name := Text.trim (" ".intercalate
    ([firstName, lastName].filterMap fun part => part.filter (· ≠ "")))
  if name = "" then "(empleado)" else name

def CreateTimeOffDto.row (dto : CreateTimeOffDto) (id employeeId tenantId : String)
    (requestedByUserId : Option String) : EmployeeTimeOff where
  id := id
  employeeId := employeeId
  tenantId := tenantId
  type := dto.type
  startDate := dayOf dto.startDate.instant
  endDate := dayOf dto.endDate.instant
  reason := dto.reason
  status := .pending
  reviewerUserId := none
  reviewedAt := none
  reviewerNotes := none
  requestedByUserId := requestedByUserId

def EmployeeTimeOff.requestedPayload (created : EmployeeTimeOff) (employee : Employee) :
    TimeOffRequestedPayload where
  tenantId := created.tenantId
  timeOffId := created.id
  employeeId := created.employeeId
  type := created.type.text
  startDate := Instant.toISOString created.startDate
  endDate := Instant.toISOString created.endDate
  employeeName := buildDisplayName employee.firstName employee.lastName
  requestedByUserId := created.requestedByUserId

def insert (row : EmployeeTimeOff) (tables : Tables) : Except Failure Tables :=
  match tables.timeOff.insert row with
  | none => .error .uniqueViolation
  | some timeOff => .ok { tables with timeOff := timeOff }

def publish (payload : TimeOffRequestedPayload) (tables : Tables) : Tables :=
  { tables with outbox := tables.outbox ++ [payload] }

/-! ### Decisions -/

structure ReviewTimeOffDto where
  decision : ReviewDecision
  reviewerNotes : Option String
  deriving DecidableEq, Repr

/-- What a review writes. -/
structure Review where
  decision : ReviewDecision
  reviewerUserId : String
  reviewedAt : Int
  reviewerNotes : Option String
  deriving DecidableEq, Repr

def EmployeeTimeOff.reviewed (review : Review) (row : EmployeeTimeOff) : EmployeeTimeOff :=
  { row with
    status := review.decision.status
    reviewerUserId := some review.reviewerUserId
    reviewedAt := some review.reviewedAt
    reviewerNotes := review.reviewerNotes }

def EmployeeTimeOff.cancelled (row : EmployeeTimeOff) : EmployeeTimeOff :=
  { row with status := .cancelled }

theorem EmployeeTimeOff.id_reviewed (review : Review) (row : EmployeeTimeOff) :
    (row.reviewed review).id = row.id := rfl

theorem EmployeeTimeOff.id_cancelled (row : EmployeeTimeOff) : row.cancelled.id = row.id := rfl

/-- `update` by id, as the client of the tenant sees it. -/
def update (client : Option String) (id : String) (change : EmployeeTimeOff → EmployeeTimeOff)
    (hKey : ∀ row, (change row).id = row.id) (tables : Tables) : Except Failure Tables :=
  if ((tables.timeOff.find id).filter fun row => visible client row.tenantId).isSome then
    .ok { tables with timeOff := tables.timeOff.modify id change hKey }
  else .error .recordNotFound

/-- A request is cancelled while it is pending, and an approved one before its first day. -/
def EmployeeTimeOff.MayCancel (row : EmployeeTimeOff) (now : Int) : Prop :=
  row.status = .pending ∨ row.status = .approved ∧ now < row.startDate

instance (row : EmployeeTimeOff) (now : Int) : Decidable (row.MayCancel now) :=
  inferInstanceAs (Decidable (_ ∨ _))

/-! ### The service -/

inductive Request where
  | request (client : Option String) (id employeeId : String) (dto : CreateTimeOffDto)
      (requestedByUserId : Option String)
  | review (client : Option String) (employeeId timeOffId : String) (dto : ReviewTimeOffDto)
      (reviewerUserId : String) (now : Int)
  | cancel (client : Option String) (employeeId timeOffId : String) (now : Int)
  deriving DecidableEq, Repr

/-- What a request did, with the row that it had read. -/
inductive Outcome where
  | requested (id : String)
  | reviewed (seen : EmployeeTimeOff) (review : Review)
  | cancelled (seen : EmployeeTimeOff) (now : Int)
  deriving DecidableEq, Repr

abbrev Ending := Commit Tables Failure Outcome

/-- The row and its event are written in one transaction; the configuration is read in it. -/
def request (client : Option String) (id employeeId : String) (dto : CreateTimeOffDto)
    (requestedByUserId : Option String) : TimeOffTx Ending := do
  let found ← Tx.query (·.findEmployee client employeeId)
  match found with
  | none => .fail (employeeNotFoundError employeeId)
  | some employee =>
      if dto.endDate.instant < dto.startDate.instant then
        .fail (timeOffInvalidDateRangeError dto.startDate.text dto.endDate.text)
      else
        match client with
        | none => .fail (.forbidden "Tenant context required")
        | some tenantId => do
            let created := dto.row id employeeId tenantId requestedByUserId
            let config ← Tx.queryOwn (insert created) (·.notificationConfig tenantId)
            let gatesOpen := config.enabled && config.enabledActions.contains "TIME_OFF_REQUESTED"
            return {
              write := fun tables => (insert created tables).map fun written =>
                if gatesOpen then publish (created.requestedPayload employee) written else written
              answer := .requested id }

def review (client : Option String) (employeeId timeOffId : String) (dto : ReviewTimeOffDto)
    (reviewerUserId : String) (now : Int) : TimeOffTx Ending := do
  let found ← Tx.query (·.findTimeOff client employeeId timeOffId)
  match found with
  | none => .fail (timeOffNotFoundError timeOffId)
  | some row =>
      if row.status ≠ .pending then
        .fail (timeOffInvalidTransitionError row.status.text dto.decision.status.text)
      else
        let review : Review := ⟨dto.decision, reviewerUserId, now, dto.reviewerNotes⟩
        return {
          write := update client timeOffId (·.reviewed review) (EmployeeTimeOff.id_reviewed review)
          answer := .reviewed row review }

def cancel (client : Option String) (employeeId timeOffId : String) (now : Int) :
    TimeOffTx Ending := do
  let found ← Tx.query (·.findTimeOff client employeeId timeOffId)
  match found with
  | none => .fail (timeOffNotFoundError timeOffId)
  | some row =>
      if row.MayCancel now then
        return {
          write := update client timeOffId EmployeeTimeOff.cancelled EmployeeTimeOff.id_cancelled
          answer := .cancelled row now }
      else .fail (timeOffInvalidTransitionError row.status.text "cancel")

def Request.body : Request → TimeOffTx Ending
  | .request client id employeeId dto requestedByUserId =>
      Employees.request client id employeeId dto requestedByUserId
  | .review client employeeId timeOffId dto reviewerUserId now =>
      Employees.review client employeeId timeOffId dto reviewerUserId now
  | .cancel client employeeId timeOffId now => Employees.cancel client employeeId timeOffId now

end Houndfe.Employees
