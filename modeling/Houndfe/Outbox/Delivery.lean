import Houndfe.Base.KeyedTable
import Houndfe.Base.Transition

/-! Outbox delivery: pollers claim rows under a lease, hand them to a dispatcher one after another,
and the dispatcher records the outcome of each send. A poll may begin while an earlier one still
works on its batch, so that what runs side by side are polls, each known by its lock token. -/

namespace Houndfe.Outbox

inductive OutboxEventStatus where
  | pending
  | published
  | failed
  deriving DecidableEq, Repr

structure OutboxEvent where
  id : String
  tenantId : String
  eventType : String
  status : OutboxEventStatus
  retryCount : Nat
  nextAttemptAt : Int
  lastError : Option String
  lockToken : Option String
  lockedUntil : Option Int
  createdAt : Int
  publishedAt : Option Int
  deriving DecidableEq, Repr

/-- A row as `OutboxWriterService` inserts it. -/
def OutboxEvent.created (id tenantId eventType : String) (now : Int) : OutboxEvent :=
  ⟨id, tenantId, eventType, .pending, 0, now, none, none, none, now, none⟩

/-- `OutboxPollerService` and `LowStockOutboxPoller`. -/
inductive Poller where
  | generic
  | lowStock
  deriving DecidableEq, Repr

def lowStockDetected : String := "stock.low.detected"

/-- The event types that the generic poller leaves to pollers of their own. -/
def dedicatedTypes : List String :=
  [lowStockDetected, "hr.timeoff.requested", "delivery.next_stop.notify",
    "delivery.thank_you.notify", "promotion.near_capacity.detected", "promotion.expiring.detected",
    "delivery_zone.validation.requested", "receipt.review_requested"]

def Poller.owns : Poller → String → Bool
  | .generic, eventType => eventType ∉ dedicatedTypes
  | .lowStock, eventType => eventType = lowStockDetected

def Poller.maxRetries (lowStockMaxRetries : Nat) : Poller → Nat
  | .generic => 5
  | .lowStock => lowStockMaxRetries

/-! ### The lease -/

/-- The `WHERE` of the claim, less the event type. -/
def OutboxEvent.claimable (event : OutboxEvent) (now : Int) : Bool :=
  event.status = .pending ∧ event.nextAttemptAt ≤ now ∧ ∀ until_ ∈ event.lockedUntil, until_ < now

/-- The rows that a claim selects, oldest first; it skips what another statement has locked. -/
def pendingRows (poller : Poller) (batchSize : Nat) (skipped : List String) (now : Int)
    (rows : List OutboxEvent) : List OutboxEvent :=
  ((rows.filter fun event =>
    event.claimable now && poller.owns event.eventType && event.id ∉ skipped).mergeSort
      fun first second => first.createdAt ≤ second.createdAt).take batchSize

def OutboxEvent.lock (event : OutboxEvent) (token : String) (lockedUntil : Int) : OutboxEvent :=
  { event with lockToken := some token, lockedUntil := some lockedUntil }

theorem OutboxEvent.id_lockEach (token : String) (lockedUntil : Int) (order : List String)
    (row : OutboxEvent) :
    (if row.id ∈ order then row.lock token lockedUntil else row).id = row.id := by
  split <;> rfl

/-! ### The dispatcher -/

def backoffBaseMs : Int := 2000

def backoffTableMs : List Int := [2000, 5000, 15000, 60000, 300000]

/-- The base of a delay, before its jitter. -/
def backoff (nextRetryCount : Nat) : Int :=
  backoffTableMs.getD (min (nextRetryCount - 1) (backoffTableMs.length - 1)) backoffBaseMs

/-- The delay with the jitter that was drawn for it, a tenth of the base at most. -/
def nextAttemptDelayMs (nextRetryCount : Nat) (jitter : Int) : Int :=
  max backoffBaseMs (backoff nextRetryCount + jitter)

/-- The generic dispatcher tries again at once. -/
def Poller.nextAttemptAt (poller : Poller) (nextRetryCount : Nat) (now jitter : Int) : Int :=
  match poller with
  | .generic => now
  | .lowStock => now + nextAttemptDelayMs nextRetryCount jitter

/-- What `markPublished` writes over the row with the id of the event, whoever has it by then. -/
def OutboxEvent.markPublished (event : OutboxEvent) (now : Int) (row : OutboxEvent) : OutboxEvent :=
  { row with
    status := .published
    publishedAt := some now
    retryCount := event.retryCount
    lastError := none
    lockToken := none
    lockedUntil := none }

/-- What `markRetry` writes over it: the retry that counts is that of the row as it was claimed. -/
def OutboxEvent.markRetry (event : OutboxEvent) (maxRetries : Nat) (nextAttemptAt : Int)
    (message : String) (row : OutboxEvent) : OutboxEvent :=
  { row with
    status := if maxRetries ≤ event.retryCount + 1 then .failed else .pending
    retryCount := event.retryCount + 1
    lastError := some message
    nextAttemptAt := nextAttemptAt
    lockToken := none
    lockedUntil := none }

theorem OutboxEvent.id_markPublished (event : OutboxEvent) (now : Int) (row : OutboxEvent) :
    (event.markPublished now row).id = row.id := rfl

theorem OutboxEvent.id_markRetry (event : OutboxEvent) (maxRetries : Nat) (nextAttemptAt : Int)
    (message : String) (row : OutboxEvent) :
    (event.markRetry maxRetries nextAttemptAt message row).id = row.id := rfl

/-! ### Polls -/

/-- How far the dispatcher is with the first of the remaining rows. -/
inductive Progress where
  | ready
  | sent
  | failed (message : String)
  deriving DecidableEq, Repr

/-- A poll: the rows as they were claimed, those that are left. -/
structure Poll where
  token : String
  poller : Poller
  remaining : List OutboxEvent
  progress : Progress
  deriving DecidableEq, Repr

/-- A row without a tenant is not sent at all. -/
def Poller.start (poller : Poller) : List OutboxEvent → Progress
  | event :: _ =>
      if poller = .lowStock ∧ event.tenantId = "" then .failed "missing tenantId on claim"
      else .ready
  | [] => .ready

/-- On to the next row of the batch. -/
def Poll.next (poll : Poll) : Poll :=
  { poll with
    remaining := poll.remaining.tail
    progress := poll.poller.start poll.remaining.tail }

/-- What becomes of the batch when the record of a failure throws: only the low-stock poller
catches it. -/
def Poll.escape (poll : Poll) : Poll :=
  match poll.poller with
  | .generic => { poll with remaining := [] }
  | .lowStock => poll.next

def Poll.at (progress : Progress) (poll : Poll) : Poll :=
  { poll with progress := progress }

theorem Poll.token_next (poll : Poll) : poll.next.token = poll.token := rfl

theorem Poll.token_escape (poll : Poll) : poll.escape.token = poll.token := by
  unfold Poll.escape
  split <;> rfl

theorem Poll.token_at (progress : Progress) (poll : Poll) : (poll.at progress).token = poll.token :=
  rfl

structure State where
  clock : Int
  rows : Keyed.Rows OutboxEvent.id
  polls : Keyed.Rows Poll.token

inductive Label where
  | create (id tenantId eventType : String)
  | tick (ms : Nat)
  /-- The rows come back in no particular order. -/
  | claim (poller : Poller) (token : String) (batchSize : Nat) (lockMs : Int)
      (skipped order : List String)
  | enrichFails (token id message : String)
  /-- A send resolves, or rejects with an error. -/
  | send (token id : String) (error : Option String)
  /-- The update may go through although its answer is lost. -/
  | publish (token id : String) (now : Int) (lost : Option String)
  | publishFails (token id message : String)
  | retry (token id : String) (now jitter : Int) (lost : Bool)
  | retryFails (token id : String)
  deriving DecidableEq, Repr

namespace State

def update (state : State) (id : String) (change : OutboxEvent → OutboxEvent)
    (hKey : ∀ row, (change row).id = row.id) : State :=
  { state with rows := state.rows.modify id change hKey }

def setPoll (state : State) (token : String) (change : Poll → Poll)
    (hKey : ∀ poll, (change poll).token = poll.token) : State :=
  { state with polls := state.polls.modify token change hKey }

def progress (state : State) (token : String) (progress : Progress) : State :=
  state.setPoll token (·.at progress) (Poll.token_at progress)

/-- The poll of a token while the row is the next of its batch. -/
def working (state : State) (token id : String) : Option (Poll × OutboxEvent) :=
  match state.polls.find token with
  | none => none
  | some poll => (poll.remaining.head?.filter (·.id = id)).map fun event => (poll, event)

def claimed (state : State) (token : String) (lockedUntil : Int) (order : List String) : State :=
  { state with
    rows := state.rows.mapRows
      (fun row => if row.id ∈ order then row.lock token lockedUntil else row)
      (OutboxEvent.id_lockEach token lockedUntil order) }

end State

def step (lowStockMaxRetries : Nat) (state : State) : Label → Option State
  | .create id tenantId eventType =>
      (state.rows.insert (.created id tenantId eventType state.clock)).map fun rows =>
        { state with rows := rows }
  | .tick ms => some { state with clock := state.clock + ms }
  | .claim poller token batchSize lockMs skipped order =>
      let pending := pendingRows poller batchSize skipped state.clock state.rows.rows
      if order.Perm (pending.map (·.id)) then
        let locked := state.claimed token (state.clock + lockMs) order
        let batch := order.filterMap locked.rows.find
        (state.polls.insert ⟨token, poller, batch, poller.start batch⟩).map fun polls =>
          { locked with polls := polls }
      else none
  | .enrichFails token id message =>
      (state.working token id).bind fun (poll, _) =>
        if poll.progress = .ready ∧ poll.poller = .lowStock then
          some (state.progress token (.failed message))
        else none
  | .send token id error =>
      (state.working token id).bind fun (poll, _) =>
        if poll.progress = .ready then
          some (state.progress token (error.elim .sent .failed))
        else none
  | .publish token id now lost =>
      (state.working token id).bind fun (poll, event) =>
        if poll.progress = .sent then
          let written := state.update id (event.markPublished now) (event.id_markPublished now)
          some (match lost with
            | none => written.setPoll token Poll.next Poll.token_next
            | some message => written.progress token (.failed message))
        else none
  | .publishFails token id message =>
      (state.working token id).bind fun (poll, _) =>
        if poll.progress = .sent then some (state.progress token (.failed message)) else none
  | .retry token id now jitter lost =>
      (state.working token id).bind fun (poll, event) =>
        match poll.progress with
        | .failed message =>
            let nextAttemptAt := poll.poller.nextAttemptAt (event.retryCount + 1) now jitter
            let maxRetries := poll.poller.maxRetries lowStockMaxRetries
            let written := state.update id (event.markRetry maxRetries nextAttemptAt message)
              (event.id_markRetry maxRetries nextAttemptAt message)
            if 10 * jitter.natAbs ≤ (backoff (event.retryCount + 1)).natAbs then
              some (if lost then written.setPoll token Poll.escape Poll.token_escape
                else written.setPoll token Poll.next Poll.token_next)
            else none
        | _ => none
  | .retryFails token id =>
      (state.working token id).bind fun (poll, _) =>
        match poll.progress with
        | .failed _ => some (state.setPoll token Poll.escape Poll.token_escape)
        | _ => none

end Houndfe.Outbox
