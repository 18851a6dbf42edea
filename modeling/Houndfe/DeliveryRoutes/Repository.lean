import Mathlib.Data.List.Infix
import Houndfe.Base.Rely
import Houndfe.DeliveryRoutes.Route

/-! The tables of the delivery routes of one tenant and the statements of their repository: the
aggregate load, the full replacement of a saved route and the compare-and-set commit of the
check-in and cancel transitions. -/

namespace Houndfe.DeliveryRoutes

open Houndfe.Sales Transactions

/-- The place of a route id in the table. `randomUUID` draws no id twice, so the place of a
deleted route stays empty. -/
inductive RouteSlot where
  | unused
  | stored (row : RouteRow)
  | deleted
  deriving DecidableEq, Repr

/-- What the routes read of a sale. -/
structure RoutedSale where
  status : SaleStatus
  deliveryStatus : SaleDeliveryStatus
  shippingStreet : Option String
  deriving DecidableEq, Repr

/-- The outbox rows of the check-in. -/
inductive OutboxRow where
  | nextStop (routeId currentStopId nextStopId nextSaleId : String)
  | thankYou (saleId routeId stopId : String)
  deriving DecidableEq, Repr

structure Tables where
  routes : String → RouteSlot
  stops : List DeliveryRouteStop
  sales : String → Option RoutedSale
  outbox : List OutboxRow

inductive Lock where
  | route (id : String)
  | sale (id : String)
  deriving DecidableEq, Repr

abbrev RouteTx := Tx Lock Tables Failure

namespace Tables

/-- The database before the first route. -/
def opened (sales : String → Option RoutedSale) : Tables :=
  ⟨fun _ => .unused, [], sales, []⟩

def stopsOf (tables : Tables) (routeId : String) : List DeliveryRouteStop :=
  tables.stops.filter (·.routeId = routeId)

def hasRoute (tables : Tables) (routeId : String) : Bool :=
  match tables.routes routeId with
  | .stored _ => true
  | .unused | .deleted => false

def findRoute (tables : Tables) (routeId : String) : Option RouteRow :=
  match tables.routes routeId with
  | .stored row => some row
  | .unused | .deleted => none

def setRoute (tables : Tables) (routeId : String) (slot : RouteSlot) : Tables :=
  { tables with routes := Function.update tables.routes routeId slot }

def deleteStops (tables : Tables) (routeId : String) : Tables :=
  { tables with stops := tables.stops.filter (¬ ·.routeId = routeId) }

end Tables

/-- The statement returns its rows in the order the database finds them in. -/
structure Listing where
  order : List DeliveryRouteStop → List DeliveryRouteStop
  perm : ∀ stops, (order stops).Perm stops

/-- Prisma reads the row and its stops with one statement each. -/
def loadRoute (listing : Listing) (routeId : String) : RouteTx (Option DeliveryRoute) := do
  let row ← Tx.query (·.findRoute routeId)
  match row with
  | none => return none
  | some row =>
      let stops ← Tx.query fun tables => listing.order (tables.stopsOf routeId)
      return some { row with stops := stops }

/-- The write of a transaction so far: what its later statements see of its own. -/
abbrev Pending := Tables → Except Failure Tables

/-- The three unique keys of the stops. -/
def checkStopKeys (stops : List DeliveryRouteStop) : Except Failure Unit := do
  reject (¬ (stops.map (·.id)).Nodup) (.uniqueViolation ["id"])
  reject (¬ (stops.map fun stop => (stop.routeId, stop.sortOrder)).Nodup)
    (.uniqueViolation ["routeId", "sortOrder"])
  reject (¬ ((stops.filter (·.activeRouteId.isSome)).map (·.saleId)).Nodup)
    (.uniqueViolation ["tenantId", "saleId"])

def isSaleReservationP2002 : Failure → Bool
  | .uniqueViolation target => target.any fun field =>
      field.toLower = "saleid" ∨ field.toLower = "sale_id" ∨
        "active_sale_uniq".toList <:+: field.toLower.toList
  | .domain _ | .error _ | .insufficientPermissions | .staleSnapshot => false

/-- `createMany`, with the violation of the reservation index told as a domain error. -/
def createMany (stops : List DeliveryRouteStop) (tables : Tables) : Except Failure Tables :=
  if stops = [] then .ok tables
  else
    match checkStopKeys (tables.stops ++ stops) with
    | .ok () => .ok { tables with stops := tables.stops ++ stops }
    | .error failure =>
        if isSaleReservationP2002 failure then
          .error (saleAlreadyInActiveRoute
            "One or more sales already belong to another draft or active route")
        else .error failure

/-- The sales among `saleIds` that some stop reserves. -/
def conflictSaleIds (saleIds : List String) (tables : Tables) : List String :=
  ((tables.stops.filter fun stop => stop.saleId ∈ saleIds ∧ stop.activeRouteId.isSome).map
    (·.saleId)).eraseDups

/-- The row first, then the stops by full replacement. The row is locked by then, or new. -/
def saveInTransaction (pending : Pending) (route : DeliveryRoute) : RouteTx Pending := do
  let cleared : Pending := fun tables => do
    let tables ← pending tables
    return (tables.setRoute route.id (.stored route.toRouteRow)).deleteStops route.id
  let conflicts ← Tx.query fun tables =>
    (cleared tables).map (conflictSaleIds (route.stops.map (·.saleId)))
  let conflicts ← liftM conflicts
  liftM (reject (conflicts ≠ []) (saleAlreadyInActiveRoute
    "One or more sales are already reserved by another draft or active route"))
  return fun tables => cleared tables >>= createMany route.stops

/-- The ids that could not be locked. -/
def lockRoutesForUpdate : List String → RouteTx (List String)
  | [] => pure []
  | routeId :: rest => do
      let there ← Tx.lockRow (.route routeId) (·.hasRoute routeId)
      let missing ← lockRoutesForUpdate rest
      return if there then missing else routeId :: missing

/-! ### The compare-and-set commit

An `updateMany` with a predicate waits for the row that satisfies it and locks it; where no
committed row does, it goes on with nothing written. -/

structure StopExpectation where
  id : String
  status : DeliveryRouteStopStatus
  checkedInAt : Option Int
  completedAt : Option Int
  activeRouteId : Option String
  deriving DecidableEq, Repr

/-- The state identity of a route, as it was loaded. -/
structure StateExpectation where
  status : DeliveryRouteStatus
  startedAt : Option Int
  completedAt : Option Int
  cancelledAt : Option Int
  updatedAt : Int
  stops : List StopExpectation
  deriving DecidableEq, Repr

def StopExpectation.of (stop : DeliveryRouteStop) : StopExpectation where
  id := stop.id
  status := stop.status
  checkedInAt := stop.checkedInAt
  completedAt := stop.completedAt
  activeRouteId := stop.activeRouteId

def captureRouteTransitionExpectation (route : DeliveryRoute) : StateExpectation where
  status := route.status
  startedAt := route.startedAt
  completedAt := route.completedAt
  cancelledAt := route.cancelledAt
  updatedAt := route.updatedAt
  stops := route.stops.map .of

def StateExpectation.Matches (expected : StateExpectation) (row : RouteRow) : Prop :=
  row.status = expected.status ∧ row.startedAt = expected.startedAt ∧
    row.completedAt = expected.completedAt ∧ row.cancelledAt = expected.cancelledAt ∧
    row.updatedAt = expected.updatedAt

instance (expected : StateExpectation) (row : RouteRow) : Decidable (expected.Matches row) :=
  inferInstanceAs (Decidable (_ ∧ _))

/-- What the transition does to the rows of its route, row by row. -/
structure Rewrite where
  row : RouteRow → RouteRow
  stop : DeliveryRouteStop → DeliveryRouteStop

def Rewrite.apply (rewrite : Rewrite) (routeId : String) (tables : Tables) : Tables :=
  { tables with
    routes := fun id =>
      match tables.routes id with
      | .stored row => .stored (if id = routeId then rewrite.row row else row)
      | .unused => .unused
      | .deleted => .deleted
    stops := tables.stops.map fun stop =>
      if stop.routeId = routeId then rewrite.stop stop else stop }

/-- The columns that the transition writes on the row of the route. -/
def writeRow (next row : RouteRow) : RouteRow :=
  { row with
    driverUserId := next.driverUserId
    status := next.status
    startedAt := next.startedAt
    completedAt := next.completedAt
    cancelledAt := next.cancelledAt
    notes := next.notes
    updatedAt := next.updatedAt }

def stopTransitionChanged (prior : StopExpectation) (next : DeliveryRouteStop) : Prop :=
  prior.status ≠ next.status ∨ prior.checkedInAt ≠ next.checkedInAt ∨
    prior.completedAt ≠ next.completedAt ∨ prior.activeRouteId ≠ next.activeRouteId

instance (prior : StopExpectation) (next : DeliveryRouteStop) :
    Decidable (stopTransitionChanged prior next) :=
  inferInstanceAs (Decidable (_ ∨ _))

/-- The predicate of the compare-and-set on one stop. -/
def StopExpectation.Matches (prior : StopExpectation) (stop : DeliveryRouteStop) : Prop :=
  stop.id = prior.id ∧ stop.status = prior.status ∧ stop.checkedInAt = prior.checkedInAt ∧
    stop.completedAt = prior.completedAt ∧ stop.activeRouteId = prior.activeRouteId

instance (prior : StopExpectation) (stop : DeliveryRouteStop) : Decidable (prior.Matches stop) :=
  inferInstanceAs (Decidable (_ ∧ _))

def writeStop (prior : StopExpectation) (next stop : DeliveryRouteStop) : DeliveryRouteStop :=
  if prior.Matches stop then
    { stop with
      status := next.status
      checkedInAt := next.checkedInAt
      completedAt := next.completedAt
      activeRouteId := next.activeRouteId }
  else stop

/-- A predicate that missed: the attempt is stale while the route is still there. -/
def classifyStaleTransition {α : Type} (listing : Listing) (routeId : String) : RouteTx α := do
  let current ← loadRoute listing routeId
  if current.isSome then .fail .staleSnapshot else .fail (routeNotFound routeId)

/-- The stops that the transition changed, one conditional write each. -/
def commitStops (listing : Listing) (routeId : String) (expected : StateExpectation) :
    List DeliveryRouteStop → Rewrite → RouteTx Rewrite
  | [], rewrite => pure rewrite
  | stop :: rest, rewrite =>
      match expected.stops.find? (·.id = stop.id) with
      | none => commitStops listing routeId expected rest rewrite
      | some prior =>
          if stopTransitionChanged prior stop then do
            let written ← Tx.query fun tables => (tables.stopsOf routeId).any fun current =>
              prior.Matches (rewrite.stop current)
            if written then
              commitStops listing routeId expected rest
                { rewrite with stop := fun current => writeStop prior stop (rewrite.stop current) }
            else classifyStaleTransition listing routeId
          else commitStops listing routeId expected rest rewrite

def completeRow (now : Int) (row : RouteRow) : RouteRow :=
  if row.status = .active then
    { row with status := .completed, completedAt := some now, updatedAt := now }
  else row

/-- Without an open stop an active route is completed and its markers are cleared. -/
def reconcileRouteCompletion (routeId : String) (now : Int) (rewrite : Rewrite) :
    RouteTx Rewrite := do
  let openStops ← Tx.query fun tables =>
    (tables.stopsOf routeId).countP fun stop => (rewrite.stop stop).IsOpen
  if openStops > 0 then return rewrite
  else return {
    row := fun row => completeRow now (rewrite.row row)
    stop := fun stop => (rewrite.stop stop).setActiveRouteId none }

def commitTransition (listing : Listing) (routeId : String) (expected : StateExpectation)
    (next : DeliveryRoute) (reconciledAt : Int) : RouteTx Rewrite := do
  let written ← Tx.lockRow (.route routeId) fun tables =>
    (tables.findRoute routeId).any (expected.Matches ·)
  if written then do
    let rewrite ← commitStops listing routeId expected next.stops ⟨writeRow next.toRouteRow, id⟩
    reconcileRouteCompletion routeId reconciledAt rewrite
  else classifyStaleTransition listing routeId

inductive MarkSaleDeliveredOutcome where
  | delivered
  | notDeliverable
  | missing
  deriving DecidableEq, Repr

def Deliverable (sale : RoutedSale) : Prop :=
  sale.status = .confirmed ∧ (sale.deliveryStatus = .pending ∨ sale.deliveryStatus = .shipped ∨
    sale.deliveryStatus = .delivered)

instance (sale : RoutedSale) : Decidable (Deliverable sale) :=
  inferInstanceAs (Decidable (_ ∧ _))

/-- The conditional flip of the sale that a stop delivers. -/
def markSaleDelivered (saleId : String) : RouteTx MarkSaleDeliveredOutcome := do
  let written ← Tx.lockRow (.sale saleId) fun tables => (tables.sales saleId).any (Deliverable ·)
  if written then return .delivered
  else
    let persisted ← Tx.query fun tables => (tables.sales saleId).isSome
    return if persisted then .notDeliverable else .missing

/-- What the flip writes. -/
def Tables.deliver (tables : Tables) (saleId : String) : Tables :=
  { tables with
    sales := Function.update tables.sales saleId
      ((tables.sales saleId).map fun sale => { sale with deliveryStatus := .delivered }) }

end Houndfe.DeliveryRoutes
