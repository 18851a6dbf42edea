import Houndfe.DeliveryRoutes.Repository

/-! The requests of the delivery routes service, each as the transaction it runs. An attempt of a
check-in or of a cancellation that meets a newer version of its route rolls back; the attempts of
its retries are further transactions of the same request. -/

namespace Houndfe.DeliveryRoutes

open Houndfe.Sales Transactions

/-- What a request meets: the readings of its clock in milliseconds, the ids it draws and the
order in which its reads return the stops. -/
structure Surroundings where
  clock : Nat → Int
  draw : Nat → String
  listing : Listing

inductive Command where
  | create (driverUserId : String) (saleIds : List String) (notes : Option String)
  | addStop (routeId saleId : String)
  | reorderStops (routeId : String) (orderedStopIds : List String)
  | transferStop (can : String → Bool) (routeId stopId destinationRouteId : String)
  | update (routeId : String) (driverUserId : Option String) (notes : Option (Option String))
  | start (routeId : String)
  | cancel (routeId : String)
  | checkInStop (routeId stopId : String)
  | delete (routeId : String)

/-- `null` when the tenant has no such sale. -/
def checkSaleEligibility (saleId : String) : RouteTx (Option SaleEligibilitySnapshot) :=
  Tx.query fun tables => (tables.sales saleId).map fun sale =>
    ⟨sale.deliveryStatus, sale.shippingStreet.isSome⟩

/-- The ids that are locked, in ascending order. -/
def lockOrder (routeIds : List String) : List String :=
  routeIds.eraseDups.insertionSort (· ≤ ·)

def loadRoutes (listing : Listing) : List String → RouteTx (List DeliveryRoute)
  | [] => pure []
  | routeId :: rest => do
      let route ← loadRoute listing routeId
      match route with
      | none => .fail (routeNotFound routeId)
      | some route =>
          let routes ← loadRoutes listing rest
          return route :: routes

/-- Lock the routes, load them and go on with the loaded aggregates. -/
def runWithRouteLocks (listing : Listing) (routeIds : List String) :
    RouteTx (List DeliveryRoute) := do
  let missing ← lockRoutesForUpdate (lockOrder routeIds)
  match missing with
  | routeId :: _ => .fail (routeNotFound routeId)
  | [] => loadRoutes listing routeIds.eraseDups

/-- The loaded aggregate of an id. -/
def getRoute (routes : List DeliveryRoute) (routeId : String) : Except Failure DeliveryRoute :=
  match routes.find? (·.id = routeId) with
  | some route => .ok route
  | none => .error (.error "the route was not loaded")

abbrev RouteEnding := Commit Tables Failure Unit

def saved (pending : Pending) : RouteEnding :=
  ⟨pending, ()⟩

def createRoute (surroundings : Surroundings) (driverUserId : String) (saleIds : List String)
    (notes : Option String) : RouteTx RouteEnding := do
  let routeId := surroundings.draw 0
  let route ← DeliveryRoute.create routeId (fun index => surroundings.draw (index + 1))
    driverUserId saleIds notes (surroundings.clock 0) checkSaleEligibility
  -- The insert holds its row; the id was just drawn, so no run has it in use.
  Tx.lockKey (.route routeId)
  let drawn : Pending := fun tables =>
    if tables.routes routeId = .unused then .ok tables else .error (.uniqueViolation ["id"])
  let pending ← saveInTransaction drawn route
  return saved pending

def addStop (surroundings : Surroundings) (routeId saleId : String) : RouteTx RouteEnding := do
  let routes ← runWithRouteLocks surroundings.listing [routeId]
  let existing ← liftM (getRoute routes routeId)
  let next ← existing.addStop (surroundings.draw 0) saleId (surroundings.clock 0)
    checkSaleEligibility
  let pending ← saveInTransaction .ok next
  return saved pending

/-- The requests that change one locked route without reading anything else. -/
def editRoute (listing : Listing) (routeId : String)
    (edit : DeliveryRoute → Except Failure DeliveryRoute) : RouteTx RouteEnding := do
  let routes ← runWithRouteLocks listing [routeId]
  let existing ← liftM (getRoute routes routeId)
  let next ← liftM (edit existing)
  let pending ← saveInTransaction .ok next
  return saved pending

def reorderStops (surroundings : Surroundings) (routeId : String) (orderedStopIds : List String) :
    RouteTx RouteEnding :=
  editRoute surroundings.listing routeId fun route =>
    route.reorderStops orderedStopIds (surroundings.clock 0)

/-- What `update` does with the fields it is given. -/
def applyUpdate (clock : Nat → Int) (driverUserId : Option String)
    (notes : Option (Option String)) (route : DeliveryRoute) : Except Failure DeliveryRoute := do
  let route ← driverUserId.elim (.ok route) fun driver => route.assignDriver driver (clock 0)
  notes.elim (.ok route) fun notes => route.updateNotes notes (clock 1)

def updateRoute (surroundings : Surroundings) (routeId : String) (driverUserId : Option String)
    (notes : Option (Option String)) : RouteTx RouteEnding :=
  editRoute surroundings.listing routeId (applyUpdate surroundings.clock driverUserId notes)

def startRoute (surroundings : Surroundings) (routeId : String) : RouteTx RouteEnding :=
  editRoute surroundings.listing routeId fun route => route.start (surroundings.clock 0)

/-- `can` tells whether the caller may read and update the routes of a driver. -/
def transferStop (surroundings : Surroundings) (can : String → Bool)
    (routeId stopId destinationRouteId : String) : RouteTx RouteEnding := do
  let routes ← runWithRouteLocks surroundings.listing [routeId, destinationRouteId]
  let origin ← liftM (getRoute routes routeId)
  let destination ← liftM (getRoute routes destinationRouteId)
  liftM (reject (can origin.driverUserId = false) .insufficientPermissions)
  liftM (reject (can destination.driverUserId = false) .insufficientPermissions)
  let moved ← liftM (origin.transferStopTo stopId destination (surroundings.clock 0))
  -- The origin first: its save releases the sale for the destination.
  let pending ← saveInTransaction .ok moved.1
  let pending ← saveInTransaction pending moved.2
  return saved pending

/-- One attempt of a cancellation. -/
def cancelRoute (surroundings : Surroundings) (routeId : String) : RouteTx RouteEnding := do
  let before ← loadRoute surroundings.listing routeId
  match before with
  | none => .fail (routeNotFound routeId)
  | some before =>
      let next ← liftM (before.cancel (surroundings.clock 0))
      let rewrite ← commitTransition surroundings.listing routeId
        (captureRouteTransitionExpectation before) next (surroundings.clock 1)
      return saved fun tables => .ok (rewrite.apply routeId tables)

/-- The outbox rows of a check-in: none when the stop was completed before. -/
def checkInRows (routeId : String) (wasPending : Bool) (checkIn : CheckInStopResult) :
    List OutboxRow :=
  if wasPending then
    (match checkIn.nextStop with
      | some nextStop =>
          [.nextStop routeId checkIn.completedStop.id nextStop.id nextStop.saleId]
      | none => []) ++
    [.thankYou checkIn.completedStop.saleId routeId checkIn.completedStop.id]
  else []

/-- One attempt of a check-in. -/
def checkInStop (surroundings : Surroundings) (routeId stopId : String) : RouteTx RouteEnding := do
  let before ← loadRoute surroundings.listing routeId
  match before with
  | none => .fail (routeNotFound routeId)
  | some before =>
      let wasPending := (before.stops.find? (·.id = stopId)).any (·.status = .pending)
      let checkIn ← liftM (before.checkInStop stopId (surroundings.clock 0))
      let rewrite ← commitTransition surroundings.listing routeId
        (captureRouteTransitionExpectation before) checkIn.route (surroundings.clock 1)
      let delivered ← markSaleDelivered checkIn.completedStop.saleId
      match delivered with
      | .missing => .fail (routeNotFound routeId)
      | .notDeliverable => .fail (.domain (ruleCode "SALE_NOT_DELIVERABLE"))
      | .delivered =>
          return saved fun tables =>
            let written := (rewrite.apply routeId tables).deliver checkIn.completedStop.saleId
            .ok { written with outbox := written.outbox ++ checkInRows routeId wasPending checkIn }

/-- The delete looks at the stored route once more. -/
def deleteRoute (surroundings : Surroundings) (routeId : String) : RouteTx RouteEnding := do
  let routes ← runWithRouteLocks surroundings.listing [routeId]
  let existing ← liftM (getRoute routes routeId)
  liftM (reject (¬ existing.CanDelete)
    (invalidTransition "DeliveryRoute can only be deleted when DRAFT with no stops"))
  let current ← loadRoute surroundings.listing routeId
  match current with
  | none => return saved .ok
  | some current =>
      liftM (reject (¬ current.CanDelete)
        (invalidTransition "DeliveryRoute can only be deleted when DRAFT with no stops"))
      -- The stops go with their route.
      return saved fun tables => .ok ((tables.setRoute routeId .deleted).deleteStops routeId)

structure RouteRequest where
  surroundings : Surroundings
  command : Command

def RouteRequest.body (request : RouteRequest) : RouteTx RouteEnding :=
  match request.command with
  | .create driverUserId saleIds notes =>
      createRoute request.surroundings driverUserId saleIds notes
  | .addStop routeId saleId => addStop request.surroundings routeId saleId
  | .reorderStops routeId orderedStopIds =>
      reorderStops request.surroundings routeId orderedStopIds
  | .transferStop can routeId stopId destinationRouteId =>
      transferStop request.surroundings can routeId stopId destinationRouteId
  | .update routeId driverUserId notes =>
      updateRoute request.surroundings routeId driverUserId notes
  | .start routeId => startRoute request.surroundings routeId
  | .cancel routeId => cancelRoute request.surroundings routeId
  | .checkInStop routeId stopId => checkInStop request.surroundings routeId stopId
  | .delete routeId => deleteRoute request.surroundings routeId

/-- The transactions of the service. -/
def RouteBody (body : RouteTx RouteEnding) : Prop :=
  ∃ request : RouteRequest, request.body = body

/-- The routes that a request writes. -/
def RouteRequest.routeIds (request : RouteRequest) : List String :=
  match request.command with
  | .create _ _ _ => []
  | .transferStop _ routeId _ destinationRouteId => [routeId, destinationRouteId]
  | .addStop routeId _ | .reorderStops routeId _ | .update routeId _ _ | .start routeId
  | .cancel routeId | .checkInStop routeId _ | .delete routeId => [routeId]

/-- The request reads its clock later than the routes it writes were last written. -/
def RouteRequest.Later (request : RouteRequest) (tables : Tables) : Prop :=
  ∀ routeId ∈ request.routeIds, ∀ row, tables.routes routeId = .stored row →
    ∀ reading, row.updatedAt < request.surroundings.clock reading

end Houndfe.DeliveryRoutes
