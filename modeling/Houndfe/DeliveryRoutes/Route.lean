import Houndfe.Base.Keyed
import Houndfe.Sales.Sale

/-! The delivery route: an ordered list of stops, one for each sale it delivers, and its life
cycle from the draft to the last check-in or to its cancellation. -/

namespace Houndfe.DeliveryRoutes

open Houndfe.Sales

/-- What a request on a route fails with: a domain error, a plain `Error`, the refusal of the
caller, the snapshot error of the optimistic transitions or a violated unique key. -/
inductive Failure where
  | domain (error : DomainError)
  | error (message : String)
  | insufficientPermissions
  | staleSnapshot
  | uniqueViolation (target : List String)
  deriving DecidableEq, Repr

def reject (bad : Prop) [Decidable bad] (failure : Failure) : Except Failure Unit :=
  if bad then .error failure else .ok ()

theorem reject_eq_ok {bad : Prop} [Decidable bad] {failure : Failure} {u : Unit} :
    reject bad failure = .ok u ↔ ¬ bad := by
  by_cases h : bad <;> simp [reject, h]

def invalidTransition (message : String) : Failure :=
  .domain (businessRuleViolationError message "DELIVERY_ROUTE_INVALID_TRANSITION")

def saleNotEligible (message : String) : Failure :=
  .domain (businessRuleViolationError message "DELIVERY_ROUTE_STOP_SALE_NOT_ELIGIBLE")

def saleAlreadyInActiveRoute (message : String) : Failure :=
  .domain (businessRuleViolationError message "DELIVERY_ROUTE_STOP_SALE_ALREADY_ON_ACTIVE_ROUTE")

def routeNotFound (id : String) : Failure :=
  .domain (entityNotFoundError "DeliveryRoute" id)

inductive DeliveryRouteStatus where
  | draft
  | active
  | completed
  | cancelled
  deriving DecidableEq, Repr

def DeliveryRouteStatus.text : DeliveryRouteStatus → String
  | .draft => "DRAFT"
  | .active => "ACTIVE"
  | .completed => "COMPLETED"
  | .cancelled => "CANCELLED"

inductive DeliveryRouteStopStatus where
  | pending
  | inProgress
  | completed
  | skipped
  deriving DecidableEq, Repr

def DeliveryRouteStopStatus.text : DeliveryRouteStopStatus → String
  | .pending => "PENDING"
  | .inProgress => "IN_PROGRESS"
  | .completed => "COMPLETED"
  | .skipped => "SKIPPED"

structure DeliveryRouteStop where
  id : String
  routeId : String
  saleId : String
  sortOrder : Nat
  status : DeliveryRouteStopStatus
  checkedInAt : Option Int
  completedAt : Option Int
  activeRouteId : Option String
  deriving DecidableEq, Repr

/-- A value that must not be blank. -/
def required (value message : String) : Except Failure Unit :=
  reject (Text.trim value = "") (.error message)

namespace DeliveryRouteStop

/-- Still waiting for the driver. -/
def IsOpen (stop : DeliveryRouteStop) : Prop :=
  stop.status = .pending ∨ stop.status = .inProgress

instance (stop : DeliveryRouteStop) : Decidable stop.IsOpen :=
  inferInstanceAs (Decidable (_ ∨ _))

def create (id routeId saleId : String) (sortOrder : Nat) : Except Failure DeliveryRouteStop := do
  required id "DeliveryRouteStop id is required"
  required routeId "DeliveryRouteStop routeId is required"
  required saleId "DeliveryRouteStop saleId is required"
  return {
    id := id
    routeId := routeId
    saleId := saleId
    sortOrder := sortOrder
    status := .pending
    checkedInAt := none
    completedAt := none
    activeRouteId := none }

def markCompleted (stop : DeliveryRouteStop) (now : Int) : DeliveryRouteStop :=
  if stop.status = .completed then stop
  else { stop with status := .completed, checkedInAt := some now, completedAt := some now }

def setActiveRouteId (stop : DeliveryRouteStop) (activeRouteId : Option String) :
    DeliveryRouteStop :=
  { stop with activeRouteId := activeRouteId }

def setSortOrder (stop : DeliveryRouteStop) (sortOrder : Nat) : DeliveryRouteStop :=
  { stop with sortOrder := sortOrder }

def relocateTo (stop : DeliveryRouteStop) (routeId : String) (sortOrder : Nat) :
    Except Failure DeliveryRouteStop := do
  required routeId "DeliveryRouteStop routeId is required"
  return {
    id := stop.id
    routeId := routeId
    saleId := stop.saleId
    sortOrder := sortOrder
    status := .pending
    checkedInAt := none
    completedAt := none
    activeRouteId := some routeId }

end DeliveryRouteStop

/-- The columns of a route. -/
structure RouteRow where
  id : String
  driverUserId : String
  status : DeliveryRouteStatus
  startedAt : Option Int
  completedAt : Option Int
  cancelledAt : Option Int
  notes : Option String
  updatedAt : Int
  deriving DecidableEq, Repr

structure DeliveryRoute extends RouteRow where
  stops : List DeliveryRouteStop
  deriving DecidableEq, Repr

/-- What the probe of the service tells of a sale. -/
structure SaleEligibilitySnapshot where
  deliveryStatus : SaleDeliveryStatus
  hasShippingAddress : Bool
  deriving DecidableEq, Repr

def SaleEligibilitySnapshot.Eligible (eligibility : SaleEligibilitySnapshot) : Prop :=
  (eligibility.deliveryStatus = .pending ∨ eligibility.deliveryStatus = .shipped) ∧
    eligibility.hasShippingAddress = true

instance (eligibility : SaleEligibilitySnapshot) : Decidable eligibility.Eligible :=
  inferInstanceAs (Decidable (_ ∧ _))

def ensureEligible (saleId : String) (eligibility : Option SaleEligibilitySnapshot) :
    Except Failure Unit :=
  reject (¬ ∃ found ∈ eligibility, found.Eligible)
    (saleNotEligible ("Sale \"" ++ saleId ++ "\" is not eligible for delivery"))

/-- Notes are trimmed, and blank notes are none. -/
def tidyNotes (notes : Option String) : Option String :=
  notes.bind fun text => if Text.trim text = "" then none else some (Text.trim text)

structure CheckInStopResult where
  route : DeliveryRoute
  completedStop : DeliveryRouteStop
  nextStop : Option DeliveryRouteStop
  deriving DecidableEq, Repr

namespace DeliveryRoute

section

variable {m : Type → Type} [Monad m] [MonadLift (Except Failure) m]

/-- One reserved stop for each sale that the probe finds eligible, numbered in their order. -/
def createStops (routeId : String) (stopId : Nat → String)
    (checkSaleEligibility : String → m (Option SaleEligibilitySnapshot)) :
    Nat → List String → m (List DeliveryRouteStop)
  | _, [] => pure []
  | index, saleId :: rest => do
      let eligibility ← checkSaleEligibility saleId
      liftM (ensureEligible saleId eligibility)
      let stop ← liftM (DeliveryRouteStop.create (stopId index) routeId saleId index)
      let stops ← createStops routeId stopId checkSaleEligibility (index + 1) rest
      return stop.setActiveRouteId (some routeId) :: stops

/-- The checks of `create` that need no probe. -/
def validateCreate (driverUserId : String) (saleIds : List String) : Except Failure Unit := do
  required driverUserId "DeliveryRoute driverUserId is required"
  reject (saleIds = []) (invalidTransition "A DeliveryRoute requires at least one sale")
  reject (¬ saleIds.Nodup) (saleNotEligible "Duplicate saleIds in the same create payload")

def create (id : String) (stopId : Nat → String) (driverUserId : String) (saleIds : List String)
    (notes : Option String) (now : Int)
    (checkSaleEligibility : String → m (Option SaleEligibilitySnapshot)) : m DeliveryRoute := do
  liftM (validateCreate driverUserId saleIds)
  let stops ← createStops id stopId checkSaleEligibility 0 saleIds
  return {
    id := id
    driverUserId := driverUserId
    status := .draft
    startedAt := none
    completedAt := none
    cancelledAt := none
    notes := tidyNotes notes
    updatedAt := now
    stops := stops }

end

def assertDraft (route : DeliveryRoute) : Except Failure Unit :=
  reject (route.status ≠ .draft) (invalidTransition
    ("Operation not allowed in status \"" ++ route.status.text ++ "\" (DRAFT only)"))

/-- The stop that `addStop` appends once the sale was found eligible. -/
def appendStop (route : DeliveryRoute) (stopId saleId : String) (now : Int) :
    Except Failure DeliveryRoute := do
  let stop ← DeliveryRouteStop.create stopId route.id saleId route.stops.length
  return { route with
    stops := route.stops ++ [stop.setActiveRouteId (some route.id)]
    updatedAt := now }

def addStop {m : Type → Type} [Monad m] [MonadLift (Except Failure) m] (route : DeliveryRoute)
    (stopId saleId : String) (now : Int)
    (checkSaleEligibility : String → m (Option SaleEligibilitySnapshot)) : m DeliveryRoute := do
  liftM route.assertDraft
  let eligibility ← checkSaleEligibility saleId
  liftM (ensureEligible saleId eligibility)
  liftM (route.appendStop stopId saleId now)

def unknownStop (stopId : String) : Failure :=
  invalidTransition ("Stop \"" ++ stopId ++ "\" does not belong to this route")

/-- The stops in the order of their ids, renumbered from `index` on. -/
def pickStops (stops : List DeliveryRouteStop) (seen : List String) :
    Nat → List String → Except Failure (List DeliveryRouteStop)
  | _, [] => .ok []
  | index, stopId :: rest =>
      match stops.find? (·.id = stopId) with
      | none => .error (unknownStop stopId)
      | some stop => do
          reject (stopId ∈ seen) (invalidTransition "Stop ids in orderedStopIds must be unique")
          let picked ← pickStops stops (stopId :: seen) (index + 1) rest
          return stop.setSortOrder index :: picked

def reorderStops (route : DeliveryRoute) (orderedStopIds : List String) (now : Int) :
    Except Failure DeliveryRoute := do
  route.assertDraft
  reject (orderedStopIds.length ≠ route.stops.length)
    (invalidTransition "reorderStops must reference every stop exactly once")
  let reordered ← pickStops route.stops [] 0 orderedStopIds
  return { route with stops := reordered, updatedAt := now }

def assignDriver (route : DeliveryRoute) (driverUserId : String) (now : Int) :
    Except Failure DeliveryRoute := do
  route.assertDraft
  required driverUserId "driverUserId is required"
  return { route with driverUserId := driverUserId, updatedAt := now }

def updateNotes (route : DeliveryRoute) (notes : Option String) (now : Int) :
    Except Failure DeliveryRoute := do
  route.assertDraft
  return { route with notes := tidyNotes notes, updatedAt := now }

/-- Number the stops by their position. -/
def renumber (stops : List DeliveryRouteStop) : List DeliveryRouteStop :=
  stops.zipIdx.map fun entry => entry.1.setSortOrder entry.2

/-- Origin and destination after the move. -/
def transferStopTo (origin : DeliveryRoute) (stopId : String) (destination : DeliveryRoute)
    (now : Int) : Except Failure (DeliveryRoute × DeliveryRoute) := do
  reject (destination.id = origin.id)
    (invalidTransition "Cannot transfer a stop to its own route")
  origin.assertDraft
  destination.assertDraft
  match origin.stops.find? (·.id = stopId) with
  | none => .error (unknownStop stopId)
  | some moved => do
      reject (∃ stop ∈ destination.stops, stop.saleId = moved.saleId) (invalidTransition
        ("Destination route already has a stop for sale \"" ++ moved.saleId ++ "\""))
      let relocated ← moved.relocateTo destination.id destination.stops.length
      return (
        { origin with
          stops := renumber (origin.stops.eraseP (·.id = stopId))
          updatedAt := now },
        { destination with stops := destination.stops ++ [relocated], updatedAt := now })

def start (route : DeliveryRoute) (now : Int) : Except Failure DeliveryRoute := do
  route.assertDraft
  reject (route.stops = []) (invalidTransition "Cannot start a route with zero stops")
  return { route with
    stops := route.stops.map (·.setActiveRouteId (some route.id))
    status := .active
    startedAt := some now
    updatedAt := now }

/-- The open stop that comes first. -/
def nextPendingStop (stops : List DeliveryRouteStop) : Option DeliveryRouteStop :=
  (Keyed.sortByKey (·.sortOrder) (stops.filter (·.IsOpen))).head?

def checkInNotActive (status : DeliveryRouteStatus) : Failure :=
  invalidTransition ("Cannot check in a stop on a route in status \"" ++ status.text ++ "\"")

def checkInStop (route : DeliveryRoute) (stopId : String) (now : Int) :
    Except Failure CheckInStopResult :=
  match route.stops.find? (·.id = stopId) with
  | none => .error (unknownStop stopId)
  | some stop =>
      if stop.status = .completed then do
        reject (route.status ≠ .active ∧ route.status ≠ .completed) (checkInNotActive route.status)
        return ⟨route, stop, nextPendingStop route.stops⟩
      else do
        reject (route.status ≠ .active) (checkInNotActive route.status)
        reject (stop.status ≠ .pending) (invalidTransition ("Stop \"" ++ stopId ++
          "\" cannot be checked in from status \"" ++ stop.status.text ++ "\""))
        let completed := stop.markCompleted now
        let stops := route.stops.map fun other =>
          if other.id = stopId then other.markCompleted now else other
        match nextPendingStop stops with
        -- The last open stop completes the route and releases its sales.
        | none => return ⟨{ route with
            stops := stops.map (·.setActiveRouteId none)
            status := .completed
            completedAt := some now
            updatedAt := now }, completed.setActiveRouteId none, none⟩
        | some nextStop =>
            return ⟨{ route with stops := stops, updatedAt := now }, completed, some nextStop⟩

def cancel (route : DeliveryRoute) (now : Int) : Except Failure DeliveryRoute := do
  reject (route.status ≠ .draft ∧ route.status ≠ .active)
    (invalidTransition ("Cannot cancel a route in status \"" ++ route.status.text ++ "\""))
  return { route with
    stops := route.stops.map (·.setActiveRouteId none)
    status := .cancelled
    cancelledAt := some now
    updatedAt := now }

def CanDelete (route : DeliveryRoute) : Prop :=
  route.status = .draft ∧ route.stops = []

instance (route : DeliveryRoute) : Decidable route.CanDelete :=
  inferInstanceAs (Decidable (_ ∧ _))

end DeliveryRoute

/-! ### What the operations do to the stops -/

/-- The stops are numbered from zero on. -/
def Numbered (stops : List DeliveryRouteStop) : Prop :=
  (stops.map (·.sortOrder)).Perm (List.range stops.length)

/-- The stops of a route that has not started: open, reserved and numbered. -/
structure DraftStops (routeId : String) (stops : List DeliveryRouteStop) : Prop where
  each : ∀ stop ∈ stops, stop.routeId = routeId ∧ stop.status = .pending ∧
    stop.activeRouteId = some routeId
  numbered : Numbered stops

theorem DeliveryRouteStop.create_eq_ok {id routeId saleId : String} {sortOrder : Nat}
    {stop : DeliveryRouteStop} (h : DeliveryRouteStop.create id routeId saleId sortOrder = .ok stop) :
    stop = ⟨id, routeId, saleId, sortOrder, .pending, none, none, none⟩ := by
  simp only [DeliveryRouteStop.create, bind_eq_ok, pure_eq_ok] at h
  obtain ⟨_, _, _, _, _, _, rfl⟩ := h
  rfl

theorem ensureEligible_eq_ok {saleId : String} {eligibility : Option SaleEligibilitySnapshot}
    {u : Unit} : ensureEligible saleId eligibility = .ok u ↔
      ∃ found, eligibility = some found ∧ found.Eligible := by
  simp [ensureEligible, reject_eq_ok]

theorem numbered_of_map {stops : List DeliveryRouteStop}
    (h : stops.map (·.sortOrder) = List.range stops.length) : Numbered stops := by
  rw [Numbered, h]

namespace DeliveryRoute

theorem assertDraft_eq_ok {route : DeliveryRoute} {u : Unit} :
    route.assertDraft = .ok u ↔ route.status = .draft := by
  simp [assertDraft, reject_eq_ok]

theorem draftStops_append {routeId : String} {stops : List DeliveryRouteStop}
    {stop : DeliveryRouteStop} (h : DraftStops routeId stops) (hRoute : stop.routeId = routeId)
    (hStatus : stop.status = .pending) (hMarker : stop.activeRouteId = some routeId)
    (hOrder : stop.sortOrder = stops.length) : DraftStops routeId (stops ++ [stop]) := by
  constructor
  · intro other hOther
    rcases List.mem_append.mp hOther with hMem | hMem
    · exact h.each other hMem
    · obtain rfl := List.mem_singleton.mp hMem
      exact ⟨hRoute, hStatus, hMarker⟩
  · have hNumbered := h.numbered
    simp only [Numbered, List.map_append, List.map_cons, List.map_nil, List.length_append,
      List.length_singleton, List.range_succ, hOrder] at hNumbered ⊢
    exact hNumbered.append_right _

/-- The edits of a draft, with the route that they leave. -/
structure Redraft (current next : DeliveryRoute) : Prop where
  draft : current.status = .draft
  id : next.id = current.id
  status : next.status = .draft ∨ (next.status = .active ∧ next.stops ≠ [])
  stops : DraftStops current.id current.stops → DraftStops next.id next.stops

theorem appendStop_redraft {route next : DeliveryRoute} {stopId saleId : String} {now : Int}
    (hDraft : route.status = .draft) (h : route.appendStop stopId saleId now = .ok next) :
    Redraft route next ∧ next.updatedAt = now := by
  simp only [appendStop, bind_eq_ok, pure_eq_ok] at h
  obtain ⟨stop, hStop, rfl⟩ := h
  obtain rfl := DeliveryRouteStop.create_eq_ok hStop
  exact ⟨⟨hDraft, rfl, Or.inl hDraft, fun hStops => draftStops_append hStops rfl rfl rfl rfl⟩, rfl⟩

/-- The picked stops carry the numbers from `index` on. -/
theorem pickStops_spec {stops : List DeliveryRouteStop} {ids seen : List String} {index : Nat}
    {picked : List DeliveryRouteStop} (h : pickStops stops seen index ids = .ok picked) :
    picked.map (·.sortOrder) = List.range' index ids.length ∧
      ∀ stop ∈ picked, ∃ from_ ∈ stops, ∃ order, stop = from_.setSortOrder order := by
  induction ids generalizing seen index picked with
  | nil =>
      cases h
      simp
  | cons stopId rest ih =>
      simp only [pickStops] at h
      split at h
      · cases h
      · next stop hFind =>
          simp only [bind_eq_ok, pure_eq_ok] at h
          obtain ⟨_, _, others, hOthers, rfl⟩ := h
          obtain ⟨hOrders, hEach⟩ := ih hOthers
          constructor
          · simp [hOrders, DeliveryRouteStop.setSortOrder, List.range'_succ]
          · intro other hOther
            rcases List.mem_cons.mp hOther with rfl | hOther
            · exact ⟨stop, List.mem_of_find?_eq_some hFind, index, rfl⟩
            · exact hEach other hOther

theorem reorderStops_redraft {route next : DeliveryRoute} {ids : List String} {now : Int}
    (h : route.reorderStops ids now = .ok next) : Redraft route next ∧ next.updatedAt = now := by
  simp only [reorderStops, bind_eq_ok, pure_eq_ok, assertDraft_eq_ok, reject_eq_ok] at h
  obtain ⟨_, hDraft, _, _, picked, hPicked, rfl⟩ := h
  obtain ⟨hOrders, hEach⟩ := pickStops_spec hPicked
  refine ⟨⟨hDraft, rfl, Or.inl hDraft, fun hStops => ⟨?_, ?_⟩⟩, rfl⟩
  · intro stop hStop
    obtain ⟨from_, hFrom, order, rfl⟩ := hEach stop hStop
    exact hStops.each from_ hFrom
  · have hLength : picked.length = ids.length := by
      simpa using congrArg List.length hOrders
    apply numbered_of_map
    rw [hOrders, hLength, List.range_eq_range']

theorem assignDriver_redraft {route next : DeliveryRoute} {driverUserId : String} {now : Int}
    (h : route.assignDriver driverUserId now = .ok next) :
    Redraft route next ∧ next.updatedAt = now := by
  simp only [assignDriver, bind_eq_ok, pure_eq_ok, assertDraft_eq_ok] at h
  obtain ⟨_, hDraft, _, _, rfl⟩ := h
  exact ⟨⟨hDraft, rfl, Or.inl hDraft, fun hStops => hStops⟩, rfl⟩

theorem updateNotes_redraft {route next : DeliveryRoute} {notes : Option String} {now : Int}
    (h : route.updateNotes notes now = .ok next) : Redraft route next ∧ next.updatedAt = now := by
  simp only [updateNotes, bind_eq_ok, pure_eq_ok, assertDraft_eq_ok] at h
  obtain ⟨_, hDraft, rfl⟩ := h
  exact ⟨⟨hDraft, rfl, Or.inl hDraft, fun hStops => hStops⟩, rfl⟩

theorem start_redraft {route next : DeliveryRoute} {now : Int} (h : route.start now = .ok next) :
    Redraft route next ∧ next.updatedAt = now := by
  simp only [start, bind_eq_ok, pure_eq_ok, assertDraft_eq_ok, reject_eq_ok] at h
  obtain ⟨_, hDraft, _, hSome, rfl⟩ := h
  refine ⟨⟨hDraft, rfl, Or.inr ⟨rfl, by simpa using hSome⟩, fun hStops => ⟨?_, ?_⟩⟩, rfl⟩
  · intro stop hStop
    obtain ⟨from_, hFrom, rfl⟩ := List.mem_map.mp hStop
    obtain ⟨hRoute, hStatus, _⟩ := hStops.each from_ hFrom
    exact ⟨hRoute, hStatus, rfl⟩
  · simpa [Numbered, DeliveryRouteStop.setActiveRouteId, Function.comp_def] using hStops.numbered

theorem map_sortOrder_renumber (stops : List DeliveryRouteStop) :
    (renumber stops).map (·.sortOrder) = List.range (renumber stops).length := by
  simp only [renumber, List.map_map, Function.comp_def, DeliveryRouteStop.setSortOrder,
    List.length_map, List.length_zipIdx]
  rw [List.range_eq_range', ← List.zipIdx_map_snd 0 stops]

theorem mem_renumber {stops : List DeliveryRouteStop} {stop : DeliveryRouteStop}
    (h : stop ∈ renumber stops) : ∃ from_ ∈ stops, ∃ order, stop = from_.setSortOrder order := by
  obtain ⟨entry, hEntry, rfl⟩ := List.mem_map.mp h
  exact ⟨entry.1, List.fst_mem_of_mem_zipIdx hEntry, entry.2, rfl⟩

theorem transferStopTo_redraft {origin destination : DeliveryRoute} {stopId : String} {now : Int}
    {moved : DeliveryRoute × DeliveryRoute}
    (h : origin.transferStopTo stopId destination now = .ok moved) :
    destination.id ≠ origin.id ∧ (Redraft origin moved.1 ∧ moved.1.updatedAt = now) ∧
      Redraft destination moved.2 ∧ moved.2.updatedAt = now := by
  simp only [transferStopTo, bind_eq_ok, assertDraft_eq_ok, reject_eq_ok] at h
  obtain ⟨_, hOther, _, hOrigin, _, hDestination, h⟩ := h
  split at h
  · cases h
  · next stop hFind =>
      simp only [bind_eq_ok, pure_eq_ok, DeliveryRouteStop.relocateTo] at h
      obtain ⟨_, _, _, ⟨_, _, rfl⟩, rfl⟩ := h
      refine ⟨hOther, ⟨⟨hOrigin, rfl, Or.inl hOrigin, fun hStops => ⟨?_, ?_⟩⟩, rfl⟩,
        ⟨hDestination, rfl, Or.inl hDestination, fun hStops => ?_⟩, rfl⟩
      · intro other hMem
        obtain ⟨from_, hFrom, order, rfl⟩ := mem_renumber hMem
        exact hStops.each from_ (List.mem_of_mem_eraseP hFrom)
      · exact numbered_of_map (map_sortOrder_renumber _)
      · exact draftStops_append hStops rfl rfl rfl rfl

theorem nextPendingStop_eq_some {stops : List DeliveryRouteStop} {stop : DeliveryRouteStop}
    (h : nextPendingStop stops = some stop) : stop ∈ stops ∧ stop.IsOpen := by
  have hHead := List.mem_of_head? (Option.mem_def.mpr h)
  rw [(Keyed.sortByKey_perm _ _).mem_iff] at hHead
  simpa using hHead

/-- What a check-in does to a stop while another one stays open. -/
def completeStop (stopId : String) (now : Int) (stop : DeliveryRouteStop) : DeliveryRouteStop :=
  if stop.id = stopId then stop.markCompleted now else stop

/-- The inversion of a check-in: a replay, the last stop, or a stop before others. -/
theorem checkInStop_cases {route : DeliveryRoute} {stopId : String} {now : Int}
    {result : CheckInStopResult} (h : route.checkInStop stopId now = .ok result) :
    ∃ stop, route.stops.find? (·.id = stopId) = some stop ∧
      ((stop.status = .completed ∧ (route.status = .active ∨ route.status = .completed) ∧
          result.route = route ∧ result.completedStop = stop) ∨
        (stop.status = .pending ∧ route.status = .active ∧
          nextPendingStop (route.stops.map (completeStop stopId now)) = none ∧
          result.route = { route with
            stops := (route.stops.map (completeStop stopId now)).map (·.setActiveRouteId none)
            status := .completed
            completedAt := some now
            updatedAt := now } ∧
          result.completedStop = (stop.markCompleted now).setActiveRouteId none ∧
          result.nextStop = none) ∨
        (stop.status = .pending ∧ route.status = .active ∧ ∃ nextStop,
          nextPendingStop (route.stops.map (completeStop stopId now)) = some nextStop ∧
          result.route = { route with
            stops := route.stops.map (completeStop stopId now)
            updatedAt := now } ∧
          result.completedStop = stop.markCompleted now ∧ result.nextStop = some nextStop)) := by
  unfold checkInStop at h
  split at h
  · cases h
  · next stop hFind =>
      refine ⟨stop, hFind, ?_⟩
      split at h
      · next hCompleted =>
          simp only [bind_eq_ok, pure_eq_ok, reject_eq_ok] at h
          obtain ⟨_, hStatus, rfl⟩ := h
          exact Or.inl ⟨hCompleted, by tauto, rfl, rfl⟩
      · next hOpen =>
          simp only [bind_eq_ok, reject_eq_ok, not_not] at h
          obtain ⟨_, hActive, _, hPending, h⟩ := h
          split at h
          · next hNone =>
              cases h
              exact Or.inr (Or.inl ⟨hPending, hActive, hNone, rfl, rfl, rfl⟩)
          · next nextStop hNext =>
              cases h
              exact Or.inr (Or.inr ⟨hPending, hActive, nextStop, hNext, rfl, rfl, rfl⟩)

theorem cancel_eq_ok {route next : DeliveryRoute} {now : Int} (h : route.cancel now = .ok next) :
    (route.status = .draft ∨ route.status = .active) ∧ next = { route with
      stops := route.stops.map (·.setActiveRouteId none)
      status := .cancelled
      cancelledAt := some now
      updatedAt := now } := by
  simp only [cancel, bind_eq_ok, pure_eq_ok, reject_eq_ok] at h
  obtain ⟨_, hOpen, rfl⟩ := h
  exact ⟨by tauto, rfl⟩

end DeliveryRoute

end Houndfe.DeliveryRoutes
