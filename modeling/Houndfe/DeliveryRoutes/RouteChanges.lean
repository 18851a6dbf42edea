import Houndfe.DeliveryRoutes.Service

/-! What the commits of the service do to the tables, one constructor a kind of change, and the
invariant of the routes. A transition that was committed from an older version of its route does
less than it was meant to; where the clock of a route ticks from commit to commit (`ticks`), every
transition is committed from the stored version. -/

namespace Houndfe.DeliveryRoutes

open Houndfe.Sales

/-- The route as it is stored. -/
def Stored (tables : Tables) (route : DeliveryRoute) : Prop :=
  tables.routes route.id = .stored route.toRouteRow ∧ route.stops.Perm (tables.stopsOf route.id)

def OutboxRow.Announces (stopId : String) : OutboxRow → Prop
  | .nextStop _ currentStopId _ _ => currentStopId = stopId
  | .thankYou _ _ _ => False

instance (stopId : String) : DecidablePred (OutboxRow.Announces stopId)
  | .nextStop _ currentStopId _ _ => inferInstanceAs (Decidable (currentStopId = stopId))
  | .thankYou _ _ _ => isFalse id

def OutboxRow.Thanks (stopId : String) : OutboxRow → Prop
  | .nextStop _ _ _ _ => False
  | .thankYou _ _ thanked => thanked = stopId

instance (stopId : String) : DecidablePred (OutboxRow.Thanks stopId)
  | .nextStop _ _ _ _ => isFalse id
  | .thankYou _ _ thanked => inferInstanceAs (Decidable (thanked = stopId))

/-- The completed stop that an outbox row is about. -/
def OutboxRow.about : OutboxRow → String
  | .nextStop _ currentStopId _ _ => currentStopId
  | .thankYou _ _ stopId => stopId

/-- What holds of a stop and the row of its route. -/
structure StopInv (ticks : Prop) (row : RouteRow) (stop : DeliveryRouteStop) : Prop where
  pending : row.status = .draft → stop.status = .pending
  armed : row.status = .draft ∨ row.status = .active → stop.activeRouteId = some row.id
  released : ticks → row.status = .completed ∨ row.status = .cancelled → stop.activeRouteId = none

/-- What the completed stops left behind. -/
structure CheckedIn (tables : Tables) : Prop where
  delivered : ∀ stop ∈ tables.stops, stop.status = .completed →
    ∃ sale, tables.sales stop.saleId = some sale ∧ sale.deliveryStatus = .delivered
  thanked : ∀ stop ∈ tables.stops, stop.status = .completed →
    tables.outbox.countP (OutboxRow.Thanks stop.id ·) = 1
  announced : ∀ stopId, tables.outbox.countP (OutboxRow.Announces stopId ·) ≤ 1
  about : ∀ row ∈ tables.outbox, ∃ stop ∈ tables.stops,
    stop.id = row.about ∧ stop.status = .completed

/-- What holds of the routes and their stops. -/
structure Consistent (ticks : Prop) (tables : Tables) : Prop where
  filed : ∀ id row, tables.routes id = .stored row → row.id = id
  keys : checkStopKeys tables.stops = .ok ()
  numbered : ∀ id, Numbered (tables.stopsOf id)
  stops : ∀ stop ∈ tables.stops, ∃ row, tables.routes stop.routeId = .stored row ∧
    StopInv ticks row stop
  live : ∀ id row, tables.routes id = .stored row → row.status = .active →
    ∃ stop ∈ tables.stopsOf id, stop.IsOpen

/-- The invariant of the tables. -/
structure RouteInv (ticks : Prop) (tables : Tables) : Prop extends Consistent ticks tables where
  checkedIn : ticks → CheckedIn tables

/-- A route is written over its old version. -/
def Saves (before : Tables) (route : DeliveryRoute) (after : Tables) : Prop :=
  createMany route.stops
    ((before.setRoute route.id (.stored route.toRouteRow)).deleteStops route.id) = .ok after

/-- What a cancellation makes of a stop. -/
def MaybeReleased (stop stop' : DeliveryRouteStop) : Prop :=
  stop' = stop ∨ stop' = stop.setActiveRouteId none

/-- What the check-in of `stopId` makes of a stop. -/
def MaybeCompleted (stopId : String) (now : Int) (stop stop' : DeliveryRouteStop) : Prop :=
  MaybeReleased stop stop' ∨ MaybeReleased (DeliveryRoute.completeStop stopId now stop) stop'

/-- What a check-in writes when it was evaluated on the stored version. -/
structure ChecksIn (before : Tables) (routeId stopId : String) (row row' : RouteRow)
    (stop : DeliveryRouteStop → DeliveryRouteStop) (saleId : String) (rows : List OutboxRow) :
    Prop where
  sale : ∃ found ∈ before.stopsOf routeId, found.id = stopId ∧ found.saleId = saleId ∧
    ((rows = [] ∧ found.status = .completed) ∨
      found.status = .pending ∧ ∃ nextRows,
        rows = nextRows ++ [.thankYou saleId routeId stopId] ∧
        (nextRows = [] ∨ ∃ next ∈ before.stopsOf routeId, next.IsOpen ∧
          nextRows = [.nextStop routeId stopId next.id next.saleId]))
  completed : ∀ found ∈ before.stopsOf routeId,
    (stop found).status = if found.id = stopId then .completed else found.status
  released : row'.status = .completed → ∀ found ∈ before.stopsOf routeId,
    (stop found).activeRouteId = none

inductive RouteChange (ticks : Prop) (before : Tables) : Tables → Prop where
  | created {route : DeliveryRoute} {after : Tables}
      (hUnused : before.routes route.id = .unused) (hDraft : route.status = .draft)
      (hStops : DraftStops route.id route.stops) (hSaved : Saves before route after) :
      RouteChange ticks before after
  | redrafted {current next : DeliveryRoute} {after : Tables} (hStored : Stored before current)
      (hNext : DeliveryRoute.Redraft current next) (hSaved : Saves before next after) :
      RouteChange ticks before after
  | resaved {current : DeliveryRoute} {after : Tables} (hStored : Stored before current)
      (hSaved : Saves before current after) : RouteChange ticks before after
  | deleted {routeId : String} {row : RouteRow} (hStored : before.routes routeId = .stored row)
      (hDraft : row.status = .draft) (hEmpty : before.stopsOf routeId = []) :
      RouteChange ticks before ((before.setRoute routeId .deleted).deleteStops routeId)
  | cancelled {routeId : String} {row : RouteRow} {next : RouteRow}
      {stop : DeliveryRouteStop → DeliveryRouteStop}
      (hStored : before.routes routeId = .stored row)
      (hOpen : row.status = .draft ∨ row.status = .active) (hNext : next.status = .cancelled)
      (hStop : ∀ found, MaybeReleased found (stop found))
      (hReleased : ticks → ∀ found ∈ before.stopsOf routeId, (stop found).activeRouteId = none) :
      RouteChange ticks before (Rewrite.apply ⟨writeRow next, stop⟩ routeId before)
  | checkedIn {routeId stopId saleId : String} {now : Int} {row : RouteRow} {rewrite : Rewrite}
      {rows : List OutboxRow} (hStored : before.routes routeId = .stored row)
      (hStatus : row.status = .active ∨ row.status = .completed)
      (hId : (rewrite.row row).id = row.id)
      (hNext : ((rewrite.row row).status = .active ∧ row.status = .active) ∨
        (rewrite.row row).status = .completed)
      (hStop : ∀ found, MaybeCompleted stopId now found (rewrite.stop found))
      (hArmed : (rewrite.row row).status = .active → ∀ found ∈ before.stopsOf routeId,
        (rewrite.stop found).activeRouteId = found.activeRouteId)
      (hLive : (rewrite.row row).status = .active → ∃ found ∈ before.stopsOf routeId,
        (rewrite.stop found).IsOpen)
      (hChecksIn : ticks → ChecksIn before routeId stopId row (rewrite.row row) rewrite.stop
        saleId rows)
      (hDeliverable : ∃ sale, before.sales saleId = some sale) :
      RouteChange ticks before
        { (rewrite.apply routeId before).deliver saleId with outbox := before.outbox ++ rows }

/-! ### The rows of one route -/

section

variable {tables before after : Tables} {stop : DeliveryRouteStop} {routeId other : String}

@[simp] theorem mem_stopsOf : stop ∈ tables.stopsOf routeId ↔
    stop ∈ tables.stops ∧ stop.routeId = routeId := by
  simp [Tables.stopsOf]

theorem checkStopKeys_eq_ok {stops : List DeliveryRouteStop} {u : Unit} :
    checkStopKeys stops = .ok u ↔ (stops.map (·.id)).Nodup ∧
      (stops.map fun stop => (stop.routeId, stop.sortOrder)).Nodup ∧
      ((stops.filter (·.activeRouteId.isSome)).map (·.saleId)).Nodup := by
  simp [checkStopKeys, bind_eq_ok, reject_eq_ok]

/-- Fewer stops keep the keys. -/
theorem checkStopKeys_sublist {stops stops' : List DeliveryRouteStop}
    (h : checkStopKeys stops = .ok ()) (hSub : stops'.Sublist stops) :
    checkStopKeys stops' = .ok () := by
  rw [checkStopKeys_eq_ok] at h ⊢
  obtain ⟨hIds, hOrders, hSales⟩ := h
  exact ⟨hIds.sublist (hSub.map _), hOrders.sublist (hSub.map _),
    hSales.sublist ((hSub.filter _).map _)⟩

theorem checkStopKeys_perm {stops stops' : List DeliveryRouteStop} (hPerm : stops'.Perm stops)
    (h : checkStopKeys stops = .ok ()) : checkStopKeys stops' = .ok () := by
  obtain ⟨hIds, hOrders, hSales⟩ := checkStopKeys_eq_ok.mp h
  rw [checkStopKeys_eq_ok]
  exact ⟨(hPerm.map _).nodup_iff.mpr hIds, (hPerm.map _).nodup_iff.mpr hOrders,
    ((hPerm.filter _).map _).nodup_iff.mpr hSales⟩

theorem eq_of_id {stops : List DeliveryRouteStop} {first second : DeliveryRouteStop}
    (hIds : (stops.map (·.id)).Nodup) (hFirst : first ∈ stops) (hSecond : second ∈ stops)
    (hId : first.id = second.id) : first = second :=
  List.inj_on_of_nodup_map hIds hFirst hSecond hId

/-- What a save leaves. -/
structure SaveEffect (before : Tables) (route : DeliveryRoute) (after : Tables) : Prop where
  routes : after.routes = Function.update before.routes route.id (.stored route.toRouteRow)
  stops : after.stops = before.stops.filter (¬ ·.routeId = route.id) ++ route.stops
  sales : after.sales = before.sales
  outbox : after.outbox = before.outbox

theorem createMany_eq_ok {stops : List DeliveryRouteStop}
    (h : createMany stops before = .ok after) :
    after = { before with stops := before.stops ++ stops } ∧
      (stops = [] ∨ checkStopKeys after.stops = .ok ()) := by
  unfold createMany at h
  split at h
  · next hNil =>
      cases h
      simp [hNil]
  · split at h
    · next hKeys =>
        cases h
        exact ⟨rfl, Or.inr hKeys⟩
    · split at h <;> cases h

/-- Stops that fit the keys are inserted. -/
theorem createMany_of_keys {stops : List DeliveryRouteStop}
    (h : checkStopKeys (before.stops ++ stops) = .ok ()) :
    createMany stops before = .ok { before with stops := before.stops ++ stops } := by
  unfold createMany
  split
  · next hNil => rw [hNil, List.append_nil]
  · rw [h]

theorem Saves.effect {route : DeliveryRoute} (h : Saves before route after) :
    SaveEffect before route after := by
  obtain ⟨rfl, _⟩ := createMany_eq_ok h
  exact ⟨rfl, rfl, rfl, rfl⟩

theorem Saves.keys {route : DeliveryRoute} (h : Saves before route after)
    (hKeys : checkStopKeys before.stops = .ok ()) : checkStopKeys after.stops = .ok () := by
  obtain ⟨rfl, hNil | hAfter⟩ := createMany_eq_ok h
  · rw [hNil, List.append_nil]
    exact checkStopKeys_sublist hKeys List.filter_sublist
  · exact hAfter

theorem SaveEffect.stopsOf_self {route : DeliveryRoute} (h : SaveEffect before route after)
    (hRoute : ∀ stop ∈ route.stops, stop.routeId = route.id) :
    after.stopsOf route.id = route.stops := by
  rw [Tables.stopsOf, h.stops, List.filter_append, List.filter_filter]
  have hOld : before.stops.filter (fun stop => decide (stop.routeId = route.id) &&
      decide (¬ stop.routeId = route.id)) = [] := by
    simp
  rw [hOld, List.nil_append, List.filter_eq_self]
  simpa using hRoute

theorem SaveEffect.stopsOf_of_ne {route : DeliveryRoute} (h : SaveEffect before route after)
    (hRoute : ∀ stop ∈ route.stops, stop.routeId = route.id) (hNe : other ≠ route.id) :
    after.stopsOf other = before.stopsOf other := by
  rw [Tables.stopsOf, h.stops, List.filter_append, List.filter_filter]
  have hNew : route.stops.filter (fun stop => decide (stop.routeId = other)) = [] := by
    rw [List.filter_eq_nil_iff]
    intro stop hStop hSame
    exact hNe ((of_decide_eq_true hSame).symm.trans (hRoute stop hStop))
  rw [hNew, List.append_nil]
  apply List.filter_congr
  intro stop _
  by_cases hOther : stop.routeId = other
  · simp [hOther, hNe]
  · simp [hOther]

end

/-! ### The invariant is kept -/

section

variable {ticks : Prop} {before after : Tables}

theorem Consistent.saved (h : Consistent ticks before) {route : DeliveryRoute}
    (hSaved : Saves before route after) (hStops : DraftStops route.id route.stops)
    (hStatus : route.status = .draft ∨ (route.status = .active ∧ route.stops ≠ [])) :
    Consistent ticks after := by
  have hEffect := hSaved.effect
  have hRoute : ∀ stop ∈ route.stops, stop.routeId = route.id := fun stop hStop =>
    (hStops.each stop hStop).1
  constructor
  · intro id row hRow
    rw [hEffect.routes] at hRow
    by_cases hId : id = route.id
    · rw [hId, Function.update_self] at hRow
      cases hRow
      exact hId.symm
    · rw [Function.update_of_ne hId] at hRow
      exact h.filed id row hRow
  · exact hSaved.keys h.keys
  · intro id
    by_cases hId : id = route.id
    · rw [hId, hEffect.stopsOf_self hRoute]
      exact hStops.numbered
    · rw [hEffect.stopsOf_of_ne hRoute hId]
      exact h.numbered id
  · intro stop hStop
    rw [hEffect.stops, List.mem_append, List.mem_filter, decide_eq_true_eq] at hStop
    rw [hEffect.routes]
    rcases hStop with ⟨hStop, hNe⟩ | hStop
    · rw [Function.update_of_ne hNe]
      exact h.stops stop hStop
    · obtain ⟨hId, hPending, hMarker⟩ := hStops.each stop hStop
      rw [hId, Function.update_self]
      refine ⟨_, rfl, fun _ => hPending, fun _ => hMarker, fun _ hClosed => ?_⟩
      rcases hStatus with hDraft | ⟨hActive, _⟩
      · rw [hDraft] at hClosed
        simp at hClosed
      · rw [hActive] at hClosed
        simp at hClosed
  · intro id row hRow hActive
    rw [hEffect.routes] at hRow
    by_cases hId : id = route.id
    · rw [hId, Function.update_self] at hRow
      cases hRow
      rcases hStatus with hDraft | ⟨_, hSome⟩
      · rw [hDraft] at hActive
        cases hActive
      · obtain ⟨stop, rest, hCons⟩ := List.exists_cons_of_ne_nil hSome
        have hMem : stop ∈ route.stops := by
          rw [hCons]
          exact List.mem_cons_self
        rw [hId, hEffect.stopsOf_self hRoute]
        exact ⟨stop, hMem, Or.inl (hStops.each stop hMem).2.1⟩
    · rw [Function.update_of_ne hId] at hRow
      rw [hEffect.stopsOf_of_ne hRoute hId]
      exact h.live id row hRow hActive

/-- The order of the stops says nothing. -/
theorem Consistent.of_perm (h : Consistent ticks before) (hRoutes : after.routes = before.routes)
    (hPerm : after.stops.Perm before.stops) : Consistent ticks after := by
  have hStopsOf : ∀ id, (after.stopsOf id).Perm (before.stopsOf id) := fun id => hPerm.filter _
  constructor
  · rw [hRoutes]
    exact h.filed
  · exact checkStopKeys_perm hPerm h.keys
  · intro id
    have hNumbered := h.numbered id
    rw [Numbered, (hStopsOf id).length_eq]
    exact ((hStopsOf id).map _).trans hNumbered
  · intro stop hStop
    rw [hRoutes]
    exact h.stops stop (hPerm.mem_iff.mp hStop)
  · intro id row hRow hActive
    rw [hRoutes] at hRow
    obtain ⟨stop, hStop, hOpen⟩ := h.live id row hRow hActive
    exact ⟨stop, (hStopsOf id).mem_iff.mpr hStop, hOpen⟩

theorem Stored.refiled {tables : Tables} {route : DeliveryRoute} (h : Stored tables route) :
    (tables.stops.filter (¬ ·.routeId = route.id) ++ route.stops).Perm tables.stops := by
  have hParts := List.filter_append_perm (·.routeId = route.id) tables.stops
  simp only [← decide_not] at hParts
  exact (h.2.append_left _).trans (List.perm_append_comm.trans hParts)

theorem Saves.resaved {route : DeliveryRoute} (h : Saves before route after)
    (hStored : Stored before route) :
    after.routes = before.routes ∧ after.stops.Perm before.stops := by
  have hEffect := h.effect
  constructor
  · rw [hEffect.routes, ← hStored.1, Function.update_eq_self]
  · rw [hEffect.stops]
    exact hStored.refiled

theorem draftStops_of_stored (h : Consistent ticks before) {route : DeliveryRoute}
    (hStored : Stored before route) (hDraft : route.status = .draft) :
    DraftStops route.id route.stops := by
  obtain ⟨hRow, hPerm⟩ := hStored
  constructor
  · intro stop hStop
    obtain ⟨hMem, hRoute⟩ := mem_stopsOf.mp (hPerm.mem_iff.mp hStop)
    obtain ⟨row, hOwn, hInv⟩ := h.stops stop hMem
    rw [hRoute, hRow] at hOwn
    cases hOwn
    exact ⟨hRoute, hInv.pending hDraft, hInv.armed (Or.inl hDraft)⟩
  · have hNumbered := h.numbered route.id
    rw [Numbered, ← hPerm.length_eq] at hNumbered
    exact (hPerm.map _).trans hNumbered

/-- A rewrite of the stops leaves who they are, and at most clears their markers. -/
structure SameStop (stop stop' : DeliveryRouteStop) : Prop where
  id : stop'.id = stop.id
  routeId : stop'.routeId = stop.routeId
  saleId : stop'.saleId = stop.saleId
  sortOrder : stop'.sortOrder = stop.sortOrder
  marker : stop'.activeRouteId = stop.activeRouteId ∨ stop'.activeRouteId = none

theorem MaybeReleased.same {stop stop' : DeliveryRouteStop} (h : MaybeReleased stop stop') :
    SameStop stop stop' := by
  rcases h with rfl | rfl
  · exact ⟨rfl, rfl, rfl, rfl, Or.inl rfl⟩
  · exact ⟨rfl, rfl, rfl, rfl, Or.inr rfl⟩

theorem SameStop.trans {first second third : DeliveryRouteStop} (h : SameStop first second)
    (h' : SameStop second third) : SameStop first third := by
  refine ⟨h'.id.trans h.id, h'.routeId.trans h.routeId, h'.saleId.trans h.saleId,
    h'.sortOrder.trans h.sortOrder, ?_⟩
  rcases h'.marker with hSame | hNone
  · rw [hSame]
    exact h.marker
  · exact Or.inr hNone

theorem completeStop_same (stopId : String) (now : Int) (stop : DeliveryRouteStop) :
    SameStop stop (DeliveryRoute.completeStop stopId now stop) := by
  unfold DeliveryRoute.completeStop DeliveryRouteStop.markCompleted
  split
  · split
    · exact ⟨rfl, rfl, rfl, rfl, Or.inl rfl⟩
    · exact ⟨rfl, rfl, rfl, rfl, Or.inl rfl⟩
  · exact ⟨rfl, rfl, rfl, rfl, Or.inl rfl⟩

theorem MaybeCompleted.same {stopId : String} {now : Int} {stop stop' : DeliveryRouteStop}
    (h : MaybeCompleted stopId now stop stop') : SameStop stop stop' := by
  rcases h with hKept | hCompleted
  · exact hKept.same
  · exact (completeStop_same stopId now stop).trans hCompleted.same

section

variable {rewrite : Rewrite} {routeId : String}

/-- What a rewrite makes of one stop of the table. -/
def Rewrite.onStop (rewrite : Rewrite) (routeId : String) (stop : DeliveryRouteStop) :
    DeliveryRouteStop :=
  if stop.routeId = routeId then rewrite.stop stop else stop

theorem onStop_same (hSame : ∀ stop, SameStop stop (rewrite.stop stop))
    (stop : DeliveryRouteStop) : SameStop stop (rewrite.onStop routeId stop) := by
  unfold Rewrite.onStop
  split
  · exact hSame stop
  · exact ⟨rfl, rfl, rfl, rfl, Or.inl rfl⟩

theorem stops_apply (tables : Tables) :
    (rewrite.apply routeId tables).stops = tables.stops.map (rewrite.onStop routeId) := rfl

theorem stopsOf_apply (hSame : ∀ stop, SameStop stop (rewrite.stop stop)) (tables : Tables)
    (id : String) : (rewrite.apply routeId tables).stopsOf id =
      (tables.stopsOf id).map (rewrite.onStop routeId) := by
  rw [Tables.stopsOf, stops_apply, List.filter_map, Tables.stopsOf]
  congr 1
  apply List.filter_congr
  intro stop _
  simp [Function.comp, (onStop_same hSame stop).routeId]

/-- Clearing markers reserves no more sales. -/
theorem reserved_sublist (hSame : ∀ stop, SameStop stop (rewrite.stop stop))
    (stops : List DeliveryRouteStop) :
    (((stops.map (rewrite.onStop routeId)).filter (·.activeRouteId.isSome)).map
      (·.saleId)).Sublist ((stops.filter (·.activeRouteId.isSome)).map (·.saleId)) := by
  induction stops with
  | nil => exact List.Sublist.refl _
  | cons stop rest ih =>
      have hStop : SameStop stop (rewrite.onStop routeId stop) := onStop_same hSame stop
      rw [List.map_cons, List.filter_cons, List.filter_cons]
      rcases hStop.marker with hMarker | hMarker
      · rw [hMarker]
        split
        · rw [List.map_cons, List.map_cons, hStop.saleId]
          exact ih.cons_cons _
        · exact ih
      · rw [hMarker]
        simp only [Option.isSome_none, Bool.false_eq_true, if_false]
        split
        · exact ih.cons _
        · exact ih

theorem checkStopKeys_apply (hSame : ∀ stop, SameStop stop (rewrite.stop stop))
    {tables : Tables} (h : checkStopKeys tables.stops = .ok ()) :
    checkStopKeys (rewrite.apply routeId tables).stops = .ok () := by
  rw [checkStopKeys_eq_ok] at h ⊢
  obtain ⟨hIds, hOrders, hSales⟩ := h
  rw [stops_apply]
  refine ⟨?_, ?_, hSales.sublist (reserved_sublist hSame _)⟩
  · have hEq : (tables.stops.map (rewrite.onStop routeId)).map (·.id) =
        tables.stops.map (·.id) := by
      simp [Function.comp_def, (onStop_same hSame _).id]
    rw [hEq]
    exact hIds
  · have hEq : (tables.stops.map (rewrite.onStop routeId)).map
          (fun stop => (stop.routeId, stop.sortOrder)) =
        tables.stops.map fun stop => (stop.routeId, stop.sortOrder) := by
      simp [Function.comp_def, (onStop_same hSame _).routeId, (onStop_same hSame _).sortOrder]
    rw [hEq]
    exact hOrders

theorem routes_apply (tables : Tables) {id : String} {row : RouteRow}
    (h : (rewrite.apply routeId tables).routes id = .stored row) :
    ∃ old, tables.routes id = .stored old ∧
      row = if id = routeId then rewrite.row old else old := by
  simp only [Rewrite.apply] at h
  split at h
  · next old hOld =>
      cases h
      exact ⟨old, hOld, rfl⟩
  · cases h
  · cases h

theorem Consistent.rewritten (h : Consistent ticks before) {row : RouteRow}
    (hStored : before.routes routeId = .stored row) (hId : (rewrite.row row).id = row.id)
    (hSame : ∀ stop, SameStop stop (rewrite.stop stop))
    (hStops : ∀ stop ∈ before.stopsOf routeId, StopInv ticks row stop →
      StopInv ticks (rewrite.row row) (rewrite.stop stop))
    (hLive : (rewrite.row row).status = .active →
      ∃ stop ∈ before.stopsOf routeId, (rewrite.stop stop).IsOpen) :
    Consistent ticks (rewrite.apply routeId before) := by
  constructor
  · intro id row' hRow
    obtain ⟨old, hOld, rfl⟩ := routes_apply before hRow
    split
    · next hSelf =>
        rw [hSelf, hStored] at hOld
        cases hOld
        rw [hId, hSelf]
        exact h.filed routeId row hStored
    · exact h.filed id old hOld
  · exact checkStopKeys_apply hSame h.keys
  · intro id
    have hNumbered := h.numbered id
    rw [Numbered, stopsOf_apply hSame, List.map_map, List.length_map]
    have hEq : (before.stopsOf id).map ((·.sortOrder) ∘ rewrite.onStop routeId) =
        (before.stopsOf id).map (·.sortOrder) := by
      simp [Function.comp_def, (onStop_same hSame _).sortOrder]
    rw [hEq]
    exact hNumbered
  · intro stop' hStop'
    rw [stops_apply] at hStop'
    obtain ⟨stop, hStop, rfl⟩ := List.mem_map.mp hStop'
    obtain ⟨old, hOld, hInv⟩ := h.stops stop hStop
    rw [(onStop_same hSame stop).routeId]
    refine ⟨if stop.routeId = routeId then rewrite.row old else old, ?_, ?_⟩
    · simp only [Rewrite.apply, hOld]
    · unfold Rewrite.onStop
      split
      · next hSelf =>
          rw [hSelf, hStored] at hOld
          cases hOld
          exact hStops stop (mem_stopsOf.mpr ⟨hStop, hSelf⟩) hInv
      · exact hInv
  · intro id row' hRow hActive
    obtain ⟨old, hOld, rfl⟩ := routes_apply before hRow
    rw [stopsOf_apply hSame]
    split at hActive
    · next hSelf =>
        rw [hSelf, hStored] at hOld
        cases hOld
        obtain ⟨stop, hStop, hOpen⟩ := hLive hActive
        refine ⟨rewrite.onStop routeId stop, ?_, ?_⟩
        · rw [hSelf]
          exact List.mem_map_of_mem hStop
        · rw [Rewrite.onStop, if_pos (mem_stopsOf.mp hStop).2]
          exact hOpen
    · next hOther =>
        obtain ⟨stop, hStop, hOpen⟩ := h.live id old hOld hActive
        refine ⟨_, List.mem_map_of_mem hStop, ?_⟩
        have hNe : ¬ stop.routeId = routeId := by
          rw [(mem_stopsOf.mp hStop).2]
          exact hOther
        rw [Rewrite.onStop, if_neg hNe]
        exact hOpen

end

/-- A route that is deleted had no stops to take along. -/
theorem deleteStops_of_empty {routeId : String} (hEmpty : before.stopsOf routeId = []) :
    before.stops.filter (¬ ·.routeId = routeId) = before.stops := by
  rw [List.filter_eq_self]
  intro stop hStop
  rw [Tables.stopsOf, List.filter_eq_nil_iff] at hEmpty
  simpa using hEmpty stop hStop

theorem Consistent.deleted (h : Consistent ticks before) {routeId : String}
    (hEmpty : before.stopsOf routeId = []) :
    Consistent ticks ((before.setRoute routeId .deleted).deleteStops routeId) := by
  have hRoutes : ∀ {id row},
      ((before.setRoute routeId .deleted).deleteStops routeId).routes id = .stored row →
        id ≠ routeId ∧ before.routes id = .stored row := by
    intro id row hRow
    by_cases hId : id = routeId
    · subst hId
      simp [Tables.deleteStops, Tables.setRoute] at hRow
    · refine ⟨hId, ?_⟩
      simpa [Tables.deleteStops, Tables.setRoute, Function.update_of_ne hId] using hRow
  have hStops := deleteStops_of_empty hEmpty
  have hStopsOf : ∀ id, ((before.setRoute routeId .deleted).deleteStops routeId).stopsOf id =
      before.stopsOf id := by
    intro id
    show (before.stops.filter (¬ ·.routeId = routeId)).filter (·.routeId = id) = _
    rw [hStops]
    rfl
  constructor
  · exact fun id row hRow => h.filed id row (hRoutes hRow).2
  · show checkStopKeys (before.stops.filter (¬ ·.routeId = routeId)) = .ok ()
    rw [hStops]
    exact h.keys
  · intro id
    rw [hStopsOf]
    exact h.numbered id
  · intro stop hStop
    obtain ⟨hStop, hNe⟩ := List.mem_filter.mp hStop
    obtain ⟨row, hRow, hInv⟩ := h.stops stop hStop
    refine ⟨row, ?_, hInv⟩
    have hNe : stop.routeId ≠ routeId := by simpa using hNe
    simpa [Tables.deleteStops, Tables.setRoute, Function.update_of_ne hNe] using hRow
  · intro id row hRow hActive
    rw [hStopsOf]
    exact h.live id row (hRoutes hRow).2 hActive

/-- Two stops that stand for the same delivery. -/
def SameDelivery (stop stop' : DeliveryRouteStop) : Prop :=
  stop'.id = stop.id ∧ stop'.saleId = stop.saleId ∧ stop'.status = stop.status

/-- The sales that are delivered stay delivered. -/
def KeepsDelivered (before after : Tables) : Prop :=
  ∀ saleId sale, before.sales saleId = some sale → sale.deliveryStatus = .delivered →
    ∃ sale', after.sales saleId = some sale' ∧ sale'.deliveryStatus = .delivered

theorem keepsDelivered_of_eq (h : after.sales = before.sales) : KeepsDelivered before after :=
  fun _ sale hSale hDelivered => ⟨sale, h ▸ hSale, hDelivered⟩

theorem keepsDelivered_deliver (saleId : String) : KeepsDelivered before (before.deliver saleId) := by
  intro id sale hSale hDelivered
  by_cases hId : id = saleId
  · subst hId
    exact ⟨{ sale with deliveryStatus := .delivered }, by simp [Tables.deliver, hSale], rfl⟩
  · exact ⟨sale, by simp [Tables.deliver, Function.update_of_ne hId, hSale], hDelivered⟩

/-- Nothing new was checked in, and nothing that was is gone. -/
structure SameCheckIns (before after : Tables) : Prop where
  sales : KeepsDelivered before after
  outbox : after.outbox = before.outbox
  kept : ∀ stop ∈ before.stops, stop.status = .completed →
    ∃ stop' ∈ after.stops, SameDelivery stop stop'
  old : ∀ stop' ∈ after.stops, stop'.status = .completed →
    ∃ stop ∈ before.stops, SameDelivery stop stop'

theorem CheckedIn.congr (h : CheckedIn before) (hSame : SameCheckIns before after) :
    CheckedIn after := by
  constructor
  · intro stop' hStop' hCompleted
    obtain ⟨stop, hStop, _, hSale, hStatus⟩ := hSame.old stop' hStop' hCompleted
    obtain ⟨sale, hFound, hDelivered⟩ := h.delivered stop hStop (hStatus.symm.trans hCompleted)
    rw [hSale]
    exact hSame.sales stop.saleId sale hFound hDelivered
  · intro stop' hStop' hCompleted
    obtain ⟨stop, hStop, hId, _, hStatus⟩ := hSame.old stop' hStop' hCompleted
    rw [hSame.outbox, hId]
    exact h.thanked stop hStop (hStatus.symm.trans hCompleted)
  · intro stopId
    rw [hSame.outbox]
    exact h.announced stopId
  · intro row hRow
    rw [hSame.outbox] at hRow
    obtain ⟨stop, hStop, hAbout, hCompleted⟩ := h.about row hRow
    obtain ⟨stop', hStop', hId, _, hStatus⟩ := hSame.kept stop hStop hCompleted
    exact ⟨stop', hStop', hId.trans hAbout, hStatus.trans hCompleted⟩

/-- The same stops, in whatever order. -/
theorem sameCheckIns_of_perm (hSales : after.sales = before.sales)
    (hOutbox : after.outbox = before.outbox) (hPerm : after.stops.Perm before.stops) :
    SameCheckIns before after := by
  refine ⟨keepsDelivered_of_eq hSales, hOutbox, ?_, ?_⟩
  · exact fun stop hStop _ => ⟨stop, hPerm.mem_iff.mpr hStop, rfl, rfl, rfl⟩
  · exact fun stop hStop _ => ⟨stop, hPerm.mem_iff.mp hStop, rfl, rfl, rfl⟩

/-- The completed stops lie outside a draft that is saved. -/
theorem Saves.sameCheckIns {route : DeliveryRoute} (hSaved : Saves before route after)
    (hStops : DraftStops route.id route.stops)
    (hPending : ∀ stop ∈ before.stopsOf route.id, stop.status = .pending) :
    SameCheckIns before after := by
  have hEffect := hSaved.effect
  refine ⟨keepsDelivered_of_eq hEffect.sales, hEffect.outbox, ?_, ?_⟩
  · intro stop hStop hCompleted
    refine ⟨stop, ?_, rfl, rfl, rfl⟩
    rw [hEffect.stops, List.mem_append, List.mem_filter, decide_eq_true_eq]
    refine Or.inl ⟨hStop, fun hRoute => ?_⟩
    rw [hPending stop (mem_stopsOf.mpr ⟨hStop, hRoute⟩)] at hCompleted
    cases hCompleted
  · intro stop hStop hCompleted
    rw [hEffect.stops, List.mem_append, List.mem_filter] at hStop
    rcases hStop with ⟨hStop, _⟩ | hStop
    · exact ⟨stop, hStop, rfl, rfl, rfl⟩
    · rw [(hStops.each stop hStop).2.1] at hCompleted
      cases hCompleted

theorem stopsOf_unused (h : Consistent ticks before) {routeId : String}
    (hUnused : before.routes routeId = .unused) : before.stopsOf routeId = [] := by
  rw [List.eq_nil_iff_forall_not_mem]
  intro stop hStop
  obtain ⟨hMem, hRoute⟩ := mem_stopsOf.mp hStop
  obtain ⟨row, hRow, _⟩ := h.stops stop hMem
  rw [hRoute, hUnused] at hRow
  cases hRow

theorem pending_of_stored (h : Consistent ticks before) {current : DeliveryRoute}
    (hStored : Stored before current) (hDraft : current.status = .draft) :
    ∀ stop ∈ before.stopsOf current.id, stop.status = .pending := fun stop hStop =>
  ((draftStops_of_stored h hStored hDraft).each stop (hStored.2.mem_iff.mpr hStop)).2.1

theorem sameCheckIns_deleted {routeId : String} (hEmpty : before.stopsOf routeId = []) :
    SameCheckIns before ((before.setRoute routeId .deleted).deleteStops routeId) :=
  sameCheckIns_of_perm rfl rfl (List.Perm.of_eq (deleteStops_of_empty hEmpty))

theorem sameCheckIns_released {rewrite : Rewrite} {routeId : String}
    (hStop : ∀ stop, MaybeReleased stop (rewrite.stop stop)) :
    SameCheckIns before (rewrite.apply routeId before) := by
  have hSame : ∀ stop, SameDelivery stop (rewrite.onStop routeId stop) := by
    intro stop
    unfold Rewrite.onStop
    split
    · rcases hStop stop with hKept | hReleased
      · rw [hKept]
        exact ⟨rfl, rfl, rfl⟩
      · rw [hReleased]
        exact ⟨rfl, rfl, rfl⟩
    · exact ⟨rfl, rfl, rfl⟩
  refine ⟨keepsDelivered_of_eq rfl, rfl, ?_, ?_⟩
  · intro stop hStop _
    exact ⟨_, List.mem_map_of_mem hStop, hSame stop⟩
  · intro stop' hStop' _
    obtain ⟨stop, hStop, rfl⟩ := List.mem_map.mp hStop'
    exact ⟨stop, hStop, hSame stop⟩

/-- A stop that is not completed has no row in the outbox. -/
theorem CheckedIn.silent (h : CheckedIn before) {stopId : String}
    (hNone : ∀ stop ∈ before.stops, stop.id = stopId → stop.status ≠ .completed)
    (p : OutboxRow → Prop) [DecidablePred p] (hAbout : ∀ row, p row → row.about = stopId) :
    before.outbox.countP (p ·) = 0 := by
  rw [List.countP_eq_zero]
  intro row hRow hP
  obtain ⟨stop, hStop, hId, hCompleted⟩ := h.about row hRow
  exact hNone stop hStop (hId.trans (hAbout row (of_decide_eq_true hP))) hCompleted

theorem about_of_thanks {stopId : String} (row : OutboxRow) (h : row.Thanks stopId) :
    row.about = stopId := by
  cases row with
  | nextStop routeId currentStopId nextStopId nextSaleId => cases h
  | thankYou saleId routeId thanked => exact h

theorem about_of_announces {stopId : String} (row : OutboxRow) (h : row.Announces stopId) :
    row.about = stopId := by
  cases row with
  | nextStop routeId currentStopId nextStopId nextSaleId => exact h
  | thankYou saleId routeId thanked => cases h

section

variable {rewrite : Rewrite} {routeId stopId saleId : String} {now : Int} {row : RouteRow}
  {rows : List OutboxRow}

/-- After a check-in its stop is completed, and every other stop is as it was. -/
theorem ChecksIn.status (hIds : (before.stops.map (·.id)).Nodup)
    (hIn : ChecksIn before routeId stopId row (rewrite.row row) rewrite.stop saleId rows)
    (stop : DeliveryRouteStop) (hStop : stop ∈ before.stops) :
    (rewrite.onStop routeId stop).status =
      if stop.id = stopId then .completed else stop.status := by
  unfold Rewrite.onStop
  split
  · next hRoute => exact hIn.completed stop (mem_stopsOf.mpr ⟨hStop, hRoute⟩)
  · next hRoute =>
      rw [if_neg]
      intro hId
      obtain ⟨found, hFound, hFoundId, _⟩ := hIn.sale
      obtain ⟨hMem, hFoundRoute⟩ := mem_stopsOf.mp hFound
      have hSame := eq_of_id hIds hStop hMem (hId.trans hFoundId.symm)
      exact hRoute (hSame ▸ hFoundRoute)

/-- The check-in of a stop that was pending writes its rows once. -/
theorem CheckedIn.checksIn (h : CheckedIn before) (hIds : (before.stops.map (·.id)).Nodup)
    (hStop : ∀ stop, MaybeCompleted stopId now stop (rewrite.stop stop))
    (hIn : ChecksIn before routeId stopId row (rewrite.row row) rewrite.stop saleId rows)
    (hSale : ∃ sale, before.sales saleId = some sale) :
    CheckedIn { (rewrite.apply routeId before).deliver saleId with
      outbox := before.outbox ++ rows } := by
  have hSame : ∀ stop, SameStop stop (rewrite.onStop routeId stop) :=
    onStop_same fun stop => (hStop stop).same
  have hStatus := hIn.status hIds
  obtain ⟨found, hFound, hFoundId, hFoundSale, hRows⟩ := hIn.sale
  have hMem : found ∈ before.stops := (mem_stopsOf.mp hFound).1
  have hOnly : ∀ stop ∈ before.stops, stop.id = stopId → stop = found := fun stop hStop hId =>
    eq_of_id hIds hStop hMem (hId.trans hFoundId.symm)
  rcases hRows with ⟨rfl, hCompleted⟩ | ⟨hPending, nextRows, rfl, hNext⟩
  · -- A replay: the stop was completed before.
    have hKept : ∀ stop ∈ before.stops, SameDelivery stop (rewrite.onStop routeId stop) := by
      intro stop hMem'
      refine ⟨(hSame stop).id, (hSame stop).saleId, ?_⟩
      rw [hStatus stop hMem']
      split
      · next hId => rw [hOnly stop hMem' hId, hCompleted]
      · rfl
    refine h.congr ⟨keepsDelivered_deliver saleId, List.append_nil _, ?_, ?_⟩
    · intro stop hMem' _
      exact ⟨_, List.mem_map_of_mem hMem', hKept stop hMem'⟩
    · intro stop' hStop' _
      obtain ⟨stop, hMem', rfl⟩ := List.mem_map.mp hStop'
      exact ⟨stop, hMem', hKept stop hMem'⟩
  · have hNone : ∀ stop ∈ before.stops, stop.id = stopId → stop.status ≠ .completed := by
      intro stop hMem' hId hCompleted
      rw [hOnly stop hMem' hId, hPending] at hCompleted
      cases hCompleted
    have hNextThanks : ∀ id, nextRows.countP (OutboxRow.Thanks id ·) = 0 := by
      intro id
      rcases hNext with rfl | ⟨next, _, _, rfl⟩
      · rfl
      · rfl
    constructor
    · intro stop' hStop' hCompleted
      obtain ⟨stop, hMem', rfl⟩ : ∃ stop ∈ before.stops, rewrite.onStop routeId stop = stop' :=
        List.mem_map.mp hStop'
      rw [hStatus stop hMem'] at hCompleted
      have hSaleId : (rewrite.onStop routeId stop).saleId = stop.saleId := (hSame stop).saleId
      show ∃ sale, ((rewrite.apply routeId before).deliver saleId).sales
        (rewrite.onStop routeId stop).saleId = some sale ∧ _
      rw [hSaleId]
      split at hCompleted
      · next hId =>
          obtain ⟨sale, hSale⟩ := hSale
          rw [hOnly stop hMem' hId, hFoundSale]
          exact ⟨{ sale with deliveryStatus := .delivered },
            by simp [Tables.deliver, Rewrite.apply, hSale], rfl⟩
      · obtain ⟨sale, hFoundSale, hDelivered⟩ := h.delivered stop hMem' hCompleted
        exact keepsDelivered_deliver saleId stop.saleId sale hFoundSale hDelivered
    · intro stop' hStop' hCompleted
      obtain ⟨stop, hMem', rfl⟩ : ∃ stop ∈ before.stops, rewrite.onStop routeId stop = stop' :=
        List.mem_map.mp hStop'
      rw [hStatus stop hMem'] at hCompleted
      have hId : (rewrite.onStop routeId stop).id = stop.id := (hSame stop).id
      show (before.outbox ++ (nextRows ++ [_])).countP _ = 1
      rw [hId, List.countP_append, List.countP_append, hNextThanks]
      split at hCompleted
      · next hSelf =>
          rw [hSelf, h.silent hNone _ about_of_thanks]
          simp [OutboxRow.Thanks]
      · next hOther =>
          rw [h.thanked stop hMem' hCompleted]
          simp [OutboxRow.Thanks, Ne.symm hOther]
    · intro id
      show (before.outbox ++ (nextRows ++ [_])).countP _ ≤ 1
      rw [List.countP_append, List.countP_append]
      have hLast : [OutboxRow.thankYou saleId routeId stopId].countP
          (OutboxRow.Announces id ·) = 0 := rfl
      rw [hLast, Nat.add_zero]
      have hOld := h.announced id
      rcases hNext with rfl | ⟨next, _, _, rfl⟩
      · exact hOld
      · by_cases hId : id = stopId
        · rw [hId, h.silent hNone _ about_of_announces]
          simp [OutboxRow.Announces]
        · simpa [OutboxRow.Announces, Ne.symm hId] using hOld
    · intro outboxRow hRow
      show ∃ stop ∈ before.stops.map (rewrite.onStop routeId), _
      rcases List.mem_append.mp hRow with hOld | hNew
      · obtain ⟨stop, hMem', hAbout, hCompleted⟩ := h.about outboxRow hOld
        refine ⟨_, List.mem_map_of_mem hMem', (hSame stop).id.trans hAbout, ?_⟩
        rw [hStatus stop hMem']
        split
        · rfl
        · exact hCompleted
      · have hAbout : outboxRow.about = stopId := by
          rcases List.mem_append.mp hNew with hNextRow | hLast
          · rcases hNext with rfl | ⟨next, _, _, rfl⟩
            · cases hNextRow
            · obtain rfl := List.mem_singleton.mp hNextRow
              rfl
          · obtain rfl := List.mem_singleton.mp hLast
            rfl
        refine ⟨_, List.mem_map_of_mem hMem, ?_, ?_⟩
        · rw [(hSame found).id, hFoundId, hAbout]
        · rw [hStatus found hMem, if_pos hFoundId]

end

/-- The step lemma. -/
theorem RouteInv.change (h : RouteInv ticks before) (hChange : RouteChange ticks before after) :
    RouteInv ticks after := by
  cases hChange with
  | @created route _ hUnused hDraft hStops hSaved =>
      refine ⟨h.toConsistent.saved hSaved hStops (Or.inl hDraft), fun hTicks => ?_⟩
      apply (h.checkedIn hTicks).congr (hSaved.sameCheckIns hStops _)
      simp [stopsOf_unused h.toConsistent hUnused]
  | @redrafted current next _ hStored hNext hSaved =>
      have hStops := hNext.stops (draftStops_of_stored h.toConsistent hStored hNext.draft)
      refine ⟨h.toConsistent.saved hSaved hStops hNext.status, fun hTicks => ?_⟩
      apply (h.checkedIn hTicks).congr (hSaved.sameCheckIns hStops _)
      rw [hNext.id]
      exact pending_of_stored h.toConsistent hStored hNext.draft
  | @resaved current _ hStored hSaved =>
      obtain ⟨hRoutes, hPerm⟩ := hSaved.resaved hStored
      exact ⟨h.toConsistent.of_perm hRoutes hPerm, fun hTicks => (h.checkedIn hTicks).congr
        (sameCheckIns_of_perm hSaved.effect.sales hSaved.effect.outbox hPerm)⟩
  | deleted hStored hDraft hEmpty =>
      exact ⟨h.toConsistent.deleted hEmpty, fun hTicks =>
        (h.checkedIn hTicks).congr (sameCheckIns_deleted hEmpty)⟩
  | @cancelled routeId row next stop hStored hOpen hNext hStop hReleased =>
      refine ⟨h.toConsistent.rewritten hStored rfl (fun found => (hStop found).same) ?_ ?_,
        fun hTicks => (h.checkedIn hTicks).congr (sameCheckIns_released hStop)⟩
      · intro found hFound hInv
        constructor
        · intro hDraft
          rw [show (writeRow next row).status = next.status from rfl, hNext] at hDraft
          cases hDraft
        · intro hLive
          rw [show (writeRow next row).status = next.status from rfl, hNext] at hLive
          simp at hLive
        · exact fun hTicks _ => hReleased hTicks found hFound
      · intro hActive
        rw [show (writeRow next row).status = next.status from rfl, hNext] at hActive
        cases hActive
  | @checkedIn routeId stopId saleId now row rewrite rows hStored hStatus hId hNext hStop hArmed
      hLive hChecksIn hDeliverable =>
      have hRewritten : Consistent ticks (rewrite.apply routeId before) := by
        refine h.toConsistent.rewritten hStored hId (fun found => (hStop found).same) ?_ hLive
        intro found hFound hInv
        constructor
        · intro hDraft
          rcases hNext with ⟨hActive, _⟩ | hCompleted
          · rw [hActive] at hDraft
            cases hDraft
          · rw [hCompleted] at hDraft
            cases hDraft
        · intro hOpen
          rcases hNext with ⟨hActive, hWas⟩ | hCompleted
          · rw [hArmed hActive found hFound, hId]
            exact hInv.armed (Or.inr hWas)
          · rw [hCompleted] at hOpen
            simp at hOpen
        · intro hTicks hClosed
          rcases hNext with ⟨hActive, _⟩ | hCompleted
          · rw [hActive] at hClosed
            simp at hClosed
          · exact (hChecksIn hTicks).released hCompleted found hFound
      have hIds := (checkStopKeys_eq_ok.mp h.keys).1
      exact ⟨⟨hRewritten.filed, hRewritten.keys, hRewritten.numbered, hRewritten.stops,
        hRewritten.live⟩, fun hTicks =>
          (h.checkedIn hTicks).checksIn hIds hStop (hChecksIn hTicks) hDeliverable⟩

end

end Houndfe.DeliveryRoutes
