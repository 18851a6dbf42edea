import Houndfe.DeliveryRoutes.CheckIns

/-! Whether a sale that a route accepts can be delivered by it. The admission looks at the
delivery status and the address of the sale only, the check-in also at the status of the sale. -/

namespace Houndfe.DeliveryRoutes

open Transactions

section

variable {tables before after : Tables} {ticks : Prop} {listing : Listing} {routeId : String}

/-! ### The statements with nobody else around -/

theorem alone_loadRoute {row : RouteRow} (hRow : tables.routes routeId = .stored row) :
    (loadRoute listing routeId).alone tables =
      .ok (some { row with stops := listing.order (tables.stopsOf routeId) }) := by
  rw [loadRoute, Tx.alone_bind, Tx.alone_query, findRoute_eq_some.mpr hRow]
  rfl

theorem alone_runWithRouteLocks {row : RouteRow} (hRow : tables.routes routeId = .stored row) :
    (runWithRouteLocks listing [routeId]).alone tables =
      .ok [{ row with stops := listing.order (tables.stopsOf routeId) }] := by
  have hThere : tables.hasRoute routeId = true := by
    simp [Tables.hasRoute, hRow]
  have hLocks : (lockRoutesForUpdate (lockOrder [routeId])).alone tables = .ok [] := by
    show (lockRoutesForUpdate [routeId]).alone tables = .ok []
    rw [lockRoutesForUpdate, Tx.alone_bind, Tx.alone_lockRow, hThere]
    rfl
  rw [runWithRouteLocks, Tx.alone_bind, hLocks]
  show (loadRoutes listing [routeId]).alone tables = _
  rw [loadRoutes, Tx.alone_bind, alone_loadRoute hRow]
  rfl

/-- A save that meets nobody else's marks goes on to its insert. -/
theorem serve_save {pending : Pending} {route : DeliveryRoute} {middle : Tables}
    (hPending : pending tables = .ok middle)
    (hFree : conflictSaleIds (route.stops.map (·.saleId))
      ((middle.setRoute route.id (.stored route.toRouteRow)).deleteStops route.id) = []) :
    serve (saveInTransaction pending route >>= fun pending => pure (saved pending)) tables =
      (createMany route.stops ((middle.setRoute route.id
        (.stored route.toRouteRow)).deleteStops route.id)).map fun after => (after, ()) := by
  let cleared : Pending := fun tables => do
    let tables ← pending tables
    return (tables.setRoute route.id (.stored route.toRouteRow)).deleteStops route.id
  have hCleared : cleared tables =
      .ok ((middle.setRoute route.id (.stored route.toRouteRow)).deleteStops route.id) := by
    show (pending tables >>= _) = _
    rw [hPending]
    rfl
  have hConflicts : (cleared tables).map (conflictSaleIds (route.stops.map (·.saleId))) =
      .ok [] := by
    rw [hCleared, Except.map, hFree]
  rw [saveInTransaction, bind_assoc, serve_query, bind_assoc, serve_check, hConflicts]
  show serve (pure (saved fun tables => cleared tables >>= createMany route.stops) :
    RouteTx RouteEnding) tables = _
  rw [serve_pure]
  show Except.map _ (cleared tables >>= createMany route.stops) = _
  rw [hCleared]
  rfl

theorem changes_of_serve (h : RouteInv False before) {body : RouteTx RouteEnding}
    (hBody : RouteBody body) (hServe : serve body before = .ok (after, ())) :
    Relation.ReflTransGen (RouteChange False) before after := by
  simp only [serve, bind_eq_ok, pure_eq_ok] at hServe
  obtain ⟨ending, hAlone, later, hWrite, hEnd⟩ := hServe
  cases hEnd
  obtain ⟨held, known, hKnown, hWarranted⟩ := (keptBy_of_routeBody hBody).alone h trivial hAlone
  exact (hWarranted before after hKnown ⟨h, False.elim⟩ hWrite).1

/-! ### The start of a draft -/

/-- The marked stops of a draft are in nobody's way. -/
theorem conflictSaleIds_cleared (h : Consistent ticks tables) {route : DeliveryRoute}
    (hStored : Stored tables route) (hDraft : route.status = .draft) (row : RouteRow) :
    conflictSaleIds (route.stops.map (·.saleId))
      ((tables.setRoute route.id (.stored row)).deleteStops route.id) = [] := by
  have hNone : ∀ stop ∈ (tables.stops.filter (¬ ·.routeId = route.id)),
      ¬ (stop.saleId ∈ route.stops.map (·.saleId) ∧ stop.activeRouteId.isSome = true) := by
    rintro stop hStop ⟨hSale, hMarked⟩
    obtain ⟨hMem, hNe⟩ := List.mem_filter.mp hStop
    obtain ⟨own, hOwn, hSame⟩ := List.mem_map.mp hSale
    obtain ⟨hOwnMem, hRoute⟩ := mem_stopsOf.mp (hStored.2.mem_iff.mp hOwn)
    have hOwnMarked : own.activeRouteId.isSome = true := by
      rw [((draftStops_of_stored h hStored hDraft).each own hOwn).2.2]
      rfl
    obtain ⟨_, _, hSales⟩ := checkStopKeys_eq_ok.mp h.keys
    have hEq := List.inj_on_of_nodup_map hSales (List.mem_filter.mpr ⟨hOwnMem, hOwnMarked⟩)
      (List.mem_filter.mpr ⟨hMem, hMarked⟩) hSame
    rw [← hEq, hRoute] at hNe
    simp at hNe
  have hEmpty : (tables.stops.filter (¬ ·.routeId = route.id)).filter (fun stop =>
      stop.saleId ∈ route.stops.map (·.saleId) ∧ stop.activeRouteId.isSome) = [] := by
    rw [List.filter_eq_nil_iff]
    intro stop hStop hBoth
    exact hNone stop hStop (of_decide_eq_true hBoth)
  simp only [conflictSaleIds, Tables.deleteStops, Tables.setRoute, hEmpty]
  rfl

theorem serve_startRoute (h : Consistent ticks tables) {row : RouteRow}
    (hRow : tables.routes routeId = .stored row) (hDraft : row.status = .draft)
    (hSome : tables.stopsOf routeId ≠ []) (surroundings : Surroundings) :
    ∃ started, serve (startRoute surroundings routeId) tables = .ok (started, ()) ∧
      (∃ next, started.routes routeId = .stored next ∧ next.status = .active) ∧
      (started.stopsOf routeId).Perm (tables.stopsOf routeId) ∧
      started.sales = tables.sales := by
  obtain rfl := h.filed routeId row hRow
  have hPerm := surroundings.listing.perm (tables.stopsOf row.id)
  let current : DeliveryRoute :=
    { row with stops := surroundings.listing.order (tables.stopsOf row.id) }
  have hStored : Stored tables current := ⟨hRow, hPerm⟩
  have hDrafts := draftStops_of_stored h hStored hDraft
  have hStops : current.stops ≠ [] := by
    intro hNil
    apply hSome
    have hPerm' : current.stops.Perm (tables.stopsOf row.id) := hPerm
    rw [hNil] at hPerm'
    exact hPerm'.symm.eq_nil
  -- The stops of a draft carry their markers already.
  have hMarked : current.stops.map (·.setActiveRouteId (some current.id)) = current.stops := by
    conv_rhs => rw [← List.map_id current.stops]
    apply List.map_congr_left
    intro stop hStop
    have hMarker := (hDrafts.each stop hStop).2.2
    cases stop
    simpa [DeliveryRouteStop.setActiveRouteId] using hMarker.symm
  let now := surroundings.clock 0
  let next : DeliveryRoute :=
    { current with status := .active, startedAt := some now, updatedAt := now }
  have hStart : current.start now = .ok next := by
    have hDraft' : current.status = .draft := hDraft
    have hAssert : current.assertDraft = .ok () := DeliveryRoute.assertDraft_eq_ok.mpr hDraft'
    simp only [DeliveryRoute.start, hAssert, hMarked, reject, if_neg hStops, next]
    rfl
  have hConflicts : conflictSaleIds (next.stops.map (·.saleId))
      ((tables.setRoute next.id (.stored next.toRouteRow)).deleteStops next.id) = [] :=
    conflictSaleIds_cleared h hStored hDraft next.toRouteRow
  have hInsert : createMany next.stops
      ((tables.setRoute next.id (.stored next.toRouteRow)).deleteStops next.id) = .ok _ :=
    createMany_of_keys (checkStopKeys_perm hStored.refiled h.keys)
  refine ⟨{ tables.setRoute row.id (.stored next.toRouteRow) with
    stops := tables.stops.filter (¬ ·.routeId = row.id) ++ current.stops }, ?_, ?_, ?_, rfl⟩
  · have hGet : getRoute [current] row.id = .ok current := by
      simp [getRoute, current]
    rw [startRoute, editRoute, serve_bind, alone_runWithRouteLocks hRow]
    show serve (liftM (getRoute [current] row.id) >>= _) tables = _
    rw [serve_check, hGet]
    show serve (liftM (current.start now) >>= _) tables = _
    rw [serve_check, hStart]
    show serve (saveInTransaction .ok next >>= fun pending => pure (saved pending)) tables = _
    rw [serve_save rfl hConflicts, hInsert]
    rfl
  · exact ⟨_, Function.update_self _ _ _, rfl⟩
  · exact hStored.refiled.filter _

/-! ### The check-in of a stop of an active route -/

/-- Every conditional write of a stop finds the stop as it was loaded. -/
theorem alone_commitStops {expected : StateExpectation} {nexts : List DeliveryRouteStop}
    {rewrite : Rewrite}
    (hExpected : ∀ prior ∈ expected.stops, ∃ current ∈ tables.stopsOf routeId,
      prior = .of current)
    (hIds : (nexts.map (·.id)).Nodup)
    (hUntouched : ∀ current ∈ tables.stopsOf routeId, current.id ∈ nexts.map (·.id) →
      rewrite.stop current = current) :
    ∃ written, (commitStops listing routeId expected nexts rewrite).alone tables =
      .ok written := by
  induction nexts generalizing rewrite with
  | nil => exact ⟨rewrite, rfl⟩
  | cons stop rest ih =>
      obtain ⟨hNew, hRest⟩ := List.nodup_cons.mp hIds
      have hLater : ∀ current ∈ tables.stopsOf routeId, current.id ∈ rest.map (·.id) →
          rewrite.stop current = current := fun current hCurrent hIn =>
        hUntouched current hCurrent (List.mem_cons_of_mem _ hIn)
      rw [commitStops]
      split
      · exact ih hRest hLater
      · next prior hFind =>
          have hPriorId : prior.id = stop.id := by simpa using List.find?_some hFind
          obtain ⟨loaded, hLoaded, rfl⟩ := hExpected prior (List.mem_of_find?_eq_some hFind)
          split
          · have hMatched : ((tables.stopsOf routeId).any fun current =>
                (StopExpectation.of loaded).Matches (rewrite.stop current)) = true := by
              rw [List.any_eq_true]
              refine ⟨loaded, hLoaded, ?_⟩
              rw [hUntouched loaded hLoaded (List.mem_cons.mpr (Or.inl hPriorId))]
              exact decide_eq_true ⟨rfl, rfl, rfl, rfl, rfl⟩
            rw [Tx.alone_bind, Tx.alone_query, hMatched]
            apply ih hRest
            intro current hCurrent hIn
            show writeStop _ stop (rewrite.stop current) = current
            rw [hLater current hCurrent hIn, writeStop, if_neg]
            -- Another stop than the one that was just written.
            rintro ⟨hSame, _⟩
            have hStop : current.id = stop.id := hSame.trans hPriorId
            rw [hStop] at hIn
            exact hNew hIn
          · exact ih hRest hLater

theorem alone_reconcileRouteCompletion {now : Int} {rewrite : Rewrite} :
    ∃ reconciled, (reconcileRouteCompletion routeId now rewrite).alone tables =
      .ok reconciled := by
  rw [reconcileRouteCompletion, Tx.alone_bind, Tx.alone_query]
  simp only [bind, Except.bind]
  split
  · exact ⟨_, rfl⟩
  · exact ⟨_, rfl⟩

/-- A transition of the stored route that nobody overtakes is committed. -/
theorem alone_commitTransition (listing : Listing) {row : RouteRow}
    (hRow : tables.routes routeId = .stored row) {next : DeliveryRoute}
    (hIds : (next.stops.map (·.id)).Nodup) (reconciledAt : Int) :
    ∃ rewrite, (commitTransition listing routeId (captureRouteTransitionExpectation
      { row with stops := listing.order (tables.stopsOf routeId) }) next reconciledAt).alone
        tables = .ok rewrite := by
  have hMatched : ((tables.findRoute routeId).any
      ((captureRouteTransitionExpectation
        { row with stops := listing.order (tables.stopsOf routeId) }).Matches ·)) = true := by
    rw [findRoute_eq_some.mpr hRow]
    exact decide_eq_true ⟨rfl, rfl, rfl, rfl, rfl⟩
  obtain ⟨written, hWritten⟩ : ∃ written, (commitStops listing routeId
      (captureRouteTransitionExpectation
        { row with stops := listing.order (tables.stopsOf routeId) }) next.stops
      ⟨writeRow next.toRouteRow, id⟩).alone tables = .ok written := by
    apply alone_commitStops _ hIds fun _ _ _ => rfl
    intro prior hPrior
    obtain ⟨current, hCurrent, rfl⟩ := List.mem_map.mp hPrior
    exact ⟨current, (listing.perm _).mem_iff.mp hCurrent, rfl⟩
  rw [commitTransition, Tx.alone_bind, Tx.alone_lockRow, hMatched]
  show ∃ rewrite, (commitStops _ _ _ _ _ >>= _).alone tables = .ok rewrite
  rw [Tx.alone_bind, hWritten]
  exact alone_reconcileRouteCompletion

theorem alone_markSaleDelivered (saleId : String) :
    (markSaleDelivered saleId).alone tables =
      .ok (if (tables.sales saleId).any (Deliverable ·) then .delivered
        else if (tables.sales saleId).isSome then .notDeliverable else .missing) := by
  rw [markSaleDelivered, Tx.alone_bind, Tx.alone_lockRow]
  cases (tables.sales saleId).any (Deliverable ·) with
  | true => rfl
  | false => rfl

/-- An open stop of an active route can be checked in. -/
theorem DeliveryRoute.checkInStop_of_pending {route : DeliveryRoute} {stop : DeliveryRouteStop}
    (hIds : (route.stops.map (·.id)).Nodup) (hStop : stop ∈ route.stops)
    (hPending : stop.status = .pending) (hActive : route.status = .active) (now : Int) :
    ∃ checkIn, route.checkInStop stop.id now = .ok checkIn ∧
      checkIn.completedStop.saleId = stop.saleId ∧
      checkIn.route.stops.map (·.id) = route.stops.map (·.id) := by
  have hFind : route.stops.find? (·.id = stop.id) = some stop := by
    cases hFound : route.stops.find? (·.id = stop.id) with
    | none =>
        have hNone := List.find?_eq_none.mp hFound stop hStop
        simp at hNone
    | some found =>
        have hId : found.id = stop.id := by simpa using List.find?_some hFound
        rw [eq_of_id hIds (List.mem_of_find?_eq_some hFound) hStop hId]
  have hSame : (route.stops.map (DeliveryRoute.completeStop stop.id now)).map (·.id) =
      route.stops.map (·.id) := by
    simp [Function.comp_def, (completeStop_same stop.id now _).id]
  have hSale : (stop.markCompleted now).saleId = stop.saleId := by
    simp [DeliveryRouteStop.markCompleted, hPending]
  have hStops : (route.stops.map fun other =>
      if other.id = stop.id then other.markCompleted now else other) =
        route.stops.map (DeliveryRoute.completeStop stop.id now) := rfl
  simp only [DeliveryRoute.checkInStop, hFind, hPending, hActive, reject, ne_eq, not_true_eq_false,
    reduceCtorEq, if_false, hStops]
  cases hNext : nextPendingStop (route.stops.map (DeliveryRoute.completeStop stop.id now)) with
  | none =>
      refine ⟨_, rfl, hSale, ?_⟩
      show List.map _ (List.map _ (List.map _ _)) = _
      rw [List.map_map, ← hSame]
      rfl
  | some nextStop => exact ⟨_, rfl, hSale, hSame⟩

/-- A pending stop of an active route is checked in exactly when its sale can be marked. -/
theorem serve_checkInStop_iff (h : Consistent ticks tables) {row : RouteRow}
    (hRow : tables.routes routeId = .stored row) (hActive : row.status = .active)
    {stop : DeliveryRouteStop} (hStop : stop ∈ tables.stopsOf routeId)
    (hPending : stop.status = .pending) (surroundings : Surroundings) :
    (∃ last, serve (checkInStop surroundings routeId stop.id) tables = .ok (last, ())) ↔
      ∃ sale, tables.sales stop.saleId = some sale ∧ Deliverable sale := by
  have hPerm := surroundings.listing.perm (tables.stopsOf routeId)
  let before : DeliveryRoute :=
    { row with stops := surroundings.listing.order (tables.stopsOf routeId) }
  have hIds : (before.stops.map (·.id)).Nodup :=
    (hPerm.map _).nodup_iff.mpr
      ((checkStopKeys_eq_ok.mp h.keys).1.sublist (List.filter_sublist.map _))
  obtain ⟨checkIn, hCheckIn, hSale, hSame⟩ := DeliveryRoute.checkInStop_of_pending hIds
    (hPerm.mem_iff.mpr hStop) hPending hActive (surroundings.clock 0)
  obtain ⟨rewrite, hRewrite⟩ := alone_commitTransition surroundings.listing hRow
    (hSame ▸ hIds) (surroundings.clock 1)
  rw [checkInStop, serve_bind, alone_loadRoute hRow]
  show (∃ last, serve (liftM (before.checkInStop stop.id (surroundings.clock 0)) >>= _) tables =
    .ok (last, ())) ↔ _
  rw [serve_check, hCheckIn]
  show (∃ last, serve (commitTransition _ _ _ _ _ >>= _) tables = .ok (last, ())) ↔ _
  rw [serve_bind, hRewrite]
  show (∃ last, serve (markSaleDelivered checkIn.completedStop.saleId >>= _) tables =
    .ok (last, ())) ↔ _
  rw [hSale, serve_bind, alone_markSaleDelivered]
  cases hMarked : (tables.sales stop.saleId).any (Deliverable ·) with
  | true =>
      constructor
      · exact fun _ => any_eq_true hMarked
      · exact fun _ => ⟨_, rfl⟩
  | false =>
      constructor
      · rintro ⟨last, hServe⟩
        cases hSome : (tables.sales stop.saleId).isSome with
        | true =>
            rw [hSome] at hServe
            cases hServe
        | false =>
            rw [hSome] at hServe
            cases hServe
      · rintro ⟨sale, hFound, hDeliverable⟩
        simp [hFound, hDeliverable] at hMarked

/-! ### What a route accepts -/

/-- The requests that put a sale on a route. -/
def RouteRequest.Admits (request : RouteRequest) (routeId saleId : String) : Prop :=
  match request.command with
  | .create _ saleIds _ => request.surroundings.draw 0 = routeId ∧ saleId ∈ saleIds
  | .addStop existing added => existing = routeId ∧ added = saleId
  | .reorderStops _ _ | .transferStop _ _ _ _ | .update _ _ _ | .start _ | .cancel _
  | .checkInStop _ _ | .delete _ => False

/-- What the probe asks of a sale. -/
def Eligible (tables : Tables) (saleId : String) : Prop :=
  ∃ sale, tables.sales saleId = some sale ∧
    (sale.deliveryStatus = .pending ∨ sale.deliveryStatus = .shipped)

/-- What an admission leaves: a draft with a stop of the sale. -/
structure Admission (before after : Tables) (routeId saleId : String) : Prop where
  draft : ∃ row, after.routes routeId = .stored row ∧ row.status = .draft
  stop : ∃ stop ∈ after.stopsOf routeId, stop.saleId = saleId
  eligible : Eligible before saleId
  sales : after.sales = before.sales

theorem Saves.admission {route : DeliveryRoute} {saleId : String}
    (hSaved : Saves before route after) (hDraft : route.status = .draft)
    (hRoute : ∀ stop ∈ route.stops, stop.routeId = route.id)
    (hStop : ∃ stop ∈ route.stops, stop.saleId = saleId) (hEligible : Eligible before saleId) :
    Admission before after route.id saleId := by
  have hEffect := hSaved.effect
  refine ⟨⟨route.toRouteRow, ?_, hDraft⟩, ?_, hEligible, hEffect.sales⟩
  · rw [hEffect.routes, Function.update_self]
  · rw [hEffect.stopsOf_self hRoute]
    exact hStop

theorem eligible_of_ensure {saleId : String} {u : Unit}
    (h : ensureEligible saleId ((tables.sales saleId).map fun sale =>
      ⟨sale.deliveryStatus, sale.shippingStreet.isSome⟩) = .ok u) : Eligible tables saleId := by
  obtain ⟨found, hFound, hEligible⟩ := ensureEligible_eq_ok.mp h
  obtain ⟨sale, hSale, rfl⟩ := Option.map_eq_some_iff.mp hFound
  exact ⟨sale, hSale, hEligible.1⟩

/-- Every sale that a creation goes through gets its stop. -/
theorem stops_of_createStops {stopId : Nat → String} {index : Nat} {saleIds : List String}
    {stops : List DeliveryRouteStop}
    (h : (DeliveryRoute.createStops routeId stopId checkSaleEligibility index saleIds).alone
      tables = .ok stops) :
    (∀ stop ∈ stops, stop.routeId = routeId) ∧ ∀ saleId ∈ saleIds,
      Eligible tables saleId ∧ ∃ stop ∈ stops, stop.saleId = saleId := by
  induction saleIds generalizing index stops with
  | nil =>
      cases h
      simp
  | cons saleId rest ih =>
      simp only [DeliveryRoute.createStops, checkSaleEligibility, Tx.alone_bind, Tx.alone_query,
        Tx.alone_liftM, Tx.alone_pure, bind_eq_ok] at h
      obtain ⟨_, hProbe, _, hEnsure, stop, hStop, others, hOthers, hStops⟩ := h
      cases hProbe
      cases hStops
      obtain rfl := DeliveryRouteStop.create_eq_ok hStop
      obtain ⟨hRoutes, hEach⟩ := ih hOthers
      constructor
      · intro other hOther
        rcases List.mem_cons.mp hOther with rfl | hOther
        · rfl
        · exact hRoutes other hOther
      · intro other hOther
        rcases List.mem_cons.mp hOther with rfl | hOther
        · exact ⟨eligible_of_ensure hEnsure, _, List.mem_cons_self, rfl⟩
        · obtain ⟨hEligible, found, hFound, hSale⟩ := hEach other hOther
          exact ⟨hEligible, found, List.mem_cons_of_mem _ hFound, hSale⟩

theorem saves_of_alone {pending pending' : Pending} {route : DeliveryRoute}
    (h : (saveInTransaction pending route).alone before = .ok pending')
    (hWrite : pending' before = .ok after) :
    ∃ middle, pending before = .ok middle ∧ Saves middle route after := by
  simp only [saveInTransaction, Tx.alone_bind, Tx.alone_query, Tx.alone_liftM, Tx.alone_pure,
    bind_eq_ok] at h
  obtain ⟨_, _, _, _, _, _, hPending⟩ := h
  cases hPending
  obtain ⟨cleared, hCleared, hCreate⟩ := bind_eq_ok.mp hWrite
  obtain ⟨middle, hMiddle, hEq⟩ := bind_eq_ok.mp hCleared
  cases hEq
  exact ⟨middle, hMiddle, hCreate⟩

theorem stored_of_alone (h : RouteInv False tables) {routeIds : List String}
    {routes : List DeliveryRoute}
    (hAlone : (runWithRouteLocks listing routeIds).alone tables = .ok routes) :
    ∀ route ∈ routes, Stored tables route := by
  have hEnsures : (runWithRouteLocks listing routeIds).Ensures (routeProtection False)
      (RouteInv False) [] (fun _ => True) fun _ known routes =>
        known tables → ∀ route ∈ routes, Stored tables route := by
    apply ensures_runWithRouteLocks
    intro held known routes _ hRoutes hKnown
    exact (hRoutes tables hKnown).2
  obtain ⟨held, known, hKnown, hStored⟩ := hEnsures.alone h trivial hAlone
  exact hStored hKnown

theorem admission_of_serve (h : RouteInv False before) {request : RouteRequest}
    {saleId : String} (hAdmits : request.Admits routeId saleId)
    (hServe : serve request.body before = .ok (after, ())) :
    Admission before after routeId saleId := by
  obtain ⟨surroundings, command⟩ := request
  cases command with
  | create driverUserId saleIds notes =>
      obtain ⟨rfl, hIn⟩ := hAdmits
      have hServe : serve (createRoute surroundings driverUserId saleIds notes) before =
          .ok (after, ()) := hServe
      simp only [createRoute, serve_bind, DeliveryRoute.create, Tx.alone_bind, Tx.alone_liftM,
        Tx.alone_lockKey, Tx.alone_pure, serve_pure, bind_eq_ok, map_eq_ok] at hServe
      obtain ⟨route, ⟨_, _, stops, hStops, hRoute⟩, _, _, pending, hSave, later, hWrite, hEnd⟩ :=
        hServe
      cases hRoute
      cases hEnd
      obtain ⟨middle, hDrawn, hSaved⟩ := saves_of_alone hSave hWrite
      obtain ⟨hRoutes, hEach⟩ := stops_of_createStops hStops
      obtain ⟨hEligible, hStop⟩ := hEach saleId hIn
      split at hDrawn
      · cases hDrawn
        exact hSaved.admission rfl hRoutes hStop hEligible
      · cases hDrawn
  | addStop existing added =>
      obtain ⟨rfl, rfl⟩ := hAdmits
      have hServe : serve (addStop surroundings existing added) before = .ok (after, ()) := hServe
      simp only [addStop, serve_bind, DeliveryRoute.addStop, checkSaleEligibility, Tx.alone_bind,
        Tx.alone_liftM, Tx.alone_query, serve_pure, bind_eq_ok, map_eq_ok] at hServe
      obtain ⟨routes, hRoutes, current, hGet, next, ⟨_, hDraft, _, hProbe, _, hEnsure, hAppend⟩,
        pending, hSave, later, hWrite, hEnd⟩ := hServe
      cases hProbe
      cases hEnd
      obtain ⟨middle, hMiddle, hSaved⟩ := saves_of_alone hSave hWrite
      cases hMiddle
      obtain ⟨hMem, rfl⟩ := getRoute_eq_ok hGet
      have hStored := stored_of_alone h hRoutes current hMem
      have hDraft := DeliveryRoute.assertDraft_eq_ok.mp hDraft
      have hDrafts := draftStops_of_stored h.toConsistent hStored hDraft
      simp only [DeliveryRoute.appendStop, bind_eq_ok, pure_eq_ok] at hAppend
      obtain ⟨stop, hStop, rfl⟩ := hAppend
      obtain rfl := DeliveryRouteStop.create_eq_ok hStop
      refine hSaved.admission hDraft ?_ ?_ (eligible_of_ensure hEnsure)
      · intro other hOther
        rcases List.mem_append.mp hOther with hOld | hNew
        · exact (hDrafts.each other hOld).1
        · obtain rfl := List.mem_singleton.mp hNew
          rfl
      · exact ⟨_, List.mem_append_right _ List.mem_cons_self, rfl⟩
  | reorderStops _ _ => cases hAdmits
  | transferStop _ _ _ _ => cases hAdmits
  | update _ _ _ => cases hAdmits
  | start _ => cases hAdmits
  | cancel _ => cases hAdmits
  | checkInStop _ _ => cases hAdmits
  | delete _ => cases hAdmits

theorem RouteChange.deliverable (hChange : RouteChange ticks before after) {saleId : String}
    (h : ∃ sale, before.sales saleId = some sale ∧ Deliverable sale) :
    ∃ sale, after.sales saleId = some sale ∧ Deliverable sale := by
  obtain ⟨sale, hSale, hConfirmed, hStatus⟩ := h
  cases hChange with
  | created hUnused hDraft hStops hSaved =>
      exact ⟨sale, by rw [hSaved.effect.sales, hSale], hConfirmed, hStatus⟩
  | redrafted hStored hNext hSaved =>
      exact ⟨sale, by rw [hSaved.effect.sales, hSale], hConfirmed, hStatus⟩
  | resaved hStored hSaved =>
      exact ⟨sale, by rw [hSaved.effect.sales, hSale], hConfirmed, hStatus⟩
  | deleted hStored hDraft hEmpty => exact ⟨sale, hSale, hConfirmed, hStatus⟩
  | cancelled hStored hOpen hNext hStop hReleased => exact ⟨sale, hSale, hConfirmed, hStatus⟩
  | @checkedIn routeId stopId delivered =>
      by_cases hSame : saleId = delivered
      · subst hSame
        exact ⟨{ sale with deliveryStatus := .delivered }, by simp [Tables.deliver, Rewrite.apply,
          hSale], hConfirmed, Or.inr (Or.inr rfl)⟩
      · exact ⟨sale, by simp [Tables.deliver, Rewrite.apply, Function.update_of_ne hSame, hSale],
          hConfirmed, hStatus⟩

theorem deliverable_of_changes {saleId : String}
    (h : ∃ sale, before.sales saleId = some sale ∧ Deliverable sale)
    (hChanges : Relation.ReflTransGen (RouteChange ticks) before after) :
    ∃ sale, after.sales saleId = some sale ∧ Deliverable sale := by
  induction hChanges with
  | refl => exact h
  | tail prior last ih => exact last.deliverable ih

end

/-- The route can be started and the stop of the sale checked in, and whatever the routes do from
here on, an open stop of the sale on a started route can be checked in. -/
structure Delivers (Tid : Type) [DecidableEq Tid] (start checkIn : Surroundings) (after : Tables)
    (routeId saleId : String) : Prop where
  delivered : ∃ stop ∈ after.stopsOf routeId, stop.saleId = saleId ∧ ∃ started last,
    serve (startRoute start routeId) after = .ok (started, ()) ∧
      serve (checkInStop checkIn routeId stop.id) started = .ok (last, ())
  onward : ∀ (events : List (RouteEvent Tid)) later,
    Transition.Runs (Step RouteBody) (System.idle after) events later →
      ∀ id row, later.tables.routes id = .stored row → row.status = .active →
        ∀ stop ∈ later.tables.stopsOf id, stop.saleId = saleId → stop.status = .pending →
          ∃ last, serve (checkInStop checkIn id stop.id) later.tables = .ok (last, ())

/-- A sale that was accepted can be delivered exactly when it was confirmed. -/
theorem delivers_iff_confirmed {Tid : Type} [DecidableEq Tid]
    {sales : String → Option RoutedSale} {events : List (RouteEvent Tid)}
    {system : RouteSystem Tid}
    (run : Transition.Runs (Step RouteBody) (System.idle (Tables.opened sales)) events system)
    {request : RouteRequest} {routeId saleId : String} {after : Tables}
    (hAdmits : request.Admits routeId saleId)
    (hServe : serve request.body system.tables = .ok (after, ())) (start checkIn : Surroundings) :
    Delivers Tid start checkIn after routeId saleId ↔
      ∃ sale, system.tables.sales saleId = some sale ∧ sale.status = .confirmed := by
  have hInv := (routeReached_of_runs run).inv
  have hAfter := hInv.changes (changes_of_serve hInv ⟨request, rfl⟩ hServe)
  obtain ⟨⟨row, hRow, hDraft⟩, ⟨stop, hStop, hSale⟩, hEligible, hSales⟩ :=
    admission_of_serve hInv hAdmits hServe
  have hSome : after.stopsOf routeId ≠ [] := List.ne_nil_of_mem hStop
  obtain ⟨started, hStart, ⟨next, hNext, hActive⟩, hPerm, hSame⟩ :=
    serve_startRoute hAfter.toConsistent hRow hDraft hSome start
  have hStarted := hAfter.changes
    (changes_of_serve hAfter ⟨⟨start, .start routeId⟩, rfl⟩ hStart)
  have hCheckIn : ∀ found ∈ after.stopsOf routeId,
      (∃ last, serve (checkInStop checkIn routeId found.id) started = .ok (last, ())) ↔
        ∃ sale, system.tables.sales found.saleId = some sale ∧ Deliverable sale := by
    intro found hFound
    obtain ⟨hMem, hRoute⟩ := mem_stopsOf.mp hFound
    obtain ⟨own, hOwn, hFoundInv⟩ := hAfter.stops found hMem
    rw [hRoute, hRow] at hOwn
    cases hOwn
    rw [serve_checkInStop_iff hStarted.toConsistent hNext hActive (hPerm.mem_iff.mpr hFound)
      (hFoundInv.pending hDraft), hSame, hSales]
  constructor
  · rintro ⟨⟨found, hFound, rfl, started', last, hStart', hLast⟩, _⟩
    rw [hStart] at hStart'
    cases hStart'
    obtain ⟨sale, hSale, hConfirmed, _⟩ := (hCheckIn found hFound).mp ⟨last, hLast⟩
    exact ⟨sale, hSale, hConfirmed⟩
  · rintro ⟨sale, hFound, hConfirmed⟩
    have hDeliverable : ∃ sale, system.tables.sales saleId = some sale ∧ Deliverable sale := by
      obtain ⟨probed, hProbed, hWaiting⟩ := hEligible
      rw [hFound] at hProbed
      cases hProbed
      exact ⟨sale, hFound, hConfirmed, hWaiting.imp_right Or.inl⟩
    constructor
    · obtain ⟨last, hLast⟩ := (hCheckIn stop hStop).mpr (hSale ▸ hDeliverable)
      exact ⟨stop, hStop, hSale, started, last, hStart, hLast⟩
    · intro more later onward id row' hRow' hActive' open_ hOpen hOpenSale hPending
      have hIdle : RouteReached False (System.idle after : RouteSystem Tid) :=
        ⟨System.each_idle _ _, hAfter⟩
      obtain ⟨hLater, hChanges⟩ := hIdle.runs_anytime onward
      rw [serve_checkInStop_iff hLater.inv.toConsistent hRow' hActive' hOpen hPending, hOpenSale]
      exact deliverable_of_changes (hSales ▸ hDeliverable) hChanges

/-! ### A sale that was cancelled -/

def draftOfA : TimedCommand := ⟨1, ["route", "a"], .create "driver" ["sale-a"] none⟩

def addB : TimedCommand := ⟨2, ["b"], .addStop "route" "sale-b"⟩

theorem plays_addB :
    (((Stage.empty (Tables.opened waitingSales)).plays TimedCommand.body (fun _ _ => true)
        (Move.times false draftOfA 9)).bind fun (stage : RouteStage) =>
      (serve addB.body stage.tables).toOption.map fun _ => true) = some true := by
  decide +kernel

theorem delivers_iff_confirmed_of_addB :
    ∃ (events : List (RouteEvent Bool)) (stage : RouteStage) (after : Tables),
    Transition.Runs (Step RouteBody) (System.idle (Tables.opened waitingSales)) events
      (stage.system TimedCommand.body) ∧
    serve addB.body stage.tables = .ok (after, ()) ∧ ∀ start checkIn,
      (Delivers Bool start checkIn after "route" "sale-b" ↔
        ∃ sale, stage.tables.sales "sale-b" = some sale ∧ sale.status = .confirmed) := by
  obtain ⟨stage, hStage, hServed⟩ := Option.bind_eq_some_iff.mp plays_addB
  obtain ⟨events, run⟩ := runs_of_plays routeBody_timed passes_always hStage
  have hAdmits : addB.request.Admits "route" "sale-b" := ⟨rfl, rfl⟩
  cases hServe : serve addB.body stage.tables with
  | error failure =>
      rw [hServe] at hServed
      cases hServed
  | ok served =>
      exact ⟨events, stage, served.1, run.of_guarded, hServe, fun start checkIn =>
        delivers_iff_confirmed run.of_guarded hAdmits hServe start checkIn⟩

/-- A cancellation leaves the delivery status and the address of the sale. -/
def cancelledSales (_ : String) : Option RoutedSale :=
  some ⟨.canceled, .pending, some "Main street"⟩

/-- The surroundings of whoever starts the route and checks its stops in. -/
def onTheRoad : Surroundings := ⟨fun _ => 2, fun _ => "", .filed⟩

theorem serve_draftOfA_cancelled :
    ((serve draftOfA.body (Tables.opened cancelledSales)).toOption.map fun served =>
      (served.1.stopsOf "route").all fun stop =>
        (serve (startRoute onTheRoad "route") served.1).toOption.all fun started =>
          (serve (checkInStop onTheRoad "route" stop.id) started.1).toOption.isNone) =
      some true := by
  decide +kernel

/-- The cancelled sale is accepted, and its stop cannot be checked in. -/
theorem not_delivers_of_cancelled : draftOfA.request.Admits "route" "sale-a" ∧
    ∃ after, serve draftOfA.body (Tables.opened cancelledSales) = .ok (after, ()) ∧
      ¬ Delivers Bool onTheRoad onTheRoad after "route" "sale-a" := by
  refine ⟨⟨rfl, List.mem_cons_self⟩, ?_⟩
  obtain ⟨served, hServed, hNone⟩ := Option.map_eq_some_iff.mp serve_draftOfA_cancelled
  cases hServe : serve draftOfA.body (Tables.opened cancelledSales) with
  | error failure =>
      rw [hServe] at hServed
      cases hServed
  | ok found =>
      rw [hServe] at hServed
      obtain rfl : found = served := Option.some.inj hServed
      refine ⟨found.1, rfl, ?_⟩
      rintro ⟨⟨stop, hStop, _, started, last, hStart, hLast⟩, _⟩
      have hStuck := List.all_eq_true.mp hNone stop hStop
      rw [hStart] at hStuck
      have hStuck : (serve (checkInStop onTheRoad "route" stop.id) started).toOption.isNone =
          true := hStuck
      rw [hLast] at hStuck
      cases hStuck

end Houndfe.DeliveryRoutes
