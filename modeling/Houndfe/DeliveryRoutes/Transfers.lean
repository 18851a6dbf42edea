import Houndfe.DeliveryRoutes.Deliverable

/-! A stop that is moved from one draft to another. The origin is numbered anew by the order in
which its stops were loaded, and the order of its visits is that of the numbers. -/

namespace Houndfe.DeliveryRoutes

open Transactions

/-- The stops of a route in the order of their visits. -/
def Tables.visits (tables : Tables) (routeId : String) : List DeliveryRouteStop :=
  Keyed.sortByKey (·.sortOrder) (tables.stopsOf routeId)

/-- What a visit is about. -/
def DeliveryRouteStop.visit (stop : DeliveryRouteStop) : String × String :=
  (stop.id, stop.saleId)

/-- The stop leaves the origin and is the last visit of the destination; the other visits keep
their order, and nothing else changes. -/
structure Transfers (before after : Tables) (routeId stopId destinationRouteId : String) :
    Prop where
  origin : (after.visits routeId).map (·.visit) =
    ((before.visits routeId).filter (·.id ≠ stopId)).map (·.visit)
  destination : ∃ moved ∈ before.stopsOf routeId, moved.id = stopId ∧
    (after.visits destinationRouteId).map (·.visit) =
      (before.visits destinationRouteId).map (·.visit) ++ [moved.visit]
  numbered : ∀ id ∈ [routeId, destinationRouteId],
    (after.visits id).map (·.sortOrder) = List.range (after.visits id).length
  sales : (after.stopsOf routeId ++ after.stopsOf destinationRouteId).map (·.saleId) |>.Perm
    ((before.stopsOf routeId ++ before.stopsOf destinationRouteId).map (·.saleId))
  elsewhere : ∀ id, id ≠ routeId → id ≠ destinationRouteId →
    after.routes id = before.routes id ∧ after.stopsOf id = before.stopsOf id

/-- What is stored after a request that runs alone; a request that fails is rolled back. -/
def settled (body : RouteTx RouteEnding) (tables : Tables) : Tables :=
  match serve body tables with
  | .ok (after, ()) => after
  | .error _ => tables

/-- The stops that stay on the origin are loaded in the order of their visits. -/
def LoadedInOrder (listing : Listing) (tables : Tables) (routeId stopId : String) : Prop :=
  ((listing.order (tables.stopsOf routeId)).filter (·.id ≠ stopId)).Pairwise
    fun first second => first.sortOrder < second.sortOrder

section

variable {tables before after : Tables} {listing : Listing} {ticks : Prop}
  {routeId stopId destinationRouteId : String}

/-! ### Visits -/

theorem visits_eq {stops : List DeliveryRouteStop} (hPerm : (tables.stopsOf routeId).Perm stops)
    (hSorted : stops.Pairwise fun first second => first.sortOrder < second.sortOrder) :
    tables.visits routeId = stops := by
  have hKeys : ((tables.stopsOf routeId).map (·.sortOrder)).Nodup :=
    (hPerm.map _).nodup_iff.mpr (List.pairwise_map.mpr (hSorted.imp Nat.ne_of_lt))
  rw [Tables.visits, Keyed.sortByKey_eq_of_perm hKeys hPerm]
  exact (hSorted.imp Nat.le_of_lt).insertionSort_eq

theorem visits_perm : (tables.visits routeId).Perm (tables.stopsOf routeId) :=
  Keyed.sortByKey_perm _ _

theorem Numbered.nodup {stops : List DeliveryRouteStop} (h : Numbered stops) :
    (stops.map (·.sortOrder)).Nodup :=
  h.nodup_iff.mpr List.nodup_range

/-- Stops that are numbered are visited one after the other. -/
theorem sorted_visits (h : Numbered (tables.stopsOf routeId)) :
    (tables.visits routeId).Pairwise fun first second => first.sortOrder < second.sortOrder := by
  have hApart : ((tables.visits routeId).map (·.sortOrder)).Nodup :=
    (visits_perm.map _).nodup_iff.mpr h.nodup
  have hPairs := (Keyed.pairwise_sortByKey (fun stop : DeliveryRouteStop => stop.sortOrder)
    (tables.stopsOf routeId)).and (List.pairwise_map.mp hApart)
  exact hPairs.imp fun hBoth => lt_of_le_of_ne hBoth.1 hBoth.2

theorem numbered_visits (h : Numbered (tables.stopsOf routeId)) :
    (tables.visits routeId).map (·.sortOrder) = List.range (tables.visits routeId).length := by
  have hPerm : ((tables.visits routeId).map (·.sortOrder)).Perm
      (List.range (tables.visits routeId).length) := by
    rw [visits_perm.length_eq]
    exact (visits_perm.map _).trans h
  exact hPerm.eq_of_pairwise' (r := (· < ·)) (List.pairwise_map.mpr (sorted_visits h))
    List.pairwise_lt_range

theorem sorted_renumber (stops : List DeliveryRouteStop) :
    (DeliveryRoute.renumber stops).Pairwise fun first second =>
      first.sortOrder < second.sortOrder := by
  rw [← List.pairwise_map (f := fun stop : DeliveryRouteStop => stop.sortOrder)
    (R := fun first second => first < second), DeliveryRoute.map_sortOrder_renumber]
  exact List.pairwise_lt_range

theorem map_visit_renumber (stops : List DeliveryRouteStop) :
    (DeliveryRoute.renumber stops).map (·.visit) = stops.map (·.visit) := by
  rw [DeliveryRoute.renumber, List.map_map]
  show stops.zipIdx.map ((fun stop => stop.visit) ∘ Prod.fst) = _
  rw [← List.map_map, List.zipIdx_map_fst]

theorem map_saleId_renumber (stops : List DeliveryRouteStop) :
    (DeliveryRoute.renumber stops).map (·.saleId) = stops.map (·.saleId) := by
  simpa [Function.comp_def, DeliveryRouteStop.visit] using
    congrArg (List.map Prod.snd) (map_visit_renumber stops)

theorem sorted_append {stop : DeliveryRouteStop} (h : Numbered (tables.stopsOf routeId))
    (hOrder : stop.sortOrder = (tables.stopsOf routeId).length) :
    (tables.visits routeId ++ [stop]).Pairwise fun first second =>
      first.sortOrder < second.sortOrder := by
  rw [List.pairwise_append]
  refine ⟨sorted_visits h, List.pairwise_singleton _ _, ?_⟩
  intro other hOther last hLast
  obtain rfl := List.mem_singleton.mp hLast
  have hIn := h.subset (List.mem_map_of_mem (visits_perm.mem_iff.mp hOther))
  rw [hOrder]
  exact List.mem_range.mp hIn

/-- Lists of the same stops with the same visits are the same. -/
theorem eq_of_visits {first second : List DeliveryRouteStop} (hPerm : first.Perm second)
    (hIds : (first.map (·.id)).Nodup) (hVisits : first.map (·.visit) = second.map (·.visit)) :
    first = second := by
  apply List.ext_getElem hPerm.length_eq
  intro index hFirst hSecond
  apply eq_of_id hIds (List.getElem_mem hFirst) (hPerm.mem_iff.mpr (List.getElem_mem hSecond))
  have hThere := List.getElem_of_eq hVisits (i := index) (by simpa using hFirst)
  rw [List.getElem_map, List.getElem_map] at hThere
  exact congrArg Prod.fst hThere

/-! ### The locked routes -/

theorem loaded_of_alone (h : Consistent ticks tables) {routeIds : List String}
    {routes : List DeliveryRoute}
    (hAlone : (loadRoutes listing routeIds).alone tables = .ok routes) :
    ∀ route ∈ routes, tables.routes route.id = .stored route.toRouteRow ∧
      route.stops = listing.order (tables.stopsOf route.id) := by
  induction routeIds generalizing routes with
  | nil =>
      cases hAlone
      simp
  | cons routeId rest ih =>
      rw [loadRoutes, Tx.alone_bind] at hAlone
      obtain ⟨loaded, hLoad, hAlone⟩ := bind_eq_ok.mp hAlone
      cases hSlot : tables.findRoute routeId with
      | none =>
          rw [loadRoute, Tx.alone_bind, Tx.alone_query, hSlot] at hLoad
          cases hLoad
          cases hAlone
      | some row =>
          have hRow := findRoute_eq_some.mp hSlot
          obtain rfl := h.filed routeId row hRow
          rw [alone_loadRoute hRow] at hLoad
          cases hLoad
          rw [Tx.alone_bind] at hAlone
          obtain ⟨others, hOthers, hRoutes⟩ := bind_eq_ok.mp hAlone
          cases hRoutes
          intro route hRoute
          rcases List.mem_cons.mp hRoute with rfl | hOther
          · exact ⟨hRow, rfl⟩
          · exact ih hOthers route hOther

theorem loaded_of_locks (h : Consistent ticks tables) {routeIds : List String}
    {routes : List DeliveryRoute}
    (hAlone : (runWithRouteLocks listing routeIds).alone tables = .ok routes) :
    ∀ route ∈ routes, tables.routes route.id = .stored route.toRouteRow ∧
      route.stops = listing.order (tables.stopsOf route.id) := by
  rw [runWithRouteLocks, Tx.alone_bind] at hAlone
  obtain ⟨missing, _, hAlone⟩ := bind_eq_ok.mp hAlone
  split at hAlone
  · cases hAlone
  · exact loaded_of_alone h hAlone

theorem eraseP_id {stops : List DeliveryRouteStop} (hIds : (stops.map (·.id)).Nodup) :
    stops.eraseP (·.id = stopId) = stops.filter (·.id ≠ stopId) := by
  induction stops with
  | nil => rfl
  | cons stop rest ih =>
      obtain ⟨hNew, hRest⟩ := List.nodup_cons.mp hIds
      by_cases hId : stop.id = stopId
      · have hSelf : rest.filter (·.id ≠ stopId) = rest := by
          rw [List.filter_eq_self]
          intro other hOther
          simp only [ne_eq, decide_not, Bool.not_eq_true', decide_eq_false_iff_not]
          exact fun hSame => hNew (List.mem_map.mpr ⟨other, hOther, hSame.trans hId.symm⟩)
        rw [List.eraseP_cons_of_pos (by simpa using hId),
          List.filter_cons_of_neg (by simpa using hId), hSelf]
      · simpa [List.eraseP_cons, hId] using ih hRest

theorem perm_cons_rest {stops : List DeliveryRouteStop} {moved : DeliveryRouteStop}
    (hIds : (stops.map (·.id)).Nodup) (hMem : moved ∈ stops) (hId : moved.id = stopId) :
    stops.Perm (moved :: stops.filter (·.id ≠ stopId)) := by
  obtain ⟨found, left, right, _, hFound, hSplit, hRest⟩ :=
    List.exists_of_eraseP (p := fun stop => decide (stop.id = stopId)) hMem (by simpa using hId)
  have hSame : found = moved := by
    apply eq_of_id hIds (hSplit ▸ List.mem_append_right _ List.mem_cons_self) hMem
    rw [hId, of_decide_eq_true hFound]
  rw [← eraseP_id hIds, hRest, hSplit, hSame]
  exact List.perm_middle

theorem transferStopTo_stops {origin destination : DeliveryRoute} {now : Int}
    {next : DeliveryRoute × DeliveryRoute} (hIds : (origin.stops.map (·.id)).Nodup)
    (h : origin.transferStopTo stopId destination now = .ok next) :
    next.1.stops = DeliveryRoute.renumber (origin.stops.filter (·.id ≠ stopId)) ∧
      ∃ moved relocated : DeliveryRouteStop,
        (moved ∈ origin.stops ∧ moved.id = stopId ∧ relocated.visit = moved.visit) ∧
        relocated.sortOrder = destination.stops.length ∧
        next.2.stops = destination.stops ++ [relocated] := by
  simp only [DeliveryRoute.transferStopTo, bind_eq_ok] at h
  obtain ⟨_, _, _, _, _, _, h⟩ := h
  split at h
  · cases h
  · next moved hFind =>
      simp only [bind_eq_ok, pure_eq_ok, DeliveryRouteStop.relocateTo] at h
      obtain ⟨_, _, _, ⟨_, _, rfl⟩, rfl⟩ := h
      have hId : moved.id = stopId := by simpa using List.find?_some hFind
      exact ⟨congrArg DeliveryRoute.renumber (eraseP_id hIds), moved,
        ⟨moved.id, destination.id, moved.saleId, destination.stops.length, .pending, none, none,
          some destination.id⟩, ⟨List.mem_of_find?_eq_some hFind, hId, rfl⟩, rfl, rfl⟩

/-- What a transfer that was accepted stored: the rest of the origin as it was loaded, numbered
anew, and the destination with the stop at its end. -/
theorem stops_of_transfer (h : RouteInv False before) {surroundings : Surroundings}
    {can : String → Bool}
    (hServe : serve (transferStop surroundings can routeId stopId destinationRouteId) before =
      .ok (after, ())) :
    destinationRouteId ≠ routeId ∧ ∃ moved relocated : DeliveryRouteStop,
      (moved ∈ before.stopsOf routeId ∧ moved.id = stopId ∧ relocated.visit = moved.visit) ∧
      relocated.sortOrder = (before.stopsOf destinationRouteId).length ∧
      after.stopsOf routeId = DeliveryRoute.renumber
        ((surroundings.listing.order (before.stopsOf routeId)).filter (·.id ≠ stopId)) ∧
      after.stopsOf destinationRouteId =
        surroundings.listing.order (before.stopsOf destinationRouteId) ++ [relocated] ∧
      ∀ id, id ≠ routeId → id ≠ destinationRouteId →
        after.routes id = before.routes id ∧ after.stopsOf id = before.stopsOf id := by
  simp only [transferStop, serve_bind, Tx.alone_liftM, serve_pure, bind_eq_ok, map_eq_ok] at hServe
  obtain ⟨routes, hRoutes, origin, hOrigin, destination, hDestination, _, _, _, _, next, hMoved,
    first, hFirst, second, hSecond, later, hWrite, hEnd⟩ := hServe
  cases hEnd
  obtain ⟨hIn, rfl⟩ := getRoute_eq_ok hOrigin
  obtain ⟨hIn', rfl⟩ := getRoute_eq_ok hDestination
  obtain ⟨hRow, hStops⟩ := loaded_of_locks h.toConsistent hRoutes origin hIn
  obtain ⟨hRow', hStops'⟩ := loaded_of_locks h.toConsistent hRoutes destination hIn'
  obtain ⟨hOther, ⟨hNext, _⟩, hNext', _⟩ := DeliveryRoute.transferStopTo_redraft hMoved
  obtain ⟨middle, hMiddle, hSaved'⟩ := saves_of_alone hSecond hWrite
  obtain ⟨start, hStart, hSaved⟩ := saves_of_alone hFirst hMiddle
  cases hStart
  have hPerm := surroundings.listing.perm (before.stopsOf origin.id)
  have hStored : Stored before origin := ⟨hRow, hStops ▸ hPerm⟩
  have hStored' : Stored before destination :=
    ⟨hRow', hStops' ▸ surroundings.listing.perm (before.stopsOf destination.id)⟩
  have hDraft := hNext.stops (draftStops_of_stored h.toConsistent hStored hNext.draft)
  have hDraft' := hNext'.stops (draftStops_of_stored h.toConsistent hStored' hNext'.draft)
  have hOwn : ∀ stop ∈ next.1.stops, stop.routeId = next.1.id := fun stop hStop =>
    hNext.id ▸ (hDraft.each stop hStop).1
  have hOwn' : ∀ stop ∈ next.2.stops, stop.routeId = next.2.id := fun stop hStop =>
    hNext'.id ▸ (hDraft'.each stop hStop).1
  have hIds : (origin.stops.map (·.id)).Nodup := by
    rw [hStops, (hPerm.map _).nodup_iff]
    exact (checkStopKeys_eq_ok.mp h.keys).1.sublist (List.filter_sublist.map _)
  obtain ⟨hRest, moved, relocated, ⟨hMem, hId, hVisit⟩, hOrder, hLast⟩ :=
    transferStopTo_stops hIds hMoved
  have hApart : origin.id ≠ next.2.id := hNext'.id ▸ hOther.symm
  refine ⟨hOther, moved, relocated, ⟨?_, hId, hVisit⟩, ?_, ?_, ?_, ?_⟩
  · exact hPerm.mem_iff.mp (hStops ▸ hMem)
  · rw [hOrder, hStops', (surroundings.listing.perm _).length_eq]
  · rw [hSaved'.effect.stopsOf_of_ne hOwn' hApart, ← hNext.id, hSaved.effect.stopsOf_self hOwn,
      hRest, hStops, hNext.id]
  · have hThere := hSaved'.effect.stopsOf_self hOwn'
    rw [hNext'.id, hLast, hStops'] at hThere
    exact hThere
  · intro id hFirst hSecond
    have hFirst' : id ≠ next.1.id := hNext.id ▸ hFirst
    have hSecond' : id ≠ next.2.id := hNext'.id ▸ hSecond
    constructor
    · rw [hSaved'.effect.routes, Function.update_of_ne hSecond', hSaved.effect.routes,
        Function.update_of_ne hFirst']
    · rw [hSaved'.effect.stopsOf_of_ne hOwn' hSecond', hSaved.effect.stopsOf_of_ne hOwn hFirst']

/-- A transfer that was accepted disturbs no visit exactly when the stops that stay on the origin
were loaded in the order of their visits; one that was rejected changes nothing. -/
theorem transfers_iff_loaded_in_order {Tid : Type} [DecidableEq Tid]
    {sales : String → Option RoutedSale} {events : List (RouteEvent Tid)}
    {system : RouteSystem Tid}
    (run : Transition.Runs (Step RouteBody) (System.idle (Tables.opened sales)) events system)
    (surroundings : Surroundings) (can : String → Bool)
    (routeId stopId destinationRouteId : String) :
    match serve (transferStop surroundings can routeId stopId destinationRouteId)
      system.tables with
    | .ok (after, ()) =>
        Transfers system.tables after routeId stopId destinationRouteId ↔
          LoadedInOrder surroundings.listing system.tables routeId stopId
    | .error _ =>
        settled (transferStop surroundings can routeId stopId destinationRouteId) system.tables =
          system.tables := by
  have hInv := (routeReached_of_runs run).inv
  cases hServe : serve (transferStop surroundings can routeId stopId destinationRouteId)
      system.tables with
  | error failure => simp [settled, hServe]
  | ok served =>
      obtain ⟨after, _⟩ := served
      dsimp only
      obtain ⟨_, moved, relocated, ⟨hMem, hId, hVisit⟩, hOrder, hRest, hLast, hElsewhere⟩ :=
        stops_of_transfer hInv hServe
      have hPerm := surroundings.listing.perm (system.tables.stopsOf routeId)
      have hPerm' := surroundings.listing.perm (system.tables.stopsOf destinationRouteId)
      -- The origin is visited in the order in which its stops were loaded.
      have hOrigin : (after.visits routeId).map (·.visit) = ((surroundings.listing.order
          (system.tables.stopsOf routeId)).filter (·.id ≠ stopId)).map (·.visit) := by
        rw [visits_eq (.of_eq hRest) (sorted_renumber _), map_visit_renumber]
      have hIds : ((surroundings.listing.order (system.tables.stopsOf routeId)).map
          (·.id)).Nodup :=
        (hPerm.map _).nodup_iff.mpr
          ((checkStopKeys_eq_ok.mp hInv.keys).1.sublist (List.filter_sublist.map _))
      have hStay := (hPerm.trans visits_perm.symm).filter fun stop => decide (stop.id ≠ stopId)
      constructor
      · intro hTransfers
        have hSame := hOrigin.symm.trans hTransfers.origin
        rw [LoadedInOrder, eq_of_visits hStay
          (hIds.sublist (List.filter_sublist.map _)) hSame]
        exact (sorted_visits (hInv.numbered routeId)).filter _
      · intro hLoaded
        have hSorted := (sorted_visits (hInv.numbered routeId)).filter
          fun stop => decide (stop.id ≠ stopId)
        have hAppended := sorted_append (hInv.numbered destinationRouteId) hOrder
        have hThere : after.visits destinationRouteId =
            system.tables.visits destinationRouteId ++ [relocated] := by
          apply visits_eq _ hAppended
          rw [hLast]
          exact (hPerm'.trans visits_perm.symm).append_right _
        have hVisits : after.visits routeId = DeliveryRoute.renumber ((surroundings.listing.order
            (system.tables.stopsOf routeId)).filter (·.id ≠ stopId)) :=
          visits_eq (.of_eq hRest) (sorted_renumber _)
        constructor
        case origin =>
          rw [hOrigin, hStay.eq_of_pairwise
            (fun _ _ _ _ hLess hMore => absurd hLess (Nat.lt_asymm hMore)) hLoaded hSorted]
        case destination => exact ⟨moved, hMem, hId, by simp [hThere, hVisit]⟩
        case numbered =>
          intro id hRoute
          rcases List.mem_pair.mp hRoute with rfl | rfl
          · rw [hVisits, DeliveryRoute.map_sortOrder_renumber]
          · rw [hThere, List.map_append, numbered_visits (hInv.numbered id), List.length_append,
              List.length_singleton, List.range_succ, visits_perm.length_eq, List.map_singleton,
              hOrder]
        case sales =>
          have hSale : relocated.saleId = moved.saleId := congrArg Prod.snd hVisit
          have hOrigins := ((perm_cons_rest hIds (hPerm.mem_iff.mpr hMem) hId).symm.trans
            hPerm).map (·.saleId)
          rw [hRest, hLast, List.map_append, map_saleId_renumber, List.map_append, List.map_append,
            List.map_singleton, hSale, ← List.append_assoc]
          exact (List.perm_append_singleton _ _).trans (hOrigins.append (hPerm'.map _))
        case elsewhere => exact hElsewhere

end

/-! ### A stop that leaves three -/

theorem serve_settled {body : RouteTx RouteEnding} {tables : Tables}
    (h : (serve body tables).toOption.isSome = true) :
    serve body tables = .ok (settled body tables, ()) := by
  cases hServe : serve body tables with
  | error failure =>
      rw [hServe] at h
      cases h
  | ok served => simp [settled, hServe]

theorem runs_settled {body : RouteTx RouteEnding} {tables : Tables} (hBody : RouteBody body)
    (h : (serve body tables).toOption.isSome = true) : ∃ events : List (RouteEvent Bool),
    Transition.Runs (Step RouteBody) (System.idle tables) events
      (System.idle (settled body tables)) := by
  have hServed : ∃ events, Transition.Runs
      (Transition.Guarded (Step RouteBody) (OnCommit fun _ _ => True))
      (System.idle tables : RouteSystem Bool) events (System.idle (settled body tables)) ∧
        commits events = [(body, ())] :=
    runs_of_serve true hBody trivial (serve_settled h)
  obtain ⟨events, run, _⟩ := hServed
  exact ⟨events, run.of_guarded⟩

def draftOfThree : TimedCommand where
  instant := 1
  ids := ["r", "a", "b", "c"]
  command := .create "driver" ["sale-a", "sale-b", "sale-c"] none

def draftOfD : TimedCommand := ⟨2, ["q", "d"], .create "driver" ["sale-d"] none⟩

def twoDrafts : Tables :=
  settled draftOfD.body (settled draftOfThree.body (Tables.opened waitingSales))

theorem runs_twoDrafts : ∃ events : List (RouteEvent Bool),
    Transition.Runs (Step RouteBody) (System.idle (Tables.opened waitingSales)) events
      (System.idle twoDrafts) := by
  have hThree : (serve draftOfThree.body (Tables.opened waitingSales)).toOption.isSome = true := by
    decide +kernel
  have hD : (serve draftOfD.body (settled draftOfThree.body
      (Tables.opened waitingSales))).toOption.isSome = true := by
    decide +kernel
  obtain ⟨first, run⟩ := runs_settled (routeBody_timed draftOfThree) hThree
  obtain ⟨second, run'⟩ := runs_settled (routeBody_timed draftOfD) hD
  exact ⟨first ++ second, run.trans run'⟩

def Listing.reversed : Listing := ⟨List.reverse, List.reverse_perm⟩

/-- The first stop of three goes to the other draft. -/
def moveA (listing : Listing) : RouteTx RouteEnding :=
  transferStop ⟨fun _ => 3, fun _ => "", listing⟩ (fun _ => true) "r" "a" "q"

/-- The two others keep their order when they are loaded in it. -/
theorem transfers_iff_loaded_in_order_of_filed :
    Transfers twoDrafts (settled (moveA .filed) twoDrafts) "r" "a" "q" := by
  obtain ⟨events, run⟩ := runs_twoDrafts
  have hServe : serve (moveA .filed) twoDrafts = .ok (settled (moveA .filed) twoDrafts, ()) :=
    serve_settled (by decide +kernel)
  have hIff := transfers_iff_loaded_in_order run ⟨fun _ => 3, fun _ => "", .filed⟩
    (fun _ => true) "r" "a" "q"
  rw [show serve (transferStop ⟨fun _ => 3, fun _ => "", .filed⟩ (fun _ => true) "r" "a" "q")
    (System.idle twoDrafts : RouteSystem Bool).tables = _ from hServe] at hIff
  refine hIff.mpr ?_
  unfold LoadedInOrder
  decide +kernel

/-- They are visited the other way round when they are loaded so. -/
theorem not_transfers_of_reversed : ∃ events : List (RouteEvent Bool),
    Transition.Runs (Step RouteBody) (System.idle (Tables.opened waitingSales)) events
      (System.idle twoDrafts) ∧
    serve (moveA .reversed) twoDrafts = .ok (settled (moveA .reversed) twoDrafts, ()) ∧
    ¬ Transfers twoDrafts (settled (moveA .reversed) twoDrafts) "r" "a" "q" := by
  obtain ⟨events, run⟩ := runs_twoDrafts
  refine ⟨events, run, serve_settled (by decide +kernel), fun hTransfers => ?_⟩
  have hOther : ((settled (moveA .reversed) twoDrafts).visits "r").map (·.visit) ≠
      ((twoDrafts.visits "r").filter (·.id ≠ "a")).map (·.visit) := by
    decide +kernel
  exact hOther hTransfers.origin

end Houndfe.DeliveryRoutes
