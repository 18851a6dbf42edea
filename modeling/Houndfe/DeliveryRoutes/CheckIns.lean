import Houndfe.Base.Schedules
import Houndfe.DeliveryRoutes.Commits

/-! What a check-in leaves for good: a completed stop stays completed, its sale is delivered and
its customer is thanked once, and the stop it announces next was still to come. All of it rests
on the compare-and-set telling the stored version of a route from an older one, which it does
where no two changes of a route share a millisecond. -/

namespace Houndfe.DeliveryRoutes

open Transactions

/-- The stop that a row announces as the next one. -/
def OutboxRow.Names (stopId : String) : OutboxRow → Prop
  | .nextStop _ _ nextStopId _ => nextStopId = stopId
  | .thankYou _ _ _ => False

instance (stopId : String) : DecidablePred (OutboxRow.Names stopId)
  | .nextStop _ _ nextStopId _ => inferInstanceAs (Decidable (nextStopId = stopId))
  | .thankYou _ _ _ => isFalse id

/-- What never goes back from one moment to a later one. -/
structure Progress (before after : Tables) : Prop where
  completed : ∀ stop ∈ before.stops, stop.status = .completed →
    ∃ stop' ∈ after.stops, SameDelivery stop stop'
  cancelled : ∀ id row, before.routes id = .stored row → row.status = .cancelled →
    after.routes id = .stored row ∧ (after.stopsOf id).Perm (before.stopsOf id)
  announced : ∀ row ∈ after.outbox, row ∉ before.outbox →
    ∀ stop ∈ before.stops, stop.status = .completed → ¬ row.Names stop.id

theorem Progress.refl (tables : Tables) : Progress tables tables := by
  refine ⟨fun stop hStop _ => ⟨stop, hStop, rfl, rfl, rfl⟩,
    fun id row hRow _ => ⟨hRow, List.Perm.refl _⟩, ?_⟩
  intro row hRow hNew
  exact absurd hRow hNew

theorem Progress.trans {before middle after : Tables} (h : Progress before middle)
    (h' : Progress middle after) : Progress before after := by
  constructor
  · intro stop hStop hCompleted
    obtain ⟨stop', hStop', hId, hSale, hStatus⟩ := h.completed stop hStop hCompleted
    obtain ⟨stop'', hStop'', hId', hSale', hStatus'⟩ :=
      h'.completed stop' hStop' (hStatus.trans hCompleted)
    exact ⟨stop'', hStop'', hId'.trans hId, hSale'.trans hSale, hStatus'.trans hStatus⟩
  · intro id row hRow hCancelled
    obtain ⟨hMiddle, hPerm⟩ := h.cancelled id row hRow hCancelled
    obtain ⟨hAfter, hPerm'⟩ := h'.cancelled id row hMiddle hCancelled
    exact ⟨hAfter, hPerm'.trans hPerm⟩
  · intro row hRow hNew stop hStop hCompleted
    by_cases hMiddle : row ∈ middle.outbox
    · exact h.announced row hMiddle hNew stop hStop hCompleted
    · -- What was completed at the beginning is completed in between.
      obtain ⟨stop', hStop', hId, _, hStatus⟩ := h.completed stop hStop hCompleted
      rw [← hId]
      exact h'.announced row hRow hMiddle stop' hStop' (hStatus.trans hCompleted)

section

variable {before after : Tables}

/-- Where nothing new was checked in, the outbox is the old one. -/
theorem SameCheckIns.progress (h : SameCheckIns before after)
    (hCancelled : ∀ id row, before.routes id = .stored row → row.status = .cancelled →
      after.routes id = .stored row ∧ (after.stopsOf id).Perm (before.stopsOf id)) :
    Progress before after := by
  refine ⟨h.kept, hCancelled, ?_⟩
  intro row hRow hNew
  rw [h.outbox] at hRow
  exact absurd hRow hNew

theorem Saves.elsewhere {route : DeliveryRoute} (hSaved : Saves before route after)
    (hStops : DraftStops route.id route.stops) {id : String} {row : RouteRow}
    (hRow : before.routes id = .stored row) (hNe : id ≠ route.id) :
    after.routes id = .stored row ∧ (after.stopsOf id).Perm (before.stopsOf id) := by
  have hEffect := hSaved.effect
  rw [hEffect.routes, Function.update_of_ne hNe,
    hEffect.stopsOf_of_ne (fun stop hStop => (hStops.each stop hStop).1) hNe]
  exact ⟨hRow, List.Perm.refl _⟩

theorem elsewhere_of_apply {rewrite : Rewrite} {routeId id : String} {row : RouteRow}
    (hSame : ∀ stop, SameStop stop (rewrite.stop stop)) (hRow : before.routes id = .stored row)
    (hNe : id ≠ routeId) : (rewrite.apply routeId before).routes id = .stored row ∧
      ((rewrite.apply routeId before).stopsOf id).Perm (before.stopsOf id) := by
  constructor
  · simp only [Rewrite.apply, hRow, if_neg hNe]
  · apply List.Perm.of_eq
    rw [stopsOf_apply hSame]
    conv_rhs => rw [← List.map_id (before.stopsOf id)]
    apply List.map_congr_left
    intro stop hStop
    exact if_neg ((mem_stopsOf.mp hStop).2 ▸ hNe)

theorem ne_of_status {routeId id : String} {row row' : RouteRow}
    (hRow : before.routes routeId = .stored row) (hOpen : row.status ≠ .cancelled)
    (hRow' : before.routes id = .stored row') (hCancelled : row'.status = .cancelled) :
    id ≠ routeId := by
  rintro rfl
  rw [hRow] at hRow'
  cases hRow'
  exact hOpen hCancelled

/-- The step lemma. -/
theorem RouteInv.progress (h : RouteInv True before) (hChange : RouteChange True before after) :
    Progress before after := by
  cases hChange with
  | @created route _ hUnused hDraft hStops hSaved =>
      apply (hSaved.sameCheckIns hStops _).progress
      · intro id row hRow _
        apply hSaved.elsewhere hStops hRow
        rintro rfl
        rw [hUnused] at hRow
        cases hRow
      · simp [stopsOf_unused h.toConsistent hUnused]
  | @redrafted current next _ hStored hNext hSaved =>
      have hStops := hNext.stops (draftStops_of_stored h.toConsistent hStored hNext.draft)
      apply (hSaved.sameCheckIns hStops _).progress
      · intro id row hRow hCancelled
        apply hSaved.elsewhere hStops hRow
        rw [hNext.id]
        exact ne_of_status hStored.1 (by simp [hNext.draft]) hRow hCancelled
      · rw [hNext.id]
        exact pending_of_stored h.toConsistent hStored hNext.draft
  | @resaved current _ hStored hSaved =>
      obtain ⟨hRoutes, hPerm⟩ := hSaved.resaved hStored
      apply (sameCheckIns_of_perm hSaved.effect.sales hSaved.effect.outbox hPerm).progress
      intro id row hRow _
      rw [hRoutes]
      exact ⟨hRow, hPerm.filter _⟩
  | @deleted routeId row hStored hDraft hEmpty =>
      apply (sameCheckIns_deleted hEmpty).progress
      intro id row' hRow hCancelled
      have hNe := ne_of_status hStored (by simp [hDraft]) hRow hCancelled
      constructor
      · simpa [Tables.deleteStops, Tables.setRoute, Function.update_of_ne hNe] using hRow
      · show (List.filter _ (before.stops.filter (¬ ·.routeId = routeId))).Perm _
        rw [deleteStops_of_empty hEmpty]
        exact List.Perm.refl _
  | cancelled hStored hOpen hNext hStop hReleased =>
      apply (sameCheckIns_released hStop).progress
      intro id row' hRow hCancelled
      apply elsewhere_of_apply (fun found => (hStop found).same) hRow
      apply ne_of_status hStored _ hRow hCancelled
      rcases hOpen with hDraft | hActive
      · simp [hDraft]
      · simp [hActive]
  | @checkedIn routeId stopId saleId now row rewrite rows hStored hStatus hId hNext hStop hArmed
      hLive hChecksIn hDeliverable =>
      have hIds := (checkStopKeys_eq_ok.mp h.keys).1
      have hIn := hChecksIn trivial
      constructor
      · intro stop hMem hCompleted
        have hSame : SameStop stop (rewrite.onStop routeId stop) :=
          onStop_same (fun found => (hStop found).same) stop
        refine ⟨_, List.mem_map_of_mem hMem, hSame.id, hSame.saleId,
          (hIn.status hIds stop hMem).trans ?_⟩
        split
        · exact hCompleted.symm
        · rfl
      · intro id row' hRow hCancelled
        apply elsewhere_of_apply (fun found => (hStop found).same) hRow
        apply ne_of_status hStored _ hRow hCancelled
        rcases hStatus with hActive | hCompleted
        · simp [hActive]
        · simp [hCompleted]
      · intro outboxRow hRow hNew stop hMem hCompleted hNames
        have hRow := (List.mem_append.mp hRow).resolve_left hNew
        obtain ⟨found, hFound, _, _, ⟨rfl, _⟩ | ⟨_, nextRows, rfl, hNextRows⟩⟩ := hIn.sale
        · cases hRow
        · rcases List.mem_append.mp hRow with hFirst | hLast
          · rcases hNextRows with rfl | ⟨next, hNextMem, hOpen, rfl⟩
            · cases hFirst
            · obtain rfl := List.mem_singleton.mp hFirst
              -- The announced stop is open, so it is another one than any completed stop.
              have hSame := eq_of_id hIds (mem_stopsOf.mp hNextMem).1 hMem hNames
              rw [hSame, DeliveryRouteStop.IsOpen, hCompleted] at hOpen
              simp at hOpen
          · obtain rfl := List.mem_singleton.mp hLast
            exact hNames

/-- The run lemma. -/
theorem RouteInv.progresses (h : RouteInv True before)
    (hChanges : Relation.ReflTransGen (RouteChange True) before after) :
    Progress before after := by
  induction hChanges with
  | refl => exact Progress.refl before
  | tail prior last ih => exact ih.trans ((h.changes prior).progress last)

end

/-- What holds of a moment and a later one. -/
structure ExactlyOnce (before after : Tables) : Prop where
  checkedIn : CheckedIn after
  live : ∀ id row, after.routes id = .stored row → row.status = .active →
    ∃ stop ∈ after.stopsOf id, stop.IsOpen
  progress : Progress before after

/-- Where the clock of a route ticks from change to change, check-ins happen once and for
good. -/
theorem exactlyOnce_of_runs {Tid : Type} [DecidableEq Tid] {sales : String → Option RoutedSale}
    {system later : RouteSystem Tid} {events more : List (RouteEvent Tid)}
    (run : Transition.Runs (Transition.Guarded (Step RouteBody) ClockTicks)
      (System.idle (Tables.opened sales)) events system)
    (onward : Transition.Runs (Transition.Guarded (Step RouteBody) ClockTicks) system more
      later) : ExactlyOnce system.tables later.tables := by
  obtain ⟨hSystem, _⟩ := (routeReached_idle sales).runs run
  obtain ⟨hLater, hChanges⟩ := hSystem.runs onward
  exact ⟨hLater.inv.checkedIn trivial, hLater.inv.live, hSystem.inv.progresses hChanges⟩

/-! ### The life of a route -/

/-- Where the place of a route may go: a draft is started, cancelled or deleted, an active route
ends, and what has ended or was deleted stays so. -/
def RouteSlot.LeadsTo : RouteSlot → RouteSlot → Prop
  | .unused, _ => True
  | .stored row, .stored row' => row'.status = row.status ∨ row.status = .draft ∨
      (row.status = .active ∧ row'.status ≠ .draft)
  | .stored row, .deleted => row.status = .draft
  | .stored _, .unused => False
  | .deleted, slot => slot = .deleted

section

variable {ticks : Prop} {before after : Tables} {routeId : String}

theorem RouteSlot.LeadsTo.refl (slot : RouteSlot) : slot.LeadsTo slot := by
  cases slot <;> simp [RouteSlot.LeadsTo]

theorem RouteSlot.LeadsTo.trans {first second third : RouteSlot} (h : first.LeadsTo second)
    (h' : second.LeadsTo third) : first.LeadsTo third := by
  cases first <;> cases second <;> cases third <;> grind [RouteSlot.LeadsTo]

theorem leadsTo_update {slot : RouteSlot} (h : (before.routes routeId).LeadsTo slot)
    (id : String) :
    (before.routes id).LeadsTo (Function.update before.routes routeId slot id) := by
  by_cases hId : id = routeId
  · rw [hId, Function.update_self]
    exact h
  · rw [Function.update_of_ne hId]
    exact .refl _

theorem leadsTo_apply {row : RouteRow} {rewrite : Rewrite}
    (hRow : before.routes routeId = .stored row)
    (h : (RouteSlot.stored row).LeadsTo (.stored (rewrite.row row))) (id : String) :
    (before.routes id).LeadsTo ((rewrite.apply routeId before).routes id) := by
  simp only [Rewrite.apply]
  by_cases hId : id = routeId
  · simpa [hId, hRow] using h
  · cases before.routes id <;> simp [hId, RouteSlot.LeadsTo]

theorem leadsTo_of_change (hChange : RouteChange ticks before after) (id : String) :
    (before.routes id).LeadsTo (after.routes id) := by
  cases hChange with
  | created hUnused _ _ hSaved =>
      rw [hSaved.effect.routes]
      exact leadsTo_update (by rw [hUnused]; trivial) id
  | redrafted hStored hNext hSaved =>
      rw [hSaved.effect.routes, hNext.id]
      exact leadsTo_update (by rw [hStored.1]; exact Or.inr (Or.inl hNext.draft)) id
  | resaved hStored hSaved =>
      rw [hSaved.effect.routes]
      exact leadsTo_update (by rw [hStored.1]; exact .refl _) id
  | deleted hStored hDraft => exact leadsTo_update (by rw [hStored]; exact hDraft) id
  | cancelled hStored hOpen hNext =>
      exact leadsTo_apply hStored (by grind [RouteSlot.LeadsTo, writeRow]) id
  | checkedIn hStored hStatus _ hNext =>
      exact leadsTo_apply hStored (by grind [RouteSlot.LeadsTo]) id

end

/-- Whatever the clocks read, no interleaving takes a route back. -/
theorem life_of_runs {Tid : Type} [DecidableEq Tid] {sales : String → Option RoutedSale}
    {system later : RouteSystem Tid} {events more : List (RouteEvent Tid)}
    (run : Transition.Runs (Step RouteBody) (System.idle (Tables.opened sales)) events system)
    (onward : Transition.Runs (Step RouteBody) system more later) (id : String) :
    (system.tables.routes id).LeadsTo (later.tables.routes id) := by
  have hChanges := ((routeReached_of_runs run).runs_anytime onward).2
  generalize later.tables = last at hChanges ⊢
  induction hChanges with
  | refl => exact .refl _
  | tail _ last ih => exact ih.trans (leadsTo_of_change last id)

/-! ### Schedules of the service -/

/-- A request whose clock stands still. -/
structure TimedCommand where
  instant : Int
  ids : List String
  command : Command

/-- The order the rows are filed in. -/
def Listing.filed : Listing := ⟨id, fun _ => List.Perm.refl _⟩

def TimedCommand.request (timed : TimedCommand) : RouteRequest where
  surroundings := ⟨fun _ => timed.instant, fun index => timed.ids.getD index "", .filed⟩
  command := timed.command

def TimedCommand.body (timed : TimedCommand) : RouteTx RouteEnding :=
  timed.request.body

/-- The clock reads later than the routes that are written. -/
def TimedCommand.inTime (timed : TimedCommand) (tables : Tables) : Bool :=
  timed.request.routeIds.all fun routeId =>
    (tables.findRoute routeId).all fun row => row.updatedAt < timed.instant

theorem later_of_inTime {timed : TimedCommand} {tables : Tables} (h : timed.inTime tables = true) :
    timed.request.Later tables := by
  intro routeId hIn row hRow reading
  have hRoute := List.all_eq_true.mp h routeId hIn
  show row.updatedAt < timed.instant
  simpa [Tables.findRoute, hRow] using hRoute

theorem passes_inTime {Tid : Type} :
    Passes TimedCommand.body TimedCommand.inTime (@ClockTicks Tid) := by
  constructor
  · exact fun _ _ _ => trivial
  · exact fun _ _ => trivial
  · exact fun _ _ => trivial
  · exact fun _ _ timed _ hTimely _ => ⟨timed.request, rfl, later_of_inTime hTimely⟩

theorem passes_always {Tid : Type} :
    Passes TimedCommand.body (fun _ _ => true) (fun (_ : RouteSystem Tid) _ => True) := by
  constructor <;> simp

theorem routeBody_timed (timed : TimedCommand) : RouteBody timed.body :=
  ⟨timed.request, rfl⟩

/-- Every sale waits for its delivery. -/
def waitingSales (_ : String) : Option RoutedSale :=
  some ⟨.confirmed, .pending, some "Main street"⟩

abbrev RouteStage := Stage Bool TimedCommand Lock Tables Failure Unit

/-- A route of two stops that is started. -/
def startedRoute : List (Move Bool TimedCommand) :=
  Move.times false ⟨1, ["route", "a", "b"], .create "driver" ["sale-a", "sale-b"] none⟩ 9 ++
  Move.times false ⟨2, [], .start "route"⟩ 9

/-- The check-in of `b` loads the route, and the one of `a` commits before it goes on. -/
def overtaken (instant : Int) : List (Move Bool TimedCommand) :=
  Move.times true ⟨4, [], .checkInStop "route" "b"⟩ 2 ++
  Move.times false ⟨instant, [], .checkInStop "route" "a"⟩ 9

/-- A check-in that goes on to its end. -/
def goesOn : List (Move Bool TimedCommand) :=
  List.replicate 9 (.advance true)

/-- Both stops are checked in, one after the other. -/
theorem plays_inTurn :
    (((Stage.empty (Tables.opened waitingSales)).plays TimedCommand.body TimedCommand.inTime
        startedRoute).bind fun (middle : RouteStage) =>
      (middle.plays TimedCommand.body TimedCommand.inTime (overtaken 3 ++ goesOn ++
        Move.times true ⟨5, [], .checkInStop "route" "b"⟩ 9)).map fun last =>
        last.tables.stops.map (·.status)) = some [.completed, .completed] := by
  decide +kernel

theorem exactlyOnce_inTurn : ∃ (events more : List (RouteEvent Bool)) (middle last : RouteStage),
    Transition.Runs (Transition.Guarded (Step RouteBody) ClockTicks)
      (System.idle (Tables.opened waitingSales)) events (middle.system TimedCommand.body) ∧
    Transition.Runs (Transition.Guarded (Step RouteBody) ClockTicks)
      (middle.system TimedCommand.body) more (last.system TimedCommand.body) ∧
    last.tables.stops.map (·.status) = [.completed, .completed] ∧
    ExactlyOnce middle.tables last.tables := by
  obtain ⟨middle, hMiddle, hLast⟩ := Option.bind_eq_some_iff.mp plays_inTurn
  obtain ⟨last, hLast, hStatus⟩ := Option.map_eq_some_iff.mp hLast
  obtain ⟨events, run⟩ := runs_of_plays routeBody_timed passes_inTime hMiddle
  obtain ⟨more, onward⟩ := runs_of_plays routeBody_timed passes_inTime hLast
  exact ⟨events, more, middle, last, run, onward, hStatus, exactlyOnce_of_runs run onward⟩

/-- The stop that the last outbox rows announce, when it was completed before. -/
theorem plays_sharedInstant :
    (((Stage.empty (Tables.opened waitingSales)).plays TimedCommand.body (fun _ _ => true)
        (startedRoute ++ overtaken 2)).bind fun (middle : RouteStage) =>
      (middle.plays TimedCommand.body (fun _ _ => true) goesOn).map fun last =>
        decide (∃ row ∈ last.tables.outbox, row ∉ middle.tables.outbox ∧
          ∃ stop ∈ middle.tables.stops, stop.status = .completed ∧ row.Names stop.id)) =
      some true := by
  decide +kernel

theorem life_of_sharedInstant : ∃ (events more : List (RouteEvent Bool))
      (middle last : RouteStage),
    Transition.Runs (Step RouteBody) (System.idle (Tables.opened waitingSales)) events
      (middle.system TimedCommand.body) ∧
    Transition.Runs (Step RouteBody) (middle.system TimedCommand.body) more
      (last.system TimedCommand.body) ∧
    (middle.tables.routes "route").LeadsTo (last.tables.routes "route") := by
  obtain ⟨middle, hMiddle, hLast⟩ := Option.bind_eq_some_iff.mp plays_sharedInstant
  obtain ⟨last, hLast, _⟩ := Option.map_eq_some_iff.mp hLast
  obtain ⟨events, run⟩ := runs_of_plays routeBody_timed passes_always hMiddle
  obtain ⟨more, onward⟩ := runs_of_plays routeBody_timed passes_always hLast
  exact ⟨events, more, middle, last, run.of_guarded, onward.of_guarded,
    life_of_runs run.of_guarded onward.of_guarded "route"⟩

/-- A check-in in the millisecond of the start goes unnoticed: the check-in it overtook announces
the completed stop. -/
theorem not_exactlyOnce_of_sharedInstant :
    ∃ (events more : List (RouteEvent Bool)) (middle last : RouteStage),
    Transition.Runs (Step RouteBody) (System.idle (Tables.opened waitingSales)) events
      (middle.system TimedCommand.body) ∧
    Transition.Runs (Step RouteBody) (middle.system TimedCommand.body) more
      (last.system TimedCommand.body) ∧
    ¬ ExactlyOnce middle.tables last.tables := by
  obtain ⟨middle, hMiddle, hLast⟩ := Option.bind_eq_some_iff.mp plays_sharedInstant
  obtain ⟨last, hLast, hNames⟩ := Option.map_eq_some_iff.mp hLast
  obtain ⟨events, run⟩ := runs_of_plays routeBody_timed passes_always hMiddle
  obtain ⟨more, onward⟩ := runs_of_plays routeBody_timed passes_always hLast
  refine ⟨events, more, middle, last, run.of_guarded, onward.of_guarded, fun h => ?_⟩
  obtain ⟨row, hRow, hNew, stop, hStop, hCompleted, hRowNames⟩ := of_decide_eq_true hNames
  exact h.progress.announced row hRow hNew stop hStop hCompleted hRowNames

end Houndfe.DeliveryRoutes

/-! ### Reservations

What the marker of a stop says: its sale is reserved while its route is a draft or on the road.
Under the partial unique index on the marked stops no sale is reserved twice. -/

namespace Houndfe.DeliveryRoutes

open Transactions

/-- The route holds its sales. -/
def RouteRow.Reserves (row : RouteRow) : Prop :=
  row.status = .draft ∨ row.status = .active

instance (row : RouteRow) : Decidable row.Reserves :=
  inferInstanceAs (Decidable (_ ∨ _))

/-- What holds of the markers and of the order of the stops. -/
structure Reserved (tables : Tables) : Prop where
  marked : ∀ stop ∈ tables.stops, ∃ row, tables.routes stop.routeId = .stored row ∧
    stop.activeRouteId = if row.Reserves then some stop.routeId else none
  exclusive : ∀ id row id' row', tables.routes id = .stored row → row.Reserves →
    tables.routes id' = .stored row' → row'.Reserves →
    ∀ stop ∈ tables.stopsOf id, ∀ stop' ∈ tables.stopsOf id', stop.saleId = stop'.saleId →
      stop = stop'
  numbered : ∀ id, ((tables.stopsOf id).map (·.sortOrder)).Perm
    (List.range (tables.stopsOf id).length)

section

variable {tables : Tables} {ticks : Prop}

/-- A stop of a route that holds its sales carries the marker. -/
theorem Consistent.armed (h : Consistent ticks tables) {id : String} {row : RouteRow}
    (hRow : tables.routes id = .stored row) (hReserves : row.Reserves)
    {stop : DeliveryRouteStop} (hStop : stop ∈ tables.stopsOf id) :
    stop.activeRouteId = some id := by
  obtain ⟨hMem, hRoute⟩ := mem_stopsOf.mp hStop
  obtain ⟨own, hOwn, hInv⟩ := h.stops stop hMem
  rw [hRoute, hRow] at hOwn
  cases hOwn
  rw [hInv.armed hReserves, h.filed id row hRow]

/-- The marked stops of one sale are one stop. -/
theorem eq_of_marked {stops : List DeliveryRouteStop} (hKeys : checkStopKeys stops = .ok ())
    {stop stop' : DeliveryRouteStop} (hStop : stop ∈ stops) (hStop' : stop' ∈ stops)
    (hMarked : stop.activeRouteId.isSome) (hMarked' : stop'.activeRouteId.isSome)
    (hSale : stop.saleId = stop'.saleId) : stop = stop' := by
  obtain ⟨_, _, hSales⟩ := checkStopKeys_eq_ok.mp hKeys
  exact List.inj_on_of_nodup_map hSales (List.mem_filter.mpr ⟨hStop, hMarked⟩)
    (List.mem_filter.mpr ⟨hStop', hMarked'⟩) hSale

theorem RouteInv.reserved (h : RouteInv True tables) : Reserved tables := by
  have hConsistent := h.toConsistent
  constructor
  · intro stop hStop
    obtain ⟨row, hRow, hInv⟩ := hConsistent.stops stop hStop
    refine ⟨row, hRow, ?_⟩
    split
    · next hReserves => exact hConsistent.armed hRow hReserves (mem_stopsOf.mpr ⟨hStop, rfl⟩)
    · next hGone =>
        apply hInv.released trivial
        cases hStatus : row.status with
        | draft => exact absurd (Or.inl hStatus) hGone
        | active => exact absurd (Or.inr hStatus) hGone
        | completed => exact Or.inl rfl
        | cancelled => exact Or.inr rfl
  · intro id row id' row' hRow hReserves hRow' hReserves' stop hStop stop' hStop' hSale
    apply eq_of_marked hConsistent.keys (mem_stopsOf.mp hStop).1 (mem_stopsOf.mp hStop').1
    · rw [hConsistent.armed hRow hReserves hStop]
      rfl
    · rw [hConsistent.armed hRow' hReserves' hStop']
      rfl
    · exact hSale
  · exact hConsistent.numbered

end

/-- Where the clock of a route ticks from change to change, the markers follow the status of
their routes. -/
theorem reserved_of_runs {Tid : Type} [DecidableEq Tid] {sales : String → Option RoutedSale}
    {system : RouteSystem Tid} {events : List (RouteEvent Tid)}
    (run : Transition.Runs (Transition.Guarded (Step RouteBody) ClockTicks)
      (System.idle (Tables.opened sales)) events system) : Reserved system.tables := by
  obtain ⟨hReached, _⟩ := (routeReached_idle sales).runs run
  exact hReached.inv.reserved

/-- A draft of one stop; a cancellation of it has loaded the route when a stop is added. -/
def addedMeanwhile (instant : Int) : List (Move Bool TimedCommand) :=
  Move.times false ⟨1, ["route", "a"], .create "driver" ["sale-a"] none⟩ 9 ++
  Move.times true ⟨3, [], .cancel "route"⟩ 2 ++
  Move.times false ⟨instant, ["b"], .addStop "route" "sale-b"⟩ 9 ++
  List.replicate 9 (.advance true)

/-- The cancellation is stale, and its next attempt releases both stops. -/
theorem plays_addedMeanwhile :
    ((Stage.empty (Tables.opened waitingSales)).plays TimedCommand.body TimedCommand.inTime
      (addedMeanwhile 2 ++ Move.times true ⟨4, [], .cancel "route"⟩ 9)).map
        (fun (last : RouteStage) => last.tables.stops.map (·.activeRouteId)) =
      some [none, none] := by
  decide +kernel

theorem reserved_addedMeanwhile : ∃ (events : List (RouteEvent Bool)) (last : RouteStage),
    Transition.Runs (Transition.Guarded (Step RouteBody) ClockTicks)
      (System.idle (Tables.opened waitingSales)) events (last.system TimedCommand.body) ∧
    last.tables.stops.map (·.activeRouteId) = [none, none] ∧ Reserved last.tables := by
  obtain ⟨last, hLast, hMarkers⟩ := Option.map_eq_some_iff.mp plays_addedMeanwhile
  obtain ⟨events, run⟩ := runs_of_plays routeBody_timed passes_inTime hLast
  exact ⟨events, last, run, hMarkers, reserved_of_runs run⟩

theorem plays_addedAtOnce :
    ((Stage.empty (Tables.opened waitingSales)).plays TimedCommand.body (fun _ _ => true)
      (addedMeanwhile 1)).map (fun (last : RouteStage) =>
        decide (∃ stop ∈ last.tables.stops, stop.activeRouteId.isSome = true ∧
          ∃ row ∈ last.tables.findRoute stop.routeId, row.status = .cancelled)) =
      some true := by
  decide +kernel

/-- A stop that is added in the millisecond of the creation goes unnoticed: the cancellation
leaves its marker on a cancelled route. -/
theorem not_reserved_of_addedAtOnce : ∃ (events : List (RouteEvent Bool)) (last : RouteStage),
    Transition.Runs (Step RouteBody) (System.idle (Tables.opened waitingSales)) events
      (last.system TimedCommand.body) ∧ ¬ Reserved last.tables := by
  obtain ⟨last, hLast, hMarked⟩ := Option.map_eq_some_iff.mp plays_addedAtOnce
  obtain ⟨events, run⟩ := runs_of_plays routeBody_timed passes_always hLast
  refine ⟨events, last, run.of_guarded, fun h => ?_⟩
  obtain ⟨stop, hStop, hSome, row, hRow, hCancelled⟩ := of_decide_eq_true hMarked
  obtain ⟨stored, hStored, hMarker⟩ := h.marked stop hStop
  simp only [Tables.findRoute, hStored, Option.mem_def, Option.some.injEq] at hRow
  subst hRow
  simp [hMarker, RouteRow.Reserves, hCancelled] at hSome

end Houndfe.DeliveryRoutes
