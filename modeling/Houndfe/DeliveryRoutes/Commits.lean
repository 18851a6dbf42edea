import Houndfe.DeliveryRoutes.RouteChanges

/-! The transactions of the service keep their word: whatever the others commit in between, a
commit changes the tables as its request is meant to. A locked route stays as it was loaded; a
route that was loaded without a lock is known to be the stored one when its clock ticks and its
`updatedAt` is still the same. -/

namespace Houndfe.DeliveryRoutes

open Houndfe.Sales Transactions

variable {ticks : Prop}

/-- What the holder of locks may rely on. -/
structure RouteAgree (ticks : Prop) (held : List Lock) (a b : Tables) : Prop where
  route : ∀ id, Lock.route id ∈ held →
    b.routes id = a.routes id ∧ (b.stopsOf id).Perm (a.stopsOf id)
  sale : ∀ id, Lock.sale id ∈ held → b.sales id = a.sales id
  gone : ∀ id, a.routes id = .deleted → b.routes id = .deleted
  version : ticks → ∀ id row, a.routes id = .stored row → b.routes id = .deleted ∨
    ∃ row', b.routes id = .stored row' ∧ (row.updatedAt < row'.updatedAt ∨
      (row' = row ∧ (b.stopsOf id).Perm (a.stopsOf id)))

theorem routeAgree_refl (held : List Lock) (tables : Tables) :
    RouteAgree ticks held tables tables := by
  refine ⟨fun _ _ => ⟨rfl, List.Perm.refl _⟩, fun _ _ => rfl, fun _ h => h, ?_⟩
  exact fun _ id row hRow => Or.inr ⟨row, hRow, Or.inr ⟨rfl, List.Perm.refl _⟩⟩

theorem routeAgree_trans (held : List Lock) (a b c : Tables) (h : RouteAgree ticks held a b)
    (h' : RouteAgree ticks held b c) : RouteAgree ticks held a c := by
  constructor
  · intro id hId
    obtain ⟨hRow, hStops⟩ := h.route id hId
    obtain ⟨hRow', hStops'⟩ := h'.route id hId
    exact ⟨hRow'.trans hRow, hStops'.trans hStops⟩
  · exact fun id hId => (h'.sale id hId).trans (h.sale id hId)
  · exact fun id hGone => h'.gone id (h.gone id hGone)
  · intro hTicks id row hRow
    rcases h.version hTicks id row hRow with hGone | ⟨middle, hMiddle, hFirst⟩
    · exact Or.inl (h'.gone id hGone)
    · rcases h'.version hTicks id middle hMiddle with hGone | ⟨last, hLast, hSecond⟩
      · exact Or.inl hGone
      · refine Or.inr ⟨last, hLast, ?_⟩
        rcases hFirst with hLater | ⟨rfl, hStops⟩
        · rcases hSecond with hLater' | ⟨rfl, _⟩
          · exact Or.inl (hLater.trans hLater')
          · exact Or.inl hLater
        · rcases hSecond with hLater' | ⟨rfl, hStops'⟩
          · exact Or.inl hLater'
          · exact Or.inr ⟨rfl, hStops'.trans hStops⟩

def routeProtection (ticks : Prop) : Protection Lock Tables where
  agree := RouteAgree ticks
  refl := routeAgree_refl
  trans := routeAgree_trans
  mono _ _ _ _ h := ⟨fun id hId => h.route id (List.mem_cons_of_mem _ hId),
    fun id hId => h.sale id (List.mem_cons_of_mem _ hId), h.gone, h.version⟩

/-- What a loaded route says about later tables. -/
structure Loaded (ticks : Prop) (held : List Lock) (route : DeliveryRoute) (later : Tables) :
    Prop where
  locked : Lock.route route.id ∈ held → Stored later route
  version : ticks → ∀ row, later.routes route.id = .stored row →
    row.updatedAt = route.updatedAt → Stored later route

section

variable {listing : Listing} {routeId : String} {held : List Lock} {known : Tables → Prop}

theorem any_eq_true {α : Type} {x : Option α} {p : α → Prop} [DecidablePred p]
    (h : x.any (p ·) = true) : ∃ a, x = some a ∧ p a := by
  cases x with
  | none => cases h
  | some a => exact ⟨a, rfl, of_decide_eq_true h⟩

theorem findRoute_eq_some {tables : Tables} {row : RouteRow} :
    tables.findRoute routeId = some row ↔ tables.routes routeId = .stored row := by
  unfold Tables.findRoute
  cases tables.routes routeId <;> simp

/-- A version that has not changed did not change in between. -/
theorem RouteAgree.unchanged {seen seen' later : Tables} {row current : RouteRow} {id : String}
    (hTicks : ticks) (hFirst : RouteAgree ticks held seen seen')
    (hSecond : RouteAgree ticks held seen' later) (hRow : seen.routes id = .stored row)
    (hCurrent : later.routes id = .stored current) (hSame : current.updatedAt = row.updatedAt) :
    current = row ∧ (later.stopsOf id).Perm (seen'.stopsOf id) := by
  rcases hFirst.version hTicks id row hRow with hGone | ⟨middle, hMiddle, hUntil⟩
  · have hGone' := hSecond.gone _ hGone
    rw [hCurrent] at hGone'
    cases hGone'
  · rcases hSecond.version hTicks id middle hMiddle with hGone | ⟨last, hLast, hSince⟩
    · rw [hCurrent] at hGone
      cases hGone
    · rw [hCurrent] at hLast
      cases hLast
      rcases hSince with hLater | ⟨rfl, hStops⟩
      · rcases hUntil with hLater' | ⟨rfl, _⟩
        · omega
        · omega
      · rcases hUntil with hLater | ⟨rfl, _⟩
        · omega
        · exact ⟨rfl, hStops⟩

/-- The load: two statements, and what they saw is one version of the route. -/
theorem ensures_loadRoute {post : List Lock → (Tables → Prop) → Option DeliveryRoute → Prop}
    (hNone : ∀ known', (∀ later, known' later → known later) → post held known' none)
    (hSome : ∀ known' route, route.id = routeId → (route.stops.map (·.id)).Nodup →
      (∀ later, known' later → known later ∧ Loaded ticks held route later) →
        post held known' (some route)) :
    (loadRoute listing routeId).Ensures (routeProtection ticks) (RouteInv ticks) held known
      post := by
  unfold loadRoute
  rw [ensures_bind]
  apply ensures_query
  intro seen hValid hSeen
  cases hFind : seen.findRoute routeId with
  | none => exact hNone _ fun later hLater => hLater.1
  | some row =>
      have hRow := findRoute_eq_some.mp hFind
      obtain rfl := hValid.filed routeId row hRow
      simp only [ensures_bind]
      apply ensures_query
      rintro seen' hValid' ⟨_, hAgree⟩
      have hPerm := listing.perm (seen'.stopsOf row.id)
      refine hSome _ _ rfl ?_ ?_
      · have hIds := (checkStopKeys_eq_ok.mp hValid'.keys).1
        exact (hPerm.map _).nodup_iff.mpr (hIds.sublist (List.filter_sublist.map _))
      · rintro later ⟨⟨hKnown, hFirst⟩, hSecond⟩
        refine ⟨hKnown, fun hHeld => ?_, fun hTicks current hCurrent hSame => ?_⟩
        · obtain ⟨hRow', _⟩ := hFirst.route row.id hHeld
          obtain ⟨_, hStops⟩ := hSecond.route row.id hHeld
          exact ⟨hRow'.trans hRow, hPerm.trans hStops.symm⟩
        · obtain ⟨hRows, hStops⟩ := hAgree.unchanged hTicks hSecond hRow hCurrent hSame
          exact ⟨hCurrent.trans (congrArg _ hRows), hPerm.trans hStops.symm⟩

theorem ensures_classifyStale {α : Type}
    {post : List Lock → (Tables → Prop) → α → Prop} :
    (classifyStaleTransition listing routeId : RouteTx α).Ensures (routeProtection ticks)
      (RouteInv ticks) held known post := by
  unfold classifyStaleTransition
  rw [ensures_bind]
  apply ensures_loadRoute
  · exact fun _ _ => trivial
  · exact fun _ _ _ _ _ => trivial

/-- The statements of a save read nothing that its write does not find out. -/
theorem ensures_save {pending : Pending} {route : DeliveryRoute}
    {post : List Lock → (Tables → Prop) → Pending → Prop}
    (h : ∀ known' pending', (∀ later, known' later → known later) →
      (∀ before after, pending' before = .ok after →
        ∃ middle, pending before = .ok middle ∧ Saves middle route after) →
      post held known' pending') :
    (saveInTransaction pending route).Ensures (routeProtection ticks) (RouteInv ticks) held known
      post := by
  unfold saveInTransaction
  simp only [ensures_bind]
  apply ensures_query
  intro seen _ _
  apply ensures_check
  intro conflicts _
  apply ensures_check
  intro _ _
  apply h
  · exact fun later hLater => hLater.1
  · intro before after hWrite
    obtain ⟨cleared, hCleared, hCreate⟩ := bind_eq_ok.mp hWrite
    obtain ⟨middle, hMiddle, hEq⟩ := bind_eq_ok.mp hCleared
    cases hEq
    exact ⟨middle, hMiddle, hCreate⟩

theorem ensures_lockRoutes {routeIds : List String}
    {post : List Lock → (Tables → Prop) → List String → Prop}
    (h : ∀ held' known' missing, (∀ later, known' later → known later) →
      (∀ key ∈ held, key ∈ held') → (missing = [] → ∀ id ∈ routeIds, Lock.route id ∈ held') →
        post held' known' missing) :
    (lockRoutesForUpdate routeIds).Ensures (routeProtection ticks) (RouteInv ticks) held known
      post := by
  induction routeIds generalizing held known post with
  | nil => exact h held known [] (fun _ hLater => hLater) (fun _ hKey => hKey) (by simp)
  | cons routeId rest ih =>
      simp only [lockRoutesForUpdate, ensures_bind]
      apply ensures_lockRow
      · intro seen _ _ _
        apply ih
        intro held' known' missing hKnown hHeld hLocked
        apply h held' known' missing (fun later hLater => (hKnown later hLater).1)
        · exact fun key hKey => hHeld key (List.mem_cons_of_mem _ hKey)
        · intro hMissing id hId
          rcases List.mem_cons.mp hId with rfl | hId
          · exact hHeld _ List.mem_cons_self
          · exact hLocked hMissing id hId
      · intro seen _ _ _
        apply ih
        intro held' known' missing hKnown hHeld _
        exact h held' known' (routeId :: missing) (fun later hLater => (hKnown later hLater).1) hHeld
          (by simp)

theorem ensures_loadRoutes {routeIds : List String}
    {post : List Lock → (Tables → Prop) → List DeliveryRoute → Prop}
    (hHeld : ∀ id ∈ routeIds, Lock.route id ∈ held)
    (h : ∀ known' routes, (∀ later, known' later → known later ∧ ∀ route ∈ routes,
      Stored later route) → post held known' routes) :
    (loadRoutes listing routeIds).Ensures (routeProtection ticks) (RouteInv ticks) held known
      post := by
  induction routeIds generalizing known post with
  | nil => exact h known [] (by simp)
  | cons routeId rest ih =>
      simp only [loadRoutes, ensures_bind]
      apply ensures_loadRoute
      · exact fun _ _ => trivial
      · intro known' route hId _ hLoaded
        simp only [ensures_bind]
        apply ih fun id hIn => hHeld id (List.mem_cons_of_mem _ hIn)
        intro known'' routes hKnown
        apply h
        intro later hLater
        obtain ⟨hKnown', hRoutes⟩ := hKnown later hLater
        obtain ⟨hBefore, hStored⟩ := hLoaded later hKnown'
        refine ⟨hBefore, fun other hOther => ?_⟩
        rcases List.mem_cons.mp hOther with rfl | hOther
        · exact hStored.locked (hId ▸ hHeld routeId List.mem_cons_self)
        · exact hRoutes other hOther

/-- The routes that were loaded under their locks are the stored ones until the commit. -/
theorem ensures_runWithRouteLocks {routeIds : List String}
    {post : List Lock → (Tables → Prop) → List DeliveryRoute → Prop}
    (h : ∀ held' known' routes, (∀ id ∈ routeIds, Lock.route id ∈ held') →
      (∀ later, known' later → known later ∧ ∀ route ∈ routes, Stored later route) →
        post held' known' routes) :
    (runWithRouteLocks listing routeIds).Ensures (routeProtection ticks) (RouteInv ticks) held
      known post := by
  unfold runWithRouteLocks
  rw [ensures_bind]
  apply ensures_lockRoutes
  intro held' known' missing hKnown _ hLocked
  cases missing with
  | cons routeId rest => exact trivial
  | nil =>
      have hIds : ∀ id ∈ routeIds, Lock.route id ∈ held' := by
        intro id hId
        apply hLocked rfl
        rw [lockOrder, List.mem_insertionSort]
        exact List.mem_eraseDups.mpr hId
      apply ensures_loadRoutes
      · exact fun id hId => hIds id (List.mem_eraseDups.mp hId)
      · intro known'' routes hRoutes
        apply h held' known'' routes hIds
        intro later hLater
        exact ⟨hKnown later (hRoutes later hLater).1, (hRoutes later hLater).2⟩

theorem getRoute_eq_ok {routes : List DeliveryRoute} {route : DeliveryRoute}
    (h : getRoute routes routeId = .ok route) : route ∈ routes ∧ route.id = routeId := by
  unfold getRoute at h
  split at h
  · next found hFind =>
      cases h
      exact ⟨List.mem_of_find?_eq_some hFind, by simpa using List.find?_some hFind⟩
  · cases h

end

/-! ### The requests under the lock of their routes -/

/-- What the service promises of a transaction. -/
def routeTerms (ticks : Prop) : Terms Lock Tables Failure Unit where
  protection := routeProtection ticks
  possible body tables :=
    ticks → ∃ request : RouteRequest, request.body = body ∧ request.Later tables
  promise _ before after _ := Relation.ReflTransGen (RouteChange ticks) before after
  invariant := RouteInv ticks

/-- The ending of a request keeps the word of the request. -/
def Kept (ticks : Prop) (request : RouteRequest) (held : List Lock) (known : Tables → Prop)
    (ending : RouteEnding) : Prop :=
  Warranted (routeProtection ticks)
    (fun before => RouteInv ticks before ∧ (ticks → request.Later before))
    (fun before after _ => Relation.ReflTransGen (RouteChange ticks) before after) held known ending

/-- A body keeps its word when it keeps the word of every request that runs it. -/
theorem keptBy_of_ensures {body : RouteTx RouteEnding} (hBody : RouteBody body)
    (h : ∀ request : RouteRequest, request.body = body →
      body.Ensures (routeProtection ticks) (RouteInv ticks) [] (fun _ => True)
        (Kept ticks request)) : (routeTerms ticks).KeptBy body := by
  apply (Tx.Ensures.forall h).mono
  rintro held known ending hKept before after hKnown ⟨hInv, hPossible⟩ hWrite
  obtain ⟨request, hRequest⟩ := hBody
  by_cases hTicks : ticks
  · obtain ⟨timely, hTimely, hLater⟩ := hPossible hTicks
    exact hKept timely hTimely before after hKnown ⟨hInv, fun _ => hLater⟩ hWrite
  · exact hKept request hRequest before after hKnown ⟨hInv, fun h => absurd h hTicks⟩ hWrite

section

variable {request : RouteRequest} {held : List Lock} {known : Tables → Prop}
  {before after : Tables}

theorem agree_saved {route : DeliveryRoute} (hEffect : SaveEffect before route after)
    (hRoute : ∀ stop ∈ route.stops, stop.routeId = route.id)
    (hGone : before.routes route.id ≠ .deleted)
    (hVersion : ticks → ∀ row, before.routes route.id = .stored row →
      row.updatedAt < route.updatedAt ∨
        (route.toRouteRow = row ∧ route.stops.Perm (before.stopsOf route.id)))
    {others : List Lock} (hOthers : Lock.route route.id ∉ others) :
    RouteAgree ticks others before after := by
  constructor
  · intro id hId
    have hNe : id ≠ route.id := by
      rintro rfl
      exact hOthers hId
    rw [hEffect.routes, Function.update_of_ne hNe, hEffect.stopsOf_of_ne hRoute hNe]
    exact ⟨rfl, List.Perm.refl _⟩
  · intro id _
    rw [hEffect.sales]
  · intro id hDeleted
    by_cases hId : id = route.id
    · exact absurd (hId ▸ hDeleted) hGone
    · rw [hEffect.routes, Function.update_of_ne hId]
      exact hDeleted
  · intro hTicks id row hRow
    by_cases hId : id = route.id
    · subst hId
      refine Or.inr ⟨route.toRouteRow, ?_, ?_⟩
      · rw [hEffect.routes, Function.update_self]
      · rw [hEffect.stopsOf_self hRoute]
        exact hVersion hTicks row hRow
    · rw [hEffect.routes, Function.update_of_ne hId, hEffect.stopsOf_of_ne hRoute hId]
      exact Or.inr ⟨row, hRow, Or.inr ⟨rfl, List.Perm.refl _⟩⟩

/-- The clock readings of a request lie after the last write of a route that it has loaded. -/
theorem later_of_stored (h : request.Later before) {route : DeliveryRoute}
    (hStored : Stored before route) (hIn : route.id ∈ request.routeIds) (reading : Nat) :
    route.updatedAt < request.surroundings.clock reading :=
  h route.id hIn route.toRouteRow hStored.1 reading

/-- A saved draft keeps away from what the locks of others protect. -/
theorem agree_redrafted {current next : DeliveryRoute} (hInv : Consistent ticks before)
    (hLater : ticks → request.Later before) (hStored : Stored before current)
    (hIn : current.id ∈ request.routeIds) (hNext : DeliveryRoute.Redraft current next)
    (hNow : ∃ reading, next.updatedAt = request.surroundings.clock reading)
    (hSaved : Saves before next after) {others : List Lock}
    (hOthers : Lock.route current.id ∉ others) : RouteAgree ticks others before after := by
  have hStops := hNext.stops (draftStops_of_stored hInv hStored hNext.draft)
  have hRow := hStored.1
  apply agree_saved hSaved.effect fun stop hStop => (hStops.each stop hStop).1
  · rw [hNext.id, hRow]
    simp
  · intro hTicks row hOld
    rw [hNext.id, hRow] at hOld
    cases hOld
    obtain ⟨reading, hReading⟩ := hNow
    rw [hReading]
    exact Or.inl (later_of_stored (hLater hTicks) hStored hIn reading)
  · rw [hNext.id]
    exact hOthers

theorem kept_edit {current next : DeliveryRoute} {pending : Pending}
    (hKnown : ∀ before, known before → Stored before current)
    (hHeld : Lock.route current.id ∈ held) (hIn : current.id ∈ request.routeIds)
    (hEdit : next = current ∨ (DeliveryRoute.Redraft current next ∧
      ∃ reading, next.updatedAt = request.surroundings.clock reading))
    (hPending : ∀ before after, pending before = .ok after → Saves before next after) :
    Kept ticks request held known (saved pending) := by
  rintro before after hBefore ⟨hInv, hLater⟩ hWrite
  have hStored := hKnown before hBefore
  have hSaved := hPending before after hWrite
  have hFree : ∀ others : List Lock, (∀ key ∈ others, key ∉ held) →
      Lock.route current.id ∉ others := fun others hOthers hKey => hOthers _ hKey hHeld
  rcases hEdit with rfl | ⟨hNext, hNow⟩
  · refine ⟨Relation.ReflTransGen.single (.resaved hStored hSaved), fun others hOthers => ?_⟩
    obtain ⟨hRow, hPerm⟩ := hStored
    apply agree_saved hSaved.effect _ _ _ (hFree others hOthers)
    · exact fun stop hStop => (mem_stopsOf.mp (hPerm.mem_iff.mp hStop)).2
    · rw [hRow]
      simp
    · intro _ row hOld
      rw [hRow] at hOld
      cases hOld
      exact Or.inr ⟨rfl, hPerm⟩
  · refine ⟨Relation.ReflTransGen.single (.redrafted hStored hNext hSaved), fun others hOthers => ?_⟩
    exact agree_redrafted hInv.toConsistent hLater hStored hIn hNext hNow hSaved
      (hFree others hOthers)

theorem ensures_editRoute {listing : Listing} {routeId : String}
    {edit : DeliveryRoute → Except Failure DeliveryRoute} (hIn : routeId ∈ request.routeIds)
    (hEdit : ∀ current next, edit current = .ok next →
      next = current ∨ (DeliveryRoute.Redraft current next ∧
        ∃ reading, next.updatedAt = request.surroundings.clock reading)) :
    (editRoute listing routeId edit).Ensures (routeProtection ticks) (RouteInv ticks) held known
      (Kept ticks request) := by
  unfold editRoute
  simp only [ensures_bind]
  apply ensures_runWithRouteLocks
  intro held' known' routes hHeld hRoutes
  apply ensures_check
  intro current hGet
  apply ensures_check
  intro next hNext
  apply ensures_save
  intro known'' pending hKnown hPending
  obtain ⟨hMem, rfl⟩ := getRoute_eq_ok hGet
  apply kept_edit (fun before hBefore => (hRoutes before (hKnown before hBefore)).2 current hMem)
    (hHeld _ (by simp)) hIn (hEdit current next hNext)
  intro before after hWrite
  obtain ⟨middle, hMiddle, hSaved⟩ := hPending before after hWrite
  cases hMiddle
  exact hSaved

theorem applyUpdate_edits {clock : Nat → Int} {driverUserId : Option String}
    {notes : Option (Option String)} {current next : DeliveryRoute}
    (h : applyUpdate clock driverUserId notes current = .ok next) :
    next = current ∨ (DeliveryRoute.Redraft current next ∧
      ∃ reading, next.updatedAt = clock reading) := by
  simp only [applyUpdate, bind_eq_ok] at h
  obtain ⟨middle, hDriver, hNotes⟩ := h
  have hFirst : middle = current ∨ (DeliveryRoute.Redraft current middle ∧
      ∃ reading, middle.updatedAt = clock reading) := by
    cases driverUserId with
    | none =>
        cases hDriver
        exact Or.inl rfl
    | some driver =>
        obtain ⟨hRedraft, hNow⟩ := DeliveryRoute.assignDriver_redraft hDriver
        exact Or.inr ⟨hRedraft, 0, hNow⟩
  cases notes with
  | none =>
      cases hNotes
      exact hFirst
  | some text =>
      obtain ⟨hRedraft, hNow⟩ := DeliveryRoute.updateNotes_redraft hNotes
      rcases hFirst with rfl | ⟨hBefore, _⟩
      · exact Or.inr ⟨hRedraft, 1, hNow⟩
      · exact Or.inr ⟨⟨hBefore.draft, hRedraft.id.trans hBefore.id, hRedraft.status,
          fun hStops => hRedraft.stops (hBefore.stops hStops)⟩, 1, hNow⟩

theorem ensures_addStop {surroundings : Surroundings} {routeId saleId : String}
    (hIn : routeId ∈ request.routeIds) (hClock : surroundings = request.surroundings) :
    (addStop surroundings routeId saleId).Ensures (routeProtection ticks) (RouteInv ticks) held
      known (Kept ticks request) := by
  unfold addStop DeliveryRoute.addStop checkSaleEligibility
  simp only [ensures_bind]
  apply ensures_runWithRouteLocks
  intro held' known' routes hHeld hRoutes
  apply ensures_check
  intro current hGet
  apply ensures_check
  intro _ hDraft
  apply ensures_query
  intro seen _ _
  apply ensures_check
  intro _ _
  apply ensures_check
  intro next hNext
  apply ensures_save
  intro known'' pending hKnown hPending
  obtain ⟨hMem, rfl⟩ := getRoute_eq_ok hGet
  obtain ⟨hRedraft, hNow⟩ :=
    DeliveryRoute.appendStop_redraft (DeliveryRoute.assertDraft_eq_ok.mp hDraft) hNext
  apply kept_edit (fun before hBefore =>
      (hRoutes before (hKnown before hBefore).1).2 current hMem) (hHeld _ (by simp)) hIn
    (Or.inr ⟨hRedraft, 0, hClock ▸ hNow⟩)
  intro before after hWrite
  obtain ⟨middle, hMiddle, hSaved⟩ := hPending before after hWrite
  cases hMiddle
  exact hSaved

/-- The loop of a creation numbers and reserves the stops. -/
theorem ensures_createStops {routeId : String} {stopId : Nat → String} {saleIds : List String}
    {index : Nat} {post : List Lock → (Tables → Prop) → List DeliveryRouteStop → Prop}
    (h : ∀ known' stops, (∀ later, known' later → known later) →
      stops.map (·.sortOrder) = List.range' index saleIds.length →
      (∀ stop ∈ stops, stop.routeId = routeId ∧ stop.status = .pending ∧
        stop.activeRouteId = some routeId) → post held known' stops) :
    (DeliveryRoute.createStops routeId stopId checkSaleEligibility index saleIds).Ensures
      (routeProtection ticks) (RouteInv ticks) held known post := by
  induction saleIds generalizing index known post with
  | nil => exact h known [] (fun _ hLater => hLater) rfl (by simp)
  | cons saleId rest ih =>
      simp only [DeliveryRoute.createStops, ensures_bind, checkSaleEligibility]
      apply ensures_query
      intro seen _ _
      apply ensures_check
      intro _ _
      apply ensures_check
      intro stop hStop
      obtain rfl := DeliveryRouteStop.create_eq_ok hStop
      apply ih
      intro known' stops hKnown hOrders hEach
      apply h known' _ (fun later hLater => (hKnown later hLater).1)
      · simp [DeliveryRouteStop.setActiveRouteId, hOrders, List.range'_succ]
      · intro other hOther
        rcases List.mem_cons.mp hOther with rfl | hOther
        · exact ⟨rfl, rfl, rfl⟩
        · exact hEach other hOther

theorem ensures_createRoute {surroundings : Surroundings} {driverUserId : String}
    {saleIds : List String} {notes : Option String} :
    (createRoute surroundings driverUserId saleIds notes).Ensures (routeProtection ticks)
      (RouteInv ticks) held known (Kept ticks request) := by
  unfold createRoute DeliveryRoute.create
  simp only [ensures_bind]
  apply ensures_check
  intro _ _
  apply ensures_createStops
  intro known' stops _ hOrders hEach
  apply ensures_lockKey
  intro seen _ _
  apply ensures_save
  intro known'' pending _ hPending before after _ _ hWrite
  obtain ⟨middle, hDrawn, hSaved⟩ := hPending before after hWrite
  split at hDrawn
  · next hUnused =>
      cases hDrawn
      have hNumbered : Numbered stops := by
        apply numbered_of_map
        have hLength : stops.length = saleIds.length := by
          simpa using congrArg List.length hOrders
        rw [hOrders, hLength, List.range_eq_range']
      refine ⟨Relation.ReflTransGen.single (.created hUnused rfl ⟨hEach, hNumbered⟩ hSaved), ?_⟩
      intro others hOthers
      apply agree_saved hSaved.effect fun stop hStop => (hEach stop hStop).1
      · rw [hUnused]
        simp
      · intro _ row hRow
        rw [hUnused] at hRow
        cases hRow
      · exact fun hKey => hOthers _ hKey List.mem_cons_self
  · cases hDrawn

/-- A transfer saves two drafts, one after the other. -/
theorem ensures_transferStop {surroundings : Surroundings} {can : String → Bool}
    {routeId stopId destinationRouteId : String} (hOrigin : routeId ∈ request.routeIds)
    (hDestination : destinationRouteId ∈ request.routeIds)
    (hClock : surroundings = request.surroundings) :
    (transferStop surroundings can routeId stopId destinationRouteId).Ensures
      (routeProtection ticks) (RouteInv ticks) held known (Kept ticks request) := by
  unfold transferStop
  simp only [ensures_bind]
  apply ensures_runWithRouteLocks
  intro held' known' routes hHeld hRoutes
  apply ensures_check
  intro origin hGetOrigin
  apply ensures_check
  intro destination hGetDestination
  apply ensures_check
  intro _ _
  apply ensures_check
  intro _ _
  apply ensures_check
  intro moved hMoved
  apply ensures_save
  intro known₁ pending₁ hKnown₁ hPending₁
  apply ensures_save
  rintro known₂ pending₂ hKnown₂ hPending₂ before after hBefore ⟨hInv, hLater⟩ hWrite
  obtain ⟨hMemOrigin, rfl⟩ := getRoute_eq_ok hGetOrigin
  obtain ⟨hMemDestination, rfl⟩ := getRoute_eq_ok hGetDestination
  obtain ⟨hNe, ⟨hNextOrigin, hNowOrigin⟩, hNextDestination, hNowDestination⟩ :=
    DeliveryRoute.transferStopTo_redraft hMoved
  obtain ⟨_, hStored⟩ := hRoutes before (hKnown₁ before (hKnown₂ before hBefore))
  obtain ⟨middle, hWriteOrigin, hSavedDestination⟩ := hPending₂ before after hWrite
  obtain ⟨start, hStart, hSavedOrigin⟩ := hPending₁ before middle hWriteOrigin
  cases hStart
  have hStoredOrigin := hStored origin hMemOrigin
  have hChange : RouteChange ticks before middle :=
    .redrafted hStoredOrigin hNextOrigin hSavedOrigin
  have hMiddle := hInv.change hChange
  -- The destination is still as it was loaded.
  have hEffect := hSavedOrigin.effect
  have hOriginStops := hNextOrigin.stops
    (draftStops_of_stored hInv.toConsistent hStoredOrigin hNextOrigin.draft)
  have hOther : destination.id ≠ moved.1.id := by
    rw [hNextOrigin.id]
    exact hNe
  have hStoredDestination : Stored middle destination := by
    obtain ⟨hRow, hPerm⟩ := hStored destination hMemDestination
    rw [Stored, hEffect.routes, Function.update_of_ne hOther,
      hEffect.stopsOf_of_ne (fun stop hStop => (hOriginStops.each stop hStop).1) hOther]
    exact ⟨hRow, hPerm⟩
  have hLaterMiddle : ticks → ∀ row, middle.routes destination.id = .stored row →
      ∀ reading, row.updatedAt < request.surroundings.clock reading := by
    intro hTicks row hRow reading
    rw [hEffect.routes, Function.update_of_ne hOther] at hRow
    exact hLater hTicks destination.id hDestination row hRow reading
  refine ⟨(Relation.ReflTransGen.single hChange).tail
    (.redrafted hStoredDestination hNextDestination hSavedDestination), fun others hOthers => ?_⟩
  have hFree : ∀ id, id = origin.id ∨ id = destination.id → Lock.route id ∉ others := by
    rintro id (rfl | rfl) hKey
    · exact hOthers _ hKey (hHeld _ (by simp))
    · exact hOthers _ hKey (hHeld _ (by simp))
  have hFirst : RouteAgree ticks others before middle :=
    agree_redrafted hInv.toConsistent hLater hStoredOrigin hOrigin hNextOrigin
      ⟨0, hClock ▸ hNowOrigin⟩ hSavedOrigin (hFree _ (Or.inl rfl))
  have hStops := hNextDestination.stops
    (draftStops_of_stored hMiddle.toConsistent hStoredDestination hNextDestination.draft)
  have hSecond : RouteAgree ticks others middle after := by
    apply agree_saved hSavedDestination.effect fun stop hStop => (hStops.each stop hStop).1
    · rw [hNextDestination.id, hStoredDestination.1]
      simp
    · intro hTicks row hRow
      rw [hNextDestination.id] at hRow
      rw [hNowDestination, hClock]
      exact Or.inl (hLaterMiddle hTicks row hRow 0)
    · rw [hNextDestination.id]
      exact hFree _ (Or.inr rfl)
  exact routeAgree_trans _ _ _ _ hFirst hSecond

theorem ensures_deleteRoute {surroundings : Surroundings} {routeId : String} :
    (deleteRoute surroundings routeId).Ensures (routeProtection ticks) (RouteInv ticks) held known
      (Kept ticks request) := by
  unfold deleteRoute
  simp only [ensures_bind]
  apply ensures_runWithRouteLocks
  intro held' known' routes hHeld hRoutes
  apply ensures_check
  intro existing hGet
  obtain ⟨hMem, rfl⟩ := getRoute_eq_ok hGet
  apply ensures_check
  intro _ hCan
  simp only [reject_eq_ok, not_not] at hCan
  apply ensures_loadRoute
  · rintro known'' hKnown before after hBefore _ hWrite
    cases hWrite
    exact ⟨Relation.ReflTransGen.refl, fun others _ => routeAgree_refl others before⟩
  · intro known'' current hId _ hLoaded
    simp only [ensures_bind]
    apply ensures_check
    rintro _ _ before after hBefore _ hWrite
    cases hWrite
    obtain ⟨hRow, hPerm⟩ := (hRoutes before (hLoaded before hBefore).1).2 existing hMem
    have hEmpty : before.stopsOf existing.id = [] := by
      rw [hCan.2] at hPerm
      exact hPerm.symm.eq_nil
    refine ⟨Relation.ReflTransGen.single (.deleted hRow hCan.1 hEmpty), fun others hOthers => ?_⟩
    have hNe : ∀ id, Lock.route id ∈ others → id ≠ existing.id := by
      rintro id hKey rfl
      exact hOthers _ hKey (hHeld _ (by simp))
    have hStopsOf : ∀ id, ((before.setRoute existing.id .deleted).deleteStops
        existing.id).stopsOf id = before.stopsOf id := by
      intro id
      show (before.stops.filter (¬ ·.routeId = existing.id)).filter (·.routeId = id) = _
      rw [List.filter_filter]
      apply List.filter_congr
      intro stop hStop
      rw [Tables.stopsOf, List.filter_eq_nil_iff] at hEmpty
      simp [by simpa using hEmpty stop hStop]
    have hRoutes' : ∀ id, id ≠ existing.id → ((before.setRoute existing.id .deleted).deleteStops
        existing.id).routes id = before.routes id := by
      intro id hOther
      simp [Tables.deleteStops, Tables.setRoute, Function.update_of_ne hOther]
    have hSelf : ((before.setRoute existing.id .deleted).deleteStops existing.id).routes
        existing.id = .deleted := by
      simp [Tables.deleteStops, Tables.setRoute]
    constructor
    · intro id hKey
      rw [hRoutes' id (hNe id hKey), hStopsOf]
      exact ⟨rfl, List.Perm.refl _⟩
    · exact fun id _ => rfl
    · intro id hGone
      by_cases hId' : id = existing.id
      · rw [hId', hSelf]
      · rw [hRoutes' id hId']
        exact hGone
    · intro _ id row hOld
      by_cases hId' : id = existing.id
      · rw [hId', hSelf]
        exact Or.inl rfl
      · rw [hRoutes' id hId', hStopsOf]
        exact Or.inr ⟨row, hOld, Or.inr ⟨rfl, List.Perm.refl _⟩⟩

end

/-! ### The compare-and-set transitions -/

/-- What a transition does to a stop: it writes only the columns that it compares, and what it
writes depends on nothing else of the stop. -/
structure ColumnStep (step : DeliveryRouteStop → DeliveryRouteStop) : Prop where
  id : ∀ stop, (step stop).id = stop.id
  columns : ∀ loaded stop, (StopExpectation.of loaded).Matches stop →
    step stop = { stop with
      status := (step loaded).status
      checkedInAt := (step loaded).checkedInAt
      completedAt := (step loaded).completedAt
      activeRouteId := (step loaded).activeRouteId }

/-- The stops that the transition meant to change, as they were loaded. -/
def Takes (step : DeliveryRouteStop → DeliveryRouteStop) (loaded : List DeliveryRouteStop)
    (stop : DeliveryRouteStop) : Prop :=
  ∃ prior ∈ loaded, stopTransitionChanged (.of prior) (step prior) ∧
    (StopExpectation.of prior).Matches stop

/-- `write` does the transition to the stops that it takes. -/
structure Writes (step : DeliveryRouteStop → DeliveryRouteStop) (loaded : List DeliveryRouteStop)
    (write : DeliveryRouteStop → DeliveryRouteStop) : Prop where
  taken : ∀ stop, Takes step loaded stop → write stop = step stop
  left : ∀ stop, ¬ Takes step loaded stop → write stop = stop

section

variable {step write : DeliveryRouteStop → DeliveryRouteStop} {loaded done : List DeliveryRouteStop}
  {prior : DeliveryRouteStop}

theorem Writes.either (h : Writes step loaded write) (stop : DeliveryRouteStop) :
    write stop = stop ∨ write stop = step stop := by
  by_cases hTakes : Takes step loaded stop
  · exact Or.inr (h.taken stop hTakes)
  · exact Or.inl (h.left stop hTakes)

theorem matches_of_self (stop : DeliveryRouteStop) : (StopExpectation.of stop).Matches stop :=
  ⟨rfl, rfl, rfl, rfl, rfl⟩

/-- On the stored version of a stop the transition is done. -/
theorem Writes.eq_of_mem (h : Writes step loaded write) (hStep : ColumnStep step)
    (hMem : prior ∈ loaded) : write prior = step prior := by
  by_cases hChanged : stopTransitionChanged (.of prior) (step prior)
  · exact h.taken prior ⟨prior, hMem, hChanged, matches_of_self prior⟩
  · have hSame : step prior = prior := by
      simp only [stopTransitionChanged, not_or, not_not, StopExpectation.of] at hChanged
      obtain ⟨hStatus, hCheckedIn, hCompleted, hMarker⟩ := hChanged
      rw [hStep.columns prior prior (matches_of_self prior), ← hStatus, ← hCheckedIn, ← hCompleted,
        ← hMarker]
    rw [hSame]
    rcases h.either prior with hKept | hDone
    · exact hKept
    · rw [hDone, hSame]

theorem Writes.snoc (h : Writes step done write) (hStep : ColumnStep step)
    (hFresh : ∀ other ∈ done, other.id ≠ prior.id)
    (hChanged : stopTransitionChanged (.of prior) (step prior)) :
    Writes step (done ++ [prior]) fun stop => writeStop (.of prior) (step prior) (write stop) := by
  have hOthers : ∀ stop : DeliveryRouteStop, stop.id = prior.id → ¬ Takes step done stop := by
    rintro stop hId ⟨other, hOther, _, hMatches⟩
    exact hFresh other hOther (hMatches.1.symm.trans hId)
  have hId : ∀ stop, (write stop).id = stop.id := by
    intro stop
    rcases h.either stop with hKept | hDone
    · rw [hKept]
    · rw [hDone, hStep.id]
  constructor
  · rintro stop ⟨other, hOther, hOtherChanged, hMatches⟩
    rcases List.mem_append.mp hOther with hDone | hLast
    · have hNot : ¬ (StopExpectation.of prior).Matches (write stop) := by
        intro hPrior
        exact hFresh other hDone
          (hMatches.1.symm.trans ((hId stop).symm.trans hPrior.1))
      rw [writeStop, if_neg hNot]
      exact h.taken stop ⟨other, hDone, hOtherChanged, hMatches⟩
    · obtain rfl := List.mem_singleton.mp hLast
      rw [h.left stop (hOthers stop hMatches.1), writeStop, if_pos hMatches]
      exact (hStep.columns other stop hMatches).symm
  · intro stop hNot
    have hLeft : ¬ Takes step done stop := fun ⟨other, hOther, hTaken⟩ =>
      hNot ⟨other, List.mem_append_left _ hOther, hTaken⟩
    have hPrior : ¬ (StopExpectation.of prior).Matches stop := fun hMatches =>
      hNot ⟨prior, List.mem_append_right _ (List.mem_singleton.mpr rfl), hChanged, hMatches⟩
    rw [h.left stop hLeft, writeStop, if_neg hPrior]

theorem Writes.skip (h : Writes step done write)
    (hSame : ¬ stopTransitionChanged (.of prior) (step prior)) :
    Writes step (done ++ [prior]) write := by
  have hIff : ∀ stop, Takes step (done ++ [prior]) stop ↔ Takes step done stop := by
    intro stop
    constructor
    · rintro ⟨other, hOther, hChanged, hMatches⟩
      rcases List.mem_append.mp hOther with hDone | hLast
      · exact ⟨other, hDone, hChanged, hMatches⟩
      · obtain rfl := List.mem_singleton.mp hLast
        exact absurd hChanged hSame
    · rintro ⟨other, hOther, hTaken⟩
      exact ⟨other, List.mem_append_left _ hOther, hTaken⟩
  exact ⟨fun stop hTakes => h.taken stop ((hIff stop).mp hTakes),
    fun stop hNot => h.left stop fun hTakes => hNot ((hIff stop).mpr hTakes)⟩

theorem find_expectation (snapshot : DeliveryRoute) {loaded : DeliveryRouteStop}
    (hIds : (snapshot.stops.map (·.id)).Nodup) (hMem : loaded ∈ snapshot.stops) :
    (captureRouteTransitionExpectation snapshot).stops.find? (·.id = loaded.id) =
      some (.of loaded) := by
  show (snapshot.stops.map StopExpectation.of).find? (·.id = loaded.id) = _
  cases hFound : (snapshot.stops.map StopExpectation.of).find? (·.id = loaded.id) with
  | none =>
      have hAbsent := List.find?_eq_none.mp hFound (.of loaded) (List.mem_map_of_mem hMem)
      simp [StopExpectation.of] at hAbsent
  | some prior =>
      have hId : prior.id = loaded.id := by simpa using List.find?_some hFound
      obtain ⟨other, hOther, rfl⟩ := List.mem_map.mp (List.mem_of_find?_eq_some hFound)
      rw [eq_of_id hIds hOther hMem hId]

end

section

variable {listing : Listing} {held : List Lock} {known : Tables → Prop}
  {step : DeliveryRouteStop → DeliveryRouteStop} {snapshot : DeliveryRoute}

/-- The loop over the stops of the snapshot: each write found its stop as it was loaded. -/
theorem ensures_commitStops (hIds : (snapshot.stops.map (·.id)).Nodup) (hStep : ColumnStep step)
    (hHeld : Lock.route snapshot.id ∈ held) {row : RouteRow → RouteRow}
    {todo done : List DeliveryRouteStop} {write : DeliveryRouteStop → DeliveryRouteStop}
    (hSplit : snapshot.stops = done ++ todo) (hWrites : Writes step done write)
    {post : List Lock → (Tables → Prop) → Rewrite → Prop}
    (h : ∀ known' write', (∀ later, known' later → known later) →
      Writes step snapshot.stops write' →
      (∀ later, known' later → ∀ prior ∈ todo, stopTransitionChanged (.of prior) (step prior) →
        ∃ stop ∈ later.stopsOf snapshot.id, (StopExpectation.of prior).Matches stop) →
      post held known' ⟨row, write'⟩) :
    (commitStops listing snapshot.id (captureRouteTransitionExpectation snapshot)
      (todo.map step) ⟨row, write⟩).Ensures (routeProtection ticks) (RouteInv ticks) held known
        post := by
  induction todo generalizing done known write with
  | nil =>
      rw [List.append_nil] at hSplit
      exact h known write (fun _ hLater => hLater) (hSplit ▸ hWrites) (by simp)
  | cons prior rest ih =>
      have hMem : prior ∈ snapshot.stops := by
        rw [hSplit]
        simp
      have hRest : snapshot.stops = (done ++ [prior]) ++ rest := by
        rw [hSplit, List.append_assoc, List.singleton_append]
      have hFresh : ∀ other ∈ done, other.id ≠ prior.id := by
        intro other hOther hId
        rw [hSplit, List.map_append, List.nodup_append] at hIds
        exact hIds.2.2 _ (List.mem_map_of_mem hOther) _
          (List.mem_map_of_mem List.mem_cons_self) hId
      rw [List.map_cons, commitStops, hStep.id, find_expectation snapshot hIds hMem]
      dsimp only
      split
      · next hChanged =>
          rw [ensures_bind]
          apply ensures_query
          intro seen _ _
          split
          · next hFound =>
              apply ih hRest (hWrites.snoc hStep hFresh hChanged)
              intro known' write' hKnown hWrites' hMatched
              apply h known' write' (fun later hLater => (hKnown later hLater).1) hWrites'
              intro later hLater other hOther hOtherChanged
              rcases List.mem_cons.mp hOther with rfl | hOther
              · obtain ⟨_, hAgree⟩ := hKnown later hLater
                obtain ⟨_, hPerm⟩ := hAgree.route snapshot.id hHeld
                simp only [List.any_eq_true, decide_eq_true_eq] at hFound
                obtain ⟨stop, hStop, hMatches⟩ := hFound
                refine ⟨stop, hPerm.mem_iff.mpr hStop, ?_⟩
                -- Nobody has written this stop so far.
                have hNot : ¬ Takes step done stop := by
                  rintro ⟨first, hFirst, _, hOld⟩
                  have hSame : (write stop).id = stop.id := by
                    rcases hWrites.either stop with hKept | hDone
                    · rw [hKept]
                    · rw [hDone, hStep.id]
                  exact hFresh first hFirst (hOld.1.symm.trans (hSame.symm.trans hMatches.1))
                rw [hWrites.left stop hNot] at hMatches
                exact hMatches
              · exact hMatched later hLater other hOther hOtherChanged
          · exact ensures_classifyStale
      · next hSame =>
          apply ih hRest (hWrites.skip hSame)
          intro known' write' hKnown hWrites' hMatched
          apply h known' write' hKnown hWrites'
          intro later hLater other hOther hOtherChanged
          rcases List.mem_cons.mp hOther with rfl | hOther
          · exact absurd hOtherChanged hSame
          · exact hMatched later hLater other hOther hOtherChanged

/-- What a committed transition found and does. -/
structure Committed (snapshot : DeliveryRoute) (step : DeliveryRouteStop → DeliveryRouteStop)
    (nextRow : RouteRow) (reconciledAt : Int) (rewrite : Rewrite) (later : Tables) : Prop where
  row : ∃ row, later.routes snapshot.id = .stored row ∧
    (captureRouteTransitionExpectation snapshot).Matches row
  found : ∀ prior ∈ snapshot.stops, stopTransitionChanged (.of prior) (step prior) →
    ∃ stop ∈ later.stopsOf snapshot.id, (StopExpectation.of prior).Matches stop
  write : ∃ write, Writes step snapshot.stops write ∧
    ((rewrite = ⟨writeRow nextRow, write⟩ ∧
        ∃ stop ∈ later.stopsOf snapshot.id, (write stop).IsOpen) ∨
      (rewrite = ⟨fun row => completeRow reconciledAt (writeRow nextRow row),
          fun stop => (write stop).setActiveRouteId none⟩ ∧
        ∀ stop ∈ later.stopsOf snapshot.id, ¬ (write stop).IsOpen))

theorem ensures_commitTransition (hIds : (snapshot.stops.map (·.id)).Nodup)
    (hStep : ColumnStep step) {next : DeliveryRoute} (hNext : next.stops = snapshot.stops.map step)
    {reconciledAt : Int} {post : List Lock → (Tables → Prop) → Rewrite → Prop}
    (h : ∀ held' known' rewrite, Lock.route snapshot.id ∈ held' →
      (∀ later, known' later → known later ∧
        Committed snapshot step next.toRouteRow reconciledAt rewrite later) →
      post held' known' rewrite) :
    (commitTransition listing snapshot.id (captureRouteTransitionExpectation snapshot) next
      reconciledAt).Ensures (routeProtection ticks) (RouteInv ticks) held known post := by
  unfold commitTransition
  rw [ensures_bind]
  apply ensures_lockRow
  · intro seen _ _ hMatched
    simp only [if_true, ensures_bind, hNext]
    have hNone : Writes step [] id := ⟨fun stop hTakes => by simp [Takes] at hTakes, fun _ _ => rfl⟩
    apply ensures_commitStops hIds hStep List.mem_cons_self (List.nil_append _).symm hNone
    intro known' write hKnown hWrites hFound
    unfold reconcileRouteCompletion
    rw [ensures_bind]
    apply ensures_query
    intro seen' _ hSeen'
    have hRow : ∀ later, known' later → ∃ row, later.routes snapshot.id = .stored row ∧
        (captureRouteTransitionExpectation snapshot).Matches row := by
      intro later hLater
      obtain ⟨_, hAgree⟩ := hKnown later hLater
      obtain ⟨row, hRow, hMatches⟩ := any_eq_true hMatched
      refine ⟨row, ?_, hMatches⟩
      rw [(hAgree.route snapshot.id List.mem_cons_self).1]
      exact findRoute_eq_some.mp hRow
    have hPerm : ∀ later, RouteAgree ticks (Lock.route snapshot.id :: held) seen' later →
        (later.stopsOf snapshot.id).Perm (seen'.stopsOf snapshot.id) := fun later hAgree =>
      (hAgree.route snapshot.id List.mem_cons_self).2
    split
    · next hOpen =>
        apply h _ _ _ List.mem_cons_self
        rintro later ⟨hLater, hAgree⟩
        refine ⟨(hKnown later hLater).1, hRow later hLater, hFound later hLater, write, hWrites,
          Or.inl ⟨rfl, ?_⟩⟩
        obtain ⟨stop, hStop, hIsOpen⟩ := List.countP_pos_iff.mp hOpen
        exact ⟨stop, (hPerm later hAgree).mem_iff.mpr hStop, of_decide_eq_true hIsOpen⟩
    · next hClosed =>
        apply h _ _ _ List.mem_cons_self
        rintro later ⟨hLater, hAgree⟩
        refine ⟨(hKnown later hLater).1, hRow later hLater, hFound later hLater, write, hWrites,
          Or.inr ⟨rfl, ?_⟩⟩
        intro stop hStop hIsOpen
        apply hClosed
        rw [gt_iff_lt, List.countP_pos_iff]
        exact ⟨stop, (hPerm later hAgree).mem_iff.mp hStop, decide_eq_true hIsOpen⟩
  · intro seen _ _ _
    exact ensures_classifyStale

end

theorem columnStep_release : ColumnStep (·.setActiveRouteId none) := by
  refine ⟨fun _ => rfl, ?_⟩
  rintro loaded stop ⟨_, hStatus, hCheckedIn, hCompleted, _⟩
  simp only [StopExpectation.of] at hStatus hCheckedIn hCompleted
  simp only [DeliveryRouteStop.setActiveRouteId]
  rw [← hStatus, ← hCheckedIn, ← hCompleted]

theorem columnStep_complete (stopId : String) (now : Int) :
    ColumnStep (DeliveryRoute.completeStop stopId now) := by
  refine ⟨fun stop => (completeStop_same stopId now stop).id, ?_⟩
  rintro loaded stop ⟨hId, hStatus, hCheckedIn, hCompleted, hMarker⟩
  simp only [StopExpectation.of] at hId hStatus hCheckedIn hCompleted hMarker
  simp only [DeliveryRoute.completeStop, DeliveryRouteStop.markCompleted]
  rw [← hId, ← hStatus]
  split
  · split
    · rw [← hStatus, ← hCheckedIn, ← hCompleted, ← hMarker]
    · rw [← hMarker]
  · rw [← hStatus, ← hCheckedIn, ← hCompleted, ← hMarker]

theorem ColumnStep.released {step : DeliveryRouteStop → DeliveryRouteStop} (h : ColumnStep step) :
    ColumnStep fun stop => (step stop).setActiveRouteId none := by
  refine ⟨h.id, fun loaded stop hMatches => ?_⟩
  rw [h.columns loaded stop hMatches]
  rfl

theorem columnStep_id : ColumnStep id := by
  refine ⟨fun _ => rfl, ?_⟩
  rintro loaded stop ⟨_, hStatus, hCheckedIn, hCompleted, hMarker⟩
  simp only [StopExpectation.of] at hStatus hCheckedIn hCompleted hMarker
  rw [id, id, ← hStatus, ← hCheckedIn, ← hCompleted, ← hMarker]

/-- A transition touches one route and at most one sale. -/
theorem agree_rewritten {rewrite : Rewrite} {routeId : String} {before : Tables} {row : RouteRow}
    (hStored : before.routes routeId = .stored row)
    (hSame : ∀ stop, SameStop stop (rewrite.stop stop))
    (hVersion : ticks → row.updatedAt < (rewrite.row row).updatedAt ∨
      (rewrite.row row = row ∧ ∀ stop ∈ before.stopsOf routeId, rewrite.stop stop = stop))
    {others : List Lock} (hOthers : Lock.route routeId ∉ others)
    {sales : String → Option RoutedSale} {outbox : List OutboxRow}
    (hSales : ∀ id, Lock.sale id ∈ others → sales id = before.sales id) :
    RouteAgree ticks others before
      { rewrite.apply routeId before with sales := sales, outbox := outbox } := by
  have hStopsOf : ∀ id, id ≠ routeId →
      (rewrite.apply routeId before).stopsOf id = before.stopsOf id := by
    intro id hId
    rw [stopsOf_apply hSame]
    conv_rhs => rw [← List.map_id (before.stopsOf id)]
    apply List.map_congr_left
    intro stop hStop
    have hNe : ¬ stop.routeId = routeId := by
      rw [(mem_stopsOf.mp hStop).2]
      exact hId
    rw [Rewrite.onStop, if_neg hNe, id_eq]
  have hRoutes : ∀ id, id ≠ routeId →
      (rewrite.apply routeId before).routes id = before.routes id := by
    intro id hId
    simp only [Rewrite.apply, hId, if_false]
    cases before.routes id <;> rfl
  constructor
  · intro id hKey
    have hNe : id ≠ routeId := by
      rintro rfl
      exact hOthers hKey
    exact ⟨hRoutes id hNe, List.Perm.of_eq (hStopsOf id hNe)⟩
  · exact hSales
  · intro id hGone
    show (rewrite.apply routeId before).routes id = .deleted
    simp only [Rewrite.apply, hGone]
  · intro hTicks id old hOld
    by_cases hId : id = routeId
    · subst hId
      rw [hStored] at hOld
      cases hOld
      refine Or.inr ⟨rewrite.row row, ?_, ?_⟩
      · show (rewrite.apply id before).routes id = .stored (rewrite.row row)
        simp only [Rewrite.apply, hStored, if_true]
      · rcases hVersion hTicks with hLater | ⟨hRow, hStops⟩
        · exact Or.inl hLater
        · refine Or.inr ⟨hRow, List.Perm.of_eq ?_⟩
          show (rewrite.apply id before).stopsOf id = before.stopsOf id
          rw [stopsOf_apply hSame]
          conv_rhs => rw [← List.map_id (before.stopsOf id)]
          apply List.map_congr_left
          intro stop hStop
          rw [Rewrite.onStop, if_pos (mem_stopsOf.mp hStop).2, hStops stop hStop, id_eq]
    · exact Or.inr ⟨old, (hRoutes id hId).trans hOld,
        Or.inr ⟨rfl, List.Perm.of_eq (hStopsOf id hId)⟩⟩

section

variable {request : RouteRequest} {held : List Lock} {known : Tables → Prop}
  {snapshot : DeliveryRoute} {step : DeliveryRouteStop → DeliveryRouteStop}

/-- Where the clock ticks, a transition that is committed was evaluated on the stored version. -/
theorem stored_of_committed {nextRow : RouteRow} {reconciledAt : Int} {rewrite : Rewrite}
    {before : Tables} (hTicks : ticks) (hLoaded : Loaded ticks held snapshot before)
    (hCommitted : Committed snapshot step nextRow reconciledAt rewrite before) :
    Stored before snapshot := by
  obtain ⟨row, hRow, hMatches⟩ := hCommitted.row
  exact hLoaded.version hTicks row hRow hMatches.2.2.2.2

theorem ensures_cancelRoute {surroundings : Surroundings} {routeId : String}
    (hIn : routeId ∈ request.routeIds) (hClock : surroundings = request.surroundings) :
    (cancelRoute surroundings routeId).Ensures (routeProtection ticks) (RouteInv ticks) held
      known (Kept ticks request) := by
  unfold cancelRoute
  rw [ensures_bind]
  apply ensures_loadRoute
  · exact fun _ _ => trivial
  · rintro known' snapshot rfl hIds hLoaded
    simp only [ensures_bind]
    apply ensures_check
    intro next hCancel
    obtain ⟨hOpen, rfl⟩ := DeliveryRoute.cancel_eq_ok hCancel
    apply ensures_commitTransition hIds columnStep_release rfl
    rintro held' known'' rewrite hHeld hKnown before after hBefore ⟨hInv, hLater⟩ hWrite
    cases hWrite
    obtain ⟨hBefore', hCommitted⟩ := hKnown before hBefore
    obtain ⟨row, hRow, hMatches⟩ := hCommitted.row
    obtain ⟨write, hWrites, hRewrite⟩ := hCommitted.write
    have hStatus : row.status = .draft ∨ row.status = .active := by
      rw [hMatches.1]
      exact hOpen
    have hStored : ticks → Stored before snapshot := fun hTicks =>
      stored_of_committed hTicks (hLoaded before hBefore').2 hCommitted
    have hDone : ticks → ∀ stop ∈ before.stopsOf snapshot.id,
        write stop = stop.setActiveRouteId none := fun hTicks stop hStop =>
      hWrites.eq_of_mem columnStep_release ((hStored hTicks).2.mem_iff.mpr hStop)
    have hForm : ∃ stop : DeliveryRouteStop → DeliveryRouteStop,
        rewrite = ⟨writeRow { snapshot.toRouteRow with
          status := .cancelled
          cancelledAt := some (surroundings.clock 0)
          updatedAt := surroundings.clock 0 }, stop⟩ ∧
        (∀ found, MaybeReleased found (stop found)) ∧
        (ticks → ∀ found ∈ before.stopsOf snapshot.id, (stop found).activeRouteId = none) := by
      rcases hRewrite with ⟨rfl, _⟩ | ⟨rfl, _⟩
      · refine ⟨write, rfl, hWrites.either, fun hTicks found hFound => ?_⟩
        rw [hDone hTicks found hFound]
        rfl
      · refine ⟨_, rfl, fun found => ?_, fun _ _ _ => rfl⟩
        rcases hWrites.either found with hKept | hReleased
        · rw [hKept]
          exact Or.inr rfl
        · rw [hReleased]
          exact Or.inr rfl
    obtain ⟨stop, rfl, hStop, hReleased⟩ := hForm
    refine ⟨Relation.ReflTransGen.single (.cancelled hRow hStatus rfl hStop hReleased),
      fun others hOthers => ?_⟩
    apply agree_rewritten hRow (fun found => (hStop found).same)
    · intro hTicks
      rw [hClock]
      exact Or.inl (hLater hTicks snapshot.id hIn row hRow 0)
    · exact fun hKey => hOthers _ hKey hHeld
    · exact fun _ _ => rfl

/-- What an evaluated check-in is about to write. -/
structure CheckInPlan (snapshot : DeliveryRoute) (stopId : String) (now : Int) (next : RouteRow)
    (step : DeliveryRouteStop → DeliveryRouteStop) (saleId : String) (rows : List OutboxRow) :
    Prop where
  columns : ColumnStep step
  maybe : ∀ stop, MaybeCompleted stopId now stop (step stop)
  status : snapshot.status = .active ∨ snapshot.status = .completed
  nextStatus : (next.status = .active ∧ snapshot.status = .active ∧
      ∀ stop, (step stop).activeRouteId = stop.activeRouteId) ∨
    (next.status = .completed ∧ ((∀ stop, (step stop).activeRouteId = none) ∨
      snapshot.status = .completed ∧ ∀ stop, step stop = stop))
  moved : next.updatedAt = now ∨ (next = snapshot.toRouteRow ∧ ∀ stop, step stop = stop)
  completed : ∀ stop ∈ snapshot.stops,
    (step stop).status = if stop.id = stopId then .completed else stop.status
  sale : ∃ found ∈ snapshot.stops, found.id = stopId ∧ found.saleId = saleId ∧
    ((rows = [] ∧ found.status = .completed) ∨
      found.status = .pending ∧ ∃ nextRows,
        rows = nextRows ++ [.thankYou saleId snapshot.id stopId] ∧
        (nextRows = [] ∨ ∃ next ∈ snapshot.stops, next.IsOpen ∧
          nextRows = [.nextStop snapshot.id stopId next.id next.saleId]))

theorem completeStop_status (stopId : String) (now : Int) (stop : DeliveryRouteStop) :
    (DeliveryRoute.completeStop stopId now stop).status =
      if stop.id = stopId then .completed else stop.status := by
  unfold DeliveryRoute.completeStop DeliveryRouteStop.markCompleted
  split
  · split
    · next hCompleted => exact hCompleted
    · rfl
  · rfl

theorem completeStop_marker (stopId : String) (now : Int) (stop : DeliveryRouteStop) :
    (DeliveryRoute.completeStop stopId now stop).activeRouteId = stop.activeRouteId := by
  unfold DeliveryRoute.completeStop DeliveryRouteStop.markCompleted
  split
  · split <;> rfl
  · rfl

/-- A stop that is open after the check-in of another one was open before it. -/
theorem open_of_completeStop {stopId : String} {now : Int} {stop : DeliveryRouteStop}
    (h : (DeliveryRoute.completeStop stopId now stop).IsOpen) :
    DeliveryRoute.completeStop stopId now stop = stop ∧ stop.IsOpen := by
  have hStatus := completeStop_status stopId now stop
  by_cases hId : stop.id = stopId
  · rw [if_pos hId] at hStatus
    rcases h with hPending | hProgress
    · rw [hPending] at hStatus
      cases hStatus
    · rw [hProgress] at hStatus
      cases hStatus
  · have hSame : DeliveryRoute.completeStop stopId now stop = stop := if_neg hId
    exact ⟨hSame, hSame ▸ h⟩

theorem plan_of_checkIn {stopId : String} {now : Int} {checkIn : CheckInStopResult}
    (hIds : (snapshot.stops.map (·.id)).Nodup)
    (h : snapshot.checkInStop stopId now = .ok checkIn) :
    ∃ step, checkIn.route.stops = snapshot.stops.map step ∧
      CheckInPlan snapshot stopId now checkIn.route.toRouteRow step checkIn.completedStop.saleId
        (checkInRows snapshot.id
          ((snapshot.stops.find? (·.id = stopId)).any (·.status = .pending)) checkIn) := by
  obtain ⟨found, hFind, hCases⟩ := DeliveryRoute.checkInStop_cases h
  have hMem := List.mem_of_find?_eq_some hFind
  have hId : found.id = stopId := by simpa using List.find?_some hFind
  rw [hFind]
  rcases hCases with ⟨hCompleted, hStatus, hRoute, hStop⟩ |
    ⟨hPending, hActive, hNone, hRoute, hStop, hNext⟩ |
    ⟨hPending, hActive, nextStop, hSome, hRoute, hStop, hNext⟩
  · -- A replay changes nothing.
    refine ⟨id, by rw [hRoute, List.map_id], ?_⟩
    rw [hRoute, hStop]
    refine ⟨columnStep_id, fun _ => Or.inl (Or.inl rfl), hStatus, ?_, Or.inr ⟨rfl, fun _ => rfl⟩,
      ?_, found, hMem, hId, rfl, Or.inl ⟨by simp [checkInRows, hCompleted], hCompleted⟩⟩
    · rcases hStatus with hActive | hDone
      · exact Or.inl ⟨hActive, hActive, fun _ => rfl⟩
      · exact Or.inr ⟨hDone, Or.inr ⟨hDone, fun _ => rfl⟩⟩
    · intro stop hStop'
      split
      · next hSame =>
          rw [id, eq_of_id hIds hStop' hMem (hSame.trans hId.symm), hCompleted]
      · rfl
  · -- The last stop.
    refine ⟨fun stop => (DeliveryRoute.completeStop stopId now stop).setActiveRouteId none, ?_, ?_⟩
    · rw [hRoute, List.map_map]
      rfl
    · rw [hRoute, hStop]
      refine ⟨(columnStep_complete stopId now).released, fun _ => Or.inr (Or.inr rfl),
        Or.inl hActive, Or.inr ⟨rfl, Or.inl fun _ => rfl⟩, Or.inl rfl,
        fun stop _ => completeStop_status stopId now stop, found, hMem, hId, ?_,
        Or.inr ⟨hPending, [], ?_, Or.inl rfl⟩⟩
      · simp [DeliveryRouteStop.markCompleted, DeliveryRouteStop.setActiveRouteId, hPending]
      · simp [checkInRows, hPending, hNext, hStop, hId, DeliveryRouteStop.markCompleted,
          DeliveryRouteStop.setActiveRouteId]
  · -- Another stop comes after it.
    refine ⟨DeliveryRoute.completeStop stopId now, by rw [hRoute], ?_⟩
    rw [hRoute, hStop]
    obtain ⟨hNextMem, hNextOpen⟩ := DeliveryRoute.nextPendingStop_eq_some hSome
    obtain ⟨later, hLater, rfl⟩ := List.mem_map.mp hNextMem
    obtain ⟨hSame, hOpen⟩ := open_of_completeStop hNextOpen
    refine ⟨columnStep_complete stopId now, fun _ => Or.inr (Or.inl rfl), Or.inl hActive,
      Or.inl ⟨hActive, hActive, completeStop_marker stopId now⟩, Or.inl rfl,
      fun stop _ => completeStop_status stopId now stop, found, hMem, hId, ?_,
      Or.inr ⟨hPending, [.nextStop snapshot.id stopId later.id later.saleId], ?_,
        Or.inr ⟨later, hLater, hOpen, rfl⟩⟩⟩
    · simp [DeliveryRouteStop.markCompleted, hPending]
    · rw [hSame] at hNext
      simp [checkInRows, hPending, hNext, hStop, hId, DeliveryRouteStop.markCompleted]

theorem kept_checkIn {stopId saleId : String} {next : RouteRow} {rows : List OutboxRow}
    {rewrite : Rewrite} (hIn : snapshot.id ∈ request.routeIds)
    (hPlan : CheckInPlan snapshot stopId (request.surroundings.clock 0) next step saleId rows)
    (hHeld : Lock.route snapshot.id ∈ held) (hSale : Lock.sale saleId ∈ held)
    (hKnown : ∀ before, known before → (∃ held, Loaded ticks held snapshot before) ∧
      Committed snapshot step next (request.surroundings.clock 1) rewrite before ∧
      ∃ sale, before.sales saleId = some sale) :
    Kept ticks request held known (saved fun tables =>
      .ok { (rewrite.apply snapshot.id tables).deliver saleId with
        outbox := tables.outbox ++ rows }) := by
  rintro before after hBefore ⟨hInv, hLater⟩ hWrite
  cases hWrite
  obtain ⟨⟨_, hLoaded⟩, hCommitted, hDeliverable⟩ := hKnown before hBefore
  obtain ⟨row, hRow, hMatches⟩ := hCommitted.row
  obtain ⟨write, hWrites, hRewrite⟩ := hCommitted.write
  have hStatus : row.status = snapshot.status := hMatches.1
  have hStored : ticks → Stored before snapshot := fun hTicks =>
    stored_of_committed hTicks hLoaded hCommitted
  have hMem : ticks → ∀ stop ∈ before.stopsOf snapshot.id, stop ∈ snapshot.stops :=
    fun hTicks stop hStop => (hStored hTicks).2.mem_iff.mpr hStop
  have hDone : ticks → ∀ stop ∈ before.stopsOf snapshot.id, write stop = step stop :=
    fun hTicks stop hStop => hWrites.eq_of_mem hPlan.columns (hMem hTicks stop hStop)
  have hMaybe : ∀ stop, MaybeCompleted stopId (request.surroundings.clock 0) stop
      (rewrite.stop stop) := by
    intro stop
    have hEither : MaybeCompleted stopId (request.surroundings.clock 0) stop (write stop) := by
      rcases hWrites.either stop with hKept | hStep
      · rw [hKept]
        exact Or.inl (Or.inl rfl)
      · rw [hStep]
        exact hPlan.maybe stop
    rcases hRewrite with ⟨rfl, _⟩ | ⟨rfl, _⟩
    · exact hEither
    · rcases hEither with (hSame | hSame) | (hSame | hSame)
      · exact Or.inl (Or.inr (congrArg (·.setActiveRouteId none) hSame))
      · exact Or.inl (Or.inr (congrArg (·.setActiveRouteId none) hSame))
      · exact Or.inr (Or.inr (congrArg (·.setActiveRouteId none) hSame))
      · exact Or.inr (Or.inr (congrArg (·.setActiveRouteId none) hSame))
  -- Either the route goes on with an open stop, or it is completed.
  have hNext : ((rewrite.row row).status = .active ∧ row.status = .active ∧
        rewrite = ⟨writeRow next, write⟩ ∧
        ∀ stop, (step stop).activeRouteId = stop.activeRouteId) ∨
      (rewrite.row row).status = .completed := by
    rcases hPlan.nextStatus with ⟨hActive, hWas, hMarkers⟩ | ⟨hCompleted, _⟩
    · rcases hRewrite with ⟨rfl, _⟩ | ⟨rfl, _⟩
      · exact Or.inl ⟨hActive, hStatus.trans hWas, rfl, hMarkers⟩
      · refine Or.inr ?_
        simp [completeRow, writeRow, hActive]
    · refine Or.inr ?_
      rcases hRewrite with ⟨rfl, _⟩ | ⟨rfl, _⟩
      · exact hCompleted
      · simp [completeRow, writeRow, hCompleted]
  have hId : (rewrite.row row).id = row.id := by
    rcases hRewrite with ⟨rfl, _⟩ | ⟨rfl, _⟩
    · rfl
    · simp only [completeRow]
      split <;> rfl
  have hReleased : ticks → (rewrite.row row).status = .completed →
      ∀ stop ∈ before.stopsOf snapshot.id, (rewrite.stop stop).activeRouteId = none := by
    intro hTicks hCompleted stop hStop
    rcases hRewrite with ⟨rfl, _⟩ | ⟨rfl, _⟩
    · show (write stop).activeRouteId = none
      rw [hDone hTicks stop hStop]
      rcases hPlan.nextStatus with ⟨hActive, _⟩ | ⟨_, hNone | ⟨hWas, hSame⟩⟩
      · rw [show (writeRow next row).status = next.status from rfl, hActive] at hCompleted
        cases hCompleted
      · exact hNone stop
      · rw [hSame]
        obtain ⟨hStopMem, hRoute⟩ := mem_stopsOf.mp hStop
        obtain ⟨own, hOwn, hStopInv⟩ := hInv.stops stop hStopMem
        rw [hRoute, hRow] at hOwn
        cases hOwn
        exact hStopInv.released hTicks (Or.inl (hStatus.trans hWas))
    · rfl
  have hChecksIn : ticks → ChecksIn before snapshot.id stopId row (rewrite.row row) rewrite.stop
      saleId rows := by
    intro hTicks
    have hPerm := (hStored hTicks).2
    refine ⟨?_, ?_, hReleased hTicks⟩
    · obtain ⟨found, hFound, hFoundId, hFoundSale, hRows⟩ := hPlan.sale
      refine ⟨found, hPerm.mem_iff.mp hFound, hFoundId, hFoundSale, ?_⟩
      rcases hRows with hReplay | ⟨hPending, nextRows, hRows, hNextRows⟩
      · exact Or.inl hReplay
      · refine Or.inr ⟨hPending, nextRows, hRows, ?_⟩
        rcases hNextRows with hNil | ⟨later, hLaterMem, hOpen, hEq⟩
        · exact Or.inl hNil
        · exact Or.inr ⟨later, hPerm.mem_iff.mp hLaterMem, hOpen, hEq⟩
    · intro stop hStop
      have hStatus' := hPlan.completed stop (hMem hTicks stop hStop)
      rw [← hDone hTicks stop hStop] at hStatus'
      rcases hRewrite with ⟨rfl, _⟩ | ⟨rfl, _⟩
      · exact hStatus'
      · exact hStatus'
  have hArmed : (rewrite.row row).status = .active → ∀ stop ∈ before.stopsOf snapshot.id,
      (rewrite.stop stop).activeRouteId = stop.activeRouteId := by
    intro hActive stop _
    rcases hNext with ⟨_, _, rfl, hMarkers⟩ | hCompleted
    · rcases hWrites.either stop with hKept | hStep
      · exact congrArg (·.activeRouteId) hKept
      · exact (congrArg (·.activeRouteId) hStep).trans (hMarkers stop)
    · rw [hCompleted] at hActive
      cases hActive
  have hLive : (rewrite.row row).status = .active → ∃ stop ∈ before.stopsOf snapshot.id,
      (rewrite.stop stop).IsOpen := by
    intro hActive
    rcases hRewrite with ⟨rfl, hOpen⟩ | ⟨rfl, _⟩
    · exact hOpen
    · simp only [completeRow] at hActive
      split at hActive
      · cases hActive
      · next hNot => exact absurd hActive hNot
  refine ⟨Relation.ReflTransGen.single (.checkedIn hRow ?_ hId ?_ hMaybe hArmed hLive hChecksIn
    hDeliverable), fun others hOthers => ?_⟩
  · rw [hStatus]
    exact hPlan.status
  · rcases hNext with ⟨hActive, hWas, _⟩ | hCompleted
    · exact Or.inl ⟨hActive, hWas⟩
    · exact Or.inr hCompleted
  · apply agree_rewritten hRow (fun stop => (hMaybe stop).same)
    · intro hTicks
      have hNow := hLater hTicks snapshot.id hIn row hRow
      have hRowEq : snapshot.toRouteRow = row := by
        have hSame := (hStored hTicks).1
        rw [hRow] at hSame
        cases hSame
        rfl
      by_cases hCompletes : rewrite = ⟨writeRow next, write⟩ ∨ next.status = .completed
      · have hWritten : rewrite.row row = writeRow next row := by
          rcases hCompletes with rfl | hCompleted
          · rfl
          · rcases hRewrite with ⟨rfl, _⟩ | ⟨rfl, _⟩
            · rfl
            · simp [completeRow, writeRow, hCompleted]
        rcases hPlan.moved with hMoved | ⟨hSame, hStep⟩
        · rw [hWritten, show (writeRow next row).updatedAt = next.updatedAt from rfl, hMoved]
          exact Or.inl (hNow 0)
        · refine Or.inr ⟨by rw [hWritten, hSame, hRowEq]; rfl, fun stop hStop => ?_⟩
          rcases hRewrite with ⟨rfl, _⟩ | ⟨rfl, _⟩
          · exact (hDone hTicks stop hStop).trans (hStep stop)
          · -- The reconciliation finds the markers of a completed route cleared.
            have hWas : row.status = .completed := by
              rcases hCompletes with hNot | hCompleted
              · have hRows := congrArg (fun rewrite => (rewrite.row row).status) hNot
                simp only [completeRow] at hRows
                split at hRows
                · next hActive =>
                    rw [← hRows] at hActive
                    cases hActive
                · next hNotActive =>
                    rw [hSame, hRowEq] at hNotActive
                    rcases hPlan.status with hActive | hCompleted
                    · exact absurd (hStatus.trans hActive) hNotActive
                    · exact hStatus.trans hCompleted
              · rw [hSame, hRowEq] at hCompleted
                exact hCompleted
            obtain ⟨hStopMem, hRoute⟩ := mem_stopsOf.mp hStop
            obtain ⟨own, hOwn, hStopInv⟩ := hInv.stops stop hStopMem
            rw [hRoute, hRow] at hOwn
            cases hOwn
            have hMarker := hStopInv.released hTicks (Or.inl hWas)
            show (write stop).setActiveRouteId none = stop
            rw [hDone hTicks stop hStop, hStep, DeliveryRouteStop.setActiveRouteId, ← hMarker]
      · rcases hRewrite with ⟨rfl, _⟩ | ⟨rfl, _⟩
        · exact absurd (Or.inl rfl) hCompletes
        · have hActive : next.status = .active := by
            rcases hPlan.nextStatus with ⟨hActive, _⟩ | ⟨hCompleted, _⟩
            · exact hActive
            · exact absurd (Or.inr hCompleted) hCompletes
          refine Or.inl ?_
          simpa [completeRow, writeRow, hActive] using hNow 1
    · exact fun hKey => hOthers _ hKey hHeld
    · intro id hKey
      have hNe : id ≠ saleId := by
        rintro rfl
        exact hOthers _ hKey hSale
      exact Function.update_of_ne hNe _ _

theorem ensures_checkInStop {surroundings : Surroundings} {routeId stopId : String}
    (hIn : routeId ∈ request.routeIds) (hClock : surroundings = request.surroundings) :
    (checkInStop surroundings routeId stopId).Ensures (routeProtection ticks) (RouteInv ticks) held
      known (Kept ticks request) := by
  subst hClock
  unfold checkInStop
  rw [ensures_bind]
  apply ensures_loadRoute
  · exact fun _ _ => trivial
  · rintro known' snapshot rfl hIds hLoaded
    simp only [ensures_bind]
    apply ensures_check
    intro checkIn hCheckIn
    obtain ⟨step, hStops, hPlan⟩ := plan_of_checkIn hIds hCheckIn
    apply ensures_commitTransition hIds hPlan.columns hStops
    intro held' known'' rewrite hHeld hKnown
    unfold markSaleDelivered
    rw [ensures_bind]
    apply ensures_lockRow
    · intro seen _ _ hMatched
      obtain ⟨sale, hSale, _⟩ := any_eq_true hMatched
      apply kept_checkIn hIn hPlan (List.mem_cons_of_mem _ hHeld) List.mem_cons_self
      rintro before ⟨hBefore, hAgree⟩
      obtain ⟨hBefore', hCommitted⟩ := hKnown before hBefore
      refine ⟨⟨held, (hLoaded before hBefore').2⟩, hCommitted, sale, ?_⟩
      rw [hAgree.sale _ List.mem_cons_self, hSale]
    · intro seen _ _ _
      simp only [Bool.false_eq_true, if_false]
      rw [ensures_bind]
      apply ensures_query
      intro seen' _ _
      split
      · exact trivial
      · exact trivial

end

theorem ensures_body (request : RouteRequest) :
    request.body.Ensures (routeProtection ticks) (RouteInv ticks) [] (fun _ => True)
      (Kept ticks request) := by
  obtain ⟨surroundings, command⟩ := request
  cases command with
  | create driverUserId saleIds notes => exact ensures_createRoute
  | addStop routeId saleId => exact ensures_addStop List.mem_cons_self rfl
  | reorderStops routeId orderedStopIds =>
      apply ensures_editRoute List.mem_cons_self
      intro current next hNext
      obtain ⟨hRedraft, hNow⟩ := DeliveryRoute.reorderStops_redraft hNext
      exact Or.inr ⟨hRedraft, 0, hNow⟩
  | transferStop can routeId stopId destinationRouteId =>
      exact ensures_transferStop List.mem_cons_self (List.mem_cons_of_mem _ List.mem_cons_self) rfl
  | update routeId driverUserId notes =>
      apply ensures_editRoute List.mem_cons_self
      exact fun current next hNext => applyUpdate_edits hNext
  | start routeId =>
      apply ensures_editRoute List.mem_cons_self
      intro current next hNext
      obtain ⟨hRedraft, hNow⟩ := DeliveryRoute.start_redraft hNext
      exact Or.inr ⟨hRedraft, 0, hNow⟩
  | cancel routeId => exact ensures_cancelRoute List.mem_cons_self rfl
  | checkInStop routeId stopId => exact ensures_checkInStop List.mem_cons_self rfl
  | delete routeId => exact ensures_deleteRoute

theorem keptBy_of_routeBody {body : RouteTx RouteEnding} (h : RouteBody body) :
    (routeTerms ticks).KeptBy body := by
  apply keptBy_of_ensures h
  rintro request rfl
  exact ensures_body request

/-! ### Runs of the service -/

abbrev RouteSystem (Tid : Type) := System Tid Lock Tables Failure Unit

abbrev RouteEvent (Tid : Type) := Event Tid Lock Tables Failure Unit

/-- A commit of a request whose clock reads later than the stored routes it writes. -/
def ClockTicks {Tid : Type} (system : RouteSystem Tid) (event : RouteEvent Tid) : Prop :=
  (routeTerms True).Timely system event

section

variable {Tid : Type} [DecidableEq Tid] {system after : RouteSystem Tid}
  {events : List (RouteEvent Tid)}

/-- The invariant at the opening. -/
theorem routeInv_opened (sales : String → Option RoutedSale) :
    RouteInv ticks (Tables.opened sales) := by
  refine ⟨⟨?_, rfl, ?_, ?_, ?_⟩, fun _ => ⟨?_, ?_, ?_, ?_⟩⟩ <;>
    simp [Tables.opened, Tables.stopsOf, Numbered]

/-- What is in flight knows what it needs, and the tables are consistent. -/
structure RouteReached (ticks : Prop) (system : RouteSystem Tid) : Prop where
  flies : system.Each ((routeTerms ticks).Flies RouteBody system.tables)
  inv : RouteInv ticks system.tables

theorem RouteInv.changes {before later : Tables} (h : RouteInv ticks before)
    (hChanges : Relation.ReflTransGen (RouteChange ticks) before later) :
    RouteInv ticks later := by
  induction hChanges with
  | refl => exact h
  | tail _ last ih => exact ih.change last

/-- A serial run of the commits. -/
theorem changes_of_commits {before later : Tables} {served : List (RouteTx RouteEnding × Unit)}
    (run : Transition.Runs ((routeTerms ticks).Commits RouteBody) before served later) :
    Relation.ReflTransGen (RouteChange ticks) before later := by
  induction run with
  | zero => exact Relation.ReflTransGen.refl
  | succ _ last ih => exact ih.trans last.2.2

/-- The tables change by the changes of the service only. -/
theorem RouteReached.runs (h : RouteReached ticks system)
    (run : Transition.Runs (Transition.Guarded (Step RouteBody) (routeTerms ticks).Timely) system
      events after) :
    RouteReached ticks after ∧
      Relation.ReflTransGen (RouteChange ticks) system.tables after.tables := by
  have hInvariant : ∀ before served later, RouteInv ticks before →
      (routeTerms ticks).Commits RouteBody before served later → RouteInv ticks later :=
    fun _ _ _ hInv hCommits => hInv.changes hCommits.2.2
  obtain ⟨hFlies, hInv, hSerial⟩ := Terms.commits_of_runs
    (fun _ => keptBy_of_routeBody) hInvariant h.flies h.inv run
  exact ⟨⟨hFlies, hInv⟩, changes_of_commits hSerial⟩

/-- Whatever the clock does, what does not depend on it is kept. -/
theorem RouteReached.runs_anytime (h : RouteReached False system)
    (run : Transition.Runs (Step RouteBody) system events after) :
    RouteReached False after ∧
      Relation.ReflTransGen (RouteChange False) system.tables after.tables := by
  apply h.runs
  apply run.mono
  intro before event later hStep
  refine ⟨hStep, ?_⟩
  cases event with
  | commit tid body answer => exact False.elim
  | begin _ _ => trivial
  | statement _ => trivial
  | rollback _ => trivial

omit [DecidableEq Tid] in
theorem routeReached_idle (sales : String → Option RoutedSale) :
    RouteReached ticks (System.idle (Tables.opened sales) : RouteSystem Tid) :=
  ⟨System.each_idle _ _, routeInv_opened sales⟩

theorem routeReached_of_runs {sales : String → Option RoutedSale}
    (run : Transition.Runs (Step RouteBody)
      (System.idle (Tables.opened sales) : RouteSystem Tid) events system) :
    RouteReached False system :=
  ((routeReached_idle sales).runs_anytime run).1

end

end Houndfe.DeliveryRoutes
