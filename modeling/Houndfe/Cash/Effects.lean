import Houndfe.Cash.Serial

/-! What a transaction of the cash register does to the tables, and what it had to find there
first: every invariant is read off this. -/

namespace Houndfe.Cash

open PaymentMethods Transactions Transition Adapter

/-! ### What a transaction can do -/

def movementsIn (rows : List MovementRow) : List CashMovement :=
  rows.map fun row => row.movement

/-- A session row as an opening inserts it. -/
structure SessionRow.Fresh (row : SessionRow) : Prop where
  opened : row.status = .opened
  notFrozen : row.frozenAt = none
  unexpected : row.expectedJson = none
  unreleased : row.drawerReleasedAt = none

def SessionRow.freeze (now : Int) (snapshot : ExpectedSnapshot) (row : SessionRow) : SessionRow :=
  { row with status := .counting, frozenAt := some now, expectedJson := some snapshot }

def SessionRow.submit (now : Int) (row : SessionRow) : SessionRow :=
  { row with status := .submitted, submittedAt := some now }

def SessionRow.release (now : Int) (row : SessionRow) : SessionRow :=
  { row with drawerReleasedAt := some now }

def SessionRow.shut (now : Int) (row : SessionRow) : SessionRow :=
  { row with status := .closed, closedAt := some now }

/-- The float behind an opening: received by the cashier, in the amount he opens with. -/
structure FundedBy (row : SessionRow) (handover : CashHandover) : Prop where
  float : handover.kind = .float
  received : handover.receivedAt ≠ none
  receiver : handover.receivedByUserId = some row.cashierUserId.val
  amount : handover.receivedCents = some row.openingCents.val

/-- What the handovers of a session declare together. -/
def handedOver (handovers : List CashHandover) : Int :=
  (handovers.map CashHandover.declaredCents).sum

/-- The effect of one transaction, besides the row of its answer, with what it had to find. -/
inductive CashChange (tables : CashTables) : CashTables → Prop where
  | registers (registers : Keyed.Rows CashRegister.id) :
      CashChange tables { tables with registers }
  | opened {row : SessionRow} {sessions : Keyed.Rows SessionRow.key}
      (insert : tables.sessions.insert row = some sessions) (fresh : row.Fresh)
      (free : ∀ other ∈ tables.sessions.rows,
        (row.openingHandoverId ≠ none → other.openingHandoverId ≠ row.openingHandoverId) ∧
        (other.drawerReleasedAt = none → other.registerId ≠ row.registerId))
      (funded : ∀ id, row.openingHandoverId = some id →
        ∃ handover, findHandover tables id = some handover ∧ FundedBy row handover) :
      CashChange tables { tables with sessions }
  | recorded {id : String} {session : SessionRow} {rows : List MovementRow}
      (found : findSession tables id = some session) (unfrozen : ¬ isFrozen session.toCashSession)
      (ofSession : ∀ row ∈ rows, row.movement.sessionId = id)
      (records : Recorded session.toCashSession (movementsIn (movementsOf tables id))
        (movementsIn rows)) :
      CashChange tables { tables with movements := tables.movements ++ rows }
  | frozen {id : String} {session : SessionRow} {collate : String → String → Bool}
      {loaded : List MovementRow} {now : Int} {snapshot : ExpectedSnapshot}
      (found : findSession tables id = some session) (unfrozen : ¬ isFrozen session.toCashSession)
      (loads : loaded.Perm (movementsOf tables id))
      (built : buildExpectedSnapshot collate session.openingCents.val (movementsIn loaded) now =
        .ok snapshot) :
      CashChange tables
        (updateSession id (SessionRow.freeze now snapshot) (fun _ => rfl) tables)
  | declared {id : String} {session : SessionRow} {expected : ExpectedSnapshot}
      {count : CashCount} {now : Int} (found : findSession tables id = some session)
      (counting : session.status = .counting) (expects : session.expectedJson = some expected)
      (first : ∀ other ∈ countsOf tables id, other.kind ≠ .declaration)
      (ofSession : count.sessionId = id) (kind : count.kind = .declaration)
      (counted : Counted (Adapter.requiredChannels expected) count.lines) :
      CashChange tables (updateSession id (SessionRow.submit now) (fun _ => rfl)
        { tables with counts := tables.counts ++ [count] })
  | annotated {id : String} {session : SessionRow} {declaration count : CashCount}
      (found : findSession tables id = some session) (notClosed : session.status ≠ .closed)
      (unverified : ∀ other ∈ countsOf tables id, other.kind ≠ .verification)
      (declares : latestOf .declaration (countsOf tables id) = some declaration)
      (ofSession : count.sessionId = id) (kind : count.kind = .declaration)
      (lines : count.lines = declaration.lines) :
      CashChange tables { tables with counts := tables.counts ++ [count] }
  | verified {id : String} {session : SessionRow} {count : CashCount}
      (found : findSession tables id = some session) (submitted : session.status = .submitted)
      (ofSession : count.sessionId = id) (kind : count.kind = .verification) :
      CashChange tables { tables with counts := tables.counts ++ [count] }
  | handedOver {id : String} {session : SessionRow} {declaration : CashCount}
      {row : CashHandover} {handovers : Keyed.Rows CashHandover.id}
      (found : findSession tables id = some session) (submitted : session.status = .submitted)
      (declares : latestOf .declaration (countsOf tables id) = some declaration)
      (ofSession : row.sourceSessionId = id) (unreceived : row.receivedAt = none)
      (nonneg : 0 ≤ row.declaredCents)
      (fits : row.declaredCents + Cash.handedOver (handoversOf tables id) ≤
        cashCents declaration.lines)
      (insert : tables.handovers.insert row = some handovers) :
      CashChange tables { tables with handovers }
  | received {handover : CashHandover} {actorUserId : String} {now : Int}
      {command : ReceiveCommand} (found : findHandover tables handover.id = some handover)
      (unreceived : handover.receivedAt = none) :
      CashChange tables (updateHandover handover.id
        (fun row => CashHandover.receive row actorUserId now command) (fun _ => rfl) tables)
  | released {id : String} {session : SessionRow} {declaration : CashCount} {now : Int}
      (found : findSession tables id = some session) (frozen : isFrozen session.toCashSession)
      (unreleased : session.drawerReleasedAt = none)
      (declares : latestOf .declaration (countsOf tables id) = some declaration)
      (received : ∀ handover ∈ handoversOf tables id, handover.receivedAt ≠ none)
      (allocated : Cash.handedOver (handoversOf tables id) = cashCents declaration.lines) :
      CashChange tables (updateSession id (SessionRow.release now) (fun _ => rfl) tables)
  | closed {id : String} {session : SessionRow} {expected : ExpectedSnapshot}
      {declaration verification : CashCount} {row : CashClosing} {now : Int}
      {closings : Keyed.Rows CashClosing.sessionId}
      (found : findSession tables id = some session) (submitted : session.status = .submitted)
      (released : session.drawerReleasedAt ≠ none)
      (expects : session.expectedJson = some expected)
      (declares : latestOf .declaration (countsOf tables id) = some declaration)
      (verifies : latestOf .verification (countsOf tables id) = some verification)
      (received : ∀ handover ∈ handoversOf tables id, handover.receivedAt ≠ none)
      (allocated : Cash.handedOver (handoversOf tables id) = cashCents declaration.lines)
      (ofSession : row.sessionId = id)
      (cut : row.snapshot.expectedCents = expected.cashExpectedCents ∧
        row.snapshot.declaredCents = cashCents declaration.lines ∧
        row.snapshot.verifiedCents = cashCents verification.lines)
      (custody : (handoversOf tables id).mapM toSnapshotHandover = .ok row.snapshot.handovers)
      (insert : tables.closings.insert row = some closings) :
      CashChange tables (updateSession id (SessionRow.shut now) (fun _ => rfl)
        { tables with closings })

/-! ### The statements of a body -/

section

variable {surroundings : Surroundings} {actor : CashActor} {tables : CashTables}
  {out : CashTables × CashDocument}

theorem serve_requireSessionLocked {sessionId : String} {k : SessionRow → CashTx CashEnding} :
    serve (requireSessionLocked sessionId >>= k) tables = .ok out ↔
      ∃ session, findSession tables sessionId = some session ∧
        serve (k session) tables = .ok out := by
  simp only [requireSessionLocked, lockSessionRow, bind_assoc, serve_lockRow, serve_check,
    serve_query, bind_eq_ok, throwIf_eq_ok, exists_const, orThrow_eq_ok]
  constructor
  · rintro ⟨_, session, hFound, hServe⟩
    exact ⟨session, hFound, hServe⟩
  · rintro ⟨session, hFound, hServe⟩
    exact ⟨by simp [hFound], session, hFound, hServe⟩

@[simp] theorem serve_loadSessionMovements {sessionId : String}
    {k : List CashMovement → CashTx CashEnding} :
    serve (loadSessionMovements surroundings sessionId >>= k) tables =
      serve (k (movementsIn (surroundings.load (movementsOf tables sessionId)))) tables := rfl

theorem movementsIn_perm {first second : List MovementRow} (h : first.Perm second) :
    (movementsIn first).Perm (movementsIn second) :=
  h.map _

/-- What may be added does not depend on the order of a load. -/
theorem Recorded.of_perm {session : CashSession} {existing existing' added : List CashMovement}
    (h : Recorded session existing added) (hPerm : existing.Perm existing') :
    Recorded session existing' added := by
  refine ⟨h.1, h.2.imp id fun hRange => ?_⟩
  rwa [cashSum_append, ← cashSum_perm hPerm, ← cashSum_append]

theorem movementsIn_movementRows (actorId : String) (occurredAt : Int)
    (movements : List CashMovement) :
    movementsIn (movementRows surroundings actorId occurredAt movements) = movements :=
  movementRows_movements surroundings actorId occurredAt movements

theorem findSession_self {id : String} {session : SessionRow}
    (h : findSession tables id = some session) :
    findSession tables session.id.val = some session :=
  (findSession_id h).symm ▸ h

theorem mem_updateSession {id : String} {change : SessionRow → SessionRow}
    {hKey : ∀ row : SessionRow, (change row).key = row.key} {session : SessionRow} :
    session ∈ (updateSession id change hKey tables).sessions.rows ↔
      ∃ row ∈ tables.sessions.rows, (if row.key = id then change row else row) = session :=
  List.mem_map

theorem find_updateSession {id id' : String} {change : SessionRow → SessionRow}
    {hKey : ∀ row : SessionRow, (change row).key = row.key} :
    findSession (updateSession id change hKey tables) id' =
      if id' = id then (findSession tables id').map change else findSession tables id' := by
  rw [findSession, updateSession, Keyed.Rows.find_modify]
  rfl

theorem findSession_updateSession {id : String} {session : SessionRow}
    {change : SessionRow → SessionRow} {hKey : ∀ row : SessionRow, (change row).key = row.key}
    (hFound : findSession tables id = some session) {id' : String} {session' : SessionRow}
    (h : findSession (updateSession id change hKey tables) id' = some session') :
    (id' = id ∧ session' = change session) ∨
      (id' ≠ id ∧ findSession tables id' = some session') := by
  rw [find_updateSession] at h
  by_cases hId : id' = id
  · subst hId
    rw [if_pos rfl, hFound, Option.map_some, Option.some.injEq] at h
    exact Or.inl ⟨rfl, h.symm⟩
  · rw [if_neg hId] at h
    exact Or.inr ⟨hId, h⟩

theorem find_updateHandover {id id' : String} {change : CashHandover → CashHandover}
    {hKey : ∀ row : CashHandover, (change row).id = row.id} :
    findHandover (updateHandover id change hKey tables) id' =
      if id' = id then (findHandover tables id').map change else findHandover tables id' := by
  rw [findHandover, updateHandover, Keyed.Rows.find_modify]
  rfl

/-! ### Registers, openings and movements -/

theorem createRegister_change {name : String}
    (h : serve (createRegister surroundings actor name) tables = .ok out) :
    CashChange tables out.1 := by
  simp only [createRegister, serve_check, serve_query, serve_pure, bind_eq_ok, map_eq_ok] at h
  obtain ⟨_, _, _, _, _, _, after, hInsert, rfl⟩ := h
  cases hRow : insertRegister
      ⟨surroundings.newId.val, Text.trim name, true, surroundings.databaseNow⟩ tables with
  | error error => simp [hRow, Except.mapError] at hInsert
  | ok middle =>
      simp only [hRow, Except.mapError, Except.ok.injEq] at hInsert
      obtain ⟨_, registers, _, hSame⟩ := insertRegister_eq_ok.mp hRow
      rw [← hInsert, ← hSame]
      exact .registers registers

theorem updateRegister_change {id : String} {name : Option String} {isActive : Option Bool}
    (h : serve (updateRegister surroundings actor id name isActive) tables = .ok out) :
    CashChange tables out.1 := by
  simp only [updateRegister, lockRegisterRow, serve_check, serve_query, serve_lockRow, serve_pure,
    bind_eq_ok, map_eq_ok] at h
  obtain ⟨_, _, row, _, _, _, _, _, _, _, after, hSave, rfl⟩ := h
  obtain ⟨_, rfl⟩ := saveRegister_eq_ok.mp hSave
  exact .registers _

theorem createSession_change {register : CashRegister} {openingCents : Int}
    {openingHandoverId : Option String}
    (hFunded : ∀ id, openingHandoverId = some id → ∃ handover,
      findHandover tables id = some handover ∧ handover.kind = .float ∧
        handover.receivedAt ≠ none ∧ handover.receivedByUserId = some actor.userId ∧
        handover.receivedCents = some openingCents)
    (h : serve (createSession surroundings actor register openingCents openingHandoverId) tables =
      .ok out) : CashChange tables out.1 := by
  simp only [createSession, newSession, serve_check, serve_pure, bind_eq_ok, pure_eq_ok,
    map_eq_ok] at h
  obtain ⟨row, ⟨session, hOpen, rfl⟩, _, _, after, hInsert, rfl⟩ := h
  obtain ⟨hFree, sessions, hRow, rfl⟩ := insertSession_eq_ok.mp hInsert
  obtain ⟨hCashier, hCents, hStatus, hFrozen, hExpected⟩ := openSession_opened hOpen
  refine .opened hRow ⟨hStatus, hFrozen, hExpected, rfl⟩ (fun other hOther => ?_) fun id hId => ?_
  · exact ⟨(hFree other hOther).1, (hFree other hOther).2 rfl⟩
  · obtain ⟨handover, hFound, hFloat, hReceived, hReceiver, hAmount⟩ := hFunded id hId
    refine ⟨handover, hFound, hFloat, hReceived, ?_, ?_⟩
    · rw [hReceiver, ← hCashier]
    · rw [hAmount, ← hCents]

theorem openSession_change {command : OpenSessionCommand}
    (h : serve (Adapter.openSession surroundings actor command) tables = .ok out) :
    CashChange tables out.1 := by
  simp only [Adapter.openSession, lockRegisterRow, serve_check, serve_query, serve_lockRow,
    bind_eq_ok] at h
  obtain ⟨_, _, register, _, _, _, _, _, _, _, _, _, _, _, _, _, h⟩ := h
  cases hHandover : command.openingHandoverId with
  | none =>
      rw [hHandover] at h
      refine createSession_change (fun id hId => ?_) h
      cases hId
  | some handoverId =>
      simp only [hHandover, resolveOpeningHandover, lockSessionRow, lockHandoverRow, bind_assoc,
        pure_bind, serve_lockRow, serve_query, serve_check, bind_eq_ok, orThrow_eq_ok] at h
      obtain ⟨_, _, handover, hFound, source, _, _, hCheck, _, _, hServe⟩ := h
      refine createSession_change (fun id hId => ?_) hServe
      obtain rfl := Option.some.inj hId
      have hId' : handover.id = handoverId := (Keyed.Rows.find_eq_some_iff.mp hFound).2
      obtain ⟨hFloat, _, hReceiver, hAmount, hReceived, _⟩ := checkOpeningHandover_eq_ok hCheck
      exact ⟨handover, hId' ▸ hFound, hFloat, hReceived, hReceiver, hAmount⟩

theorem requireSessionForLedger_unfrozen {session : CashSession} {actorId : String}
    {standing : ActorStanding} {u : Unit}
    (h : requireSessionForLedger session actorId standing = .ok u) : ¬ isFrozen session := by
  simp only [requireSessionForLedger, assertOperationalWriteAllowed, bind_eq_ok,
    throwIf_eq_ok] at h
  obtain ⟨_, _, _, _, hUnfrozen⟩ := h
  exact hUnfrozen

/-- Movements that were planned from what is loaded go to a session that is not frozen. -/
theorem recorded_change (hLoads : surroundings.Loads) {id actorId : String} {occurredAt : Int}
    {session : SessionRow} {added : List CashMovement} {error : DomainError} {after : CashTables}
    (hFound : findSession tables id = some session) (hUnfrozen : ¬ isFrozen session.toCashSession)
    (hSession : ∀ movement ∈ added, movement.sessionId = session.id.val)
    (hRecorded : Recorded session.toCashSession
      (movementsIn (surroundings.load (movementsOf tables session.id.val))) added)
    (hInsert : insertMovements (movementRows surroundings actorId occurredAt added) error tables =
      .ok after) : CashChange tables after := by
  obtain ⟨_, _, rfl⟩ := insertMovements_eq_ok.mp hInsert
  refine .recorded (findSession_self hFound) hUnfrozen
    (fun row hRow => hSession row.movement (mem_movementRows hRow)) ?_
  rw [movementsIn_movementRows]
  exact hRecorded.of_perm (movementsIn_perm (hLoads (movementsOf tables session.id.val)).1)

theorem manualMovement_change (hLoads : surroundings.Loads) {command : ManualCommand}
    (h : serve (Adapter.manualMovement surroundings actor command) tables = .ok out) :
    CashChange tables out.1 := by
  simp only [Adapter.manualMovement, serve_requireSessionLocked, serve_check,
    serve_loadSessionMovements, serve_pure, bind_eq_ok, map_eq_ok] at h
  obtain ⟨session, hFound, _, _, added, hAdded, after, hInsert, rfl⟩ := h
  have hUnfrozen : ¬ isFrozen session.toCashSession := by
    simp only [manualMovement, assertOperationalWriteAllowed, bind_eq_ok, throwIf_eq_ok,
      exists_const] at hAdded
    obtain ⟨_, _, hUnfrozen, _⟩ := hAdded
    exact hUnfrozen
  refine recorded_change hLoads hFound hUnfrozen (fun movement hMovement => ?_)
    (manualMovement_recorded hAdded) hInsert
  simp only [manualMovement, bind_eq_ok, pure_eq_ok] at hAdded
  obtain ⟨_, _, _, _, _, _, _, _, _, _, _, _, _, _, _, _, rfl⟩ := hAdded
  rw [List.mem_singleton.mp hMovement]

theorem recordPayments_change (hLoads : surroundings.Loads) {input : PaymentsInput}
    (h : serve (Adapter.recordPayments surroundings input) tables = .ok out) :
    CashChange tables out.1 := by
  simp only [Adapter.recordPayments, assertOpenSession, ledgerReads, bind_assoc, pure_bind,
    serve_requireSessionLocked, serve_check, serve_loadSessionMovements, serve_query, serve_pure,
    bind_eq_ok, map_eq_ok] at h
  obtain ⟨_, _, _, _, session, hFound, planned, hPlanned, after, hInsert, rfl⟩ := h
  have hUnfrozen : ¬ isFrozen session.toCashSession := by
    simp only [recordPayments, bind_eq_ok] at hPlanned
    obtain ⟨_, hRequire, _⟩ := hPlanned
    exact requireSessionForLedger_unfrozen hRequire
  exact recorded_change hLoads hFound hUnfrozen (recordPayments_session hPlanned)
    (recordPayments_recorded hPlanned) hInsert

theorem recordRefund_change (hLoads : surroundings.Loads) {input : RefundInput}
    (h : serve (Adapter.recordRefund surroundings input) tables = .ok out) :
    CashChange tables out.1 := by
  simp only [Adapter.recordRefund, assertOpenSession, ledgerReads, bind_assoc, pure_bind,
    serve_requireSessionLocked, serve_check, serve_loadSessionMovements, serve_query, serve_pure,
    bind_eq_ok, map_eq_ok] at h
  obtain ⟨_, _, _, _, session, hFound, planned, hPlanned, after, hInsert, rfl⟩ := h
  have hUnfrozen : ¬ isFrozen session.toCashSession := by
    simp only [recordRefund, bind_eq_ok] at hPlanned
    obtain ⟨_, hRequire, _⟩ := hPlanned
    exact requireSessionForLedger_unfrozen hRequire
  exact recorded_change hLoads hFound hUnfrozen (recordRefund_session hPlanned)
    (recordRefund_recorded hPlanned) hInsert

/-! ### Counts -/

theorem startCount_eq_ok {collate : String → String → Bool} {session counting : CashSession}
    {movements : List CashMovement} {actorUserId : String} {now : Int}
    (h : Cash.startCount collate session movements actorUserId now = .ok counting) :
    ¬ isFrozen session ∧ ∃ snapshot,
      buildExpectedSnapshot collate session.openingCents.val movements now = .ok snapshot ∧
        counting = { session with
          status := .counting
          frozenAt := some now
          expectedJson := some snapshot } := by
  simp only [Cash.startCount, assertCanFreezeSession, bind_eq_ok, throwIf_eq_ok, pure_eq_ok,
    exists_const] at h
  obtain ⟨_, _, hUnfrozen, snapshot, hBuilt, _, _, rfl⟩ := h
  exact ⟨hUnfrozen, snapshot, hBuilt, rfl⟩

theorem startCount_change (hLoads : surroundings.Loads) {sessionId : String}
    (h : serve (Adapter.startCount surroundings actor sessionId) tables = .ok out) :
    CashChange tables out.1 := by
  simp only [Adapter.startCount, serve_requireSessionLocked, serve_check,
    serve_loadSessionMovements, serve_pure, bind_eq_ok, Except.map, Except.ok.injEq] at h
  obtain ⟨session, hFound, _, _, counting, hCounting, frozen, _, view, _, rfl⟩ := h
  obtain ⟨hUnfrozen, snapshot, hBuilt, rfl⟩ := startCount_eq_ok hCounting
  exact .frozen (findSession_self hFound) hUnfrozen
    (hLoads (movementsOf tables session.id.val)).1 hBuilt

theorem declare_change {command : CountCommand}
    (h : serve (Adapter.declare surroundings actor command) tables = .ok out) :
    CashChange tables out.1 := by
  simp only [Adapter.declare, serve_requireSessionLocked, serve_check, serve_query, serve_pure,
    bind_eq_ok, throwIf_eq_ok, orThrow_eq_ok, exists_const, not_not, map_eq_ok] at h
  obtain ⟨session, hFound, _, _, _, _, hStatus, expected, hExpected, hFirst, validated,
    hValidated, comparison, _, after, ⟨middle, hInsert, rfl⟩, rfl⟩ := h
  obtain ⟨_, rfl⟩ := insertCount_eq_ok.mp hInsert
  refine .declared (findSession_self hFound) hStatus hExpected (fun other hOther hKind => ?_)
    rfl rfl (validateCashCount_counted hValidated).1
  exact hFirst ⟨other, hOther, hKind⟩

theorem annotateDeclaration_change {sessionId notes : String}
    (h : serve (Adapter.annotateDeclaration surroundings actor sessionId notes) tables =
      .ok out) : CashChange tables out.1 := by
  simp only [Adapter.annotateDeclaration, serve_requireSessionLocked, serve_check, serve_query,
    serve_pure, bind_eq_ok, throwIf_eq_ok, orThrow_eq_ok, exists_const, not_or, map_eq_ok] at h
  obtain ⟨session, hFound, _, _, _, _, ⟨hUnverified, hNotClosed⟩, declaration, hDeclaration, _,
    _, after, hInsert, rfl⟩ := h
  obtain ⟨_, rfl⟩ := insertCount_eq_ok.mp hInsert
  refine .annotated (findSession_self hFound) hNotClosed (fun other hOther hKind => ?_)
    hDeclaration rfl rfl rfl
  exact hUnverified ⟨other, hOther, hKind⟩

theorem verify_change {command : CountCommand}
    (h : serve (Adapter.verify surroundings actor command) tables = .ok out) :
    CashChange tables out.1 := by
  simp only [Adapter.verify, serve_requireSessionLocked, serve_check, serve_query, serve_pure,
    bind_eq_ok, throwIf_eq_ok, orThrow_eq_ok, exists_const, not_not, map_eq_ok] at h
  obtain ⟨session, hFound, _, _, hStatus, _, _, _, _, _, _, _, validated, _, _, _, _, _, after,
    hInsert, rfl⟩ := h
  obtain ⟨_, rfl⟩ := insertCount_eq_ok.mp hInsert
  exact .verified (findSession_self hFound) hStatus rfl rfl

/-! ### Custody and the final cut -/

theorem allocatedCents_eq_ok {existing : List CashHandover} {declaredCents allocated : Int}
    (h : allocatedCents declaredCents existing = .ok allocated) :
    allocated = declaredCents + handedOver existing := by
  induction existing generalizing declaredCents with
  | nil =>
      cases h
      simp [handedOver]
  | cons handover rest ih =>
      rw [allocatedCents, List.foldlM_cons] at h
      obtain ⟨middle, hStep, hRest⟩ := bind_eq_ok.mp h
      obtain ⟨_, _, _, rfl⟩ := addCents_eq_ok.mp hStep
      rw [ih hRest]
      simp [handedOver, add_assoc]

theorem foldlM_allocate_eq_ok {handovers : List CashHandover} {state after : List String × Int}
    (h : (handovers.map allocationOf).foldlM allocate state = .ok after) :
    after.2 = state.2 + handedOver handovers := by
  induction handovers generalizing state with
  | nil =>
      cases h
      simp [handedOver]
  | cons handover rest ih =>
      rw [List.map_cons, List.foldlM_cons] at h
      obtain ⟨middle, hStep, hRest⟩ := bind_eq_ok.mp h
      simp only [allocate, bind_eq_ok, pure_eq_ok] at hStep
      obtain ⟨_, _, _, _, _, _, _, _, allocated, hAdd, rfl⟩ := hStep
      obtain ⟨_, _, _, rfl⟩ := addCents_eq_ok.mp hAdd
      rw [ih hRest]
      simp [handedOver, allocationOf, add_assoc]

/-- Cash that is fully allocated is the sum of what the handovers declare. -/
theorem assertCashFullyAllocated_eq_ok {declaredCents : Int} {handovers : List CashHandover}
    {u : Unit}
    (h : assertCashFullyAllocated declaredCents (handovers.map allocationOf) = .ok u) :
    handedOver handovers = declaredCents := by
  simp only [assertCashFullyAllocated, bind_eq_ok, throwIf_eq_ok, not_not] at h
  obtain ⟨_, _, _, _, ⟨seen, allocated⟩, hFold, hSame⟩ := h
  have hSum := foldlM_allocate_eq_ok hFold
  simp only [zero_add] at hSum
  rw [← hSame, ← hSum]

theorem createHandover_change {command : HandoverCommand}
    (h : serve (Adapter.createHandover surroundings actor command) tables = .ok out) :
    CashChange tables out.1 := by
  simp only [Adapter.createHandover, serve_requireSessionLocked, serve_check, serve_query,
    serve_pure, bind_eq_ok, throwIf_eq_ok, orThrow_eq_ok, assertNonNegativeCents_eq_ok,
    exists_const, not_not, map_eq_ok] at h
  obtain ⟨session, hFound, _, _, _, _, hStatus, hNonneg, _, _, _, _, _, declaration,
    hDeclaration, allocated, hAllocated, hFits, after, hInsert, rfl⟩ := h
  obtain ⟨handovers, hRow, rfl⟩ := insertHandover_eq_ok.mp hInsert
  rw [allocatedCents_eq_ok hAllocated, not_lt] at hFits
  exact .handedOver (findSession_self hFound) hStatus hDeclaration rfl rfl hNonneg hFits hRow

theorem receiveHandover_change {command : ReceiveCommand}
    (h : serve (Adapter.receiveHandover surroundings actor command) tables = .ok out) :
    CashChange tables out.1 := by
  have hServable : Servable (Adapter.receiveHandover surroundings actor command) tables :=
    ⟨out, h⟩
  simp only [Adapter.receiveHandover, lockSessionRow, lockHandoverRow, serve_query, serve_check,
    serve_lockRow, serve_pure, bind_eq_ok, orThrow_eq_ok, Except.map, Except.ok.injEq] at h
  obtain ⟨_, _, _, _, handover, hFound, _, _, _, _, rfl⟩ := h
  have hId : handover.id = command.id := (Keyed.Rows.find_eq_some_iff.mp hFound).2
  exact .received (hId ▸ hFound) (receiveHandover_open hServable hFound)

theorem releaseDrawer_change {sessionId : String}
    (h : serve (Adapter.releaseDrawer surroundings actor sessionId) tables = .ok out) :
    CashChange tables out.1 := by
  simp only [Adapter.releaseDrawer, assertDrawerReleaseAllowed, serve_requireSessionLocked,
    serve_check, serve_query, serve_pure, bind_eq_ok, throwIf_eq_ok, orThrow_eq_ok,
    Option.map_eq_some_iff, exists_const, not_not, Except.map, Except.ok.injEq] at h
  obtain ⟨session, hFound, _, _, _, _, hUnreleased, _, hReceived, _, ⟨hFrozen, _,
    ⟨declaration, hDeclaration, rfl⟩, hAllocated⟩, rfl⟩ := h
  exact .released (findSession_self hFound) hFrozen hUnreleased hDeclaration
    (requireReceived_eq_ok.mp hReceived) (assertCashFullyAllocated_eq_ok hAllocated)

/-- What a cut says of the totals, and the handovers it copies. -/
theorem closingSnapshot_eq_ok {command : CloseCommand} {session : SessionRow}
    {expected : ExpectedSnapshot} {original declaration verification : CashCount}
    {handovers : List CashHandover} {snapshot : CashClosingSnapshot}
    (h : closingSnapshot surroundings actor command session expected original declaration
      verification handovers = .ok snapshot) :
    (snapshot.expectedCents = expected.cashExpectedCents ∧
      snapshot.declaredCents = cashCents declaration.lines ∧
      snapshot.verifiedCents = cashCents verification.lines) ∧
    handovers.mapM toSnapshotHandover = .ok snapshot.handovers := by
  simp only [closingSnapshot, createCashClosingSnapshot, bind_eq_ok, pure_eq_ok] at h
  obtain ⟨_, _, _, _, _, _, _, _, _, _, _, _, _, _, _, _, _, _, rows, hRows, rfl⟩ := h
  exact ⟨⟨rfl, rfl, rfl⟩, hRows⟩

theorem close_change {command : CloseCommand}
    (h : serve (Adapter.close surroundings actor command) tables = .ok out) :
    CashChange tables out.1 := by
  simp only [Adapter.close, serve_requireSessionLocked, serve_check, serve_query, serve_pure,
    bind_eq_ok, throwIf_eq_ok, orThrow_eq_ok, exists_const, not_not, map_eq_ok] at h
  obtain ⟨session, hFound, _, _, hStatus, _, _, hReleased, expected, hExpected, declaration,
    hDeclaration, verification, hVerification, original, _, snapshot, hSnapshot, after,
    ⟨middle, hInsert, rfl⟩, rfl⟩ := h
  obtain ⟨_, closings, hRow, rfl⟩ := insertClosing_eq_ok.mp hInsert
  obtain ⟨hReceived, hAllocated⟩ := closingSnapshot_checked hSnapshot
  obtain ⟨hCut, hCustody⟩ := closingSnapshot_eq_ok hSnapshot
  exact .closed (findSession_self hFound) hStatus hReleased hExpected hDeclaration hVerification
    hReceived (assertCashFullyAllocated_eq_ok hAllocated) rfl hCut hCustody hRow

/-! ### Every transaction -/

theorem dispatch_change (hLoads : surroundings.Loads) {command : CashCommand}
    (h : serve (dispatch surroundings actor command) tables = .ok out) :
    CashChange tables out.1 := by
  cases command with
  | createRegister => exact createRegister_change h
  | updateRegister => exact updateRegister_change h
  | openSession => exact openSession_change h
  | manualMovement => exact manualMovement_change hLoads h
  | startCount => exact startCount_change hLoads h
  | declare => exact declare_change h
  | annotateDeclaration => exact annotateDeclaration_change h
  | verify => exact verify_change h
  | createHandover => exact createHandover_change h
  | receiveHandover => exact receiveHandover_change h
  | releaseDrawer => exact releaseDrawer_change h
  | close => exact close_change h

/-- A transaction changes nothing, or makes one change and keeps the row of its answer. -/
theorem change_of_serves {served : CashTx CashEnding × CashDocument} {after : CashTables}
    (h : Serves CashBody tables served after) :
    after = tables ∨ ∃ middle commands, CashChange tables middle ∧
      after = { middle with commands } := by
  obtain ⟨body, answer⟩ := served
  obtain ⟨hBody, hServe⟩ := h
  have hSame : ∀ middle : CashTables, middle = { middle with commands := middle.commands } :=
    fun _ => rfl
  cases hBody with
  | request surroundings loads request =>
      obtain ⟨_, _, _, ⟨_, _, _, hReplay⟩ | ⟨_, middle, hRun, hInsert⟩⟩ :=
        serve_execute.mp hServe
      · exact Or.inl hReplay
      · obtain ⟨commands, _, hAfter⟩ := insertCommand_eq_ok.mp hInsert
        rw [runCommand, serve_check, bind_eq_ok] at hRun
        obtain ⟨_, _, hDispatch⟩ := hRun
        exact Or.inr ⟨middle, commands, dispatch_change loads hDispatch, hAfter.symm⟩
  | payments surroundings loads input =>
      exact Or.inr ⟨after, after.commands, recordPayments_change loads hServe, hSame after⟩
  | refund surroundings loads input =>
      exact Or.inr ⟨after, after.commands, recordRefund_change loads hServe, hSame after⟩

end

/-! ### Every interleaving -/

section

variable {Tid : Type} [DecidableEq Tid]
  {system after : System Tid CashLock CashTables DomainError CashDocument}
  {events : List (Event Tid CashLock CashTables DomainError CashDocument)}

theorem change_of_step {event : Event Tid CashLock CashTables DomainError CashDocument}
    (hSound : system.Sound CashBody cashProtection)
    (hStep : Step CashBody system event after) :
    after.tables = system.tables ∨ ∃ middle commands, CashChange system.tables middle ∧
      after.tables = { middle with commands } := by
  obtain ⟨_, hRun⟩ := step_serial (fun _ => disciplined_of_cashBody) hSound hStep
  cases event with
  | commit tid body answer => exact change_of_serves (Runs.of_single hRun)
  | begin => exact Or.inl (Runs.eq_of_nil hRun)
  | statement => exact Or.inl (Runs.eq_of_nil hRun)
  | rollback => exact Or.inl (Runs.eq_of_nil hRun)

/-- What every change keeps holds in every state that an interleaving reaches. -/
theorem invariant_of_runs {Inv : CashTables → Prop}
    (hChange : ∀ tables middle, Inv tables → CashChange tables middle → Inv middle)
    (hCommands : ∀ tables commands, Inv tables → Inv { tables with commands })
    (hSound : system.Sound CashBody cashProtection) (hStart : Inv system.tables)
    (run : Runs (Step CashBody) system events after) : Inv after.tables := by
  obtain ⟨_, hSerial⟩ := serial_of_runs (fun _ => disciplined_of_cashBody) hSound run
  refine hSerial.invariant (fun tables served next hInv hServes => ?_) hStart
  rcases change_of_serves hServes with rfl | ⟨middle, commands, hStep, rfl⟩
  · exact hInv
  · exact hCommands _ _ (hChange _ _ hInv hStep)

/-- What every change respects, from the states that keep an invariant, relates the ends of an
interleaving. -/
theorem related_of_runs (Inv : CashTables → Prop) {Rel : CashTables → CashTables → Prop}
    (hChange : ∀ tables middle, Inv tables → CashChange tables middle → Inv middle)
    (hCommands : ∀ tables commands, Inv tables → Inv { tables with commands })
    (hRefl : ∀ tables, Rel tables tables)
    (hTrans : ∀ first second third, Rel first second → Rel second third → Rel first third)
    (hRel : ∀ tables middle, Inv tables → CashChange tables middle → Rel tables middle)
    (hRelCommands : ∀ (tables : CashTables) commands, Rel tables { tables with commands })
    (hSound : system.Sound CashBody cashProtection) (hStart : Inv system.tables)
    (run : Runs (Step CashBody) system events after) : Rel system.tables after.tables := by
  obtain ⟨_, hSerial⟩ := serial_of_runs (fun _ => disciplined_of_cashBody) hSound run
  refine hSerial.related Inv Rel hRefl hTrans (fun tables served next hInv hServes => ?_)
    (fun tables served next hInv hServes => ?_) hStart
  · rcases change_of_serves hServes with rfl | ⟨middle, commands, hStep, rfl⟩
    · exact hInv
    · exact hCommands _ _ (hChange _ _ hInv hStep)
  · rcases change_of_serves hServes with rfl | ⟨middle, commands, hStep, rfl⟩
    · exact hRefl _
    · exact hTrans _ _ _ (hRel _ _ hInv hStep) (hRelCommands _ _)

theorem sound_of_runs {tables : CashTables}
    (run : Runs (Step CashBody) (System.idle tables) events system) :
    system.Sound CashBody cashProtection :=
  (serial_of_runs (fun _ => disciplined_of_cashBody) (sound_idle tables) run).1

end

/-! ### Requests one after another -/

/-- Bodies served one after another, with nobody else around. -/
def serveAll : List (CashTx CashEnding) → CashTables → Option CashTables
  | [], tables => some tables
  | body :: rest, tables =>
      match serve body tables with
      | .ok (after, _) => serveAll rest after
      | .error _ => none

/-- One of the interleavings is to serve everybody in turn. -/
theorem runs_of_serveAll {bodies : List (CashTx CashEnding)}
    (hBodies : ∀ body ∈ bodies, CashBody body) {tables after : CashTables}
    (h : serveAll bodies tables = some after) :
    ∃ events, Runs (Step CashBody)
      (System.idle tables : System Unit CashLock CashTables DomainError CashDocument) events
      (System.idle after) := by
  induction bodies generalizing tables with
  | nil =>
      cases h
      exact ⟨[], Runs.zero _⟩
  | cons body rest ih =>
      cases hServe : serve body tables with
      | error error => simp [serveAll, hServe] at h
      | ok out =>
          obtain ⟨middle, answer⟩ := out
          simp only [serveAll, hServe] at h
          obtain ⟨later, hLater⟩ := ih (fun other hOther => hBodies other (by simp [hOther])) h
          have hServes : Runs (Serves CashBody) tables [(body, answer)] middle :=
            Runs.single ⟨hBodies body List.mem_cons_self, hServe⟩
          obtain ⟨first, hFirst, _⟩ := runs_of_serial () hServes
          exact ⟨first ++ later, hFirst.trans hLater⟩

/-- A generated identifier with this text. -/
def generated (text : String) : Identifier :=
  if h : Text.isNonEmptyText text = true then ⟨text, h⟩ else ⟨"generated", by decide⟩

/-- A moment of a tenant whose users are all active: rows are loaded by date and then as they
were inserted. -/
def moment (now : Int) (id : String) : Surroundings where
  now := now
  databaseNow := now
  newId := generated id
  rowId := fun index => String.ofList (List.replicate index 'r') ++ id
  folioId := id
  load := List.insertionSort fun earlier later => earlier.occurredAt ≤ later.occurredAt
  collate := fun left right => left.length ≤ right.length
  standing := fun _ => .active
  userName := some
  seen := .empty

theorem moment_loads (now : Int) (id : String) : (moment now id).Loads := by
  intro rows
  refine ⟨List.perm_insertionSort _ rows, ?_⟩
  have hTotal : Std.Total fun earlier later : MovementRow => earlier.occurredAt ≤ later.occurredAt :=
    ⟨fun earlier later => Int.le_total _ _⟩
  have hTrans : IsTrans MovementRow fun earlier later => earlier.occurredAt ≤ later.occurredAt :=
    ⟨fun _ _ _ h h' => Int.le_trans h h'⟩
  exact List.pairwise_insertionSort _ rows

/-- Somebody who may do everything that the ability rules decide. -/
def someone (userId : String) : CashActor := ⟨userId, fun _ _ => true⟩

/-- A request at a moment, whose new rows and whose key carry its name. -/
def requestAt (now : Int) (name userId : String) (command : CashCommand) : CashTx CashEnding :=
  execute (moment now name) ⟨someone userId, command, name, name⟩

theorem cashBody_requestAt (now : Int) (name userId : String)
    (command : CashCommand) : CashBody (requestAt now name userId command) :=
  .request _ (moment_loads now name) _

end Houndfe.Cash
