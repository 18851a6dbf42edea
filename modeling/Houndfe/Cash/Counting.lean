import Houndfe.Base.Transition
import Houndfe.Cash.Ledger

/-! When the count of a cash session can start: the sessions that operations and catalog
changes reach, and what their freeze needs. -/

namespace Houndfe.Cash

open PaymentMethods Transition

/-- The channel a movement was stored with. -/
def CashMovement.channel (movement : CashMovement) : CashChannel :=
  ⟨movement.channelKey, movement.channelLabel, movement.method⟩

/-- A movement as every operation records it: valid, and pooled if it is cash. -/
def CashMovement.Recordable (movement : CashMovement) : Prop :=
  movement.IsValid ∧ movement.channel.Pooled

/-! ### What each operation records -/

theorem planTender_spec {sessionId : String} {payment : CashLedgerPayment}
    {planned : Option CashMovement} (h : planTender sessionId payment = .ok planned) :
    (payment.amountCents = 0 ∧ planned = none) ∨
      ∃ movement channel, planned = some movement ∧ movement.Recordable ∧
        resolveCashChannel payment.method (readCatalogIdentity payment.metadataJson) =
          .ok channel ∧
        movement.channel = channel ∧ movement.deltaCents = payment.amountCents ∧
        0 ≤ payment.amountCents ∧ movement.sessionId = sessionId := by
  unfold planTender at h
  split at h
  · next hZero =>
      cases h
      exact Or.inl ⟨hZero, rfl⟩
  · simp only [bind_eq_ok, pure_eq_ok, assertNonNegativeCents_eq_ok,
      assertStorageRangeCents_eq_ok, assertValidCashMovement_eq_ok, exists_const] at h
    obtain ⟨hNonneg, _, channel, hChannel, hValid, rfl⟩ := h
    obtain ⟨hMethod, hPooled⟩ := resolveCashChannel_spec hChannel
    have hSame : (⟨channel.channelKey, channel.channelLabel, payment.method⟩ : CashChannel) =
        channel := by
      rw [← hMethod]
    refine Or.inr ⟨_, channel, rfl, ⟨hValid, ?_⟩, hChannel, hSame, rfl, hNonneg, rfl⟩
    simpa [CashMovement.channel, hSame] using hPooled

/-- Planned movements can be recorded, in the session they are planned for. -/
theorem planTenders_planned {sessionId : String} {payments : List CashLedgerPayment}
    {planned : List CashMovement} (h : planTenders sessionId payments = .ok planned) :
    ∀ movement ∈ planned, movement.Recordable ∧ movement.sessionId = sessionId := by
  induction payments generalizing planned with
  | nil =>
      cases h
      simp
  | cons payment rest ih =>
      simp only [planTenders, bind_eq_ok, pure_eq_ok] at h
      obtain ⟨tender, hTender, tenders, hTenders, rfl⟩ := h
      refine List.forall_mem_append.mpr ⟨fun movement hMem => ?_, ih hTenders⟩
      rcases planTender_spec hTender with ⟨_, rfl⟩ | ⟨first, _, rfl, hFirst, _, _, _, _, hSession⟩
      · cases hMem
      · exact List.mem_singleton.mp hMem ▸ ⟨hFirst, hSession⟩

theorem planChangeMovement_spec {sessionId saleId : String} {changeDueCents : Int}
    {planned : Option CashMovement}
    (h : planChangeMovement sessionId saleId changeDueCents pooledCashChannel = .ok planned) :
    0 ≤ changeDueCents ∧
      ((changeDueCents = 0 ∧ planned = none) ∨
        ∃ movement, planned = some movement ∧ movement.Recordable ∧
          movement.channel = pooledCashChannel ∧ movement.deltaCents = -changeDueCents ∧
          movement.sessionId = sessionId) := by
  simp only [planChangeMovement, bind_eq_ok, assertNonEmptyText_eq_ok,
    assertNonNegativeCents_eq_ok, assertStorageRangeCents_eq_ok, exists_const] at h
  obtain ⟨_, _, hNonneg, _, h⟩ := h
  refine ⟨hNonneg, ?_⟩
  split at h
  · next hZero =>
      cases h
      exact Or.inl ⟨hZero, rfl⟩
  · simp only [bind_eq_ok, pure_eq_ok, throwIf_eq_ok, assertValidCashMovement_eq_ok,
      exists_const] at h
    obtain ⟨_, hValid, rfl⟩ := h
    exact Or.inr ⟨_, rfl, ⟨hValid, rfl⟩, rfl, rfl, rfl⟩

theorem planLedgerPayments_planned {sessionId saleId : String}
    {payments : List CashLedgerPayment} {changeDueCents : Int} {planned : List CashMovement}
    (h : planLedgerPayments sessionId saleId payments changeDueCents = .ok planned) :
    ∀ movement ∈ planned, movement.Recordable ∧ movement.sessionId = sessionId := by
  simp only [planLedgerPayments, bind_eq_ok, pure_eq_ok] at h
  obtain ⟨tenders, hTenders, change, hChange, rfl⟩ := h
  refine List.forall_mem_append.mpr ⟨planTenders_planned hTenders, fun movement hMem => ?_⟩
  rcases (planChangeMovement_spec hChange).2 with ⟨_, rfl⟩ | ⟨only, rfl, hOnly, _, _, hSession⟩
  · cases hMem
  · exact List.mem_singleton.mp hMem ▸ ⟨hOnly, hSession⟩

/-- What passed the bound check leaves the drawer's total in the window. -/
theorem persistLedgerMovements_inRange {session : CashSession}
    {existing planned : List CashMovement} {taken : List (CashSourceType × String)} {u : Unit}
    (h : persistLedgerMovements session existing planned taken = .ok u) :
    InRange (session.openingCents.val + cashSum (existing ++ planned)) := by
  simp only [persistLedgerMovements, bind_eq_ok] at h
  obtain ⟨expected, hExpected, total, hTotal, _⟩ := h
  obtain ⟨rfl, hRange⟩ := expectedCashCents_eq_ok hExpected
  obtain ⟨rfl, hTotalRange⟩ := foldlM_addCash_eq_ok (fun _ _ => rfl) hTotal
  rw [cashSum_append, ← add_assoc]
  exact hTotalRange hRange

/-- What an operation on an open session may add to its movements. -/
def Recorded (session : CashSession) (existing added : List CashMovement) : Prop :=
  (∀ movement ∈ added, movement.Recordable) ∧
    (added = [] ∨ InRange (session.openingCents.val + cashSum (existing ++ added)))

theorem recordPayments_recorded {session : CashSession} {reads : LedgerReads}
    {actorId saleId : String} {payments : List CashLedgerPayment} {changeDueCents : Int}
    {added : List CashMovement}
    (h : recordPayments session reads actorId saleId payments changeDueCents = .ok added) :
    Recorded session reads.existing added := by
  simp only [recordPayments, bind_eq_ok] at h
  obtain ⟨_, _, _, _, _, _, planned, hPlanned, h⟩ := h
  split at h
  · cases h
    exact ⟨by simp, Or.inl rfl⟩
  · simp only [bind_eq_ok, pure_eq_ok] at h
    obtain ⟨_, hPersist, rfl⟩ := h
    exact ⟨fun movement hMem => (planLedgerPayments_planned hPlanned movement hMem).1,
      Or.inr (persistLedgerMovements_inRange hPersist)⟩

theorem recordRefund_recorded {session : CashSession} {reads : LedgerReads}
    {actorId settlementId : String} {amountCents : Int} {method : TenderMethod}
    {added : List CashMovement}
    (h : recordRefund session reads actorId settlementId amountCents method = .ok added) :
    Recorded session reads.existing added := by
  simp only [recordRefund, bind_eq_ok, pure_eq_ok, assertValidCashMovement_eq_ok,
    exists_const] at h
  obtain ⟨_, _, _, _, _, _, channel, hChannel, hValid, _, hPersist, rfl⟩ := h
  obtain ⟨hMethod, hPooled⟩ := resolveCashChannel_spec hChannel
  refine ⟨?_, Or.inr (persistLedgerMovements_inRange hPersist)⟩
  intro movement hMem
  obtain rfl := List.mem_singleton.mp hMem
  refine ⟨hValid, ?_⟩
  subst hMethod
  exact hPooled

theorem manualMovement_recorded {session : CashSession} {existing : List CashMovement}
    {actorId reason movementId : String} {kind : ManualKind} {amountCents : Int}
    {added : List CashMovement}
    (h : manualMovement session existing actorId kind amountCents reason movementId = .ok added) :
    Recorded session existing added := by
  simp only [manualMovement, bind_eq_ok, pure_eq_ok, assertValidCashMovement_eq_ok,
    exists_const] at h
  obtain ⟨_, _, _, _, _, _, _, _, _, _, hValid, before, hBefore, after, hAfter, rfl⟩ := h
  obtain ⟨rfl, _⟩ := expectedCashCents_eq_ok hBefore
  obtain ⟨_, _, hRange, _⟩ := addCents_eq_ok.mp hAfter
  refine ⟨?_, Or.inr ?_⟩
  · intro movement hMem
    obtain rfl := List.mem_singleton.mp hMem
    exact ⟨hValid, rfl⟩
  · rw [cashSum_append, ← add_assoc]
    simpa [cashSum, CashMovement.isCash] using hRange

/-! ### The freeze -/

/-- A session whose drawer total is in the window. -/
structure CountableSession (session : CashSession) (movements : List CashMovement) : Prop where
  recordable : ∀ movement ∈ movements, movement.Recordable
  drawer_inRange : InRange (session.openingCents.val + cashSum movements)

theorem cashSum_eq_channelSum {movements : List CashMovement}
    (h : ∀ movement ∈ movements, movement.Recordable) :
    cashSum movements = channelSum pooledCashChannel.channelKey movements := by
  unfold cashSum channelSum onChannel
  congr 2
  refine List.filter_congr fun movement hMem => ?_
  have hPooled := (h movement hMem).2
  unfold CashChannel.Pooled at hPooled
  by_cases hCash : movement.method = .cash
  · have hKey : movement.channel = pooledCashChannel := by
      simpa [CashMovement.channel, hCash] using hPooled
    have hKey : movement.channelKey = pooledCashChannel.channelKey :=
      congrArg CashChannel.channelKey hKey
    simp [CashMovement.isCash, hCash, hKey]
  · have hKey : movement.channelKey ≠ pooledCashChannel.channelKey := by
      simpa [CashMovement.channel, hCash] using hPooled
    simp [CashMovement.isCash, hCash, hKey]

/-- The group of a channel has the channel's sum; a group of cash is the drawer. -/
theorem group_spec {session : CashSession} {movements : List CashMovement}
    {groups : List CashChannelTotal} (hCountable : CountableSession session movements)
    (hGrouped : Grouped movements groups) {group : CashChannelTotal} (hMem : group ∈ groups) :
    group.totalCents = channelSum group.channelKey movements ∧
      (group.method = .cash → group.channelKey = pooledCashChannel.channelKey) := by
  have hSound := hGrouped.sound group hMem
  rw [expectedGroup, Option.map_eq_some_iff] at hSound
  obtain ⟨first, hFirst, hEq⟩ := hSound
  obtain ⟨hMem, hKey⟩ := List.mem_filter.mp (List.mem_of_mem_head? hFirst)
  refine ⟨by rw [← hEq], fun hCash => ?_⟩
  have hPooled := (hCountable.recordable first hMem).2
  have hMethod : first.method = .cash := by rw [← hCash, ← hEq]
  have hChannel : first.channel = pooledCashChannel := by
    simpa [CashChannel.Pooled, CashMovement.channel, hMethod] using hPooled
  have hFirstKey : first.channelKey = pooledCashChannel.channelKey :=
    congrArg CashChannel.channelKey hChannel
  rw [← hFirstKey]
  exact (of_decide_eq_true hKey).symm

/-- Every expected amount of such a session can be computed. -/
theorem mapM_expectedChannel {session : CashSession} {movements : List CashMovement}
    {groups : List CashChannelTotal} (hCountable : CountableSession session movements)
    (hRunning : RunningSumsInRange movements)
    (hGroups : ∀ group ∈ groups, group.totalCents = channelSum group.channelKey movements ∧
      (group.method = .cash → group.channelKey = pooledCashChannel.channelKey)) :
    ∃ channels, groups.mapM (expectedChannel session.openingCents.val) = .ok channels ∧
      ∀ channel ∈ channels, channel.method = .cash → InRange channel.expectedCents := by
  induction groups with
  | nil => exact ⟨[], rfl, by simp⟩
  | cons group rest ih =>
      obtain ⟨channels, hChannels, hCash⟩ := ih fun other hOther => hGroups other (by simp [hOther])
      obtain ⟨hTotal, hDrawer⟩ := hGroups group (by simp)
      have hTotalRange : InRange group.totalCents := by
        rw [hTotal]
        exact hRunning movements List.prefix_rfl _
      have hHead : ∃ channel, expectedChannel session.openingCents.val group = .ok channel ∧
          (channel.method = .cash → InRange channel.expectedCents) := by
        by_cases hMethod : group.method = .cash
        · have hSum : InRange (session.openingCents.val + group.totalCents) := by
            rw [hTotal, hDrawer hMethod, ← cashSum_eq_channelSum hCountable.recordable]
            exact hCountable.drawer_inRange
          refine ⟨⟨group.channelKey, group.channelLabel, group.method,
            session.openingCents.val + group.totalCents⟩, ?_, fun _ => hSum⟩
          simp only [expectedChannel, hMethod, if_true, bind_eq_ok, addCents_eq_ok, pure_eq_ok]
          exact ⟨_, ⟨session.openingCents.property.2, hTotalRange, hSum, rfl⟩, rfl⟩
        · refine ⟨⟨group.channelKey, group.channelLabel, group.method, group.totalCents⟩, ?_,
            fun hCash => False.elim (hMethod hCash)⟩
          simp only [expectedChannel, hMethod, if_false]
          rfl
      obtain ⟨channel, hChannel, hChannelCash⟩ := hHead
      refine ⟨channel :: channels, ?_, ?_⟩
      · rw [List.mapM_cons, hChannel]
        simp only [bind_eq_ok, pure_eq_ok]
        exact ⟨channel, rfl, channels, hChannels, rfl⟩
      · intro other hOther
        rcases List.mem_cons.mp hOther with rfl | hOther
        · exact hChannelCash
        · exact hCash other hOther

/-- The freeze of a countable session succeeds exactly when every channel is consistent and
every running sum, in the order the movements are loaded, stays in the window. -/
theorem buildExpectedSnapshot_iff (collate : String → String → Bool) (now : Int)
    {session : CashSession} {movements : List CashMovement} (hCountable : CountableSession session movements) :
    ((∃ snapshot, buildExpectedSnapshot collate session.openingCents.val movements now =
        .ok snapshot) ↔ ChannelsConsistent movements ∧ RunningSumsInRange movements) ∧
      ∀ snapshot, buildExpectedSnapshot collate session.openingCents.val movements now =
        .ok snapshot → InRange snapshot.cashExpectedCents := by
  obtain ⟨hIff, hGrouped⟩ :=
    foldlM_addToChannel_spec fun movement hMem => (hCountable.recordable movement hMem).1
  have hCompute : ∀ groups, movements.foldlM addToChannel [] = .ok groups →
      ∃ channels, (groups.insertionSort fun left right =>
        compareChannelKeys collate left.channelKey right.channelKey).mapM
          (expectedChannel session.openingCents.val) = .ok channels ∧
        ∀ channel ∈ channels, channel.method = .cash → InRange channel.expectedCents := by
    intro groups hGroups
    refine mapM_expectedChannel hCountable (hIff.mp ⟨groups, hGroups⟩).2 ?_
    intro group hMem
    rw [List.mem_insertionSort] at hMem
    exact group_spec hCountable (hGrouped groups hGroups) hMem
  simp only [buildExpectedSnapshot, groupMovementsByChannel, bind_eq_ok, pure_eq_ok]
  constructor
  · rw [← hIff]
    constructor
    · rintro ⟨_, _, ⟨groups, hGroups, _⟩, _⟩
      exact ⟨groups, hGroups⟩
    · rintro ⟨groups, hGroups⟩
      obtain ⟨channels, hChannels, _⟩ := hCompute groups hGroups
      exact ⟨_, _, ⟨groups, hGroups, rfl⟩, channels, hChannels, rfl⟩
  · rintro snapshot ⟨_, ⟨groups, hGroups, rfl⟩, channels, hChannels, rfl⟩
    obtain ⟨_, hSame, hCash⟩ := hCompute groups hGroups
    rw [hChannels] at hSame
    cases hSame
    simp only
    split
    · next cash hFound =>
        have hMem := List.mem_of_find?_eq_some hFound
        have hMethod : cash.method = .cash := by simpa using List.find?_some hFound
        split_ifs at hMem
        · exact hCash cash hMem hMethod
        · rcases List.mem_cons.mp hMem with rfl | hMem
          · exact session.openingCents.property.2
          · exact hCash cash hMem hMethod
    · exact session.openingCents.property.2

/-! ### Reachable sessions -/

/-- A stored movement with the instant it is dated. -/
structure RecordedMovement where
  movement : CashMovement
  occurredAt : Int
  deriving DecidableEq

structure RegisterState where
  session : CashSession
  rows : List RecordedMovement
  catalog : Catalog

/-- The order of a load is by date; movements of one date come in any order. -/
def IsLoadOrder (rows loaded : List RecordedMovement) : Prop :=
  loaded.Perm rows ∧ loaded.Pairwise fun earlier later => earlier.occurredAt ≤ later.occurredAt

instance (rows loaded : List RecordedMovement) : Decidable (IsLoadOrder rows loaded) :=
  inferInstanceAs (Decidable (_ ∧ _))

/-- A tender of a sale, before its catalog row is resolved. -/
structure RegisterTender where
  paymentId : String
  method : TenderMethod
  amountCents : Int
  paymentMethodId : Option String

/-- What happens to a session while it is open, and to the catalog meanwhile. `loaded` is
the order a ledger call loads the session's movements in, `elsewhere` are the sources
recorded on the tenant's other sessions. -/
inductive RegisterEvent where
  | payments (loaded : List RecordedMovement) (standing : ActorStanding)
      (elsewhere : List (CashSourceType × String)) (actorId saleId : String)
      (tenders : List RegisterTender) (changeDueCents occurredAt : Int)
  | refund (loaded : List RecordedMovement) (standing : ActorStanding)
      (elsewhere : List (CashSourceType × String)) (actorId settlementId : String)
      (amountCents : Int) (method : TenderMethod) (occurredAt : Int)
  | manual (loaded : List RecordedMovement) (actorId : String) (kind : ManualKind)
      (amountCents : Int) (reason movementId : String) (occurredAt : Int)
  | createMethod (tenantId name : String) (category : TenderMethod) (subtitle : Option String)
      (id : String)
  | updateMethod (id : String) (input : UpdatePaymentMethodInput)
  | deactivateMethod (id : String)

namespace RegisterState

def movements (rows : List RecordedMovement) : List CashMovement :=
  rows.map RecordedMovement.movement

def record (state : RegisterState) (occurredAt : Int) (added : List CashMovement) :
    RegisterState :=
  { state with rows := state.rows ++ added.map fun movement => ⟨movement, occurredAt⟩ }

def setMethod (state : RegisterState) (id : String) (row : PaymentMethod) : RegisterState :=
  { state with catalog := fun other => if other = id then some row else state.catalog other }

/-- The reads of a ledger call on this state. -/
def reads (state : RegisterState) (loaded : List RecordedMovement) (standing : ActorStanding)
    (elsewhere : List (CashSourceType × String)) : LedgerReads where
  standing := standing
  existing := movements loaded
  taken := (movements state.rows).map CashMovement.source ++ elsewhere

end RegisterState

open RegisterState

/-- The payments of a sale as its rows carry them to the ledger. -/
def resolveTenders (catalog : Catalog) (tenders : List RegisterTender) :
    Except DomainError (List CashLedgerPayment) :=
  tenders.mapM fun tender => do
    let metadataJson ← catalogSnapshot catalog tender.method tender.paymentMethodId
    return ⟨tender.paymentId, tender.method, tender.amountCents, metadataJson⟩

/-- The movements an accepted operation adds. -/
def operate (state : RegisterState) : RegisterEvent → Except DomainError (List CashMovement)
  | .payments loaded standing elsewhere actorId saleId tenders changeDueCents _ => do
      let payments ← resolveTenders state.catalog tenders
      recordPayments state.session (state.reads loaded standing elsewhere) actorId saleId payments
        changeDueCents
  | .refund loaded standing elsewhere actorId settlementId amountCents method _ =>
      recordRefund state.session (state.reads loaded standing elsewhere) actorId settlementId
        amountCents method
  | .manual loaded actorId kind amountCents reason movementId _ =>
      manualMovement state.session (movements loaded) actorId kind amountCents reason movementId
  | .createMethod .. | .updateMethod .. | .deactivateMethod .. => .ok []

/-- An operation runs on the session as some load returns it. -/
def applyOperation (state : RegisterState) (event : RegisterEvent)
    (loaded : List RecordedMovement) (occurredAt : Int) : Option RegisterState :=
  if IsLoadOrder state.rows loaded then
    match operate state event with
    | .ok added => some (state.record occurredAt added)
    | .error _ => none
  else none

def applyEvent (state : RegisterState) (event : RegisterEvent) : Option RegisterState :=
  match event with
  | .payments loaded _ _ _ _ _ _ occurredAt => applyOperation state event loaded occurredAt
  | .refund loaded _ _ _ _ _ _ occurredAt => applyOperation state event loaded occurredAt
  | .manual loaded _ _ _ _ _ occurredAt => applyOperation state event loaded occurredAt
  | .createMethod tenantId name category subtitle id =>
      match state.catalog id, PaymentMethod.create id tenantId name category subtitle with
      | none, .ok row => some (state.setMethod id row)
      | _, _ => none
  | .updateMethod id input =>
      match state.catalog id with
      | some row =>
          match row.update input with
          | .ok updated => some (state.setMethod id updated)
          | .error _ => none
      | none => none
  | .deactivateMethod id =>
      (state.catalog id).map fun row => state.setMethod id row.deactivate

/-- A session that was just opened, under any catalog. -/
def Opened (state : RegisterState) : Prop :=
  state.rows = [] ∧
    ∃ sessionId cashierUserId openingCents,
      openSession sessionId cashierUserId openingCents = .ok state.session

/-- What every reachable session keeps: it is open, its movements are recordable and the
drawer total is in the window. -/
structure RegisterInvariant (state : RegisterState) : Prop where
  notFrozen : ¬ isFrozen state.session
  countable : CountableSession state.session (movements state.rows)

/-- The session that an opening gives. -/
theorem openSession_opened {sessionId : Identifier} {cashierUserId : String} {openingCents : Int}
    {session : CashSession} (h : openSession sessionId cashierUserId openingCents = .ok session) :
    session.cashierUserId.val = cashierUserId ∧ session.openingCents.val = openingCents ∧
      session.status = .opened ∧ session.frozenAt = none ∧ session.expectedJson = none := by
  unfold openSession at h
  split at h
  · cases h
  · split at h
    · split at h
      · cases h
        exact ⟨rfl, rfl, rfl, rfl, rfl⟩
      · cases h
    · cases h

theorem registerInvariant_of_opened {state : RegisterState} (h : Opened state) :
    RegisterInvariant state := by
  obtain ⟨hRows, sessionId, cashierUserId, openingCents, hOpen⟩ := h
  obtain ⟨_, _, hStatus, hFrozen, _⟩ := openSession_opened hOpen
  refine ⟨by simp [isFrozen, hStatus, hFrozen], by simp [hRows, movements], ?_⟩
  have hRange := state.session.openingCents.property.2
  simpa [hRows, movements, cashSum] using hRange

theorem operate_recorded {state : RegisterState} {event : RegisterEvent}
    {loaded : List RecordedMovement} {occurredAt : Int} {next : RegisterState}
    (hInv : RegisterInvariant state)
    (hReads : ∀ added, operate state event = .ok added →
      Recorded state.session (movements loaded) added)
    (h : applyOperation state event loaded occurredAt = some next) : RegisterInvariant next := by
  unfold applyOperation at h
  split at h
  · next hOrder =>
      split at h
      · next added hAdded =>
          cases h
          obtain ⟨hRecordable, hDrawer⟩ := hReads added hAdded
          have hRows : movements (state.record occurredAt added).rows =
              movements state.rows ++ added := by
            simp [movements, RegisterState.record, Function.comp_def]
          refine ⟨hInv.notFrozen, ?_, ?_⟩
          · intro movement hMem
            rw [hRows] at hMem
            rcases List.mem_append.mp hMem with hMem | hMem
            · exact hInv.countable.recordable movement hMem
            · exact hRecordable movement hMem
          · have hPerm : (movements loaded).Perm (movements state.rows) := hOrder.1.map _
            rw [hRows, ← cashSum_perm (hPerm.append_right added)]
            rcases hDrawer with rfl | hDrawer
            · rw [List.append_nil, cashSum_perm hPerm]
              exact hInv.countable.drawer_inRange
            · exact hDrawer
      · cases h
  · cases h

/-- No accepted operation and no catalog change breaks the invariant. -/
theorem registerInvariant_applyEvent {state next : RegisterState} {event : RegisterEvent}
    (hInv : RegisterInvariant state) (h : applyEvent state event = some next) :
    RegisterInvariant next := by
  cases event with
  | payments loaded standing elsewhere actorId saleId tenders changeDueCents occurredAt =>
      refine operate_recorded hInv (fun added hAdded => ?_) h
      simp only [operate, bind_eq_ok] at hAdded
      obtain ⟨payments, _, hAdded⟩ := hAdded
      exact recordPayments_recorded hAdded
  | refund loaded standing elsewhere actorId settlementId amountCents method occurredAt =>
      refine operate_recorded hInv (fun added hAdded => ?_) h
      simp only [operate] at hAdded
      exact recordRefund_recorded hAdded
  | manual loaded actorId kind amountCents reason movementId occurredAt =>
      refine operate_recorded hInv (fun added hAdded => ?_) h
      simp only [operate] at hAdded
      exact manualMovement_recorded hAdded
  | createMethod tenantId name category subtitle id =>
      simp only [applyEvent] at h
      split at h
      · cases h
        exact ⟨hInv.notFrozen, hInv.countable⟩
      · cases h
  | updateMethod id input =>
      simp only [applyEvent] at h
      split at h
      · split at h
        · cases h
          exact ⟨hInv.notFrozen, hInv.countable⟩
        · cases h
      · cases h
  | deactivateMethod id =>
      obtain ⟨row, _, rfl⟩ := Option.map_eq_some_iff.mp h
      exact ⟨hInv.notFrozen, hInv.countable⟩

/-- In every session that operations and catalog changes reach from an opening, and for
every order its movements may be loaded in, the owner's `START_COUNT` succeeds exactly
when each channel key carries one label and method and no channel's running sum, in that
order, leaves the storage window. -/
theorem startCount_succeeds_iff {start state : RegisterState} {events : List RegisterEvent}
    (hOpened : Opened start) (run : Runs (Fires applyEvent) start events state)
    (collate : String → String → Bool) (now : Int) {loaded : List RecordedMovement}
    (hLoaded : IsLoadOrder state.rows loaded) :
    (∃ frozen, startCount collate state.session (movements loaded)
        state.session.cashierUserId.val now = .ok frozen) ↔
      ChannelsConsistent (movements state.rows) ∧ RunningSumsInRange (movements loaded) := by
  have hInv : RegisterInvariant state :=
    run.invariant (fun _ _ _ hInv hStep => registerInvariant_applyEvent hInv hStep)
      (registerInvariant_of_opened hOpened)
  have hPerm : (movements loaded).Perm (movements state.rows) := hLoaded.1.map _
  have hCountable : CountableSession state.session (movements loaded) :=
    ⟨fun movement hMem => hInv.countable.recordable movement (hPerm.subset hMem),
      cashSum_perm hPerm ▸ hInv.countable.drawer_inRange⟩
  have hConsistent : ChannelsConsistent (movements state.rows) ↔
      ChannelsConsistent (movements loaded) := by
    constructor
    · exact fun h first hFirst second hSecond =>
        h first (hPerm.subset hFirst) second (hPerm.subset hSecond)
    · exact fun h first hFirst second hSecond =>
        h first (hPerm.symm.subset hFirst) second (hPerm.symm.subset hSecond)
  obtain ⟨hIff, hRange⟩ := buildExpectedSnapshot_iff collate now hCountable
  rw [hConsistent, ← hIff]
  simp only [startCount, assertSessionOwner, assertCanFreezeSession, projectCashSession,
    bind_eq_ok, throwIf_eq_ok, exists_const, pure_eq_ok, assertNonEmptyText_eq_ok,
    assertStorageRangeCents_eq_ok]
  constructor
  · rintro ⟨_, _, _, snapshot, hSnapshot, _⟩
    exact ⟨snapshot, hSnapshot⟩
  · rintro ⟨snapshot, hSnapshot⟩
    exact ⟨_, by simp, hInv.notFrozen, snapshot, hSnapshot,
      ⟨state.session.cashierUserId.property, hRange snapshot hSnapshot⟩, rfl⟩

section

/-- A session opened with 1000 cents, under a catalog with one transfer brand. -/
def brandedRegister : RegisterState where
  session := {
    id := ⟨"session", by decide⟩
    cashierUserId := ⟨"cashier", by decide⟩
    status := .opened
    openingCents := ⟨1000, by decide⟩
    frozenAt := none
    expectedJson := none }
  rows := []
  catalog := fun id =>
    if id = "brand" then some ⟨"brand", "tenant", ⟨"Mercado Pago", by decide⟩, .transfer, none, true⟩
    else none

def brandedPayment (index : String) (label : String) : CashMovement where
  sessionId := "session"
  deltaCents := 500
  method := .transfer
  channelKey := "PM:brand"
  channelLabel := label
  kind := .salePayment
  sourceType := .payment
  sourceId := index
  reason := none

def brandedSale (loaded : List RecordedMovement) (index : String) (occurredAt : Int) :
    RegisterEvent :=
  .payments loaded .active [] "cashier" ("sale " ++ index)
    [⟨index, .transfer, 500, some "brand"⟩] 0 occurredAt

def byCodePoint (left right : String) : Bool := left ≤ right

theorem brandedRegister_opened : Opened brandedRegister :=
  ⟨rfl, ⟨"session", by decide⟩, "cashier", 1000, rfl⟩

/-- The session after its branded sales, each dated and labelled as given. -/
def brandedRows (sales : List (String × String × Int)) : List RecordedMovement :=
  sales.map fun (index, label, occurredAt) => ⟨brandedPayment index label, occurredAt⟩

/-- One branded sale can be counted. -/
theorem startCount_after_one_branded_sale :
    ∃ state : RegisterState, exec applyEvent brandedRegister [brandedSale [] "first" 1] = some state ∧
      IsLoadOrder state.rows state.rows ∧
      ∃ frozen, startCount byCodePoint state.session (movements state.rows) "cashier" 2 =
        .ok frozen := by
  refine ⟨{ brandedRegister with rows := brandedRows [("first", "Mercado Pago", 1)] }, rfl,
    by decide, ?_⟩
  have hExec : exec applyEvent brandedRegister [brandedSale [] "first" 1] =
      some { brandedRegister with rows := brandedRows [("first", "Mercado Pago", 1)] } := rfl
  exact (startCount_succeeds_iff brandedRegister_opened (runs_of_exec hExec) byCodePoint 2
    (by decide)).mpr (by decide)

/-- Renaming the brand between two sales strands the session: its owner cannot start the
count any more. -/
theorem startCount_refused_after_rename :
    ∃ state : RegisterState,
      exec applyEvent brandedRegister
        [brandedSale [] "first" 1, .updateMethod "brand" ⟨some "MP Point", none, none, none⟩,
          brandedSale (brandedRows [("first", "Mercado Pago", 1)]) "second" 2] = some state ∧
      IsLoadOrder state.rows state.rows ∧
      startCount byCodePoint state.session (movements state.rows) "cashier" 3 =
        .error (cashRuleViolation "CASH_CHANNEL_LABEL_CONFLICT"
          "channel key is bound to more than one label or method") := by
  refine ⟨_, rfl, ?_, ?_⟩
  · decide
  · rfl

end

end Houndfe.Cash
