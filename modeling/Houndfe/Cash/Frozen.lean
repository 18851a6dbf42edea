import Houndfe.Cash.Effects

/-! Frozen means frozen: once the count of a session has started its movements stay as they
are, and the totals it was frozen with are what its opening amount and its movements give. -/

namespace Houndfe.Cash

open PaymentMethods Transactions Transition Adapter

/-! ### The totals of a freeze -/

/-- Expected totals recomputed from an opening amount and its movements: the drawer holds the
opening amount and the cash deltas, any other channel the sum of its deltas. -/
structure ExpectedTotals (openingCents : Int) (movements : List CashMovement)
    (snapshot : ExpectedSnapshot) : Prop where
  cash : snapshot.cashExpectedCents = openingCents + cashSum movements
  channels : ∀ channel ∈ snapshot.channels, channel.expectedCents =
    if channel.channelKey = pooledCashChannel.channelKey then openingCents + cashSum movements
    else channelSum channel.channelKey movements
  covers : ∀ key, key ∈ snapshot.channels.map ExpectedChannel.channelKey ↔
    key = pooledCashChannel.channelKey ∨ key ∈ movements.map CashMovement.channelKey
  inRange : ∀ channel ∈ snapshot.channels, InRange channel.expectedCents

theorem expectedChannel_eq_ok {openingCents : Int} {group : CashChannelTotal}
    {channel : ExpectedChannel} (h : expectedChannel openingCents group = .ok channel) :
    channel.channelKey = group.channelKey ∧ channel.method = group.method ∧
      channel.expectedCents =
        if group.method = .cash then openingCents + group.totalCents else group.totalCents := by
  unfold expectedChannel at h
  by_cases hCash : group.method = .cash
  · simp only [hCash, if_true, bind_eq_ok, addCents_eq_ok, pure_eq_ok] at h
    obtain ⟨_, ⟨_, _, _, rfl⟩, rfl⟩ := h
    exact ⟨rfl, hCash.symm, (if_pos hCash).symm⟩
  · simp only [hCash, if_false, bind_eq_ok, Except.ok.injEq, pure_eq_ok] at h
    obtain ⟨_, rfl, rfl⟩ := h
    exact ⟨rfl, rfl, (if_neg hCash).symm⟩

/-- The group of the pooled drawer is the group of physical cash. -/
theorem group_cash_iff {session : CashSession} {movements : List CashMovement}
    {groups : List CashChannelTotal} (hCountable : CountableSession session movements)
    (hGrouped : Grouped movements groups) {group : CashChannelTotal} (hMem : group ∈ groups) :
    group.method = .cash ↔ group.channelKey = pooledCashChannel.channelKey := by
  refine ⟨(group_spec hCountable hGrouped hMem).2, fun hKey => ?_⟩
  have hSound := hGrouped.sound group hMem
  rw [expectedGroup, Option.map_eq_some_iff] at hSound
  obtain ⟨first, hFirst, hEq⟩ := hSound
  obtain ⟨hFirstMem, hFirstKey⟩ := List.mem_filter.mp (List.mem_of_mem_head? hFirst)
  have hPooled := (hCountable.recordable first hFirstMem).2
  rw [← hEq]
  by_contra hOther
  simp only [CashChannel.Pooled, CashMovement.channel, hOther, if_false] at hPooled
  exact hPooled ((of_decide_eq_true hFirstKey).trans hKey)

theorem mem_groups_iff {movements : List CashMovement} {groups : List CashChannelTotal}
    (hGrouped : Grouped movements groups) (key : String) :
    key ∈ groups.map CashChannelTotal.channelKey ↔
      key ∈ movements.map CashMovement.channelKey := by
  constructor
  · intro hKey
    obtain ⟨group, hGroup, rfl⟩ := List.mem_map.mp hKey
    have hSound := hGrouped.sound group hGroup
    rw [expectedGroup, Option.map_eq_some_iff] at hSound
    obtain ⟨first, hFirst, _⟩ := hSound
    obtain ⟨hMem, hFirstKey⟩ := List.mem_filter.mp (List.mem_of_mem_head? hFirst)
    rw [← of_decide_eq_true hFirstKey]
    exact List.mem_map_of_mem hMem
  · intro hKey
    obtain ⟨movement, hMovement, rfl⟩ := List.mem_map.mp hKey
    have hSome : expectedGroup movement.channelKey movements ≠ none := by
      rw [Ne, expectedGroup_eq_none, onChannel, List.filter_eq_nil_iff]
      intro hNone
      exact hNone movement hMovement (by simp)
    rw [← hGrouped.lookup] at hSome
    obtain ⟨group, hFound⟩ := Option.ne_none_iff_exists'.mp hSome
    have hSame := List.find?_some hFound
    rw [← of_decide_eq_true hSame]
    exact List.mem_map_of_mem (List.mem_of_find?_eq_some hFound)

theorem expectedTotals_of_build {collate : String → String → Bool} {session : CashSession}
    {movements : List CashMovement} {now : Int} {snapshot : ExpectedSnapshot}
    (hCountable : CountableSession session movements)
    (h : buildExpectedSnapshot collate session.openingCents.val movements now = .ok snapshot) :
    ExpectedTotals session.openingCents.val movements snapshot := by
  obtain ⟨hFolds, hGroups⟩ :=
    foldlM_addToChannel_spec fun movement hMem => (hCountable.recordable movement hMem).1
  simp only [buildExpectedSnapshot, groupMovementsByChannel, bind_eq_ok, pure_eq_ok] at h
  obtain ⟨_, ⟨groups, hFold, rfl⟩, channels, hChannels, rfl⟩ := h
  have hGrouped := hGroups groups hFold
  have hRunning := (hFolds.mp ⟨groups, hFold⟩).2
  have hDrawer : InRange (session.openingCents.val + cashSum movements) :=
    hCountable.drawer_inRange
  -- every channel comes from its group
  have hChannel : ∀ channel ∈ channels, channel.expectedCents =
      (if channel.channelKey = pooledCashChannel.channelKey then
        session.openingCents.val + cashSum movements
      else channelSum channel.channelKey movements) ∧
      (channel.method = .cash ↔ channel.channelKey = pooledCashChannel.channelKey) := by
    intro channel hMem
    obtain ⟨group, hGroup, hOf⟩ := Traverse.mem_mapM hChannels hMem
    rw [List.mem_insertionSort] at hGroup
    obtain ⟨hKey, hMethod, hCents⟩ := expectedChannel_eq_ok hOf
    have hCash := group_cash_iff hCountable hGrouped hGroup
    rw [hKey, hMethod, hCents, (group_spec hCountable hGrouped hGroup).1]
    refine ⟨?_, hCash⟩
    by_cases hPooled : group.channelKey = pooledCashChannel.channelKey
    · rw [if_pos hPooled, if_pos (hCash.mpr hPooled), hPooled,
        cashSum_eq_channelSum hCountable.recordable]
    · rw [if_neg hPooled, if_neg fun hMethod => hPooled (hCash.mp hMethod)]
  have hKeys : ∀ key, key ∈ channels.map ExpectedChannel.channelKey ↔
      key ∈ movements.map CashMovement.channelKey := by
    intro key
    rw [← mem_groups_iff hGrouped key]
    have hSame := Traverse.map_eq_of_mapM (fun _ _ _ hOf => (expectedChannel_eq_ok hOf).1) hChannels
    rw [hSame]
    exact ((List.perm_insertionSort _ groups).map _).mem_iff
  have hRange : ∀ channel ∈ channels, InRange channel.expectedCents := by
    intro channel hMem
    rw [(hChannel channel hMem).1]
    split
    · exact hDrawer
    · exact hRunning movements List.prefix_rfl _
  by_cases hAny : channels.any (fun channel =>
      channel.channelKey = pooledCashChannel.channelKey) = true
  · obtain ⟨drawer, hDrawerMem, hDrawerKey⟩ := List.any_eq_true.mp hAny
    have hMethod := (hChannel drawer hDrawerMem).2.mpr (of_decide_eq_true hDrawerKey)
    simp only [hAny, if_true]
    refine ⟨?_, fun channel hMem => (hChannel channel hMem).1, fun key => ?_, hRange⟩
    · split
      · next cash hFound =>
          have hCash := List.find?_some hFound
          obtain ⟨hCents, hPooled⟩ := hChannel cash (List.mem_of_find?_eq_some hFound)
          rw [hCents, if_pos (hPooled.mp (of_decide_eq_true hCash))]
      · next hNone =>
          exact absurd (List.find?_eq_none.mp hNone drawer hDrawerMem) (by simp [hMethod])
    · rw [hKeys key]
      refine ⟨Or.inr, fun hKey => hKey.elim ?_ id⟩
      rintro rfl
      rw [← hKeys, ← of_decide_eq_true hDrawerKey]
      exact List.mem_map_of_mem hDrawerMem
  · -- no movement touched the drawer
    have hNone : ∀ movement ∈ movements, movement.channelKey ≠ pooledCashChannel.channelKey := by
      intro movement hMovement hKey
      obtain ⟨channel, hMem, hSame⟩ := List.mem_map.mp
        ((hKeys _).mpr (List.mem_map_of_mem hMovement))
      exact hAny (List.any_eq_true.mpr ⟨channel, hMem, by simp [hSame, hKey]⟩)
    have hSum : cashSum movements = 0 := by
      rw [cashSum_eq_channelSum hCountable.recordable, channelSum, onChannel,
        List.filter_eq_nil_iff.mpr (by simpa using hNone)]
      rfl
    have hFalse := Bool.eq_false_iff.mpr hAny
    simp only [hFalse, Bool.false_eq_true, if_false]
    refine ⟨by simp [hSum], fun channel hMem => ?_, fun key => ?_, fun channel hMem => ?_⟩
    · rcases List.mem_cons.mp hMem with rfl | hMem
      · simp [hSum]
      · exact (hChannel channel hMem).1
    · rw [List.map_cons, List.mem_cons, hKeys key]
    · rcases List.mem_cons.mp hMem with rfl | hMem
      · exact session.openingCents.property.2
      · exact hRange channel hMem

theorem ExpectedTotals.of_perm {openingCents : Int} {movements movements' : List CashMovement}
    {snapshot : ExpectedSnapshot} (h : ExpectedTotals openingCents movements snapshot)
    (hPerm : movements.Perm movements') : ExpectedTotals openingCents movements' snapshot where
  cash := by rw [← cashSum_perm hPerm, h.cash]
  channels := fun channel hMem => by
    rw [h.channels channel hMem, cashSum_perm hPerm, channelSum_perm _ hPerm]
  covers := fun key => by rw [h.covers key, (hPerm.map CashMovement.channelKey).mem_iff]
  inRange := h.inRange

theorem CountableSession.of_perm {session : CashSession} {movements movements' : List CashMovement}
    (h : CountableSession session movements) (hPerm : movements.Perm movements') :
    CountableSession session movements' where
  recordable := fun movement hMem => h.recordable movement (hPerm.mem_iff.mpr hMem)
  drawer_inRange := cashSum_perm hPerm ▸ h.drawer_inRange

/-! ### What the tables keep -/

/-- A session with its movements: countable while it is open, and frozen with the totals that
they give. -/
structure SessionLedger (session : CashSession) (movements : List CashMovement) : Prop where
  countable : CountableSession session movements
  unfrozen : session.status = .opened → session.frozenAt = none
  totals : session.status ≠ .opened → ∃ snapshot, session.expectedJson = some snapshot ∧
    ExpectedTotals session.openingCents.val movements snapshot

structure Ledgers (tables : CashTables) : Prop where
  owned : ∀ row ∈ tables.movements, (findSession tables row.movement.sessionId).isSome
  ledger : ∀ id session, findSession tables id = some session →
    SessionLedger session.toCashSession (movementsIn (movementsOf tables id))

theorem ledgers_empty : Ledgers .empty := by
  constructor
  · simp [CashTables.empty]
  · intro id session hFound
    cases hFound

section

variable {tables : CashTables}

theorem not_isFrozen_iff {session : CashSession} :
    ¬ isFrozen session ↔ session.status = .opened ∧ session.frozenAt = none := by
  simp [isFrozen]

/-- A session that is not there has no movements. -/
theorem Ledgers.movementsOf_eq_nil (h : Ledgers tables) {id : String}
    (hNone : findSession tables id = none) : movementsOf tables id = [] := by
  rw [movementsOf, List.filter_eq_nil_iff]
  intro row hRow hSession
  have hSome := h.owned row hRow
  rw [of_decide_eq_true hSession, hNone] at hSome
  cases hSome

theorem Ledgers.updateSession (h : Ledgers tables) {id : String} {session : SessionRow}
    {change : SessionRow → SessionRow} {hKey : ∀ row : SessionRow, (change row).key = row.key}
    (hFound : findSession tables id = some session)
    (hLedger : SessionLedger (change session).toCashSession
      (movementsIn (movementsOf tables id))) :
    Ledgers (updateSession id change hKey tables) := by
  constructor
  · intro row hRow
    have hSome := h.owned row hRow
    rw [find_updateSession]
    split
    · rwa [Option.isSome_map]
    · exact hSome
  · intro id' session' hFound'
    rcases findSession_updateSession hFound hFound' with ⟨rfl, rfl⟩ | ⟨_, hOld⟩
    · exact hLedger
    · exact h.ledger id' session' hOld

/-- An update of a session that leaves its opening amount and, once it is frozen, its totals. -/
theorem SessionLedger.of_frozen {session session' : CashSession} {movements : List CashMovement}
    (h : SessionLedger session movements) (hOpening : session'.openingCents = session.openingCents)
    (hExpected : session'.expectedJson = session.expectedJson)
    (hFrozen : session.status ≠ .opened) (hFrozen' : session'.status ≠ .opened) :
    SessionLedger session' movements where
  countable := ⟨h.countable.recordable, hOpening ▸ h.countable.drawer_inRange⟩
  unfrozen := fun hOpened => absurd hOpened hFrozen'
  totals := fun _ => by
    rw [hExpected, hOpening]
    exact h.totals hFrozen

theorem Ledgers.opened (h : Ledgers tables) {row : SessionRow}
    {sessions : Keyed.Rows SessionRow.key} (hInsert : tables.sessions.insert row = some sessions)
    (hFresh : row.Fresh) : Ledgers { tables with sessions } := by
  have hNew : tables.sessions.find row.key = none := by
    cases hFind : tables.sessions.find row.key with
    | none => rfl
    | some other =>
        obtain ⟨hMem, hKey⟩ := Keyed.Rows.find_eq_some_iff.mp hFind
        exact absurd hKey ((Keyed.Rows.insert_eq_some.mp hInsert).1 other hMem)
  constructor
  · intro other hOther
    obtain ⟨session, hFound⟩ := Option.isSome_iff_exists.mp (h.owned other hOther)
    have hKept := Keyed.Rows.find_insert_of_find hInsert hFound
    exact Option.isSome_iff_exists.mpr ⟨session, hKept⟩
  · intro id session hFound
    rw [findSession, Keyed.Rows.find_insert hInsert] at hFound
    split at hFound
    · next hId =>
        obtain rfl := Option.some.inj hFound
        have hNone : movementsOf tables id = [] := h.movementsOf_eq_nil (hId ▸ hNew)
        have hNone' : movementsOf { tables with sessions } id = [] := hNone
        rw [hNone']
        refine ⟨⟨by simp [movementsIn], ?_⟩, fun _ => hFresh.notFrozen,
          fun hFrozen => absurd hFresh.opened hFrozen⟩
        simpa [movementsIn, cashSum] using row.openingCents.property.2
    · exact h.ledger id session hFound

theorem movementsOf_append (rows : List MovementRow) {id id' : String}
    (hSession : ∀ row ∈ rows, row.movement.sessionId = id) :
    movementsOf { tables with movements := tables.movements ++ rows } id' =
      movementsOf tables id' ++ if id' = id then rows else [] := by
  rw [movementsOf, List.filter_append]
  congr 1
  split
  · next hId =>
      rw [List.filter_eq_self]
      intro row hRow
      simp [hSession row hRow, hId]
  · next hId =>
      rw [List.filter_eq_nil_iff]
      intro row hRow
      simpa [hSession row hRow] using Ne.symm hId

theorem Ledgers.recorded (h : Ledgers tables) {id : String} {session : SessionRow}
    {rows : List MovementRow} (hFound : findSession tables id = some session)
    (hUnfrozen : ¬ isFrozen session.toCashSession)
    (hSession : ∀ row ∈ rows, row.movement.sessionId = id)
    (hRecords : Recorded session.toCashSession (movementsIn (movementsOf tables id))
      (movementsIn rows)) :
    Ledgers { tables with movements := tables.movements ++ rows } := by
  constructor
  · intro row hRow
    rcases List.mem_append.mp hRow with hOld | hNew
    · exact h.owned row hOld
    · rw [hSession row hNew]
      exact Option.isSome_iff_exists.mpr ⟨session, hFound⟩
  · intro id' session' hFound'
    have hFound' : findSession tables id' = some session' := hFound'
    rw [movementsOf_append rows hSession]
    split
    · next hId =>
        subst hId
        rw [hFound, Option.some.injEq] at hFound'
        subst hFound'
        obtain ⟨hCountable, hOpen, _⟩ := h.ledger id' session hFound
        obtain ⟨hRecordable, hRange⟩ := hRecords
        obtain ⟨hStatus, _⟩ := not_isFrozen_iff.mp hUnfrozen
        have hSplit : movementsIn (movementsOf tables id' ++ rows) =
            movementsIn (movementsOf tables id') ++ movementsIn rows := List.map_append
        rw [hSplit]
        refine ⟨⟨fun movement hMem => ?_, ?_⟩, hOpen, fun hFrozen => absurd hStatus hFrozen⟩
        · rcases List.mem_append.mp hMem with hOld | hNew
          · exact hCountable.recordable movement hOld
          · exact hRecordable movement hNew
        · rcases hRange with hNone | hRange
          · rw [hNone, List.append_nil]
            exact hCountable.drawer_inRange
          · exact hRange
    · rw [List.append_nil]
      exact h.ledger id' session' hFound'

theorem Ledgers.change (h : Ledgers tables) {after : CashTables}
    (hChange : CashChange tables after) : Ledgers after := by
  cases hChange with
  | registers => exact ⟨h.owned, h.ledger⟩
  | opened insert fresh => exact h.opened insert fresh
  | recorded found unfrozen ofSession records => exact h.recorded found unfrozen ofSession records
  | @frozen id session collate loaded now snapshot found unfrozen loads built =>
      obtain ⟨hCountable, _, _⟩ := h.ledger id session found
      have hPerm := movementsIn_perm loads
      refine h.updateSession found ⟨⟨hCountable.recordable, hCountable.drawer_inRange⟩, ?_, ?_⟩
      · intro hOpened
        cases hOpened
      · intro _
        refine ⟨snapshot, rfl, ?_⟩
        exact (expectedTotals_of_build (hCountable.of_perm hPerm.symm) built).of_perm hPerm
  | @declared id session expected count now found counting =>
      have hCounts : Ledgers { tables with counts := tables.counts ++ [count] } :=
        ⟨h.owned, h.ledger⟩
      refine hCounts.updateSession found ((h.ledger id session found).of_frozen rfl rfl ?_ ?_)
      · rw [counting]
        decide
      · simp [SessionRow.submit]
  | annotated => exact ⟨h.owned, h.ledger⟩
  | verified => exact ⟨h.owned, h.ledger⟩
  | handedOver => exact ⟨h.owned, h.ledger⟩
  | received => exact ⟨h.owned, h.ledger⟩
  | @released id session declaration now found frozen =>
      have hLedger := h.ledger id session found
      exact h.updateSession found ⟨⟨hLedger.countable.recordable,
        hLedger.countable.drawer_inRange⟩, hLedger.unfrozen, hLedger.totals⟩
  | @closed id session expected declaration verification row now closings found submitted =>
      have hClosings : Ledgers { tables with closings := closings } := ⟨h.owned, h.ledger⟩
      refine hClosings.updateSession found ((h.ledger id session found).of_frozen rfl rfl ?_ ?_)
      · rw [submitted]
        decide
      · simp [SessionRow.shut]

/-! ### From the freeze on -/

/-- What later states have of the sessions that are frozen now. -/
def StaysFrozen (tables later : CashTables) : Prop :=
  ∀ id session, findSession tables id = some session → session.status ≠ .opened →
    movementsOf later id = movementsOf tables id ∧
      ∃ session', findSession later id = some session' ∧ session'.status ≠ .opened ∧
        session'.expectedJson = session.expectedJson ∧
        session'.openingCents = session.openingCents

theorem StaysFrozen.refl (tables : CashTables) : StaysFrozen tables tables :=
  fun _ session hFound hFrozen => ⟨rfl, session, hFound, hFrozen, rfl, rfl⟩

theorem StaysFrozen.trans {first second third : CashTables} (h : StaysFrozen first second)
    (h' : StaysFrozen second third) : StaysFrozen first third := by
  intro id session hFound hFrozen
  obtain ⟨hMovements, session', hFound', hFrozen', hExpected, hOpening⟩ :=
    h id session hFound hFrozen
  obtain ⟨hMovements', session'', hFound'', hFrozen'', hExpected', hOpening'⟩ :=
    h' id session' hFound' hFrozen'
  exact ⟨hMovements'.trans hMovements, session'', hFound'', hFrozen'',
    hExpected'.trans hExpected, hOpening'.trans hOpening⟩

/-- An update of one session keeps what the frozen ones were frozen with. -/
theorem StaysFrozen.updateSession {id : String} {session : SessionRow}
    {change : SessionRow → SessionRow} {hKey : ∀ row : SessionRow, (change row).key = row.key}
    (hFound : findSession tables id = some session)
    (hKeeps : session.status ≠ .opened → (change session).status ≠ .opened ∧
      (change session).expectedJson = session.expectedJson ∧
      (change session).openingCents = session.openingCents) :
    StaysFrozen tables (updateSession id change hKey tables) := by
  intro id' session' hFound' hFrozen
  refine ⟨rfl, ?_⟩
  rw [find_updateSession]
  split
  · next hId =>
      subst hId
      rw [hFound, Option.some.injEq] at hFound'
      subst hFound'
      exact ⟨change session, by rw [hFound, Option.map_some], hKeeps hFrozen⟩
  · exact ⟨session', hFound', hFrozen, rfl, rfl⟩

theorem staysFrozen_of_change {after : CashTables} (hChange : CashChange tables after) :
    StaysFrozen tables after := by
  cases hChange with
  | opened insert =>
      exact fun id session hFound hFrozen => ⟨rfl, session,
        Keyed.Rows.find_insert_of_find insert hFound, hFrozen, rfl, rfl⟩
  | @recorded id session rows found unfrozen ofSession =>
      intro id' session' hFound hFrozen
      refine ⟨?_, session', hFound, hFrozen, rfl, rfl⟩
      have hNe : id' ≠ id := by
        rintro rfl
        rw [found, Option.some.injEq] at hFound
        subst hFound
        exact hFrozen (not_isFrozen_iff.mp unfrozen).1
      rw [movementsOf_append rows ofSession, if_neg hNe, List.append_nil]
  | frozen found unfrozen =>
      exact StaysFrozen.updateSession found fun hFrozen =>
        absurd (not_isFrozen_iff.mp unfrozen).1 hFrozen
  | declared found =>
      exact StaysFrozen.updateSession found fun _ => ⟨by simp [SessionRow.submit], rfl, rfl⟩
  | released found => exact StaysFrozen.updateSession found fun hFrozen => ⟨hFrozen, rfl, rfl⟩
  | closed found =>
      exact StaysFrozen.updateSession found fun _ => ⟨by simp [SessionRow.shut], rfl, rfl⟩
  | registers => exact StaysFrozen.refl tables
  | annotated => exact StaysFrozen.refl tables
  | verified => exact StaysFrozen.refl tables
  | handedOver => exact StaysFrozen.refl tables
  | received => exact StaysFrozen.refl tables

end

/-- A session that is no longer open, at any point of any interleaving: its totals are those of
its opening amount and its movements, and neither changes any more. -/
theorem frozen_of_runs {Tid : Type} [DecidableEq Tid]
    {events more : List (Event Tid CashLock CashTables DomainError CashDocument)}
    {system later : System Tid CashLock CashTables DomainError CashDocument}
    (run : Runs (Step CashBody) (System.idle CashTables.empty) events system)
    (rest : Runs (Step CashBody) system more later) {id : String} {session : SessionRow}
    (hFound : findSession system.tables id = some session) (hFrozen : session.status ≠ .opened) :
    (∃ snapshot, session.expectedJson = some snapshot ∧
      ExpectedTotals session.openingCents.val (movementsIn (movementsOf system.tables id))
        snapshot) ∧
    movementsOf later.tables id = movementsOf system.tables id ∧
    ∃ session', findSession later.tables id = some session' ∧ session'.status ≠ .opened ∧
      session'.expectedJson = session.expectedJson ∧
      session'.openingCents = session.openingCents := by
  have hLedgers : Ledgers system.tables :=
    invariant_of_runs (fun _ _ h hChange => h.change hChange)
      (fun _ _ h => ⟨h.owned, h.ledger⟩) (sound_idle _) ledgers_empty run
  refine ⟨(hLedgers.ledger id session hFound).totals hFrozen, ?_⟩
  have hStays : StaysFrozen system.tables later.tables :=
    related_of_runs (fun _ => True) (fun _ _ _ _ => trivial) (fun _ _ _ => trivial)
      StaysFrozen.refl (fun _ _ _ h h' => h.trans h') (fun _ _ _ h => staysFrozen_of_change h)
      (fun tables _ => StaysFrozen.refl tables) (sound_of_runs run) trivial rest
  exact hStays id session hFound hFrozen

/-- Ana's drawer takes in coins and a sale with change, and is frozen. -/
def frozenDay : List (CashTx CashEnding) := [
  requestAt 1 "front" "ana" (.createRegister "Front desk"),
  requestAt 2 "morning" "ana" (.openSession ⟨"front", 500, none, true⟩),
  requestAt 3 "coins" "ana" (.manualMovement ⟨.cashIn, "morning", 40, "coins"⟩),
  Adapter.recordPayments (moment 4 "sale")
    ⟨"morning", "ana", "sale-1", [⟨"p1", .cash, 100, none⟩, ⟨"p2", .transfer, 70, none⟩], 30, 4⟩,
  requestAt 5 "freeze" "ana" (.startCount "morning")]

/-- Then she declares what she counts. -/
def frozenCount : List (CashTx CashEnding) := [
  requestAt 6 "count" "ana"
    (.declare ⟨"morning", [⟨"CASH", 610⟩, ⟨"METHOD:TRANSFER", 70⟩], none, none⟩)]

theorem serveAll_frozenDay :
    ((serveAll frozenDay .empty).bind fun tables =>
      (findSession tables "morning").bind fun session =>
        (serveAll frozenCount tables).map fun later =>
          (session.status, (movementsOf later "morning").length)) = some (.counting, 4) := by
  decide +kernel

theorem frozen_of_frozenDay : ∃ events more system later session,
    Runs (Step CashBody) (System.idle CashTables.empty :
      System Unit CashLock CashTables DomainError CashDocument) events system ∧
    Runs (Step CashBody) system more later ∧
    findSession system.tables "morning" = some session ∧ session.status = .counting ∧
    (∃ snapshot, session.expectedJson = some snapshot ∧
      ExpectedTotals session.openingCents.val (movementsIn (movementsOf system.tables "morning"))
        snapshot) ∧
    movementsOf later.tables "morning" = movementsOf system.tables "morning" := by
  obtain ⟨tables, hServed, hRest⟩ := Option.bind_eq_some_iff.mp serveAll_frozenDay
  obtain ⟨session, hSession, hRest⟩ := Option.bind_eq_some_iff.mp hRest
  obtain ⟨later, hLater, hHolds⟩ := Option.map_eq_some_iff.mp hRest
  have hStatus : session.status = .counting := congrArg Prod.fst hHolds
  have hDay : ∀ body ∈ frozenDay, CashBody body := by
    simp [frozenDay, cashBody_requestAt, CashBody.payments _ (moment_loads _ _)]
  have hCount : ∀ body ∈ frozenCount, CashBody body := by
    simp [frozenCount, cashBody_requestAt]
  obtain ⟨events, run⟩ := runs_of_serveAll hDay hServed
  obtain ⟨more, rest⟩ := runs_of_serveAll hCount hLater
  obtain ⟨hTotals, hKept, _⟩ := frozen_of_runs run rest hSession (by rw [hStatus]; decide)
  exact ⟨events, more, _, _, session, run, rest, hSession, hStatus, hTotals, hKept⟩

end Houndfe.Cash
