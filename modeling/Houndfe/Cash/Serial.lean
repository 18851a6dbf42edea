import Houndfe.Cash.Locking

/-! Every transaction of the cash register keeps the locking discipline, so that the commits of
any interleaving are a serial run. -/

namespace Houndfe.Cash

open PaymentMethods Transactions Transition

section

variable {possible : CashTables → Prop} {held : List CashLock}

/-! ### Statements -/

/-- A check whose verdict may turn against the body while it runs, when the write would then be
refused as well. -/
theorem follows_throwIf {bad bad' : Prop} [Decidable bad] [Decidable bad'] {error : DomainError}
    {rest : CashTx CashEnding} {tables : CashTables}
    (h : bad' → ∀ out, serve rest tables = .ok out → False) :
    Follows (do throwIf bad error; rest : CashTx CashEnding)
      (do throwIf bad' error; rest : CashTx CashEnding) tables := by
  intro out hOut
  simp only [serve_check, bind_eq_ok, throwIf_eq_ok, exists_const] at hOut ⊢
  exact ⟨fun hBad => h hBad out hOut.2, hOut.2⟩

/-- A lock whose absence the body does not survive. -/
theorem disciplined_lockRequired {key : CashLock} {isThere : CashTables → Bool}
    {error : DomainError} {k : CashTx CashEnding}
    (hStays : ∀ a b, Agree (key :: held) a b → isThere a = true → isThere b = true)
    (h : Disciplined cashProtection possible (key :: held) k) :
    Disciplined cashProtection possible held (do
      let locked ← Tx.lockRow key isThere
      throwIf (locked = false) error
      k : CashTx CashEnding) := by
  refine disciplined_lockRow (fun a b hThere hAgree => ?_) (fun a b _ _ => ?_) h trivial
  · rw [hStays a b hAgree hThere]
    exact follows_refl _ _
  · exact follows_of_fail

/-- A lock that the body goes on without. -/
theorem disciplined_lockIgnored {key : CashLock} {isThere : CashTables → Bool}
    {k : CashTx CashEnding} (h : ∀ held, Disciplined cashProtection possible held k) :
    Disciplined cashProtection possible held (do
      let _ ← Tx.lockRow key isThere
      k : CashTx CashEnding) :=
  disciplined_lockRow (fun _ _ _ _ => follows_refl _ _) (fun _ _ _ _ => follows_refl _ _)
    (h _) (h _)

/-- A row the body needs: as long as it is there, the body goes on as it would with what the
row has become. -/
theorem disciplined_queryRow {α : Type} {f : CashTables → Option α} {error : DomainError}
    {k : α → CashTx CashEnding}
    (hStable : ∀ a b row, Agree held a b → f a = some row →
      ∃ row', f b = some row' ∧ Follows (k row) (k row') b)
    (h : ∀ tables row, f tables = some row → Disciplined cashProtection possible held (k row)) :
    Disciplined cashProtection possible held (do
      let found ← Tx.query f
      let row ← orThrow found error
      k row : CashTx CashEnding) := by
  refine disciplined_query (fun a b hAgree => ?_) fun tables => ?_
  · cases hRow : f a with
    | none => exact follows_of_fail
    | some row =>
        obtain ⟨row', hRow', hFollows⟩ := hStable a b row hAgree hRow
        rw [hRow']
        exact hFollows
  · cases hRow : f tables with
    | none => exact trivial
    | some row => exact h tables row hRow

theorem isSome_of_agree {α : Type} {a b : Option α} (hSome : a.isSome = true)
    (h : ∀ row, a = some row → ∃ row', b = some row') : b.isSome = true := by
  obtain ⟨row, hRow⟩ := Option.isSome_iff_exists.mp hSome
  obtain ⟨row', hRow'⟩ := h row hRow
  rw [hRow']
  rfl

theorem findSession_id {tables : CashTables} {id : String} {row : SessionRow}
    (h : findSession tables id = some row) : row.id.val = id :=
  (Keyed.Rows.find_eq_some_iff.mp h).2

theorem disciplined_requireSessionLocked {sessionId : String} {k : SessionRow → CashTx CashEnding}
    (h : ∀ row, Disciplined cashProtection possible (.session row.id.val :: held) (k row)) :
    Disciplined cashProtection possible held (requireSessionLocked sessionId >>= k) := by
  simp only [requireSessionLocked, lockSessionRow, bind_assoc]
  refine disciplined_lockRequired (fun a b hAgree hThere => ?_) ?_
  · refine isSome_of_agree hThere fun row hRow => ?_
    obtain ⟨row', hRow', _⟩ := hAgree.sessions sessionId row hRow
    exact ⟨row', hRow'⟩
  · refine disciplined_queryRow (fun a b row hAgree hRow => ?_) fun tables row hRow => ?_
    · obtain ⟨row', hRow', _, hSame⟩ := hAgree.sessions sessionId row hRow
      rw [hSame (by simp)] at hRow'
      exact ⟨row, hRow', follows_refl _ _⟩
    · rw [← findSession_id hRow]
      exact h row

theorem disciplined_countsOf {sessionId : String} {k : List CashCount → CashTx CashEnding}
    (hHeld : .session sessionId ∈ held)
    (h : ∀ rows, Disciplined cashProtection possible held (k rows)) :
    Disciplined cashProtection possible held
      ((Tx.query fun tables => countsOf tables sessionId) >>= k) :=
  disciplined_query_of_agree (fun _ _ hAgree => (hAgree.counts sessionId hHeld).symm)
    fun tables => h (countsOf tables sessionId)

theorem disciplined_loadSessionMovements {surroundings : Surroundings} {sessionId : String}
    {k : List CashMovement → CashTx CashEnding} (hHeld : .session sessionId ∈ held)
    (h : ∀ movements, Disciplined cashProtection possible held (k movements)) :
    Disciplined cashProtection possible held
      (Adapter.loadSessionMovements surroundings sessionId >>= k) := by
  simp only [Adapter.loadSessionMovements, bind_assoc, pure_bind]
  exact disciplined_query_of_agree (fun _ _ hAgree => (hAgree.movements sessionId hHeld).symm)
    fun tables => h _

/-- Custody rows may still be received, which changes nothing that was declared, and nothing at
all once every row was received. -/
theorem disciplined_handoversOf {sessionId : String} {k : List CashHandover → CashTx CashEnding}
    (hHeld : .session sessionId ∈ held)
    (hStable : ∀ before after : List CashHandover,
      List.Forall₂ CashHandover.Grows before after → ∀ tables, Follows (k before) (k after) tables)
    (h : ∀ rows, Disciplined cashProtection possible held (k rows)) :
    Disciplined cashProtection possible held
      ((Tx.query fun tables => handoversOf tables sessionId) >>= k) :=
  disciplined_query (fun _ b hAgree => hStable _ _ (hAgree.custody sessionId hHeld) b)
    fun tables => h (handoversOf tables sessionId)

theorem disciplined_write {key : CashLock} {ending : CashEnding} (hHeld : key ∈ held)
    (hWrite : ∀ before after others, ending.write before = .ok after → key ∉ others →
      Agree others before after) :
    Disciplined cashProtection possible held (pure ending) :=
  disciplined_pure fun before after _ h others hOthers =>
    hWrite before after others h fun hIn => hOthers key hIn hHeld

theorem agree_insert_update {others : List CashLock} {before after : CashTables} {id : String}
    {insert : CashTables → Except DomainError CashTables} {change : SessionRow → SessionRow}
    {hKey : ∀ row : SessionRow, (change row).key = row.key}
    (h : (insert before).map (updateSession id change hKey) = .ok after)
    (hFree : .session id ∉ others)
    (hInsert : ∀ middle, insert before = .ok middle → Agree others before middle)
    (hChange : ∀ row : SessionRow, row.Precedes (change row)) : Agree others before after := by
  cases hMiddle : insert before with
  | error error => simp [hMiddle, Except.map] at h
  | ok middle =>
      simp only [hMiddle, Except.map, Except.ok.injEq] at h
      subst h
      exact (hInsert middle hMiddle).trans (agree_updateSession hFree hChange)

variable {surroundings : Surroundings} {actor : CashActor}

/-! ### Registers and openings -/

theorem disciplined_createRegister {name : String} :
    Disciplined cashProtection possible held (Adapter.createRegister surroundings actor name) := by
  unfold Adapter.createRegister
  refine disciplined_check fun _ _ => disciplined_check fun _ _ => ?_
  refine disciplined_query (fun a b _ => follows_throwIf fun hTaken out hOut => ?_)
    fun tables => ?_
  · -- a name taken meanwhile is refused by the index of the table
    obtain ⟨other, hOther⟩ := Option.isSome_iff_exists.mp hTaken
    obtain ⟨hMem, hName⟩ := Keyed.lookup_eq_some hOther
    cases hInsert : insertRegister
        ⟨surroundings.newId.val, Text.trim name, true, surroundings.databaseNow⟩ b with
    | ok after => exact (insertRegister_eq_ok.mp hInsert).1 other hMem hName
    | error error => simp [hInsert, Except.mapError, Except.map] at hOut
  · refine disciplined_check fun _ _ => disciplined_pure ?_
    rintro before after _ hWrite others _
    cases hInsert : insertRegister
        ⟨surroundings.newId.val, Text.trim name, true, surroundings.databaseNow⟩ before with
    | error error => simp [hInsert, Except.mapError] at hWrite
    | ok middle =>
        simp only [hInsert, Except.mapError, Except.ok.injEq] at hWrite
        subst hWrite
        exact agree_insertRegister hInsert

theorem disciplined_registerLocked {id : String} {k : CashRegister → CashTx CashEnding}
    (h : ∀ row, row.id = id →
      Disciplined cashProtection possible (.register id :: held) (k row)) :
    Disciplined cashProtection possible held (do
      let locked ← lockRegisterRow id
      throwIf (locked = false) Adapter.registerNotFound
      let found ← Tx.query fun tables => findRegister tables id
      let row ← orThrow found Adapter.registerNotFound
      k row : CashTx CashEnding) := by
  refine disciplined_lockRequired (fun a b hAgree hThere => ?_) ?_
  · refine isSome_of_agree hThere fun row hRow => ?_
    obtain ⟨row', hRow', _⟩ := hAgree.registers id row hRow
    exact ⟨row', hRow'⟩
  · refine disciplined_queryRow (fun a b row hAgree hRow => ?_) fun tables row hRow => ?_
    · obtain ⟨row', hRow', hSame⟩ := hAgree.registers id row hRow
      rw [hSame (by simp)] at hRow'
      exact ⟨row, hRow', follows_refl _ _⟩
    · exact h row (Keyed.Rows.find_eq_some_iff.mp hRow).2

theorem disciplined_updateRegister {id : String} {name : Option String} {isActive : Option Bool} :
    Disciplined cashProtection possible held
      (Adapter.updateRegister surroundings actor id name isActive) := by
  unfold Adapter.updateRegister
  refine disciplined_registerLocked fun row hId => disciplined_check fun _ _ => ?_
  refine disciplined_check fun _ _ => disciplined_check fun _ _ => ?_
  refine disciplined_write List.mem_cons_self fun before after others hWrite hFree => ?_
  rw [← hId] at hFree
  exact agree_saveRegister hFree hWrite

/-- What the insert of a session needs of the sessions that are there. -/
theorem createSession_served {register : CashRegister} {openingCents : Int}
    {openingHandoverId : Option String} {tables : CashTables} {out : CashTables × CashDocument}
    (h : serve (Adapter.createSession surroundings actor register openingCents
      openingHandoverId) tables = .ok out) :
    ∀ other ∈ tables.sessions.rows,
      (openingHandoverId ≠ none → other.openingHandoverId ≠ openingHandoverId) ∧
      (other.drawerReleasedAt = none → other.registerId ≠ register.id) := by
  simp only [Adapter.createSession, Adapter.newSession, serve_check, serve_pure, bind_eq_ok,
    pure_eq_ok, map_eq_ok] at h
  obtain ⟨row, ⟨session, _, rfl⟩, _, _, after, hInsert, _⟩ := h
  intro other hOther
  obtain ⟨hFunded, hReleased⟩ := (insertSession_eq_ok.mp hInsert).1 other hOther
  exact ⟨hFunded, hReleased rfl⟩

theorem disciplined_createSession {register : CashRegister} {openingCents : Int}
    {openingHandoverId : Option String} :
    Disciplined cashProtection possible held
      (Adapter.createSession surroundings actor register openingCents openingHandoverId) := by
  unfold Adapter.createSession
  refine disciplined_check fun row _ => disciplined_check fun _ _ => disciplined_pure ?_
  exact fun before after _ hWrite others _ => agree_insertSession hWrite

theorem assertHandoverReceipt_receivedAt {input : CashHandoverReceiptInput} {u : Unit}
    (h : assertHandoverReceipt input = .ok u) : input.receivedAt ≠ none := by
  simp only [assertHandoverReceipt, bind_eq_ok] at h
  obtain ⟨_, _, _, _, _, _, receipt, hReceipt, _⟩ := h
  unfold receiptOf at hReceipt
  split at hReceipt
  · next hAt => simp [hAt]
  · cases hReceipt

/-- The float that passed was received by the opening cashier, and its received amount is the
opening fund. -/
theorem checkOpeningHandover_eq_ok {registerId : String} {handover : CashHandover}
    {sourceSession : SessionRow} {openingCents : Int} {u : Unit}
    (h : Adapter.checkOpeningHandover actor registerId handover sourceSession openingCents =
      .ok u) :
    handover.kind = .float ∧ handover.recipientUserId = actor.userId ∧
      handover.receivedByUserId = some actor.userId ∧
      handover.receivedCents = some openingCents ∧ handover.receivedAt ≠ none ∧
      (sourceSession.registerId = registerId → sourceSession.drawerReleasedAt ≠ none) := by
  simp only [Adapter.checkOpeningHandover, resolveOpeningFundCents, bind_eq_ok, throwIf_eq_ok,
    exists_const, orThrow_eq_ok, not_or, not_not, not_and] at h
  obtain ⟨hKind, ⟨hRecipient, hReceiver⟩, received, ⟨_, _, hReceipt, hReceived⟩, hCents,
    hReleased⟩ := h
  refine ⟨hKind, hRecipient, hReceiver, hCents ▸ hReceived, ?_, hReleased⟩
  exact assertHandoverReceipt_receivedAt hReceipt

/-- The float is read before its row is locked, but a received float never changes, and the
index of the session table decides who is funded by it. -/
theorem disciplined_resolveOpeningHandover {registerId handoverId : String} {openingCents : Int}
    {k : String → CashTx CashEnding}
    (hServed : ∀ id tables out, serve (k id) tables = .ok out →
      ∀ other ∈ tables.sessions.rows, other.openingHandoverId ≠ some id)
    (h : ∀ held id, Disciplined cashProtection possible held (k id)) :
    Disciplined cashProtection possible held
      (Adapter.resolveOpeningHandover actor registerId handoverId openingCents >>= k) := by
  simp only [Adapter.resolveOpeningHandover, lockSessionRow, lockHandoverRow, bind_assoc,
    pure_bind]
  refine disciplined_queryRow (fun a b preview hAgree hPreview => ?_) fun _ preview _ => ?_
  · obtain ⟨preview', hPreview', hGrows, _⟩ := hAgree.handovers handoverId preview hPreview
    refine ⟨preview', hPreview', ?_⟩
    rw [hGrows.source_eq]
    exact follows_refl _ _
  refine disciplined_lockIgnored fun held => ?_
  refine disciplined_queryRow (fun a b handover hAgree hHandover => ?_) fun _ handover _ => ?_
  · obtain ⟨handover', hHandover', hGrows, _⟩ := hAgree.handovers handoverId handover hHandover
    refine ⟨handover', hHandover', fun out hOut => ?_⟩
    have hReceived : handover.receivedAt ≠ none := by
      simp only [serve_lockRow, serve_query, serve_check, bind_eq_ok] at hOut
      obtain ⟨_, _, _, hCheck, _⟩ := hOut
      exact (checkOpeningHandover_eq_ok hCheck).2.2.2.2.1
    rw [hGrows.eq_of_received hReceived]
    exact hOut
  refine disciplined_lockIgnored fun held => ?_
  refine disciplined_queryRow (fun a b source hAgree hSource => ?_) fun _ source _ => ?_
  · obtain ⟨source', hSource', ⟨_, hRegister, hReleased⟩, _⟩ :=
      hAgree.sessions handover.sourceSessionId source hSource
    refine ⟨source', hSource', fun out hOut => ?_⟩
    rw [serve_check, bind_eq_ok] at hOut ⊢
    obtain ⟨u, hCheck, hRest⟩ := hOut
    refine ⟨u, ?_, hRest⟩
    simp only [Adapter.checkOpeningHandover, bind_eq_ok, throwIf_eq_ok, exists_const, not_and]
      at hCheck ⊢
    obtain ⟨hKind, hRecipient, received, hFund, hCents, hFree⟩ := hCheck
    exact ⟨hKind, hRecipient, received, hFund, hCents, fun hSame =>
      hReleased (hFree (hRegister ▸ hSame))⟩
  refine disciplined_check fun _ _ => ?_
  refine disciplined_query (fun a b _ => follows_throwIf fun hReused out hOut => ?_)
    fun _ => disciplined_check fun _ _ => h held handover.id
  obtain ⟨other, hOther⟩ := Option.isSome_iff_exists.mp hReused
  have hFunded := List.find?_some hOther
  exact hServed handover.id b out hOut other (List.mem_of_find?_eq_some hOther)
    (of_decide_eq_true hFunded)

theorem disciplined_openSession {command : Adapter.OpenSessionCommand} :
    Disciplined cashProtection possible held
      (Adapter.openSession surroundings actor command) := by
  unfold Adapter.openSession
  refine disciplined_registerLocked fun register _ => ?_
  refine disciplined_check fun _ _ => disciplined_check fun _ _ => disciplined_check fun _ _ => ?_
  refine disciplined_check fun _ _ => disciplined_check fun _ _ => ?_
  refine disciplined_query (fun a b _ => follows_throwIf fun hOccupied out hOut => ?_)
    fun _ => disciplined_check fun _ _ => ?_
  · -- the index refuses a second unreleased session of the register
    obtain ⟨other, hOther⟩ := Option.isSome_iff_exists.mp hOccupied
    have hFree : ∃ openingHandoverId, ∃ out, serve (Adapter.createSession surroundings actor
        register command.openingCents openingHandoverId) b = .ok out := by
      cases hHandover : command.openingHandoverId with
      | none => exact ⟨none, out, by simpa only [hHandover] using hOut⟩
      | some handoverId =>
          simp only [hHandover, Adapter.resolveOpeningHandover, lockSessionRow, lockHandoverRow,
            bind_assoc, pure_bind, serve_lockRow, serve_query, serve_check, bind_eq_ok] at hOut
          obtain ⟨_, _, handover, _, _, _, _, _, _, _, hServe⟩ := hOut
          exact ⟨some handover.id, out, hServe⟩
    obtain ⟨_, _, hServe⟩ := hFree
    have hUnreleased := List.find?_some hOther
    obtain ⟨hRegister, hReleased⟩ := of_decide_eq_true hUnreleased
    exact (createSession_served hServe other (List.mem_of_find?_eq_some hOther)).2 hReleased
      hRegister
  · cases command.openingHandoverId with
    | none => exact disciplined_createSession
    | some handoverId =>
        refine disciplined_resolveOpeningHandover (fun id tables out hServe other hOther => ?_)
          fun _ _ => disciplined_createSession
        exact (createSession_served hServe other hOther).1 (by simp)

/-! ### Movements -/

theorem movementRows_movements (surroundings : Surroundings) (actorId : String)
    (occurredAt : Int) (movements : List CashMovement) :
    (Adapter.movementRows surroundings actorId occurredAt movements).map
      (fun row => row.movement) = movements := by
  refine List.ext_getElem (by simp [Adapter.movementRows]) fun index _ _ => ?_
  simp [Adapter.movementRows]

theorem mem_movementRows {actorId : String} {occurredAt : Int} {movements : List CashMovement}
    {row : MovementRow} (h : row ∈ Adapter.movementRows surroundings actorId occurredAt movements) :
    row.movement ∈ movements := by
  rw [← movementRows_movements surroundings actorId occurredAt movements]
  exact List.mem_map_of_mem h

theorem recordPayments_session {session : CashSession} {reads : LedgerReads}
    {actorId saleId : String} {payments : List CashLedgerPayment} {changeDueCents : Int}
    {planned : List CashMovement}
    (h : recordPayments session reads actorId saleId payments changeDueCents = .ok planned) :
    ∀ movement ∈ planned, movement.sessionId = session.id.val := by
  simp only [recordPayments, bind_eq_ok] at h
  obtain ⟨_, _, _, _, _, _, added, hAdded, hRest⟩ := h
  split at hRest
  · cases hRest
    simp
  · simp only [bind_eq_ok, pure_eq_ok] at hRest
    obtain ⟨_, _, rfl⟩ := hRest
    exact fun movement hMem => (planLedgerPayments_planned hAdded movement hMem).2

theorem recordRefund_session {session : CashSession} {reads : LedgerReads}
    {actorId settlementId : String} {amountCents : Int} {method : TenderMethod}
    {planned : List CashMovement}
    (h : recordRefund session reads actorId settlementId amountCents method = .ok planned) :
    ∀ movement ∈ planned, movement.sessionId = session.id.val := by
  simp only [recordRefund, bind_eq_ok, pure_eq_ok] at h
  obtain ⟨_, _, _, _, _, _, channel, _, _, _, _, _, rfl⟩ := h
  simp

/-- The sources that are taken only ever turn a recording into a failure. -/
theorem persistLedgerMovements_of_free {session : CashSession}
    {existing planned : List CashMovement} {taken taken' : List (CashSourceType × String)}
    {u : Unit} (h : persistLedgerMovements session existing planned taken = .ok u)
    (hFree : ∀ movement ∈ planned, movement.source ∉ taken') :
    persistLedgerMovements session existing planned taken' = .ok u := by
  simp only [persistLedgerMovements, bind_eq_ok, throwIf_eq_ok, exists_const, not_exists,
    not_and, not_not] at h ⊢
  obtain ⟨expected, hExpected, total, hTotal, _, hNodup⟩ := h
  exact ⟨expected, hExpected, total, hTotal, hFree, hNodup⟩

/-- A recording of one session: the sources are read without a lock, and the unique key of the
table settles what they are at the write. -/
theorem disciplined_record {sessionId actorId : String} {occurredAt : Int}
    {plan : List (CashSourceType × String) → Except DomainError (List CashMovement)}
    (hSession : ∀ taken planned, plan taken = .ok planned →
      ∀ movement ∈ planned, movement.sessionId = sessionId)
    (hFree : ∀ taken taken' planned, plan taken = .ok planned →
      (∀ movement ∈ planned, movement.source ∉ taken') → plan taken' = .ok planned)
    (hHeld : .session sessionId ∈ held) :
    Disciplined cashProtection possible held (do
      let taken ← Tx.query fun tables => tables.movements.map fun row => row.movement.source
      let planned ← plan taken
      return {
        write := insertMovements
          (Adapter.movementRows surroundings actorId occurredAt planned)
          Adapter.duplicateSource
        answer := .nothing } : CashTx CashEnding) := by
  refine disciplined_query (fun a b _ out hOut => ?_) fun tables => ?_
  · simp only [serve_check, serve_pure, bind_eq_ok, map_eq_ok] at hOut ⊢
    obtain ⟨planned, hPlanned, after, hInsert, hSame⟩ := hOut
    refine ⟨planned, hFree _ _ planned hPlanned fun movement hMem hTaken => ?_, after, hInsert,
      hSame⟩
    obtain ⟨other, hOther, hSource⟩ := List.mem_map.mp hTaken
    obtain ⟨row, hRow, rfl⟩ := List.mem_map.mp
      ((movementRows_movements surroundings actorId occurredAt planned).symm ▸ hMem)
    exact ((insertMovements_eq_ok.mp hInsert).1 row hRow other hOther).1 hSource
  · refine disciplined_check fun planned hPlanned => disciplined_write hHeld ?_
    intro before after others hWrite hOthers
    refine agree_insertMovements (fun row hRow => ?_) hWrite
    rw [hSession _ _ hPlanned row.movement (mem_movementRows hRow)]
    exact hOthers

theorem disciplined_assertOpenSession {sessionId actorId : String} {k : CashTx CashEnding}
    (h : ∀ held, Disciplined cashProtection possible held k) :
    Disciplined cashProtection possible held (do
      Adapter.assertOpenSession surroundings sessionId actorId
      k : CashTx CashEnding) := by
  simp only [Adapter.assertOpenSession, bind_assoc]
  exact disciplined_requireSessionLocked fun row => disciplined_check fun _ _ => h _

theorem disciplined_recordPayments {input : Adapter.PaymentsInput} :
    Disciplined cashProtection possible held (Adapter.recordPayments surroundings input) := by
  unfold Adapter.recordPayments
  refine disciplined_assertOpenSession fun held => disciplined_requireSessionLocked fun row => ?_
  simp only [Adapter.ledgerReads, bind_assoc, pure_bind]
  refine disciplined_loadSessionMovements (by simp) fun existing => ?_
  refine disciplined_record (fun taken planned hPlanned => ?_)
    (fun taken taken' planned h hFree => ?_) List.mem_cons_self
  · exact recordPayments_session hPlanned
  · simp only [recordPayments, bind_eq_ok] at h ⊢
    obtain ⟨u, hRequire, v, hSale, w, hChange, added, hAdded, hRest⟩ := h
    refine ⟨u, hRequire, v, hSale, w, hChange, added, hAdded, ?_⟩
    split at hRest
    · next hNone => rw [if_pos hNone, hRest]
    · next hSome =>
        rw [if_neg hSome]
        simp only [bind_eq_ok, pure_eq_ok] at hRest ⊢
        obtain ⟨u', hPersist, rfl⟩ := hRest
        exact ⟨u', persistLedgerMovements_of_free hPersist hFree, rfl⟩

theorem disciplined_recordRefund {input : Adapter.RefundInput} :
    Disciplined cashProtection possible held (Adapter.recordRefund surroundings input) := by
  unfold Adapter.recordRefund
  refine disciplined_assertOpenSession fun held => disciplined_requireSessionLocked fun row => ?_
  simp only [Adapter.ledgerReads, bind_assoc, pure_bind]
  refine disciplined_loadSessionMovements (by simp) fun existing => ?_
  refine disciplined_record (fun taken planned hPlanned => ?_)
    (fun taken taken' planned h hFree => ?_) List.mem_cons_self
  · exact recordRefund_session hPlanned
  · simp only [recordRefund, bind_eq_ok, pure_eq_ok] at h ⊢
    obtain ⟨u, hRequire, v, hSettlement, w, hAmount, channel, hChannel, x, hValid, y, hPersist,
      rfl⟩ := h
    exact ⟨u, hRequire, v, hSettlement, w, hAmount, channel, hChannel, x, hValid, y,
      persistLedgerMovements_of_free hPersist hFree, rfl⟩

theorem disciplined_manualMovement {command : Adapter.ManualCommand} :
    Disciplined cashProtection possible held
      (Adapter.manualMovement surroundings actor command) := by
  unfold Adapter.manualMovement
  refine disciplined_requireSessionLocked fun row => disciplined_check fun _ _ => ?_
  refine disciplined_loadSessionMovements (by simp) fun existing => ?_
  refine disciplined_check fun added hAdded => disciplined_write List.mem_cons_self ?_
  intro before after others hWrite hOthers
  refine agree_insertMovements (fun stored hStored => ?_) hWrite
  simp only [manualMovement, bind_eq_ok, pure_eq_ok] at hAdded
  obtain ⟨_, _, _, _, _, _, _, _, _, _, _, _, _, _, _, _, rfl⟩ := hAdded
  have hMovement := mem_movementRows hStored
  rw [List.mem_singleton.mp hMovement]
  exact hOthers

/-! ### Counts -/

theorem disciplined_startCount {sessionId : String} :
    Disciplined cashProtection possible held
      (Adapter.startCount surroundings actor sessionId) := by
  unfold Adapter.startCount
  refine disciplined_requireSessionLocked fun row => disciplined_check fun _ _ => ?_
  refine disciplined_loadSessionMovements (by simp) fun movements => ?_
  refine disciplined_check fun counting _ => disciplined_check fun frozen _ => ?_
  refine disciplined_check fun view _ => disciplined_write List.mem_cons_self ?_
  intro before after others hWrite hOthers
  cases hWrite
  exact agree_updateSession hOthers fun _ => ⟨rfl, rfl, fun h => h⟩

theorem disciplined_declare {command : Adapter.CountCommand} :
    Disciplined cashProtection possible held (Adapter.declare surroundings actor command) := by
  unfold Adapter.declare
  refine disciplined_requireSessionLocked fun row => disciplined_check fun _ _ => ?_
  refine disciplined_check fun _ _ => disciplined_check fun _ _ => ?_
  refine disciplined_check fun expected _ => disciplined_countsOf (by simp) fun counts => ?_
  refine disciplined_check fun _ _ => disciplined_check fun validated _ => ?_
  refine disciplined_check fun comparison _ => disciplined_write List.mem_cons_self ?_
  intro before after others hWrite hOthers
  exact agree_insert_update hWrite hOthers (fun _ h => agree_insertCount hOthers h)
    fun _ => ⟨rfl, rfl, fun h => h⟩

theorem disciplined_annotateDeclaration {sessionId notes : String} :
    Disciplined cashProtection possible held
      (Adapter.annotateDeclaration surroundings actor sessionId notes) := by
  unfold Adapter.annotateDeclaration
  refine disciplined_requireSessionLocked fun row => disciplined_check fun _ _ => ?_
  refine disciplined_check fun _ _ => disciplined_countsOf (by simp) fun counts => ?_
  refine disciplined_check fun _ _ => disciplined_check fun declaration _ => ?_
  refine disciplined_check fun _ _ => disciplined_write List.mem_cons_self ?_
  exact fun before after others hWrite hOthers => agree_insertCount hOthers hWrite

theorem disciplined_verify {command : Adapter.CountCommand} :
    Disciplined cashProtection possible held (Adapter.verify surroundings actor command) := by
  unfold Adapter.verify
  refine disciplined_requireSessionLocked fun row => disciplined_check fun _ _ => ?_
  refine disciplined_check fun _ _ => disciplined_check fun _ _ => ?_
  refine disciplined_check fun expected _ => disciplined_countsOf (by simp) fun counts => ?_
  refine disciplined_check fun declaration _ => disciplined_check fun _ _ => ?_
  refine disciplined_check fun validated _ => disciplined_check fun _ _ => ?_
  refine disciplined_check fun comparison _ => disciplined_write List.mem_cons_self ?_
  exact fun before after others hWrite hOthers => agree_insertCount hOthers hWrite

/-! ### Custody -/

/-- A receipt changes nothing that was declared. -/
theorem allocatedCents_congr {before after : List CashHandover}
    (h : List.Forall₂ CashHandover.Grows before after) (declaredCents : Int) :
    Adapter.allocatedCents declaredCents after = Adapter.allocatedCents declaredCents before := by
  induction h generalizing declaredCents with
  | nil => rfl
  | @cons first first' rest rest' hGrows _ ih =>
      have hStep : Adapter.addAllocated declaredCents first' =
          Adapter.addAllocated declaredCents first := by
        rw [Adapter.addAllocated, Adapter.addAllocated, hGrows.declared_eq]
      have hRest : ∀ allocated, rest'.foldlM Adapter.addAllocated allocated =
          rest.foldlM Adapter.addAllocated allocated := ih
      simp only [Adapter.allocatedCents, List.foldlM_cons, hStep, hRest]

theorem eq_of_forall₂_grows {before after : List CashHandover}
    (h : List.Forall₂ CashHandover.Grows before after)
    (hReceived : ∀ handover ∈ before, handover.receivedAt ≠ none) : after = before := by
  induction h with
  | nil => rfl
  | cons hGrows _ ih =>
      rw [hGrows.eq_of_received (hReceived _ List.mem_cons_self),
        ih fun handover hMem => hReceived handover (List.mem_cons_of_mem _ hMem)]

theorem requireReceived_eq_ok {message : String} {handovers : List CashHandover} {u : Unit} :
    Adapter.requireReceived message handovers = .ok u ↔
      ∀ handover ∈ handovers, handover.receivedAt ≠ none := by
  rw [Adapter.requireReceived, Traverse.forM_eq_ok_iff]
  simp only [throwIf_eq_ok]

theorem disciplined_createHandover {command : Adapter.HandoverCommand} :
    Disciplined cashProtection possible held
      (Adapter.createHandover surroundings actor command) := by
  unfold Adapter.createHandover
  refine disciplined_requireSessionLocked fun row => disciplined_check fun _ _ => ?_
  refine disciplined_check fun _ _ => disciplined_check fun _ _ => disciplined_check fun _ _ => ?_
  refine disciplined_check fun _ _ => disciplined_check fun _ _ => disciplined_check fun _ _ => ?_
  refine disciplined_countsOf (by simp) fun counts => disciplined_check fun declaration _ => ?_
  refine disciplined_handoversOf (by simp) (fun before after hGrows tables => ?_) fun existing => ?_
  · rw [allocatedCents_congr hGrows]
    exact follows_refl _ _
  refine disciplined_check fun allocated _ => disciplined_check fun _ _ => ?_
  refine disciplined_write List.mem_cons_self ?_
  exact fun before after others hWrite hOthers => agree_insertHandover hOthers hWrite

theorem receiveHandover_open {command : Adapter.ReceiveCommand} {tables : CashTables}
    {handover : CashHandover}
    (h : Servable (Adapter.receiveHandover surroundings actor command) tables)
    (hFound : findHandover tables command.id = some handover) : handover.receivedAt = none := by
  obtain ⟨out, hOut⟩ := h
  simp only [Adapter.receiveHandover, lockSessionRow, lockHandoverRow, serve_query, serve_check,
    serve_lockRow, bind_eq_ok, orThrow_eq_ok, hFound, Option.some.injEq] at hOut
  obtain ⟨_, rfl, _, _, _, rfl, _, _, _, hCheck, _⟩ := hOut
  simp only [Adapter.checkReceipt, bind_eq_ok, throwIf_eq_ok, exists_const, not_or, not_not]
    at hCheck
  exact hCheck.1.1

theorem disciplined_receiveHandover {command : Adapter.ReceiveCommand}
    (hPossible : ∀ tables, possible tables →
      Servable (Adapter.receiveHandover surroundings actor command) tables) :
    Disciplined cashProtection possible held
      (Adapter.receiveHandover surroundings actor command) := by
  unfold Adapter.receiveHandover
  refine disciplined_queryRow (fun a b preview hAgree hPreview => ?_) fun _ preview _ => ?_
  · obtain ⟨preview', hPreview', hGrows, _⟩ := hAgree.handovers command.id preview hPreview
    refine ⟨preview', hPreview', ?_⟩
    rw [hGrows.source_eq]
    exact follows_refl _ _
  refine disciplined_lockIgnored fun held => ?_
  refine disciplined_lockRequired (fun a b hAgree hThere => ?_) ?_
  · refine isSome_of_agree hThere fun row hRow => ?_
    obtain ⟨row', hRow', _⟩ := hAgree.handovers command.id row hRow
    exact ⟨row', hRow'⟩
  refine disciplined_queryRow (fun a b row hAgree hRow => ?_) fun tables row hRow => ?_
  · obtain ⟨row', hRow', _, hSame⟩ := hAgree.handovers command.id row hRow
    rw [hSame (by simp)] at hRow'
    exact ⟨row, hRow', follows_refl _ _⟩
  refine disciplined_check fun _ _ => disciplined_check fun _ _ => disciplined_pure ?_
  intro before after hBefore hWrite others hOthers
  have hId : row.id = command.id := (Keyed.Rows.find_eq_some_iff.mp hRow).2
  cases hWrite
  rw [hId]
  refine agree_updateHandover (fun hIn => hOthers _ hIn List.mem_cons_self) (fun _ => rfl) ?_
  exact fun found hFound => receiveHandover_open (hPossible before hBefore) hFound

theorem disciplined_releaseDrawer {sessionId : String} :
    Disciplined cashProtection possible held
      (Adapter.releaseDrawer surroundings actor sessionId) := by
  unfold Adapter.releaseDrawer
  refine disciplined_requireSessionLocked fun row => disciplined_check fun _ _ => ?_
  refine disciplined_check fun _ _ => disciplined_check fun _ _ => ?_
  refine disciplined_countsOf (by simp) fun counts => ?_
  refine disciplined_handoversOf (by simp) (fun before after hGrows tables out hOut => ?_)
    fun handovers => ?_
  · rw [serve_check, bind_eq_ok] at hOut
    obtain ⟨_, hReceived, hRest⟩ := hOut
    rw [eq_of_forall₂_grows hGrows (requireReceived_eq_ok.mp hReceived), serve_check, bind_eq_ok]
    exact ⟨_, hReceived, hRest⟩
  refine disciplined_check fun _ _ => disciplined_check fun _ _ => ?_
  refine disciplined_write List.mem_cons_self fun before after others hWrite hOthers => ?_
  cases hWrite
  exact agree_updateSession hOthers fun _ => ⟨rfl, rfl, by simp⟩

/-! ### The final cut -/

/-- A cut that was made found every handover received and the declared cash handed over. -/
theorem closingSnapshot_checked {command : Adapter.CloseCommand} {session : SessionRow}
    {expected : ExpectedSnapshot} {original declaration verification : CashCount}
    {handovers : List CashHandover} {snapshot : CashClosingSnapshot}
    (h : Adapter.closingSnapshot surroundings actor command session expected original declaration
      verification handovers = .ok snapshot) :
    (∀ handover ∈ handovers, handover.receivedAt ≠ none) ∧
      assertCashFullyAllocated (cashCents declaration.lines) (handovers.map allocationOf) =
        .ok () := by
  simp only [Adapter.closingSnapshot, Adapter.checkClosing, bind_eq_ok, pure_eq_ok] at h
  obtain ⟨_, ⟨_, _, _, _, _, hReceived, _, hAllocated, _⟩, _⟩ := h
  exact ⟨requireReceived_eq_ok.mp hReceived, hAllocated⟩

theorem disciplined_close {command : Adapter.CloseCommand} :
    Disciplined cashProtection possible held (Adapter.close surroundings actor command) := by
  unfold Adapter.close
  refine disciplined_requireSessionLocked fun row => disciplined_check fun _ _ => ?_
  refine disciplined_check fun _ _ => disciplined_check fun _ _ => disciplined_check fun _ _ => ?_
  refine disciplined_check fun expected _ => disciplined_countsOf (by simp) fun counts => ?_
  refine disciplined_check fun declaration _ => disciplined_check fun verification _ => ?_
  refine disciplined_check fun original _ => ?_
  refine disciplined_handoversOf (by simp) (fun before after hGrows tables out hOut => ?_)
    fun handovers => ?_
  · rw [serve_check, bind_eq_ok] at hOut
    obtain ⟨snapshot, hSnapshot, hRest⟩ := hOut
    rw [eq_of_forall₂_grows hGrows (closingSnapshot_checked hSnapshot).1, serve_check, bind_eq_ok]
    exact ⟨snapshot, hSnapshot, hRest⟩
  refine disciplined_check fun snapshot _ => disciplined_write List.mem_cons_self ?_
  intro before after others hWrite hOthers
  exact agree_insert_update hWrite hOthers (fun _ h => agree_insertClosing h)
    fun _ => ⟨rfl, rfl, fun h => h⟩

/-! ### Requests -/

theorem disciplined_dispatch {command : CashCommand}
    (hPossible : ∀ tables, possible tables →
      Servable (dispatch surroundings actor command) tables) :
    Disciplined cashProtection possible held (dispatch surroundings actor command) := by
  cases command with
  | createRegister => exact disciplined_createRegister
  | updateRegister => exact disciplined_updateRegister
  | openSession => exact disciplined_openSession
  | manualMovement => exact disciplined_manualMovement
  | startCount => exact disciplined_startCount
  | declare => exact disciplined_declare
  | annotateDeclaration => exact disciplined_annotateDeclaration
  | verify => exact disciplined_verify
  | createHandover => exact disciplined_createHandover
  | receiveHandover => exact disciplined_receiveHandover hPossible
  | releaseDrawer => exact disciplined_releaseDrawer
  | close => exact disciplined_close

/-- A request with nobody else around: an answer that is stored is given again, and anything
else is done together with the row of its answer. -/
theorem serve_execute {request : CashRequest} {tables : CashTables}
    {out : CashTables × CashDocument} :
    serve (execute surroundings request) tables = .ok out ↔
      ∃ key, requireIdempotencyKey request.idempotencyKey = .ok key ∧
        assertAbility request.actor (cashCommandAbility request.command) none = .ok () ∧
        ((∃ stored, findCommand tables key = some stored ∧
            replay surroundings request stored = .ok out.2 ∧ out.1 = tables) ∨
          (findCommand tables key = none ∧
            ∃ middle, serve (runCommand surroundings request.actor request.command) tables =
                .ok (middle, out.2) ∧
              insertCommand (receipt key request out.2) middle = .ok out.1)) := by
  simp only [execute, serve_check, serve_lockKey, serve_query, bind_eq_ok]
  constructor
  · rintro ⟨key, hKey, _, hAbility, h⟩
    refine ⟨key, hKey, hAbility, ?_⟩
    cases hStored : findCommand tables key with
    | some stored =>
        simp only [hStored, serve_check, serve_pure, bind_eq_ok, Except.map, Except.ok.injEq] at h
        obtain ⟨response, hReplay, rfl⟩ := h
        exact Or.inl ⟨stored, rfl, hReplay, rfl⟩
    | none =>
        simp only [hStored, serve_andWrite, bind_eq_ok, pure_eq_ok] at h
        obtain ⟨⟨middle, response⟩, hRun, after, hInsert, rfl⟩ := h
        exact Or.inr ⟨rfl, middle, hRun, hInsert⟩
  · rintro ⟨key, hKey, hAbility, h⟩
    refine ⟨key, hKey, (), hAbility, ?_⟩
    rcases h with ⟨stored, hStored, hReplay, hSame⟩ | ⟨hStored, middle, hRun, hInsert⟩
    · simp only [hStored, serve_check, serve_pure, bind_eq_ok, Except.map, Except.ok.injEq]
      exact ⟨out.2, hReplay, by rw [← hSame]⟩
    · simp only [hStored, serve_andWrite, bind_eq_ok, pure_eq_ok]
      exact ⟨(middle, out.2), hRun, out.1, hInsert, rfl⟩

theorem disciplined_execute {request : CashRequest} :
    Disciplined cashProtection (Changes (execute surroundings request)) []
      (execute surroundings request) := by
  have hPossible : ∀ tables, Changes (execute surroundings request) tables →
      Servable (dispatch surroundings request.actor request.command) tables := by
    rintro tables ⟨out, hServe, hChanged⟩
    obtain ⟨_, _, _, ⟨_, _, _, hSame⟩ | ⟨_, middle, hRun, _⟩⟩ := serve_execute.mp hServe
    · exact absurd hSame hChanged
    · rw [runCommand, serve_check, bind_eq_ok] at hRun
      obtain ⟨_, _, hRun⟩ := hRun
      exact ⟨_, hRun⟩
  unfold execute
  refine disciplined_check fun key _ => disciplined_check fun _ _ => disciplined_lockKey ?_
  refine disciplined_query_of_agree (fun a b hAgree => ?_) fun tables => ?_
  · exact (hAgree.commands key (by simp)).symm
  · cases findCommand tables key with
    | some stored =>
        refine disciplined_check fun response _ => disciplined_pure ?_
        intro before after _ hWrite others _
        cases hWrite
        exact Agree.refl others _
    | none =>
        refine disciplined_andWrite (fun answer before after h others hFree => ?_)
          List.mem_cons_self (disciplined_check fun _ _ => disciplined_dispatch hPossible)
        exact agree_insertCommand hFree h

theorem disciplined_of_cashBody {body : CashTx CashEnding} (h : CashBody body) :
    Disciplined cashProtection (Changes body) [] body := by
  cases h with
  | request => exact disciplined_execute
  | payments => exact disciplined_recordPayments
  | refund => exact disciplined_recordRefund

end

end Houndfe.Cash
