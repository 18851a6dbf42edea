import Houndfe.Cash.Effects

/-! Floats and registers: a float opens one session, in the amount its cashier received, and a
register has one drawer out at a time. -/

namespace Houndfe.Cash

open PaymentMethods Transactions Transition Adapter

structure FloatFunding (tables : CashTables) : Prop where
  /-- The opening amount of a funded session is what its owner received in its float. -/
  funded : ∀ session ∈ tables.sessions.rows, ∀ id, session.openingHandoverId = some id →
    ∃ handover, findHandover tables id = some handover ∧ FundedBy session handover
  /-- A float funds at most one session. -/
  once : ∀ session ∈ tables.sessions.rows, ∀ other ∈ tables.sessions.rows,
    session.openingHandoverId ≠ none → session.openingHandoverId = other.openingHandoverId →
      session = other
  /-- A register has at most one session whose drawer is not released. -/
  occupied : ∀ session ∈ tables.sessions.rows, ∀ other ∈ tables.sessions.rows,
    session.drawerReleasedAt = none → other.drawerReleasedAt = none →
      session.registerId = other.registerId → session = other

theorem floatFunding_empty : FloatFunding .empty := by
  constructor <;> simp [CashTables.empty, Keyed.Rows.empty]

section

variable {tables : CashTables}

/-- What an update of a session must leave to it. -/
structure KeepsFunding (change : SessionRow → SessionRow) : Prop where
  openingHandoverId : ∀ row, (change row).openingHandoverId = row.openingHandoverId
  registerId : ∀ row, (change row).registerId = row.registerId
  cashier : ∀ row, (change row).cashierUserId = row.cashierUserId
  opening : ∀ row, (change row).openingCents = row.openingCents
  released : ∀ row, row.drawerReleasedAt ≠ none → (change row).drawerReleasedAt ≠ none

theorem keepsFunding_freeze {now : Int} {snapshot : ExpectedSnapshot} :
    KeepsFunding (SessionRow.freeze now snapshot) := by
  constructor <;> simp [SessionRow.freeze]

theorem keepsFunding_submit {now : Int} : KeepsFunding (SessionRow.submit now) := by
  constructor <;> simp [SessionRow.submit]

theorem keepsFunding_release {now : Int} : KeepsFunding (SessionRow.release now) := by
  constructor <;> simp [SessionRow.release]

theorem keepsFunding_shut {now : Int} : KeepsFunding (SessionRow.shut now) := by
  constructor <;> simp [SessionRow.shut]

theorem FloatFunding.updateSession (h : FloatFunding tables) {id : String}
    {change : SessionRow → SessionRow} {hKey : ∀ row, (change row).key = row.key}
    (hChange : KeepsFunding change) : FloatFunding (updateSession id change hKey tables) := by
  -- the row a session comes from has the same opening and register
  have hFrom : ∀ session ∈ (Cash.updateSession id change hKey tables).sessions.rows,
      ∃ row ∈ tables.sessions.rows, (if row.key = id then change row else row) = session ∧
        session.openingHandoverId = row.openingHandoverId ∧
        session.registerId = row.registerId ∧ session.cashierUserId = row.cashierUserId ∧
        session.openingCents = row.openingCents ∧
        (session.drawerReleasedAt = none → row.drawerReleasedAt = none) := by
    intro session hMem
    obtain ⟨row, hRow, rfl⟩ := mem_updateSession.mp hMem
    refine ⟨row, hRow, rfl, ?_⟩
    split
    · refine ⟨hChange.openingHandoverId row, hChange.registerId row, hChange.cashier row,
        hChange.opening row, fun hNone => ?_⟩
      by_contra hReleased
      exact hChange.released row hReleased hNone
    · exact ⟨rfl, rfl, rfl, rfl, fun hNone => hNone⟩
  constructor
  · intro session hMem handoverId hId
    obtain ⟨row, hRow, _, hOpening, _, hCashier, hCents, _⟩ := hFrom session hMem
    obtain ⟨handover, hFound, hFloat, hReceived, hReceiver, hAmount⟩ :=
      h.funded row hRow handoverId (hOpening ▸ hId)
    exact ⟨handover, hFound, hFloat, hReceived, hCashier ▸ hReceiver, hCents ▸ hAmount⟩
  · intro session hMem other hOther hFunded hSame
    obtain ⟨row, hRow, rfl, hOpening, _⟩ := hFrom session hMem
    obtain ⟨row', hRow', rfl, hOpening', _⟩ := hFrom other hOther
    rw [hOpening] at hFunded hSame
    rw [hOpening'] at hSame
    rw [h.once row hRow row' hRow' hFunded hSame]
  · intro session hMem other hOther hOpen hOpen' hSame
    obtain ⟨row, hRow, rfl, _, hRegister, _, _, hReleased⟩ := hFrom session hMem
    obtain ⟨row', hRow', rfl, _, hRegister', _, _, hReleased'⟩ := hFrom other hOther
    rw [hRegister, hRegister'] at hSame
    rw [h.occupied row hRow row' hRow' (hReleased hOpen) (hReleased' hOpen') hSame]

/-- A handover that comes leaves the ones that funded. -/
theorem FloatFunding.handedOver (h : FloatFunding tables) {row : CashHandover}
    {handovers : Keyed.Rows CashHandover.id}
    (hInsert : tables.handovers.insert row = some handovers) :
    FloatFunding { tables with handovers } := by
  refine ⟨fun session hMem id hId => ?_, h.once, h.occupied⟩
  obtain ⟨handover, hFound, hFunded⟩ := h.funded session hMem id hId
  exact ⟨handover, Keyed.Rows.find_insert_of_find hInsert hFound, hFunded⟩

/-- A float that funds a session was received before, and is not received again. -/
theorem FloatFunding.received (h : FloatFunding tables) {handover : CashHandover}
    {change : CashHandover → CashHandover} {hKey : ∀ row : CashHandover, (change row).id = row.id}
    (hFound : findHandover tables handover.id = some handover)
    (hUnreceived : handover.receivedAt = none) :
    FloatFunding (updateHandover handover.id change hKey tables) := by
  refine ⟨fun session hMem id hId => ?_, h.once, h.occupied⟩
  obtain ⟨other, hOther, hFunded⟩ := h.funded session hMem id hId
  have hNe : id ≠ handover.id := by
    rintro rfl
    rw [hFound] at hOther
    cases hOther
    exact hFunded.received hUnreceived
  exact ⟨other, by rw [find_updateHandover, if_neg hNe, hOther], hFunded⟩

theorem FloatFunding.opened (h : FloatFunding tables) {row : SessionRow}
    {sessions : Keyed.Rows SessionRow.key} (hInsert : tables.sessions.insert row = some sessions)
    (hFree : ∀ other ∈ tables.sessions.rows,
      (row.openingHandoverId ≠ none → other.openingHandoverId ≠ row.openingHandoverId) ∧
      (other.drawerReleasedAt = none → other.registerId ≠ row.registerId))
    (hFunded : ∀ id, row.openingHandoverId = some id →
      ∃ handover, findHandover tables id = some handover ∧ FundedBy row handover) :
    FloatFunding { tables with sessions } := by
  have hMem : ∀ session ∈ sessions.rows, session ∈ tables.sessions.rows ∨ session = row := by
    intro session hSession
    rw [(Keyed.Rows.insert_eq_some.mp hInsert).2] at hSession
    simpa using hSession
  constructor
  · intro session hSession id hId
    rcases hMem session hSession with hOld | rfl
    · exact h.funded session hOld id hId
    · exact hFunded id hId
  · intro session hSession other hOther hSome hSame
    rcases hMem session hSession with hOld | rfl
    · rcases hMem other hOther with hOld' | rfl
      · exact h.once session hOld other hOld' hSome hSame
      · exact absurd hSame ((hFree session hOld).1 (hSame ▸ hSome))
    · rcases hMem other hOther with hOld' | rfl
      · exact absurd hSame.symm ((hFree other hOld').1 hSome)
      · rfl
  · intro session hSession other hOther hOpen hOpen' hSame
    rcases hMem session hSession with hOld | rfl
    · rcases hMem other hOther with hOld' | rfl
      · exact h.occupied session hOld other hOld' hOpen hOpen' hSame
      · exact absurd hSame ((hFree session hOld).2 hOpen)
    · rcases hMem other hOther with hOld' | rfl
      · exact absurd hSame.symm ((hFree other hOld').2 hOpen')
      · rfl

theorem FloatFunding.change (h : FloatFunding tables) {after : CashTables}
    (hChange : CashChange tables after) : FloatFunding after := by
  cases hChange with
  | registers => exact ⟨h.funded, h.once, h.occupied⟩
  | opened insert _ free funded => exact h.opened insert free funded
  | recorded => exact ⟨h.funded, h.once, h.occupied⟩
  | frozen => exact h.updateSession keepsFunding_freeze
  | declared =>
      refine FloatFunding.updateSession ?_ keepsFunding_submit
      exact ⟨h.funded, h.once, h.occupied⟩
  | annotated => exact ⟨h.funded, h.once, h.occupied⟩
  | verified => exact ⟨h.funded, h.once, h.occupied⟩
  | handedOver _ _ _ _ _ _ _ insert => exact h.handedOver insert
  | received found unreceived => exact h.received found unreceived
  | released => exact h.updateSession keepsFunding_release
  | closed =>
      refine FloatFunding.updateSession ?_ keepsFunding_shut
      exact ⟨h.funded, h.once, h.occupied⟩

end

/-- Whatever the interleaving of requests and ledger calls over any registers and users. -/
theorem floatFunding_of_runs {Tid : Type} [DecidableEq Tid]
    {events : List (Event Tid CashLock CashTables DomainError CashDocument)}
    {system : System Tid CashLock CashTables DomainError CashDocument}
    (run : Runs (Step CashBody) (System.idle CashTables.empty) events system) :
    FloatFunding system.tables :=
  invariant_of_runs (fun _ _ h hChange => h.change hChange)
    (fun _ _ h => ⟨h.funded, h.once, h.occupied⟩) (sound_idle _) floatFunding_empty run

/-- Ana opens with her own fund, counts, hands the drawer over as a float and releases it; Bob
receives the float and opens on it. -/
def floatDay : List (CashTx CashEnding) := [
  requestAt 1 "front" "ana" (.createRegister "Front desk"),
  requestAt 2 "morning" "ana" (.openSession ⟨"front", 500, none, true⟩),
  requestAt 3 "freeze" "ana" (.startCount "morning"),
  requestAt 4 "count" "ana" (.declare ⟨"morning", [⟨"CASH", 500⟩], none, none⟩),
  requestAt 5 "float" "ana" (.createHandover ⟨"morning", .float, "bob", 500, none⟩),
  requestAt 6 "receipt" "bob" (.receiveHandover ⟨"float", 480, some "short"⟩),
  requestAt 7 "release" "ana" (.releaseDrawer "morning"),
  requestAt 8 "evening" "bob" (.openSession ⟨"front", 480, some "float", true⟩)]

theorem serveAll_floatDay : (serveAll floatDay .empty).map (fun tables =>
    tables.sessions.rows.map fun row => (row.key, row.openingHandoverId, row.openingCents.val)) =
      some [("morning", none, 500), ("evening", some "float", 480)] := by
  decide +kernel

theorem floatFunding_of_floatDay : ∃ events system,
    Runs (Step CashBody) (System.idle CashTables.empty :
      System Unit CashLock CashTables DomainError CashDocument) events system ∧
    (system.tables.sessions.rows.map fun row =>
      (row.key, row.openingHandoverId, row.openingCents.val)) =
        [("morning", none, 500), ("evening", some "float", 480)] ∧
    FloatFunding system.tables := by
  obtain ⟨tables, hServed, hRows⟩ := Option.map_eq_some_iff.mp serveAll_floatDay
  have hBodies : ∀ body ∈ floatDay, CashBody body := by
    simp [floatDay, cashBody_requestAt]
  obtain ⟨events, run⟩ := runs_of_serveAll hBodies hServed
  exact ⟨events, _, run, hRows, floatFunding_of_runs run⟩

end Houndfe.Cash
