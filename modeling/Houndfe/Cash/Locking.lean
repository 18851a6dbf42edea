import Houndfe.Cash.Requests

/-! The locks of the cash register cover what its transactions read and write: whatever the
interleaving, the transactions that commit do what they would do alone, one after another. -/

namespace Houndfe.Cash

open PaymentMethods Transactions Transition

/-! ### What a lock protects -/

/-- The columns of a handover that its receipt does not touch. -/
def CashHandover.offer (handover : CashHandover) : CashHandover :=
  { handover with
    receivedCents := none
    receiptNotes := none
    receivedAt := none
    receivedByUserId := none }

/-- What can become of a handover row: nothing, or its one receipt. -/
def CashHandover.Grows (before after : CashHandover) : Prop :=
  after = before ∨ (before.receivedAt = none ∧ after.offer = before.offer)

theorem CashHandover.grows_refl (handover : CashHandover) : handover.Grows handover :=
  Or.inl rfl

theorem CashHandover.Grows.trans {first second third : CashHandover}
    (h : first.Grows second) (h' : second.Grows third) : first.Grows third := by
  rcases h with rfl | ⟨hOpen, hOffer⟩
  · exact h'
  · rcases h' with rfl | ⟨_, hOffer'⟩
    · exact Or.inr ⟨hOpen, hOffer⟩
    · exact Or.inr ⟨hOpen, hOffer'.trans hOffer⟩

theorem CashHandover.Grows.source_eq {before after : CashHandover} (h : before.Grows after) :
    after.sourceSessionId = before.sourceSessionId := by
  rcases h with rfl | ⟨_, hOffer⟩
  · rfl
  · have hSame := congrArg CashHandover.sourceSessionId hOffer
    exact hSame

theorem CashHandover.Grows.declared_eq {before after : CashHandover} (h : before.Grows after) :
    after.declaredCents = before.declaredCents := by
  rcases h with rfl | ⟨_, hOffer⟩
  · rfl
  · have hSame := congrArg CashHandover.declaredCents hOffer
    exact hSame

theorem CashHandover.Grows.eq_of_received {before after : CashHandover} (h : before.Grows after)
    (hReceived : before.receivedAt ≠ none) : after = before := by
  rcases h with hSame | ⟨hOpen, _⟩
  · exact hSame
  · exact absurd hOpen hReceived

/-- What no transaction changes in a session row: its register, and a release once it happened. -/
def SessionRow.Precedes (before after : SessionRow) : Prop :=
  after.id = before.id ∧ after.registerId = before.registerId ∧
    (before.drawerReleasedAt ≠ none → after.drawerReleasedAt ≠ none)

/-- What the holder of some locks may rely on while others commit. -/
structure Agree (held : List CashLock) (a b : CashTables) : Prop where
  registers : ∀ id row, findRegister a id = some row →
    ∃ row', findRegister b id = some row' ∧ (.register id ∈ held → row' = row)
  sessions : ∀ id row, findSession a id = some row →
    ∃ row', findSession b id = some row' ∧ row.Precedes row' ∧ (.session id ∈ held → row' = row)
  movements : ∀ id, .session id ∈ held → movementsOf b id = movementsOf a id
  counts : ∀ id, .session id ∈ held → countsOf b id = countsOf a id
  custody : ∀ id, .session id ∈ held →
    List.Forall₂ CashHandover.Grows (handoversOf a id) (handoversOf b id)
  handovers : ∀ id row, findHandover a id = some row →
    ∃ row', findHandover b id = some row' ∧ row.Grows row' ∧ (.handover id ∈ held → row' = row)
  commands : ∀ key, .key key ∈ held → findCommand b key = findCommand a key

theorem Agree.refl (held : List CashLock) (tables : CashTables) : Agree held tables tables where
  registers := fun _ row h => ⟨row, h, fun _ => rfl⟩
  sessions := fun _ row h => ⟨row, h, ⟨rfl, rfl, fun h => h⟩, fun _ => rfl⟩
  movements := fun _ _ => rfl
  counts := fun _ _ => rfl
  custody := fun _ _ => List.forall₂_same.mpr fun row _ => row.grows_refl
  handovers := fun _ row h => ⟨row, h, row.grows_refl, fun _ => rfl⟩
  commands := fun _ _ => rfl

/-- The growth of a list of rows, one row after another. -/
theorem forall₂_grows_trans {first second third : List CashHandover}
    (h : List.Forall₂ CashHandover.Grows first second)
    (h' : List.Forall₂ CashHandover.Grows second third) :
    List.Forall₂ CashHandover.Grows first third := by
  induction h generalizing third with
  | nil => exact h'
  | cons hHead _ ih =>
      cases h' with
      | cons hHead' hRest' => exact .cons (hHead.trans hHead') (ih hRest')

theorem Agree.trans {held : List CashLock} {a b c : CashTables} (h : Agree held a b)
    (h' : Agree held b c) : Agree held a c where
  registers := fun id row hRow => by
    obtain ⟨middle, hMiddle, hSame⟩ := h.registers id row hRow
    obtain ⟨last, hLast, hSame'⟩ := h'.registers id middle hMiddle
    exact ⟨last, hLast, fun hHeld => (hSame' hHeld).trans (hSame hHeld)⟩
  sessions := fun id row hRow => by
    obtain ⟨middle, hMiddle, hBefore, hSame⟩ := h.sessions id row hRow
    obtain ⟨last, hLast, hBefore', hSame'⟩ := h'.sessions id middle hMiddle
    refine ⟨last, hLast, ⟨hBefore'.1.trans hBefore.1, hBefore'.2.1.trans hBefore.2.1, ?_⟩, ?_⟩
    · exact fun hReleased => hBefore'.2.2 (hBefore.2.2 hReleased)
    · exact fun hHeld => (hSame' hHeld).trans (hSame hHeld)
  movements := fun id hHeld => (h'.movements id hHeld).trans (h.movements id hHeld)
  counts := fun id hHeld => (h'.counts id hHeld).trans (h.counts id hHeld)
  custody := fun id hHeld => forall₂_grows_trans (h.custody id hHeld) (h'.custody id hHeld)
  handovers := fun id row hRow => by
    obtain ⟨middle, hMiddle, hGrows, hSame⟩ := h.handovers id row hRow
    obtain ⟨last, hLast, hGrows', hSame'⟩ := h'.handovers id middle hMiddle
    exact ⟨last, hLast, hGrows.trans hGrows', fun hHeld => (hSame' hHeld).trans (hSame hHeld)⟩
  commands := fun key hHeld => (h'.commands key hHeld).trans (h.commands key hHeld)

theorem Agree.mono {key : CashLock} {held : List CashLock} {a b : CashTables}
    (h : Agree (key :: held) a b) : Agree held a b where
  registers := fun id row hRow => by
    obtain ⟨row', hRow', hSame⟩ := h.registers id row hRow
    exact ⟨row', hRow', fun hHeld => hSame (List.mem_cons_of_mem _ hHeld)⟩
  sessions := fun id row hRow => by
    obtain ⟨row', hRow', hBefore, hSame⟩ := h.sessions id row hRow
    exact ⟨row', hRow', hBefore, fun hHeld => hSame (List.mem_cons_of_mem _ hHeld)⟩
  movements := fun id hHeld => h.movements id (List.mem_cons_of_mem _ hHeld)
  counts := fun id hHeld => h.counts id (List.mem_cons_of_mem _ hHeld)
  custody := fun id hHeld => h.custody id (List.mem_cons_of_mem _ hHeld)
  handovers := fun id row hRow => by
    obtain ⟨row', hRow', hGrows, hSame⟩ := h.handovers id row hRow
    exact ⟨row', hRow', hGrows, fun hHeld => hSame (List.mem_cons_of_mem _ hHeld)⟩
  commands := fun key hHeld => h.commands key (List.mem_cons_of_mem _ hHeld)

/-- The locks of the cash register. -/
def cashProtection : Protection CashLock CashTables where
  agree := Agree
  refl := Agree.refl
  trans := fun _ _ _ _ h h' => h.trans h'
  mono := fun _ _ _ _ h => h.mono

/-! ### What each write leaves to the holders of other locks -/

section

variable {others : List CashLock} {tables after : CashTables}

theorem agree_insertRegister {row : CashRegister} (h : insertRegister row tables = .ok after) :
    Agree others tables after := by
  obtain ⟨_, registers, hInsert, rfl⟩ := insertRegister_eq_ok.mp h
  exact { Agree.refl others tables with
    registers := fun _ found hFound =>
      ⟨found, Keyed.Rows.find_insert_of_find hInsert hFound, fun _ => rfl⟩ }

theorem agree_saveRegister {id name : String} {isActive : Bool} (hLock : .register id ∉ others)
    (h : saveRegister id name isActive tables = .ok after) : Agree others tables after := by
  obtain ⟨_, rfl⟩ := saveRegister_eq_ok.mp h
  refine { Agree.refl others tables with registers := fun id' found hFound => ?_ }
  have hFound' : tables.registers.find id' = some found := hFound
  by_cases hId : id' = id
  · subst hId
    refine ⟨{ found with name, isActive }, ?_, fun hHeld => absurd hHeld hLock⟩
    rw [findRegister, Keyed.Rows.find_modify, if_pos rfl, hFound', Option.map_some]
  · exact ⟨found, by rw [findRegister, Keyed.Rows.find_modify, if_neg hId, hFound'],
      fun _ => rfl⟩

theorem agree_insertSession {row : SessionRow} (h : insertSession row tables = .ok after) :
    Agree others tables after := by
  obtain ⟨_, sessions, hInsert, rfl⟩ := insertSession_eq_ok.mp h
  exact { Agree.refl others tables with
    sessions := fun _ found hFound =>
      ⟨found, Keyed.Rows.find_insert_of_find hInsert hFound,
        ⟨rfl, rfl, fun hReleased => hReleased⟩, fun _ => rfl⟩ }

theorem agree_updateSession {id : String} {change : SessionRow → SessionRow}
    {hKey : ∀ row : SessionRow, (change row).key = row.key} (hLock : .session id ∉ others)
    (hChange : ∀ row : SessionRow, row.Precedes (change row)) :
    Agree others tables (updateSession id change hKey tables) := by
  refine { Agree.refl others tables with sessions := fun id' found hFound => ?_ }
  have hFound' : tables.sessions.find id' = some found := hFound
  by_cases hId : id' = id
  · subst hId
    refine ⟨change found, ?_, hChange found, fun hHeld => absurd hHeld hLock⟩
    rw [findSession, updateSession, Keyed.Rows.find_modify, if_pos rfl, hFound', Option.map_some]
  · refine ⟨found, ?_, ⟨rfl, rfl, fun hReleased => hReleased⟩, fun _ => rfl⟩
    rw [findSession, updateSession, Keyed.Rows.find_modify, if_neg hId, hFound']

/-- Rows of other sessions do not show in a session's rows. -/
private theorem filter_append_of_ne {α : Type} {rows added : List α} {session : α → String}
    {id : String} (h : ∀ row ∈ added, session row ≠ id) :
    (rows ++ added).filter (fun row => session row = id) =
      rows.filter fun row => session row = id := by
  have hNone : added.filter (fun row => session row = id) = [] := by
    rw [List.filter_eq_nil_iff]
    intro row hRow
    simpa using h row hRow
  rw [List.filter_append, hNone, List.append_nil]

theorem agree_insertMovements {rows : List MovementRow} {error : DomainError}
    (hLock : ∀ row ∈ rows, .session row.movement.sessionId ∉ others)
    (h : insertMovements rows error tables = .ok after) : Agree others tables after := by
  obtain ⟨_, _, rfl⟩ := insertMovements_eq_ok.mp h
  refine { Agree.refl others tables with movements := fun id hHeld => ?_ }
  refine filter_append_of_ne fun row hRow hSame => ?_
  rw [← hSame] at hHeld
  exact hLock row hRow hHeld

theorem agree_insertCount {row : CashCount} (hLock : .session row.sessionId ∉ others)
    (h : insertCount row tables = .ok after) : Agree others tables after := by
  obtain ⟨_, rfl⟩ := insertCount_eq_ok.mp h
  refine { Agree.refl others tables with counts := fun id hHeld => ?_ }
  refine filter_append_of_ne fun added hAdded hSame => ?_
  obtain rfl := List.mem_singleton.mp hAdded
  rw [← hSame] at hHeld
  exact hLock hHeld

theorem agree_insertHandover {row : CashHandover} (hLock : .session row.sourceSessionId ∉ others)
    (h : insertHandover row tables = .ok after) : Agree others tables after := by
  obtain ⟨handovers, hInsert, rfl⟩ := insertHandover_eq_ok.mp h
  refine { Agree.refl others tables with custody := fun id hHeld => ?_, handovers := ?_ }
  · have hSame : handoversOf { tables with handovers } id = handoversOf tables id := by
      rw [handoversOf, (Keyed.Rows.insert_eq_some.mp hInsert).2]
      refine filter_append_of_ne fun added hAdded hSame => ?_
      obtain rfl := List.mem_singleton.mp hAdded
      rw [← hSame] at hHeld
      exact hLock hHeld
    rw [hSame]
    exact (Agree.refl others tables).custody id (by simpa using hHeld)
  · exact fun _ found hFound => ⟨found, Keyed.Rows.find_insert_of_find hInsert hFound,
      found.grows_refl, fun _ => rfl⟩

/-- A receipt fills in one row that was not received yet. -/
theorem agree_updateHandover {id : String} {change : CashHandover → CashHandover}
    {hKey : ∀ row : CashHandover, (change row).id = row.id} (hLock : .handover id ∉ others)
    (hOffer : ∀ row, (change row).offer = row.offer)
    (hOpen : ∀ row, findHandover tables id = some row → row.receivedAt = none) :
    Agree others tables (updateHandover id change hKey tables) := by
  have hGrows : ∀ row ∈ tables.handovers.rows,
      row.Grows (if row.id = id then change row else row) := by
    intro row hRow
    split
    · next hSame =>
        exact Or.inr ⟨hOpen row (hSame ▸ Keyed.Rows.find_of_mem hRow), hOffer row⟩
    · exact row.grows_refl
  refine { Agree.refl others tables with
    custody := fun sessionId _ => ?_, handovers := fun id' found hFound => ?_ }
  · show List.Forall₂ CashHandover.Grows (tables.handovers.rows.filter _)
      ((tables.handovers.rows.map _).filter _)
    have hFilter : ((fun row : CashHandover => decide (row.sourceSessionId = sessionId)) ∘
        fun row => if row.id = id then change row else row) =
          fun row => decide (row.sourceSessionId = sessionId) := by
      funext row
      simp only [Function.comp]
      split
      · have hSame := congrArg CashHandover.sourceSessionId (hOffer row)
        have hSource : (change row).sourceSessionId = row.sourceSessionId := hSame
        rw [hSource]
      · rfl
    rw [List.filter_map, hFilter, List.forall₂_map_right_iff, List.forall₂_same]
    exact fun row hRow => hGrows row (List.mem_filter.mp hRow).1
  · have hFound' : tables.handovers.find id' = some found := hFound
    by_cases hId : id' = id
    · subst hId
      refine ⟨change found, ?_, Or.inr ⟨hOpen found hFound, hOffer found⟩,
        fun hHeld => absurd hHeld hLock⟩
      rw [findHandover, updateHandover, Keyed.Rows.find_modify, if_pos rfl, hFound',
        Option.map_some]
    · refine ⟨found, ?_, found.grows_refl, fun _ => rfl⟩
      rw [findHandover, updateHandover, Keyed.Rows.find_modify, if_neg hId, hFound']

theorem agree_insertClosing {row : CashClosing} (h : insertClosing row tables = .ok after) :
    Agree others tables after := by
  obtain ⟨_, closings, _, rfl⟩ := insertClosing_eq_ok.mp h
  have hSame := Agree.refl others tables
  exact { hSame with registers := hSame.registers }

theorem agree_insertCommand {row : CommandRow} (hLock : .key row.key ∉ others)
    (h : insertCommand row tables = .ok after) : Agree others tables after := by
  obtain ⟨commands, hInsert, rfl⟩ := insertCommand_eq_ok.mp h
  refine { Agree.refl others tables with commands := fun key hHeld => ?_ }
  have hNe : row.key ≠ key := by
    rintro rfl
    exact hLock hHeld
  rw [findCommand, Keyed.Rows.find_insert hInsert, if_neg hNe]
  rfl

end

end Houndfe.Cash
