import Houndfe.Cash.Effects

/-! Custody: what a session declares and what its handovers take over, from the declaration to
the final cut. -/

namespace Houndfe.Cash

open PaymentMethods Transactions Transition Adapter

/-! ### Rows of a session -/

section

variable {tables : CashTables}

theorem latestOf_eq_pickBest (kind : CashCountKind) (counts : List CashCount) :
    latestOf kind counts = Keyed.pickBest
      (fun candidate best : CashCount => decide (candidate.revision > best.revision))
      (counts.filter fun count => count.kind = kind) := by
  unfold latestOf Keyed.pickBest
  congr 1
  funext best candidate
  cases best with
  | none => rfl
  | some best =>
      simp only [Keyed.prefer, decide_eq_true_eq]
      split <;> rfl

theorem latestOf_mem {kind : CashCountKind} {counts : List CashCount} {count : CashCount}
    (h : latestOf kind counts = some count) : count ∈ counts ∧ count.kind = kind := by
  rw [latestOf_eq_pickBest] at h
  obtain ⟨hMem, hKind⟩ := List.mem_filter.mp (Keyed.pickBest_mem h)
  exact ⟨hMem, of_decide_eq_true hKind⟩

theorem countsOf_append (count : CashCount) (id : String) :
    countsOf { tables with counts := tables.counts ++ [count] } id =
      countsOf tables id ++ if count.sessionId = id then [count] else [] := by
  rw [countsOf, List.filter_append]
  congr 1
  by_cases hSession : count.sessionId = id <;> simp [hSession]

theorem handoversOf_insert {row : CashHandover} {handovers : Keyed.Rows CashHandover.id}
    (hInsert : tables.handovers.insert row = some handovers) (id : String) :
    handoversOf { tables with handovers } id =
      handoversOf tables id ++ if row.sourceSessionId = id then [row] else [] := by
  rw [handoversOf, (Keyed.Rows.insert_eq_some.mp hInsert).2, List.filter_append]
  congr 1
  by_cases hSource : row.sourceSessionId = id <;> simp [hSource]

theorem handoversOf_update {id sessionId : String} {change : CashHandover → CashHandover}
    {hKey : ∀ row : CashHandover, (change row).id = row.id}
    (hSource : ∀ row, (change row).sourceSessionId = row.sourceSessionId) :
    handoversOf (updateHandover id change hKey tables) sessionId =
      (handoversOf tables sessionId).map fun row => if row.id = id then change row else row := by
  show (tables.handovers.rows.map _).filter _ = _
  rw [List.filter_map]
  congr 2
  funext row
  simp only [Function.comp]
  split
  · rw [hSource]
  · rfl

@[simp] theorem handedOver_nil : handedOver [] = 0 := rfl

@[simp] theorem handedOver_append (first second : List CashHandover) :
    handedOver (first ++ second) = handedOver first + handedOver second := by
  simp [handedOver]

theorem handedOver_map {handovers : List CashHandover} {change : CashHandover → CashHandover}
    (hDeclared : ∀ row, (change row).declaredCents = row.declaredCents) (id : String) :
    handedOver (handovers.map fun row => if row.id = id then change row else row) =
      handedOver handovers := by
  rw [handedOver, List.map_map]
  congr 1
  refine List.map_congr_left fun row _ => ?_
  simp only [Function.comp]
  split
  · exact hDeclared row
  · rfl

end

/-! ### Conservation -/

/-- The declarations of a session all count the same, and its handovers take over no more. -/
structure InCustody (counts : List CashCount) (handovers : List CashHandover) : Prop where
  sameLines : ∀ count ∈ counts, ∀ other ∈ counts, count.kind = .declaration →
    other.kind = .declaration → count.lines = other.lines
  within : ∀ count ∈ counts, count.kind = .declaration →
    handedOver handovers ≤ cashCents count.lines
  declaredFirst : handovers ≠ [] → ∃ count ∈ counts, count.kind = .declaration

/-- The totals of a final cut, against the rows of its session. -/
structure CutOf (counts : List CashCount) (handovers : List CashHandover)
    (snapshot : CashClosingSnapshot) : Prop where
  declares : ∃ declaration, latestOf .declaration counts = some declaration ∧
    snapshot.declaredCents = cashCents declaration.lines
  verifies : ∃ verification, latestOf .verification counts = some verification ∧
    snapshot.verifiedCents = cashCents verification.lines
  allocated : handedOver handovers = snapshot.declaredCents
  received : ∀ handover ∈ handovers, handover.receivedAt ≠ none
  copied : handovers.mapM toSnapshotHandover = .ok snapshot.handovers

section

variable {counts : List CashCount} {handovers : List CashHandover} {count : CashCount}

/-- A counted amount is never negative. -/
theorem Counted.cashCents_nonneg {required : List String} {lines : List CashCountLine}
    (h : Counted required lines) : 0 ≤ cashCents lines := by
  unfold cashCents
  split
  · next line hLine => exact (h.amounts line (List.mem_of_find?_eq_some hLine)).1
  · exact Int.le_refl 0

theorem InCustody.declare (h : InCustody counts handovers)
    (hFirst : ∀ other ∈ counts, other.kind ≠ .declaration) (hKind : count.kind = .declaration)
    (hNonneg : 0 ≤ cashCents count.lines) : InCustody (counts ++ [count]) handovers := by
  have hNone : handovers = [] := by
    by_contra hSome
    obtain ⟨other, hOther, hOtherKind⟩ := h.declaredFirst hSome
    exact hFirst other hOther hOtherKind
  have hOnly : ∀ other ∈ counts ++ [count], other.kind = .declaration → other = count := by
    intro other hOther hOtherKind
    rcases List.mem_append.mp hOther with hOld | hNew
    · exact absurd hOtherKind (hFirst other hOld)
    · exact List.mem_singleton.mp hNew
  constructor
  · intro first hMem second hMem' hFirstKind hSecondKind
    rw [hOnly first hMem hFirstKind, hOnly second hMem' hSecondKind]
  · intro other hOther hOtherKind
    rw [hOnly other hOther hOtherKind, hNone, handedOver_nil]
    exact hNonneg
  · exact fun _ => ⟨count, by simp, hKind⟩

/-- A later revision of the declaration counts what the declaration counted. -/
theorem InCustody.annotate (h : InCustody counts handovers) {declaration : CashCount}
    (hMem : declaration ∈ counts) (hKind : declaration.kind = .declaration)
    (hLines : count.lines = declaration.lines) : InCustody (counts ++ [count]) handovers := by
  have hSame : ∀ other ∈ counts ++ [count], other.kind = .declaration →
      other.lines = declaration.lines := by
    intro other hOther hOtherKind
    rcases List.mem_append.mp hOther with hOld | hNew
    · exact h.sameLines other hOld declaration hMem hOtherKind hKind
    · rw [List.mem_singleton.mp hNew, hLines]
  constructor
  · intro first hFirst second hSecond hFirstKind hSecondKind
    rw [hSame first hFirst hFirstKind, hSame second hSecond hSecondKind]
  · intro other hOther hOtherKind
    rw [hSame other hOther hOtherKind]
    exact h.within declaration hMem hKind
  · exact fun _ => ⟨declaration, List.mem_append_left _ hMem, hKind⟩

theorem InCustody.verify (h : InCustody counts handovers) (hKind : count.kind = .verification) :
    InCustody (counts ++ [count]) handovers := by
  have hOld : ∀ other ∈ counts ++ [count], other.kind = .declaration → other ∈ counts := by
    intro other hOther hOtherKind
    rcases List.mem_append.mp hOther with hMem | hNew
    · exact hMem
    · rw [List.mem_singleton.mp hNew, hKind] at hOtherKind
      cases hOtherKind
  constructor
  · intro first hFirst second hSecond hFirstKind hSecondKind
    exact h.sameLines first (hOld first hFirst hFirstKind) second
      (hOld second hSecond hSecondKind) hFirstKind hSecondKind
  · exact fun other hOther hOtherKind => h.within other (hOld other hOther hOtherKind) hOtherKind
  · intro hSome
    obtain ⟨other, hOther, hOtherKind⟩ := h.declaredFirst hSome
    exact ⟨other, List.mem_append_left _ hOther, hOtherKind⟩

theorem InCustody.handOver (h : InCustody counts handovers) {declaration : CashCount}
    (hMem : declaration ∈ counts) (hKind : declaration.kind = .declaration) {row : CashHandover}
    (hFits : row.declaredCents + handedOver handovers ≤ cashCents declaration.lines) :
    InCustody counts (handovers ++ [row]) := by
  refine ⟨h.sameLines, fun other hOther hOtherKind => ?_, fun _ => ⟨declaration, hMem, hKind⟩⟩
  rw [h.sameLines other hOther declaration hMem hOtherKind hKind, handedOver_append, add_comm]
  simpa [handedOver] using hFits

theorem InCustody.receive (h : InCustody counts handovers)
    {change : CashHandover → CashHandover}
    (hDeclared : ∀ row, (change row).declaredCents = row.declaredCents) (id : String) :
    InCustody counts (handovers.map fun row => if row.id = id then change row else row) := by
  refine ⟨h.sameLines, fun other hOther hKind => ?_, fun hSome => ?_⟩
  · rw [handedOver_map hDeclared]
    exact h.within other hOther hKind
  · exact h.declaredFirst fun hNone => hSome (by rw [hNone, List.map_nil])

end

theorem toSnapshotHandover_declared {handover : CashHandover} {copy : CashSnapshotHandover}
    (h : toSnapshotHandover handover = .ok copy) :
    copy.declaredCents = handover.declaredCents := by
  simp only [toSnapshotHandover, bind_eq_ok] at h
  obtain ⟨_, _, _, _, _, _, h⟩ := h
  split at h
  · simp only [bind_eq_ok] at h
    obtain ⟨_, _, h⟩ := h
    cases h
    rfl
  · cases h
    rfl

/-! ### What the tables keep -/

structure Custody (tables : CashTables) : Prop where
  custody : ∀ id, InCustody (countsOf tables id) (handoversOf tables id)
  closed : ∀ row ∈ tables.closings.rows, ∃ session,
    findSession tables row.sessionId = some session ∧ session.status = .closed
  cut : ∀ row ∈ tables.closings.rows,
    CutOf (countsOf tables row.sessionId) (handoversOf tables row.sessionId) row.snapshot

theorem custody_empty : Custody .empty := by
  refine ⟨fun id => ?_, ?_, ?_⟩
  · constructor <;> simp [CashTables.empty, countsOf, handoversOf, Keyed.Rows.empty]
  · simp [CashTables.empty, Keyed.Rows.empty]
  · simp [CashTables.empty, Keyed.Rows.empty]

section

variable {tables : CashTables}

/-- The session of a closing is closed, so a session that is not has none. -/
theorem Custody.ne_of_closing (h : Custody tables) {row : CashClosing}
    (hRow : row ∈ tables.closings.rows) {id : String} {session : SessionRow}
    (hFound : findSession tables id = some session) (hStatus : session.status ≠ .closed) :
    row.sessionId ≠ id := by
  rintro rfl
  obtain ⟨closed, hClosed, hShut⟩ := h.closed row hRow
  rw [hFound, Option.some.injEq] at hClosed
  exact hStatus (hClosed ▸ hShut)

theorem Custody.insertCount (h : Custody tables) {id : String} {session : SessionRow}
    {count : CashCount} (hFound : findSession tables id = some session)
    (hStatus : session.status ≠ .closed) (hSession : count.sessionId = id)
    (hCounts : InCustody (countsOf tables id ++ [count]) (handoversOf tables id)) :
    Custody { tables with counts := tables.counts ++ [count] } := by
  refine ⟨fun id' => ?_, h.closed, fun row hRow => ?_⟩
  · rw [countsOf_append]
    split
    · next hId =>
        obtain rfl : id' = id := hId.symm.trans hSession
        exact hCounts
    · rw [List.append_nil]
      exact h.custody id'
  · have hNe := h.ne_of_closing hRow hFound hStatus
    rw [countsOf_append, if_neg (hSession ▸ Ne.symm hNe), List.append_nil]
    exact h.cut row hRow

theorem Custody.updateSession (h : Custody tables) {id : String} {session : SessionRow}
    {change : SessionRow → SessionRow} {hKey : ∀ row : SessionRow, (change row).key = row.key}
    (hFound : findSession tables id = some session)
    (hChange : session.status = .closed → (change session).status = .closed) :
    Custody (updateSession id change hKey tables) := by
  refine ⟨h.custody, fun row hRow => ?_, h.cut⟩
  obtain ⟨closed, hClosed, hShut⟩ := h.closed row hRow
  rw [find_updateSession]
  split
  · next hId =>
      rw [hId, hFound, Option.some.injEq] at hClosed
      refine ⟨change session, by rw [hId, hFound, Option.map_some], hChange ?_⟩
      rw [hClosed, hShut]
  · exact ⟨closed, hClosed, hShut⟩

/-- A handover that was not received yet belongs to no closing. -/
theorem Custody.received (h : Custody tables) {handover : CashHandover}
    {change : CashHandover → CashHandover} {hKey : ∀ row : CashHandover, (change row).id = row.id}
    (hSource : ∀ row, (change row).sourceSessionId = row.sourceSessionId)
    (hDeclared : ∀ row, (change row).declaredCents = row.declaredCents)
    (hFound : findHandover tables handover.id = some handover)
    (hUnreceived : handover.receivedAt = none) :
    Custody (updateHandover handover.id change hKey tables) := by
  refine ⟨fun id => ?_, h.closed, fun closing hClosing => ?_⟩
  · rw [handoversOf_update hSource]
    exact (h.custody id).receive hDeclared handover.id
  · have hCut := h.cut closing hClosing
    have hSame : ((handoversOf tables closing.sessionId).map fun row =>
        if row.id = handover.id then change row else row) =
          handoversOf tables closing.sessionId := by
      refine (List.map_congr_left fun row hRow => if_neg fun hId => ?_).trans (List.map_id _)
      have hRowMem := (List.mem_filter.mp hRow).1
      have hHandover := (Keyed.Rows.find_eq_some_iff.mp hFound).1
      obtain rfl := Keyed.Rows.eq_of_key hRowMem hHandover hId
      exact hCut.received row hRow hUnreceived
    rw [handoversOf_update hSource, hSame]
    exact hCut

theorem Custody.shut (h : Custody tables) {id : String} {session : SessionRow}
    {change : SessionRow → SessionRow} {hKey : ∀ row : SessionRow, (change row).key = row.key}
    {row : CashClosing} {closings : Keyed.Rows CashClosing.sessionId}
    (hShut : ∀ row, (change row).status = .closed)
    (hFound : findSession tables id = some session) (hSession : row.sessionId = id)
    (hCut : CutOf (countsOf tables id) (handoversOf tables id) row.snapshot)
    (hInsert : tables.closings.insert row = some closings) :
    Custody (Cash.updateSession id change hKey { tables with closings }) := by
  have hFound' : findSession { tables with closings } id = some session := hFound
  have hMem : ∀ closing ∈ closings.rows, closing ∈ tables.closings.rows ∨ closing = row := by
    intro closing hClosing
    rw [(Keyed.Rows.insert_eq_some.mp hInsert).2] at hClosing
    simpa using hClosing
  refine ⟨h.custody, fun closing hClosing => ?_, fun closing hClosing => ?_⟩
  · rw [find_updateSession]
    split
    · next hId => exact ⟨change session, by rw [hId, hFound', Option.map_some], hShut session⟩
    · next hNe =>
        rcases hMem closing hClosing with hBefore | rfl
        · exact h.closed closing hBefore
        · exact absurd hSession hNe
  · rcases hMem closing hClosing with hBefore | rfl
    · exact h.cut closing hBefore
    · exact hSession ▸ hCut

theorem Custody.change (h : Custody tables) {after : CashTables}
    (hChange : CashChange tables after) : Custody after := by
  cases hChange with
  | registers => exact ⟨h.custody, h.closed, h.cut⟩
  | recorded => exact ⟨h.custody, h.closed, h.cut⟩
  | opened insert =>
      refine ⟨h.custody, fun row hRow => ?_, h.cut⟩
      obtain ⟨session, hFound, hShut⟩ := h.closed row hRow
      exact ⟨session, Keyed.Rows.find_insert_of_find insert hFound, hShut⟩
  | frozen found unfrozen =>
      refine h.updateSession found fun hClosed => ?_
      simp [isFrozen, hClosed] at unfrozen
  | declared found counting expects first ofSession kind counted =>
      have hCounts := h.insertCount found (by rw [counting]; decide) ofSession
        ((h.custody _).declare first kind counted.cashCents_nonneg)
      refine hCounts.updateSession found fun hClosed => ?_
      rw [counting] at hClosed
      cases hClosed
  | annotated found notClosed unverified declares ofSession kind lines =>
      obtain ⟨hMem, hKind⟩ := latestOf_mem declares
      exact h.insertCount found notClosed ofSession ((h.custody _).annotate hMem hKind lines)
  | verified found submitted ofSession kind =>
      exact h.insertCount found (by rw [submitted]; decide) ofSession ((h.custody _).verify kind)
  | @handedOver id session declaration row handovers found submitted declares ofSession unreceived
      nonneg fits insert =>
      obtain ⟨hMem, hKind⟩ := latestOf_mem declares
      refine ⟨fun id' => ?_, h.closed, fun closing hClosing => ?_⟩
      · rw [handoversOf_insert insert]
        split
        · next hId =>
            obtain rfl : id' = id := hId.symm.trans ofSession
            exact (h.custody id').handOver hMem hKind fits
        · rw [List.append_nil]
          exact h.custody id'
      · have hNe := h.ne_of_closing hClosing found (by rw [submitted]; decide)
        rw [handoversOf_insert insert, if_neg (ofSession ▸ Ne.symm hNe), List.append_nil]
        exact h.cut closing hClosing
  | received found unreceived =>
      exact h.received (fun _ => rfl) (fun _ => rfl) found unreceived
  | released found => exact h.updateSession found fun hClosed => hClosed
  | closed found _ _ _ declares verifies received allocated ofSession cut custody insert =>
      refine h.shut (fun _ => rfl) found ofSession ?_ insert
      exact ⟨⟨_, declares, cut.2.1⟩, ⟨_, verifies, cut.2.2⟩, allocated.trans cut.2.1.symm,
        received, custody⟩

/-! ### Releases, receipts and runs -/

/-- What is true of a session when its drawer is released. -/
def Settled (tables : CashTables) (id : String) : Prop :=
  (∃ declaration, latestOf .declaration (countsOf tables id) = some declaration ∧
    handedOver (handoversOf tables id) = cashCents declaration.lines) ∧
  ∀ handover ∈ handoversOf tables id, handover.receivedAt ≠ none

/-- An update that leaves the release date makes no release. -/
theorem not_released_of_update {id : String} {session : SessionRow}
    {change : SessionRow → SessionRow} {hKey : ∀ row : SessionRow, (change row).key = row.key}
    (hFound : findSession tables id = some session)
    (hSame : (change session).drawerReleasedAt = session.drawerReleasedAt) {id' : String}
    {before after : SessionRow} (hBefore : findSession tables id' = some before)
    (hAfter : findSession (updateSession id change hKey tables) id' = some after) :
    after.drawerReleasedAt = before.drawerReleasedAt := by
  rcases findSession_updateSession hFound hAfter with ⟨rfl, rfl⟩ | ⟨_, hOld⟩
  · rw [hFound, Option.some.injEq] at hBefore
    rw [hSame, hBefore]
  · rw [hOld, Option.some.injEq] at hBefore
    rw [hBefore]

/-- Only a settled drawer is released. -/
theorem settled_of_change {after : CashTables} (hChange : CashChange tables after) {id : String}
    {session session' : SessionRow} (hBefore : findSession tables id = some session)
    (hAfter : findSession after id = some session') (hOpen : session.drawerReleasedAt = none)
    (hReleased : session'.drawerReleasedAt ≠ none) : Settled after id := by
  have hSame : session'.drawerReleasedAt = session.drawerReleasedAt → Settled after id :=
    fun hSame => absurd (hSame.trans hOpen) hReleased
  have hKept : findSession tables id = some session' → Settled after id := by
    intro hKept
    rw [hKept, Option.some.injEq] at hBefore
    exact hSame (by rw [hBefore])
  cases hChange with
  | opened insert =>
      have hStays := Keyed.Rows.find_insert_of_find insert hBefore
      have hSession := Option.some.inj (hStays.symm.trans hAfter)
      exact hSame (by rw [hSession])
  | frozen found => exact hSame (not_released_of_update found rfl hBefore hAfter)
  | declared found => exact hSame (not_released_of_update found rfl hBefore hAfter)
  | closed found => exact hSame (not_released_of_update found rfl hBefore hAfter)
  | @released id' _ declaration _ found _ _ declares received allocated =>
      rcases findSession_updateSession found hAfter with ⟨rfl, _⟩ | ⟨_, hOld⟩
      · exact ⟨⟨declaration, declares, allocated⟩, received⟩
      · exact hKept hOld
  | registers => exact hKept hAfter
  | recorded => exact hKept hAfter
  | annotated => exact hKept hAfter
  | verified => exact hKept hAfter
  | handedOver => exact hKept hAfter
  | received => exact hKept hAfter

/-- Every handover stays, with what it declared, and a received one stays as it is. -/
def HandoversGrow (tables later : CashTables) : Prop :=
  ∀ id handover, findHandover tables id = some handover →
    ∃ handover', findHandover later id = some handover' ∧ handover.Grows handover'

theorem HandoversGrow.refl (tables : CashTables) : HandoversGrow tables tables :=
  fun _ handover hFound => ⟨handover, hFound, handover.grows_refl⟩

theorem HandoversGrow.trans {first second third : CashTables} (h : HandoversGrow first second)
    (h' : HandoversGrow second third) : HandoversGrow first third := by
  intro id handover hFound
  obtain ⟨middle, hMiddle, hGrows⟩ := h id handover hFound
  obtain ⟨last, hLast, hGrows'⟩ := h' id middle hMiddle
  exact ⟨last, hLast, hGrows.trans hGrows'⟩

theorem handoversGrow_of_receipt {handover : CashHandover} {change : CashHandover → CashHandover}
    {hKey : ∀ row : CashHandover, (change row).id = row.id}
    (hOffer : ∀ row, (change row).offer = row.offer)
    (hFound : findHandover tables handover.id = some handover)
    (hUnreceived : handover.receivedAt = none) :
    HandoversGrow tables (updateHandover handover.id change hKey tables) := by
  intro id other hOther
  rw [find_updateHandover]
  split
  · next hId =>
      obtain rfl : other = handover := Option.some.inj (hOther.symm.trans (hId ▸ hFound))
      exact ⟨change other, by rw [hOther, Option.map_some], Or.inr ⟨hUnreceived, hOffer other⟩⟩
  · exact ⟨other, hOther, other.grows_refl⟩

theorem handoversGrow_of_change {after : CashTables} (hChange : CashChange tables after) :
    HandoversGrow tables after := by
  cases hChange with
  | handedOver _ _ _ _ _ _ _ insert =>
      exact fun id handover hFound => ⟨handover, Keyed.Rows.find_insert_of_find insert hFound,
        handover.grows_refl⟩
  | received found unreceived => exact handoversGrow_of_receipt (fun _ => rfl) found unreceived
  | registers => exact HandoversGrow.refl tables
  | opened => exact HandoversGrow.refl tables
  | recorded => exact HandoversGrow.refl tables
  | frozen => exact HandoversGrow.refl tables
  | declared => exact HandoversGrow.refl tables
  | annotated => exact HandoversGrow.refl tables
  | verified => exact HandoversGrow.refl tables
  | released => exact HandoversGrow.refl tables
  | closed => exact HandoversGrow.refl tables

end

section

variable {Tid : Type} [DecidableEq Tid]
  {events more : List (Event Tid CashLock CashTables DomainError CashDocument)}
  {system later : System Tid CashLock CashTables DomainError CashDocument}

theorem custody_reached
    (run : Runs (Step CashBody) (System.idle CashTables.empty) events system) :
    Custody system.tables :=
  invariant_of_runs (fun _ _ h hChange => h.change hChange)
    (fun _ _ h => ⟨h.custody, h.closed, h.cut⟩) (sound_idle _) custody_empty run

/-- Custody is conserved over every interleaving: the handovers of a session take over at most
what it declared, exactly that and all received when its drawer is released, what a handover
declares stays, and a final cut has the sums of its rows. -/
theorem custody_of_runs
    (run : Runs (Step CashBody) (System.idle CashTables.empty) events system)
    (rest : Runs (Step CashBody) system more later) :
    (∀ id declaration, latestOf .declaration (countsOf system.tables id) = some declaration →
      handedOver (handoversOf system.tables id) ≤ cashCents declaration.lines) ∧
    (∀ event next id session session', Step CashBody system event next →
      findSession system.tables id = some session → findSession next.tables id = some session' →
      session.drawerReleasedAt = none → session'.drawerReleasedAt ≠ none →
      Settled next.tables id) ∧
    (∀ id handover, findHandover system.tables id = some handover →
      ∃ handover', findHandover later.tables id = some handover' ∧
        handover'.declaredCents = handover.declaredCents ∧
        (handover.receivedAt ≠ none → handover' = handover)) ∧
    ∀ closing ∈ system.tables.closings.rows,
      CutOf (countsOf system.tables closing.sessionId)
        (handoversOf system.tables closing.sessionId) closing.snapshot ∧
      (closing.snapshot.handovers.map CashSnapshotHandover.declaredCents).sum =
        closing.snapshot.declaredCents := by
  have hCustody := custody_reached run
  have hSound := sound_of_runs run
  refine ⟨fun id declaration hDeclares => ?_, ?_, fun id handover hFound => ?_,
    fun closing hClosing => ?_⟩
  · obtain ⟨hMem, hKind⟩ := latestOf_mem hDeclares
    exact (hCustody.custody id).within declaration hMem hKind
  · intro event next id session session' hStep hBefore hAfter hOpen hReleased
    rcases change_of_step hSound hStep with hSame | ⟨middle, commands, hChange, hNext⟩
    · rw [hSame, hBefore, Option.some.injEq] at hAfter
      exact absurd (hAfter ▸ hOpen) hReleased
    · rw [hNext] at hAfter ⊢
      exact settled_of_change hChange hBefore hAfter hOpen hReleased
  · have hGrow : HandoversGrow system.tables later.tables :=
      related_of_runs (fun _ => True) (fun _ _ _ _ => trivial) (fun _ _ _ => trivial)
        HandoversGrow.refl (fun _ _ _ h h' => h.trans h')
        (fun _ _ _ h => handoversGrow_of_change h) (fun tables _ => HandoversGrow.refl tables)
        hSound trivial rest
    obtain ⟨handover', hFound', hGrows⟩ := hGrow id handover hFound
    exact ⟨handover', hFound', hGrows.declared_eq, hGrows.eq_of_received⟩
  · have hCut := hCustody.cut closing hClosing
    refine ⟨hCut, ?_⟩
    have hCopied := Traverse.map_eq_of_mapM (fun handover _ copy hCopy =>
      toSnapshotHandover_declared hCopy) hCut.copied
    rw [hCopied]
    exact hCut.allocated

end

/-- Ana's 500 go to Bob as a float and to Eva as a withdrawal, in different amounts than they
receive; Eva verifies and closes. -/
def closingDay : List (CashTx CashEnding) := [
  requestAt 1 "front" "ana" (.createRegister "Front desk"),
  requestAt 2 "morning" "ana" (.openSession ⟨"front", 500, none, true⟩),
  requestAt 3 "freeze" "ana" (.startCount "morning"),
  requestAt 4 "count" "ana" (.declare ⟨"morning", [⟨"CASH", 500⟩], none, none⟩),
  requestAt 5 "float" "ana" (.createHandover ⟨"morning", .float, "bob", 300, none⟩),
  requestAt 6 "safe" "ana" (.createHandover ⟨"morning", .withdrawal, "eva", 200, none⟩),
  requestAt 7 "got-float" "bob" (.receiveHandover ⟨"float", 290, some "short"⟩),
  requestAt 8 "got-safe" "eva" (.receiveHandover ⟨"safe", 200, none⟩),
  requestAt 9 "release" "ana" (.releaseDrawer "morning"),
  requestAt 10 "check" "eva" (.verify ⟨"morning", [⟨"CASH", 500⟩], none, none⟩),
  requestAt 11 "cut" "eva" (.close ⟨"morning", none⟩)]

theorem serveAll_closingDay :
    (serveAll closingDay .empty).map (fun tables =>
      tables.closings.rows.map fun row => (row.sessionId, row.snapshot.declaredCents)) =
        some [("morning", 500)] := by
  decide +kernel

theorem custody_of_closingDay : ∃ events system,
    Runs (Step CashBody) (System.idle CashTables.empty :
      System Unit CashLock CashTables DomainError CashDocument) events system ∧
    (system.tables.closings.rows.map fun row => (row.sessionId, row.snapshot.declaredCents)) =
      [("morning", 500)] ∧
    (∀ closing ∈ system.tables.closings.rows,
      (closing.snapshot.handovers.map CashSnapshotHandover.declaredCents).sum =
        closing.snapshot.declaredCents) ∧
    ∀ id declaration, latestOf .declaration (countsOf system.tables id) = some declaration →
      handedOver (handoversOf system.tables id) ≤ cashCents declaration.lines := by
  obtain ⟨tables, hServed, hRows⟩ := Option.map_eq_some_iff.mp serveAll_closingDay
  have hBodies : ∀ body ∈ closingDay, CashBody body := by
    simp [closingDay, cashBody_requestAt]
  obtain ⟨events, run⟩ := runs_of_serveAll hBodies hServed
  obtain ⟨hWithin, _, _, hCuts⟩ := custody_of_runs run (Runs.zero _)
  exact ⟨events, _, run, hRows, fun closing hClosing => (hCuts closing hClosing).2, hWithin⟩

end Houndfe.Cash
