import Houndfe.Cash.Custody
import Houndfe.Cash.Frozen

/-! What an accepted declaration leaves the supervisor to verify: the comparison of every
channel is defined exactly when its differences fit the window of cents. -/

namespace Houndfe.Cash

open PaymentMethods Transactions Transition Adapter

/-! ### Declarations cover the frozen channels -/

/-- A declaration counted every channel its session was frozen with. -/
def DeclaredFor (tables : CashTables) (id : String) (count : CashCount) : Prop :=
  ∃ session expected, findSession tables id = some session ∧ session.status ≠ .opened ∧
    session.expectedJson = some expected ∧ Counted (requiredChannels expected) count.lines

/-- Every declaration of the tables did. -/
def DeclarationsCover (tables : CashTables) : Prop :=
  ∀ id, ∀ count ∈ countsOf tables id, count.kind = .declaration → DeclaredFor tables id count

theorem declarationsCover_empty : DeclarationsCover .empty := by
  intro id count hCount
  simp [CashTables.empty, countsOf] at hCount

section

variable {tables : CashTables}

theorem DeclaredFor.stays {later : CashTables} (hStays : StaysFrozen tables later) {id : String}
    {count : CashCount} (h : DeclaredFor tables id count) : DeclaredFor later id count := by
  obtain ⟨session, expected, hFound, hFrozen, hExpected, hCounted⟩ := h
  obtain ⟨_, session', hFound', hFrozen', hSame, _⟩ := hStays id session hFound hFrozen
  exact ⟨session', expected, hFound', hFrozen', hSame.trans hExpected, hCounted⟩

theorem DeclarationsCover.stays (h : DeclarationsCover tables) {later : CashTables}
    (hStays : StaysFrozen tables later)
    (hCounts : ∀ id, countsOf later id = countsOf tables id) : DeclarationsCover later := by
  intro id count hCount hKind
  rw [hCounts] at hCount
  exact (h id count hCount hKind).stays hStays

/-- One more count, which covers the channels if it is a declaration. -/
theorem DeclarationsCover.insert (h : DeclarationsCover tables) {later : CashTables}
    (hStays : StaysFrozen tables later) {id : String} {count : CashCount}
    (hCounts : ∀ id, countsOf later id =
      countsOf tables id ++ if count.sessionId = id then [count] else [])
    (hSession : count.sessionId = id)
    (hCovers : count.kind = .declaration → DeclaredFor later id count) :
    DeclarationsCover later := by
  intro id' other hOther hKind
  rw [hCounts] at hOther
  rcases List.mem_append.mp hOther with hOld | hNew
  · exact (h id' other hOld hKind).stays hStays
  · split at hNew
    · next hId =>
        obtain rfl := List.mem_singleton.mp hNew
        rw [← hId, hSession]
        exact hCovers hKind
    · cases hNew

theorem DeclarationsCover.change (h : DeclarationsCover tables) {after : CashTables}
    (hChange : CashChange tables after) : DeclarationsCover after := by
  have hStays := staysFrozen_of_change hChange
  cases hChange with
  | registers => exact h.stays hStays fun _ => rfl
  | opened => exact h.stays hStays fun _ => rfl
  | recorded => exact h.stays hStays fun _ => rfl
  | frozen => exact h.stays hStays fun _ => rfl
  | handedOver => exact h.stays hStays fun _ => rfl
  | received => exact h.stays hStays fun _ => rfl
  | released => exact h.stays hStays fun _ => rfl
  | closed => exact h.stays hStays fun _ => rfl
  | @declared id session expected count now found counting expects _ ofSession _ counted =>
      refine h.insert hStays (fun id' => countsOf_append count id') ofSession fun _ => ?_
      have hDeclared : DeclaredFor tables id count :=
        ⟨session, expected, found, by rw [counting]; decide, expects, counted⟩
      exact hDeclared.stays hStays
  | @annotated id session declaration count found _ _ declares ofSession _ lines =>
      refine h.insert hStays (fun id' => countsOf_append count id') ofSession fun _ => ?_
      obtain ⟨hMem, hKind⟩ := latestOf_mem declares
      obtain ⟨session', expected, hFound, hFrozen, hExpected, hCounted⟩ :=
        h id declaration hMem hKind
      exact ⟨session', expected, hFound, hFrozen, hExpected, lines ▸ hCounted⟩
  | @verified id session count found _ ofSession kind =>
      refine h.insert hStays (fun id' => countsOf_append count id') ofSession fun hKind => ?_
      rw [kind] at hKind
      cases hKind

end

/-! ### What a verification needs -/

/-- The counted amount of a channel. -/
def countedCents (lines : List CashCountLine) (channelKey : String) : Int :=
  ((lines.find? fun line => line.channelKey = channelKey).map CashCountLine.amountCents).getD 0

/-- On every channel both counts differ from the expected amount by a storable amount. -/
def DifferencesFit (expected : ExpectedSnapshot) (declared verified : List CashCountLine) : Prop :=
  ∀ channel ∈ expected.channels,
    InRange (countedCents declared channel.channelKey - channel.expectedCents) ∧
    InRange (countedCents verified channel.channelKey - channel.expectedCents)

/-- Notes where a difference requires them. -/
structure Explained (expected : ExpectedSnapshot) (declared verified : List CashCountLine)
    (declarationNotes verificationNotes : Option String) : Prop where
  declaration : ∀ channel ∈ expected.channels,
    countedCents declared channel.channelKey ≠ channel.expectedCents → HasNotes declarationNotes
  verification : ∀ channel ∈ expected.channels,
    countedCents verified channel.channelKey ≠ countedCents declared channel.channelKey →
      HasNotes verificationNotes

theorem cashCents_eq (lines : List CashCountLine) :
    cashCents lines = countedCents lines pooledCashChannel.channelKey := by
  unfold cashCents cashLine countedCents
  cases lines.find? fun line => line.channelKey = pooledCashChannel.channelKey <;> rfl

/-- The line of a channel that a count had to cover. -/
theorem Counted.line {expected : ExpectedSnapshot} {lines : List CashCountLine}
    (h : Counted (requiredChannels expected) lines) {channel : ExpectedChannel}
    (hMem : channel ∈ expected.channels) :
    ∃ line, lines.find? (fun line => line.channelKey = channel.channelKey) = some line ∧
      countedCents lines channel.channelKey = line.amountCents ∧
      0 ≤ line.amountCents ∧ InRange line.amountCents := by
  obtain ⟨line, hLine, hFound⟩ := h.find (List.mem_map_of_mem hMem)
  refine ⟨line, hFound, ?_, h.amounts line hLine⟩
  rw [countedCents, hFound, Option.map_some, Option.getD_some]

section

variable {expected : ExpectedSnapshot} {declared verified : List CashCountLine}
  {declarationNotes verificationNotes : Option String}

/-- One channel can be compared exactly when its differences fit. -/
theorem assertChannelExplanation_iff (hDeclared : Counted (requiredChannels expected) declared)
    (hVerified : Counted (requiredChannels expected) verified)
    (hExplained : Explained expected declared verified declarationNotes verificationNotes)
    {channel : ExpectedChannel} (hMem : channel ∈ expected.channels)
    (hRange : InRange channel.expectedCents) :
    assertChannelExplanation declared verified declarationNotes verificationNotes channel =
        .ok () ↔
      InRange (countedCents declared channel.channelKey - channel.expectedCents) ∧
        InRange (countedCents verified channel.channelKey - channel.expectedCents) := by
  have hNotes := hExplained.declaration channel hMem
  have hNotes' := hExplained.verification channel hMem
  obtain ⟨line, hLine, hCents, hNonneg, hLineRange⟩ := hDeclared.line hMem
  obtain ⟨line', hLine', hCents', hNonneg', hLineRange'⟩ := hVerified.line hMem
  rw [hCents] at hNotes hNotes'
  rw [hCents'] at hNotes'
  have hCompare := @compareCashCounts_verified_iff channel.expectedCents line.amountCents
    line'.amountCents declarationNotes verificationNotes
  have hBetween := inRange_sub ⟨hNonneg', hLineRange'⟩ ⟨hNonneg, hLineRange⟩
  simp only [hRange, hLineRange, hLineRange', hBetween, true_and] at hCompare
  rw [hCents, hCents']
  simp only [assertChannelExplanation, hLine, hLine', bind_eq_ok, pure_eq_ok, and_true]
  rw [hCompare]
  exact ⟨fun h => ⟨h.1, h.2.1⟩, fun h => ⟨h.1, h.2, hNotes, hNotes'⟩⟩

theorem assertChannelExplanations_iff
    (hDeclared : Counted (requiredChannels expected) declared)
    (hVerified : Counted (requiredChannels expected) verified)
    (hExplained : Explained expected declared verified declarationNotes verificationNotes)
    (hRange : ∀ channel ∈ expected.channels, InRange channel.expectedCents) :
    assertChannelExplanations expected declared verified declarationNotes verificationNotes =
        .ok () ↔ DifferencesFit expected declared verified := by
  rw [assertChannelExplanations, Traverse.forM_eq_ok_iff]
  constructor
  · intro h channel hMem
    exact (assertChannelExplanation_iff hDeclared hVerified hExplained hMem
      (hRange channel hMem)).mp (h channel hMem)
  · intro h channel hMem
    exact (assertChannelExplanation_iff hDeclared hVerified hExplained hMem
      (hRange channel hMem)).mpr (h channel hMem)

theorem compareCash_of_fit {openingCents : Int} {movements : List CashMovement}
    (hTotals : ExpectedTotals openingCents movements expected)
    (hDeclared : Counted (requiredChannels expected) declared)
    (hVerified : Counted (requiredChannels expected) verified)
    (hExplained : Explained expected declared verified declarationNotes verificationNotes)
    (hFit : DifferencesFit expected declared verified) :
    ∃ comparison, compareCashCounts ⟨expected.cashExpectedCents, cashCents declared,
      some (cashCents verified), declarationNotes, verificationNotes⟩ = .ok comparison := by
  obtain ⟨drawer, hMem, hKey⟩ := List.mem_map.mp ((hTotals.covers _).mpr (Or.inl rfl))
  have hExpected : expected.cashExpectedCents = drawer.expectedCents := by
    rw [hTotals.channels drawer hMem, if_pos hKey, hTotals.cash]
  have hNotes := hExplained.declaration drawer hMem
  have hNotes' := hExplained.verification drawer hMem
  obtain ⟨hDifference, hDifference'⟩ := hFit drawer hMem
  obtain ⟨line, _, hCents, hNonneg, hLineRange⟩ := hDeclared.line hMem
  obtain ⟨line', _, hCents', hNonneg', hLineRange'⟩ := hVerified.line hMem
  rw [hCents] at hNotes hNotes' hDifference
  rw [hCents'] at hNotes' hDifference'
  rw [compareCashCounts_verified_iff, cashCents_eq, cashCents_eq, ← hKey, hCents, hCents',
    hExpected]
  exact ⟨hTotals.inRange drawer hMem, hLineRange, hLineRange', hDifference,
    inRange_sub ⟨hNonneg', hLineRange'⟩ ⟨hNonneg, hLineRange⟩, hDifference', hNotes, hNotes'⟩

end

/-- A supervisor about to verify a session whose count was accepted: nobody verified it yet, he
may and is not its cashier, his own count is well formed, and the differences that need notes
have them. -/
structure VerificationReady (surroundings : Surroundings) (actor : CashActor)
    (command : CountCommand) (tables : CashTables) (session : SessionRow)
    (expected : ExpectedSnapshot) (declaration : CashCount) (validated : ValidatedCashCount) :
    Prop where
  found : findSession tables command.sessionId = some session
  submitted : session.status = .submitted
  expects : session.expectedJson = some expected
  independent : session.cashierUserId.val ≠ actor.userId
  permitted : assertAbility actor ⟨.create, .cashVerification⟩ (some (sessionInstance session)) =
    .ok ()
  declares : latestOf .declaration (countsOf tables command.sessionId) = some declaration
  unverified : ∀ count ∈ countsOf tables command.sessionId, count.kind ≠ .verification
  counted : validateCashCount surroundings.collate command.lines (requiredChannels expected)
    command.denominations = .ok validated
  explained : Explained expected declaration.lines validated.lines declaration.notes command.notes

/-- The verification of an accepted count goes through exactly when every difference from an
expected amount fits the window. -/
theorem verify_iff {surroundings : Surroundings} {actor : CashActor} {command : CountCommand}
    {tables : CashTables} {session : SessionRow} {expected : ExpectedSnapshot}
    {declaration : CashCount} {validated : ValidatedCashCount} (hLedgers : Ledgers tables)
    (hCovers : DeclarationsCover tables)
    (h : VerificationReady surroundings actor command tables session expected declaration
      validated) :
    (∃ out, serve (Adapter.verify surroundings actor command) tables = .ok out) ↔
      DifferencesFit expected declaration.lines validated.lines := by
  have hFound := h.found
  have hStatus := h.submitted
  have hExpected := h.expects
  have hId := findSession_id hFound
  obtain ⟨hMem, hKind⟩ := latestOf_mem h.declares
  have hDeclared : Counted (requiredChannels expected) declaration.lines := by
    obtain ⟨session', expected', hFound', _, hExpected', hCounted⟩ :=
      hCovers _ declaration hMem hKind
    rw [hFound, Option.some.injEq] at hFound'
    rw [← hFound', hExpected, Option.some.injEq] at hExpected'
    exact hExpected' ▸ hCounted
  obtain ⟨hVerified, hCash⟩ := validateCashCount_counted h.counted
  have hTotals : ExpectedTotals session.openingCents.val
      (movementsIn (movementsOf tables command.sessionId)) expected := by
    obtain ⟨snapshot, hSnapshot, hTotals⟩ :=
      (hLedgers.ledger _ session hFound).totals (by rw [hStatus]; decide)
    have hSame : session.expectedJson = some snapshot := hSnapshot
    rw [hExpected, Option.some.injEq] at hSame
    exact hSame ▸ hTotals
  have hExplanations := assertChannelExplanations_iff hDeclared hVerified h.explained
    hTotals.inRange
  have hNew : ¬ ∃ count ∈ countsOf tables command.sessionId, count.kind = .verification := by
    rintro ⟨count, hCount, hCountKind⟩
    exact h.unverified count hCount hCountKind
  simp only [Adapter.verify, serve_requireSessionLocked, serve_check, serve_query, serve_pure,
    bind_eq_ok, throwIf_eq_ok, orThrow_eq_ok, assertIndependentVerifier, exists_const,
    map_eq_ok]
  constructor
  · rintro ⟨out, session', hFound', _, _, _, _, expected', hExpected', declaration',
      hDeclaration', _, validated', hValidated', _, hChannels, _⟩
    rw [hFound, Option.some.injEq] at hFound'
    subst hFound'
    rw [hExpected, Option.some.injEq] at hExpected'
    subst hExpected'
    rw [hId, h.declares, Option.some.injEq] at hDeclaration'
    subst hDeclaration'
    rw [h.counted, Except.ok.injEq] at hValidated'
    subst hValidated'
    exact hExplanations.mp hChannels
  · intro hFit
    obtain ⟨comparison, hComparison⟩ :=
      compareCash_of_fit hTotals hDeclared hVerified h.explained hFit
    have hInsert : ∀ count : CashCount, count.sessionId = command.sessionId →
        count.kind = .verification →
        insertCount count tables = .ok { tables with counts := tables.counts ++ [count] } := by
      intro count hCountSession hCountKind
      refine insertCount_eq_ok.mpr ⟨fun other hOther hSame hSameKind => ?_, rfl⟩
      refine absurd (hSameKind.trans hCountKind) (h.unverified other (List.mem_filter.mpr ?_))
      exact ⟨hOther, decide_eq_true (hSame.trans hCountSession)⟩
    rw [← hCash] at hComparison
    refine ⟨_, session, hFound, (), h.permitted, by simp [hStatus], h.independent, expected,
      hExpected, declaration, hId ▸ h.declares, hId ▸ hNew, validated, h.counted, (),
      hExplanations.mpr hFit, comparison, hComparison, _, hInsert _ hId rfl, rfl⟩

/-- In every state that an interleaving reaches, a supervisor who is ready verifies an accepted
count exactly when every difference from an expected amount fits the window. -/
theorem verify_iff_of_runs {Tid : Type} [DecidableEq Tid]
    {events : List (Event Tid CashLock CashTables DomainError CashDocument)}
    {system : System Tid CashLock CashTables DomainError CashDocument}
    (run : Runs (Step CashBody) (System.idle CashTables.empty) events system)
    {surroundings : Surroundings} {actor : CashActor} {command : CountCommand}
    {session : SessionRow} {expected : ExpectedSnapshot} {declaration : CashCount}
    {validated : ValidatedCashCount}
    (h : VerificationReady surroundings actor command system.tables session expected declaration
      validated) :
    (∃ out, serve (Adapter.verify surroundings actor command) system.tables = .ok out) ↔
      DifferencesFit expected declaration.lines validated.lines := by
  have hLedgers : Ledgers system.tables :=
    invariant_of_runs (fun _ _ h hChange => h.change hChange)
      (fun _ _ h => ⟨h.owned, h.ledger⟩) (sound_idle _) ledgers_empty run
  have hCovers : DeclarationsCover system.tables :=
    invariant_of_runs (fun _ _ h hChange => h.change hChange) (fun _ _ h => h) (sound_idle _)
      declarationsCover_empty run
  exact verify_iff hLedgers hCovers h

/-! ### A refund that the window does not close under -/

instance (expected : ExpectedSnapshot) (declared verified : List CashCountLine)
    (declarationNotes verificationNotes : Option String) :
    Decidable (Explained expected declared verified declarationNotes verificationNotes) :=
  decidable_of_iff
    ((∀ channel ∈ expected.channels,
      countedCents declared channel.channelKey ≠ channel.expectedCents →
        HasNotes declarationNotes) ∧
    ∀ channel ∈ expected.channels,
      countedCents verified channel.channelKey ≠ countedCents declared channel.channelKey →
        HasNotes verificationNotes)
    ⟨fun h => ⟨h.1, h.2⟩, fun h => ⟨h.declaration, h.verification⟩⟩

instance (surroundings : Surroundings) (actor : CashActor) (command : CountCommand)
    (tables : CashTables) (session : SessionRow) (expected : ExpectedSnapshot)
    (declaration : CashCount) (validated : ValidatedCashCount) :
    Decidable (VerificationReady surroundings actor command tables session expected declaration
      validated) :=
  decidable_of_iff
    (findSession tables command.sessionId = some session ∧ session.status = .submitted ∧
      session.expectedJson = some expected ∧ session.cashierUserId.val ≠ actor.userId ∧
      assertAbility actor ⟨.create, .cashVerification⟩ (some (sessionInstance session)) =
        .ok () ∧
      latestOf .declaration (countsOf tables command.sessionId) = some declaration ∧
      (∀ count ∈ countsOf tables command.sessionId, count.kind ≠ .verification) ∧
      validateCashCount surroundings.collate command.lines (requiredChannels expected)
        command.denominations = .ok validated ∧
      Explained expected declaration.lines validated.lines declaration.notes command.notes)
    ⟨fun h => ⟨h.1, h.2.1, h.2.2.1, h.2.2.2.1, h.2.2.2.2.1, h.2.2.2.2.2.1, h.2.2.2.2.2.2.1,
        h.2.2.2.2.2.2.2.1, h.2.2.2.2.2.2.2.2⟩,
      fun h => ⟨h.found, h.submitted, h.expects, h.independent, h.permitted, h.declares,
        h.unverified, h.counted, h.explained⟩⟩

/-- Ana's session settles one refund cent on a card, and she declares what she says she counted
on that channel. -/
def refundDay (counted : Int) : List (CashTx CashEnding) := [
  requestAt 1 "front" "ana" (.createRegister "Front desk"),
  requestAt 2 "morning" "ana" (.openSession ⟨"front", 0, none, true⟩),
  Adapter.recordRefund (moment 3 "refund")
    ⟨"morning", "ana", "settlement-1", 1, .cardDebit, 3⟩,
  requestAt 4 "freeze" "ana" (.startCount "morning"),
  requestAt 5 "count" "ana" (.declare ⟨"morning",
    [⟨"CASH", 0⟩, ⟨"METHOD:CARD_DEBIT", counted⟩], none, some "see terminal"⟩)]

/-- Eva's count of the same channels. -/
def evaCount (counted : Int) : CountCommand :=
  ⟨"morning", [⟨"CASH", 0⟩, ⟨"METHOD:CARD_DEBIT", counted⟩], none, some "seen"⟩

theorem cashBody_refundDay (counted : Int) : ∀ body ∈ refundDay counted, CashBody body := by
  simp [refundDay, cashBody_requestAt, CashBody.refund _ (moment_loads _ _)]

/-- What Eva finds on a day that was served, and what her verification gives. -/
def evaFinds (day : List (CashTx CashEnding)) (command : CountCommand) : Option
    (CashTables × SessionRow × ExpectedSnapshot × CashCount × ValidatedCashCount) := do
  let tables ← serveAll day .empty
  let session ← findSession tables command.sessionId
  let expected ← session.expectedJson
  let declaration ← latestOf .declaration (countsOf tables command.sessionId)
  let validated ← (validateCashCount (moment 6 "check").collate command.lines
    (requiredChannels expected) command.denominations).toOption
  return (tables, session, expected, declaration, validated)

/-- Eva at the moment of her verification. -/
def evaVerifies (counted : Int) : CashTx CashEnding :=
  Adapter.verify (moment 6 "check") (someone "eva") (evaCount counted)

/-- Eva is ready to verify what she finds. -/
def EvaReady (counted : Int)
    (found : CashTables × SessionRow × ExpectedSnapshot × CashCount × ValidatedCashCount) : Prop :=
  VerificationReady (moment 6 "check") (someone "eva") (evaCount counted) found.1
    found.2.1 found.2.2.1 found.2.2.2.1 found.2.2.2.2

instance (counted : Int)
    (found : CashTables × SessionRow × ExpectedSnapshot × CashCount × ValidatedCashCount) :
    Decidable (EvaReady counted found) :=
  inferInstanceAs (Decidable (VerificationReady _ _ _ _ _ _ _ _))

/-- What is found on a day comes from a run of that day. -/
theorem runs_of_evaFinds {counted : Int} {command : CountCommand}
    {found : CashTables × SessionRow × ExpectedSnapshot × CashCount × ValidatedCashCount}
    (h : evaFinds (refundDay counted) command = some found) :
    ∃ events, Runs (Step CashBody) (System.idle CashTables.empty :
      System Unit CashLock CashTables DomainError CashDocument) events (System.idle found.1) := by
  obtain ⟨tables, hServed, h⟩ := Option.bind_eq_some_iff.mp h
  obtain ⟨_, _, h⟩ := Option.bind_eq_some_iff.mp h
  obtain ⟨_, _, h⟩ := Option.bind_eq_some_iff.mp h
  obtain ⟨_, _, h⟩ := Option.bind_eq_some_iff.mp h
  obtain ⟨_, _, h⟩ := Option.bind_eq_some_iff.mp h
  cases h
  exact runs_of_serveAll (cashBody_refundDay counted) hServed

theorem evaFinds_five :
    (evaFinds (refundDay 5) (evaCount 5)).map (fun found => decide (EvaReady 5 found)) =
      some true := by
  decide +kernel

theorem verify_iff_of_refundDay : ∃ events found,
    Runs (Step CashBody) (System.idle CashTables.empty :
      System Unit CashLock CashTables DomainError CashDocument) events (System.idle found.1) ∧
    EvaReady 5 found ∧
    ((∃ out, serve (evaVerifies 5) found.1 = .ok out) ↔
      DifferencesFit found.2.2.1 found.2.2.2.1.lines found.2.2.2.2.lines) := by
  obtain ⟨found, hFound, hReady⟩ := Option.map_eq_some_iff.mp evaFinds_five
  obtain ⟨events, run⟩ := runs_of_evaFinds hFound
  have hReady := of_decide_eq_true hReady
  exact ⟨events, found, run, hReady, verify_iff_of_runs run hReady⟩

theorem evaFinds_max :
    (evaFinds (refundDay centsStorageMax) (evaCount centsStorageMax)).map (fun found =>
      (decide (EvaReady centsStorageMax found),
        (serve (evaVerifies centsStorageMax) found.1).toOption.isNone)) = some (true, true) := by
  decide +kernel

/-- The largest amount was accepted on a channel where minus one cent was expected, and nobody
can verify it. -/
theorem verify_fails_at_max : ∃ events found,
    Runs (Step CashBody) (System.idle CashTables.empty :
      System Unit CashLock CashTables DomainError CashDocument) events (System.idle found.1) ∧
    EvaReady centsStorageMax found ∧
    ¬ ∃ out, serve (evaVerifies centsStorageMax) found.1 = .ok out := by
  obtain ⟨found, hFound, hBoth⟩ := Option.map_eq_some_iff.mp evaFinds_max
  obtain ⟨events, run⟩ := runs_of_evaFinds hFound
  obtain ⟨hReady, hNone⟩ := Prod.mk.inj hBoth
  refine ⟨events, found, run, of_decide_eq_true hReady, ?_⟩
  rintro ⟨out, hOut⟩
  rw [hOut] at hNone
  cases hNone

/-! ### What a final cut expected -/

/-- The expected cash of the cut is the opening amount and the cash movements of its session. -/
def CutBalances (tables : CashTables) (row : CashClosing) : Prop :=
  ∃ session, findSession tables row.sessionId = some session ∧ session.status ≠ .opened ∧
    row.snapshot.expectedCents =
      session.openingCents.val + cashSum (movementsIn (movementsOf tables row.sessionId))

theorem CutBalances.stays {tables later : CashTables} (hStays : StaysFrozen tables later)
    {row : CashClosing} (h : CutBalances tables row) : CutBalances later row := by
  obtain ⟨session, hFound, hFrozen, hCut⟩ := h
  obtain ⟨hMovements, session', hFound', hFrozen', _, hOpening⟩ := hStays _ session hFound hFrozen
  exact ⟨session', hFound', hFrozen', by rw [hCut, hMovements, hOpening]⟩

theorem cutBalances_of_change {tables after : CashTables} (hLedgers : Ledgers tables)
    (h : ∀ row ∈ tables.closings.rows, CutBalances tables row)
    (hChange : CashChange tables after) : ∀ row ∈ after.closings.rows, CutBalances after row := by
  have hStays := staysFrozen_of_change hChange
  cases hChange with
  | @closed id session _ _ _ row _ _ found submitted _ expects _ _ _ _ ofSession cut _ insert =>
      have hFrozen : session.status ≠ .opened := by
        rw [submitted]
        decide
      obtain ⟨snapshot, hSnapshot, hTotals⟩ := (hLedgers.ledger id session found).totals hFrozen
      obtain rfl := Option.some.inj (expects.symm.trans hSnapshot)
      have hNew : CutBalances tables row := by
        subst ofSession
        exact ⟨session, found, hFrozen, cut.1.trans hTotals.cash⟩
      intro closing hClosing
      have hClosing : closing ∈ tables.closings.rows ++ [row] :=
        (Keyed.Rows.insert_eq_some.mp insert).2 ▸ hClosing
      rcases List.mem_append.mp hClosing with hBefore | hLast
      · exact (h closing hBefore).stays hStays
      · exact List.mem_singleton.mp hLast ▸ hNew.stays hStays
  | _ => exact fun row hRow => (h row hRow).stays hStays

/-- In every state that an interleaving reaches, however long after them, the cuts still expect
what the ledgers of their sessions hold. -/
theorem cuts_balance_of_runs {Tid : Type} [DecidableEq Tid]
    {events : List (Event Tid CashLock CashTables DomainError CashDocument)}
    {system : System Tid CashLock CashTables DomainError CashDocument}
    (run : Runs (Step CashBody) (System.idle CashTables.empty) events system) :
    ∀ closing ∈ system.tables.closings.rows, CutBalances system.tables closing :=
  (@invariant_of_runs Tid _ _ _ _ (fun tables => Ledgers tables ∧
      ∀ row ∈ tables.closings.rows, CutBalances tables row)
    (fun _ _ h hChange => ⟨h.1.change hChange, cutBalances_of_change h.1 h.2 hChange⟩)
    (fun _ _ h => ⟨⟨h.1.owned, h.1.ledger⟩, h.2⟩) (sound_idle _)
    ⟨ledgers_empty, fun _ hRow => absurd hRow List.not_mem_nil⟩ run).2

theorem cuts_balance_of_closingDay : ∃ events system,
    Runs (Step CashBody) (System.idle CashTables.empty :
      System Unit CashLock CashTables DomainError CashDocument) events system ∧
    (system.tables.closings.rows.map fun row => (row.sessionId, row.snapshot.declaredCents)) =
      [("morning", 500)] ∧
    ∀ closing ∈ system.tables.closings.rows, CutBalances system.tables closing := by
  obtain ⟨tables, hServed, hRows⟩ := Option.map_eq_some_iff.mp serveAll_closingDay
  have hBodies : ∀ body ∈ closingDay, CashBody body := by
    simp [closingDay, cashBody_requestAt]
  obtain ⟨events, run⟩ := runs_of_serveAll hBodies hServed
  exact ⟨events, _, run, hRows, cuts_balance_of_runs run⟩

end Houndfe.Cash
