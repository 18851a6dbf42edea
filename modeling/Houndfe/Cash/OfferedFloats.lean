import Houndfe.Cash.FloatFunding

/-! The custody list of a recipient: what is still owed to him, and the floats he received that
may fund his next session. The opening of a session takes exactly the floats it offers. -/

namespace Houndfe.Cash

open PaymentMethods Transactions Transition Adapter

/-! ### Pages -/

structure CashPageInput where
  page : Option Int
  limit : Option Int

/-- `{ page, limit, skip }`. -/
structure PageWindow where
  page : Int
  limit : Int
  skip : Int

def queryInvalidPage (message : String) : DomainError :=
  businessRuleViolationError message "CASH_QUERY_INVALID_PAGE"

def normalizePage (input : CashPageInput) : Except DomainError PageWindow := do
  let page := input.page.getD 1
  let limit := input.limit.getD 20
  throwIf (page < 1) (queryInvalidPage "page must be a positive integer")
  throwIf (limit < 1 ∨ 100 < limit) (queryInvalidPage "limit must be between 1 and 100")
  return ⟨page, limit, (page - 1) * limit⟩

/-- `rows.slice(skip, skip + limit)`. -/
def PageWindow.slice {α : Type} (window : PageWindow) (rows : List α) : List α :=
  (rows.drop window.skip.toNat).take window.limit.toNat

/-! ### The custody list -/

def handoverReadRequirement : CashAbilityRequirement := ⟨.read, .cashHandover⟩

/-- What a float shows of its source: the register, and whether its drawer was released. -/
structure FloatSource where
  sourceRegisterId : Option String
  sourceDrawerReleasedAt : Option Int
  deriving DecidableEq

structure CustodyItem where
  id : String
  sessionId : String
  kind : CashHandoverKind
  declaredCents : Int
  receivedCents : Option Int
  senderUserId : String
  receiverUserId : String
  declaredAt : Int
  receivedAt : Option Int
  senderDisplayName : Option String
  sourceRegisterName : Option String
  notes : Option String
  float : Option FloatSource
  deriving DecidableEq

structure CustodySection where
  items : List CustodyItem
  page : Int
  limit : Int
  total : Nat
  deriving DecidableEq

structure CustodyDocument where
  pendingHandovers : CustodySection
  eligibleFloat : CustodySection
  deriving DecidableEq

/-- A receipt that the opening would take; a violation of its rules makes it unusable, any other
error is passed on. -/
def hasReusableReceipt (row : CashHandover) : Except DomainError Bool :=
  match resolveOpeningFundCents { row with kind := .float } with
  | .ok _ => .ok true
  | .error error => if error.errorClass = .businessRuleViolation then .ok false else .error error

/-- `rows.filter(hasReusableReceipt)`. -/
def reusableReceipts : List CashHandover → Except DomainError (List CashHandover)
  | [] => .ok []
  | row :: rest => do
      let reusable ← hasReusableReceipt row
      let others ← reusableReceipts rest
      return if reusable then row :: others else others

/-- Oldest pending first. -/
def byCreatedAtAsc (collate : String → String → Bool) (left right : CashHandover) : Bool :=
  left.createdAt < right.createdAt ||
    (left.createdAt = right.createdAt && collate left.id right.id)

/-- Most recently received first. -/
def byReceivedAtDesc (collate : String → String → Bool) (left right : CashHandover) : Bool :=
  let leftAt := left.receivedAt.getD 0
  let rightAt := right.receivedAt.getD 0
  rightAt < leftAt || (rightAt = leftAt && collate left.id right.id)

def custodyItem (surroundings : Surroundings) (tables : CashTables) (row : CashHandover) :
    CustodyItem :=
  let source := findSession tables row.sourceSessionId
  { id := row.id
    sessionId := row.sourceSessionId
    kind := row.kind
    declaredCents := row.declaredCents
    receivedCents := row.receivedCents
    senderUserId := row.createdByUserId
    receiverUserId := row.recipientUserId
    declaredAt := row.createdAt
    receivedAt := row.receivedAt
    senderDisplayName := surroundings.userName row.createdByUserId
    sourceRegisterName := source.bind fun session =>
      (findRegister tables session.registerId).map CashRegister.name
    notes := row.notes
    float :=
      if row.kind ≠ .float then none
      else some ⟨source.map SessionRow.registerId, source.bind SessionRow.drawerReleasedAt⟩ }

/-- The handovers to this recipient that nobody received. -/
def pendingRows (actor : CashActor) (tables : CashTables) : List CashHandover :=
  tables.handovers.rows.filter fun row => row.recipientUserId = actor.userId ∧
    row.receivedAt = none ∧ row.receivedByUserId = none

/-- The floats this recipient received. -/
def floatRows (actor : CashActor) (tables : CashTables) : List CashHandover :=
  tables.handovers.rows.filter fun row => row.recipientUserId = actor.userId ∧
    row.kind = .float ∧ row.receivedAt ≠ none ∧ row.receivedByUserId = some actor.userId

/-- The floats among these that opened a session of the tenant. -/
def consumed (tables : CashTables) (floatIds : List String) : List String :=
  tables.sessions.rows.filterMap fun session =>
    session.openingHandoverId.filter fun id => id ∈ floatIds

def visible (actor : CashActor) (row : CashHandover) : Bool :=
  canInstanceAbility actor handoverReadRequirement (handoverInstance row)

def pending (surroundings : Surroundings) (actor : CashActor) (tables : CashTables) :
    List CashHandover :=
  ((pendingRows actor tables).filter (visible actor)).insertionSort
    fun left right => byCreatedAtAsc surroundings.collate left right

def eligible (surroundings : Surroundings) (actor : CashActor) (tables : CashTables) :
    Except DomainError (List CashHandover) := do
  let rows := floatRows actor tables
  let used := consumed tables (rows.map CashHandover.id)
  let reusable ← reusableReceipts (rows.filter (visible actor))
  return (reusable.filter fun row => row.id ∉ used).insertionSort
    fun left right => byReceivedAtDesc surroundings.collate left right

/-- The permission is read per row as well, before the totals and the pages. -/
def queryCustody (surroundings : Surroundings) (actor : CashActor) (page : CashPageInput)
    (tables : CashTables) : Except DomainError CustodyDocument := do
  assertAbility actor handoverReadRequirement none
  let window ← normalizePage page
  let pending := pending surroundings actor tables
  let eligible ← eligible surroundings actor tables
  return {
    pendingHandovers := ⟨(window.slice pending).map (custodyItem surroundings tables),
      window.page, window.limit, pending.length⟩
    eligibleFloat := ⟨(window.slice eligible).map (custodyItem surroundings tables),
      window.page, window.limit, eligible.length⟩ }

/-- An item of the eligible floats on some page of the list. -/
def Offered (surroundings : Surroundings) (actor : CashActor) (tables : CashTables)
    (item : CustodyItem) : Prop :=
  ∃ page document, queryCustody surroundings actor page tables = .ok document ∧
    item ∈ document.eligibleFloat.items

/-! ### What is offered -/

section

variable {α β : Type}

/-- A computation that fails on a rule of the business only. -/
def FailsOnRules (x : Except DomainError α) : Prop :=
  ∀ error, x = .error error → error.errorClass = .businessRuleViolation

theorem failsOnRules_ok (a : α) : FailsOnRules (.ok a) := by
  intro error h
  cases h

theorem failsOnRules_throwIf {bad : Prop} [Decidable bad] {message code : String} :
    FailsOnRules (throwIf bad (businessRuleViolationError message code)) := by
  intro error h
  unfold throwIf at h
  split at h
  · cases h
    rfl
  · cases h

theorem FailsOnRules.bind {x : Except DomainError α} {k : α → Except DomainError β}
    (hFirst : FailsOnRules x) (hRest : ∀ a, FailsOnRules (k a)) : FailsOnRules (x >>= k) := by
  intro error h
  cases x with
  | error found =>
      cases h
      exact hFirst _ rfl
  | ok a => exact hRest a error h

theorem failsOnRules_orThrow {row : Option α} {message code : String} :
    FailsOnRules (orThrow row (businessRuleViolationError message code)) := by
  cases row with
  | some row => exact failsOnRules_ok row
  | none =>
      intro error h
      cases h
      rfl

theorem failsOnRules_receiptOf (input : CashHandoverReceiptInput) :
    FailsOnRules (receiptOf input) := by
  unfold receiptOf
  split
  · exact failsOnRules_ok _
  · intro error h
    cases h
    rfl

theorem failsOnRules_resolveOpeningFundCents (handover : CashHandover) :
    FailsOnRules (resolveOpeningFundCents handover) := by
  have hReceipt : FailsOnRules (assertHandoverReceipt handover.receipt) := by
    unfold assertHandoverReceipt assertNonNegativeCents assertStorageRangeCents assertNonEmptyText
    refine .bind failsOnRules_throwIf fun _ => .bind failsOnRules_throwIf fun _ =>
      .bind failsOnRules_throwIf fun _ => .bind (failsOnRules_receiptOf _) fun receipt => ?_
    obtain ⟨receivedCents, receivedAt⟩ := receipt
    exact .bind failsOnRules_throwIf fun _ => .bind failsOnRules_throwIf fun _ =>
      .bind failsOnRules_throwIf fun _ => .bind failsOnRules_throwIf fun _ =>
      .bind failsOnRules_throwIf fun _ => .bind failsOnRules_throwIf fun _ => failsOnRules_throwIf
  exact .bind failsOnRules_throwIf fun _ => .bind hReceipt fun _ => failsOnRules_orThrow

end

/-- No receipt makes the list itself fail. -/
theorem hasReusableReceipt_eq (row : CashHandover) :
    hasReusableReceipt row = .ok (resolveOpeningFundCents { row with kind := .float }).isOk := by
  unfold hasReusableReceipt
  cases hFund : resolveOpeningFundCents { row with kind := .float } with
  | ok received => rfl
  | error error => exact if_pos (failsOnRules_resolveOpeningFundCents _ error hFund)

theorem reusableReceipts_eq (rows : List CashHandover) :
    reusableReceipts rows = .ok (rows.filter fun row =>
      (resolveOpeningFundCents { row with kind := .float }).isOk) := by
  induction rows with
  | nil => rfl
  | cons row rest ih =>
      rw [reusableReceipts, hasReusableReceipt_eq, ih, List.filter_cons]
      rfl

/-- A float that its recipient received, whose receipt holds and that opened no session. -/
structure Usable (actor : CashActor) (tables : CashTables) (row : CashHandover) : Prop where
  stored : row ∈ tables.handovers.rows
  float : row.kind = .float
  recipient : row.recipientUserId = actor.userId
  receiver : row.receivedByUserId = some actor.userId
  funds : ∃ cents, resolveOpeningFundCents row = .ok cents
  unused : ∀ session ∈ tables.sessions.rows, session.openingHandoverId ≠ some row.id

section

variable {surroundings : Surroundings} {actor : CashActor} {tables : CashTables}
  {row : CashHandover} {cents : Int}

/-- The fund of a float is what was received in it. -/
theorem resolveOpeningFundCents_spec (h : resolveOpeningFundCents row = .ok cents) :
    row.receivedCents = some cents ∧ row.receivedAt ≠ none ∧ 0 ≤ cents ∧ InRange cents ∧
      Text.isNonEmptyText row.recipientUserId := by
  simp only [resolveOpeningFundCents, assertHandoverReceipt, bind_eq_ok, throwIf_eq_ok,
    exists_const, orThrow_eq_ok, assertNonNegativeCents_eq_ok, assertStorageRangeCents_eq_ok,
    assertNonEmptyText_eq_ok, not_not] at h
  obtain ⟨_, ⟨_, _, _, ⟨receivedCents, receivedAt⟩, hReceipt, hNonneg, hRange, hReceiver, _⟩,
    hReceived⟩ := h
  have hBoth : row.receivedCents = some receivedCents ∧ row.receivedAt = some receivedAt := by
    simp only [receiptOf, CashHandover.receipt] at hReceipt
    split at hReceipt
    · next hCents hAt =>
        cases hReceipt
        exact ⟨hCents, hAt⟩
    · cases hReceipt
  rw [hBoth.1, Option.some.injEq] at hReceived
  subst hReceived
  exact ⟨hBoth.1, by simp [hBoth.2], hNonneg, hRange, hReceiver⟩

theorem mem_consumed {floatIds : List String} {id : String} :
    id ∈ consumed tables floatIds ↔
      id ∈ floatIds ∧ ∃ session ∈ tables.sessions.rows, session.openingHandoverId = some id := by
  simp only [consumed, List.mem_filterMap, Option.filter_eq_some_iff, decide_eq_true_eq]
  constructor
  · rintro ⟨session, hMem, hOpening, hIn⟩
    exact ⟨hIn, session, hMem, hOpening⟩
  · rintro ⟨hIn, session, hMem, hOpening⟩
    exact ⟨session, hMem, hOpening, hIn⟩

theorem eligible_spec : ∃ rows, eligible surroundings actor tables = .ok rows ∧
    ∀ row, row ∈ rows ↔ Usable actor tables row ∧ visible actor row = true := by
  rw [eligible, reusableReceipts_eq]
  refine ⟨_, rfl, fun row => ?_⟩
  have hUsed : row ∈ floatRows actor tables →
      (row.id ∈ consumed tables ((floatRows actor tables).map CashHandover.id) ↔
        ∃ session ∈ tables.sessions.rows, session.openingHandoverId = some row.id) := by
    intro hRow
    rw [mem_consumed]
    exact and_iff_right (List.mem_map_of_mem hRow)
  have hFloatRow : row ∈ floatRows actor tables ↔ row ∈ tables.handovers.rows ∧
      row.recipientUserId = actor.userId ∧ row.kind = .float ∧ row.receivedAt ≠ none ∧
        row.receivedByUserId = some actor.userId := by
    rw [floatRows, List.mem_filter, decide_eq_true_eq]
  rw [List.mem_insertionSort, List.mem_filter, List.mem_filter, List.mem_filter,
    decide_eq_true_eq]
  constructor
  · rintro ⟨⟨⟨hRow, hVisible⟩, hFunds⟩, hUnused⟩
    obtain ⟨hStored, hRecipient, hFloat, hReceived, hReceiver⟩ := hFloatRow.mp hRow
    rw [hUsed hRow, not_exists] at hUnused
    refine ⟨⟨hStored, hFloat, hRecipient, hReceiver, ?_, fun session hMem hOpening => ?_⟩,
      hVisible⟩
    · cases hFund : resolveOpeningFundCents { row with kind := .float } with
      | ok cents => exact ⟨cents, by rw [← hFund, ← hFloat]⟩
      | error error => simp [hFund, Except.isOk, Except.toBool] at hFunds
    · exact hUnused session ⟨hMem, hOpening⟩
  · rintro ⟨h, hVisible⟩
    obtain ⟨cents, hFund⟩ := h.funds
    have hReceived := (resolveOpeningFundCents_spec hFund).2.1
    have hRow := hFloatRow.mpr ⟨h.stored, h.recipient, h.float, hReceived, h.receiver⟩
    have hSame : { row with kind := .float } = row := by rw [← h.float]
    refine ⟨⟨⟨hRow, hVisible⟩, ?_⟩, ?_⟩
    · rw [hSame, hFund]
      rfl
    · rw [hUsed hRow]
      rintro ⟨session, hMem, hOpening⟩
      exact h.unused session hMem hOpening

/-- The pages of a list show what is in it. -/
theorem mem_slice {β : Type} {window : PageWindow} {rows : List β} {b : β}
    (h : b ∈ window.slice rows) : b ∈ rows :=
  List.mem_of_mem_drop (List.mem_of_mem_take h)

/-- Every row of a list is on the page of its place. -/
theorem exists_page {β : Type} {rows : List β} {b : β} (h : b ∈ rows) :
    ∃ page window, normalizePage page = .ok window ∧ b ∈ window.slice rows := by
  obtain ⟨place, hPlace, rfl⟩ := List.getElem_of_mem h
  refine ⟨⟨some (place + 1), some 1⟩, ⟨place + 1, 1, place⟩, ?_, ?_⟩
  · have hPage : ¬ (place + 1 : Int) < 1 := by omega
    simp only [normalizePage, Option.getD_some, bind_eq_ok, throwIf_eq_ok, exists_const,
      pure_eq_ok]
    exact ⟨hPage, by omega, by simp⟩
  · simp [PageWindow.slice, List.take_one, hPlace]

theorem offered_iff {item : CustodyItem} : Offered surroundings actor tables item ↔
    actor.can handoverReadRequirement none = true ∧ ∃ row, Usable actor tables row ∧
      visible actor row = true ∧ custodyItem surroundings tables row = item := by
  obtain ⟨rows, hEligible, hRows⟩ : ∃ rows, eligible surroundings actor tables = .ok rows ∧
    ∀ row, row ∈ rows ↔ Usable actor tables row ∧ visible actor row = true := eligible_spec
  simp only [Offered, queryCustody, assertAbility, hEligible, bind_eq_ok, throwIf_eq_ok,
    exists_const, pure_eq_ok, Bool.not_eq_false, Except.ok.injEq]
  constructor
  · rintro ⟨page, document, ⟨hMay, window, _, _, rfl, rfl⟩, hItem⟩
    obtain ⟨row, hRow, hSame⟩ := List.mem_map.mp hItem
    obtain ⟨hUsable, hVisible⟩ := (hRows row).mp (mem_slice hRow)
    exact ⟨hMay, row, hUsable, hVisible, hSame⟩
  · rintro ⟨hMay, row, hUsable, hVisible, rfl⟩
    obtain ⟨page, window, hPage, hRow⟩ := exists_page ((hRows row).mpr ⟨hUsable, hVisible⟩)
    exact ⟨page, _, ⟨hMay, window, hPage, rows, rfl, rfl⟩, List.mem_map_of_mem hRow⟩

/-! ### What an opening takes -/

theorem checkOpeningHandover_iff {registerId : String} {source : SessionRow} {u : Unit} :
    checkOpeningHandover actor registerId row source cents = .ok u ↔
      row.kind = .float ∧ row.recipientUserId = actor.userId ∧
        row.receivedByUserId = some actor.userId ∧ resolveOpeningFundCents row = .ok cents ∧
        (source.registerId = registerId → source.drawerReleasedAt ≠ none) := by
  simp only [checkOpeningHandover, bind_eq_ok, throwIf_eq_ok, exists_const, not_or, not_not,
    not_and]
  constructor
  · rintro ⟨hFloat, ⟨hRecipient, hReceiver⟩, received, hFund, rfl, hReleased⟩
    exact ⟨hFloat, hRecipient, hReceiver, hFund, hReleased⟩
  · rintro ⟨hFloat, hRecipient, hReceiver, hFund, hReleased⟩
    exact ⟨hFloat, ⟨hRecipient, hReceiver⟩, cents, hFund, rfl, hReleased⟩

/-- An active register whose drawer is nobody's. -/
structure FreeRegister (tables : CashTables) (register : CashRegister) : Prop where
  found : findRegister tables register.id = some register
  active : register.isActive = true
  free : ∀ session ∈ tables.sessions.rows, session.registerId = register.id →
    session.drawerReleasedAt ≠ none

theorem openSession_id {sessionId : Identifier} {cashierUserId : String} {session : CashSession}
    (h : Cash.openSession sessionId cashierUserId cents = .ok session) :
    session.id = sessionId := by
  unfold Cash.openSession at h
  split at h
  · cases h
  · split at h
    · split at h
      · cases h
        rfl
      · cases h
    · cases h

/-- The insert of a session on a free register, with a fund that opened none. -/
theorem createSession_accepted {register : CashRegister} {id : String}
    (hFree : ∀ session ∈ tables.sessions.rows, session.registerId = register.id →
      session.drawerReleasedAt ≠ none)
    (hFresh : findSession tables surroundings.newId.val = none)
    (hNonneg : 0 ≤ cents) (hRange : InRange cents) (hActor : Text.isNonEmptyText actor.userId)
    (hUnused : ∀ session ∈ tables.sessions.rows, session.openingHandoverId ≠ some id) :
    ∃ out, serve (createSession surroundings actor register cents (some id)) tables = .ok out := by
  have hOpen : Cash.openSession surroundings.newId actor.userId cents = .ok
      ⟨surroundings.newId, ⟨actor.userId, hActor⟩, .opened, ⟨cents, hNonneg, hRange⟩, none,
        none⟩ := by
    rw [Cash.openSession, dif_neg (Int.not_lt.mpr hNonneg), dif_pos hRange, dif_pos hActor]
  obtain ⟨row, hRow, hKey, hRegister, hOpening, hCents, hReleased⟩ : ∃ row,
      newSession surroundings actor register.id cents (some id) = .ok row ∧
        row.key = surroundings.newId.val ∧ row.registerId = register.id ∧
        row.openingHandoverId = some id ∧ row.openingCents.val = cents ∧
        row.drawerReleasedAt = none := by
    rw [newSession, hOpen]
    exact ⟨_, rfl, rfl, rfl, rfl, rfl, rfl⟩
  obtain ⟨view, hView⟩ : ∃ view, row.projectCashSession actor.userId row.openingCents.val none
      (canInstanceAbility actor cashAuditRequirement (sessionInstance row)) false = .ok view := by
    simp only [SessionRow.projectCashSession, bind_eq_ok, assertNonEmptyText_eq_ok,
      assertStorageRangeCents_eq_ok, exists_const, hCents]
    split
    · exact ⟨_, hActor, hRange, rfl⟩
    · exact ⟨_, hActor, hRange, rfl⟩
  obtain ⟨sessions, hInsert⟩ : ∃ sessions, tables.sessions.insert row = some sessions :=
    Keyed.Rows.exists_insert (hKey ▸ hFresh)
  have hWrite : insertSession row tables = .ok { tables with sessions } := by
    refine insertSession_eq_ok.mpr ⟨fun other hOther => ⟨fun _ => ?_, fun _ hOut hSame => ?_⟩,
      sessions, hInsert, rfl⟩
    · rw [hOpening]
      exact hUnused other hOther
    · exact hFree other hOther (hSame.trans hRegister) hOut
  simp only [createSession, serve_check, serve_pure, bind_eq_ok, map_eq_ok]
  exact ⟨_, row, hRow, view, hView, _, hWrite, rfl⟩

theorem createSession_stored {register : CashRegister} {id : String}
    {out : CashTables × CashDocument}
    (h : serve (createSession surroundings actor register cents (some id)) tables = .ok out) :
    ∃ session ∈ out.1.sessions.rows, session.key = surroundings.newId.val ∧
      session.registerId = register.id ∧ session.openingHandoverId = some id ∧
      session.openingCents.val = cents := by
  simp only [createSession, newSession, serve_check, serve_pure, bind_eq_ok, pure_eq_ok,
    map_eq_ok] at h
  obtain ⟨row, ⟨session, hOpen, rfl⟩, _, _, after, hInsert, rfl⟩ := h
  obtain ⟨_, sessions, hRow, rfl⟩ := insertSession_eq_ok.mp hInsert
  have hMem := (Keyed.Rows.insert_eq_some.mp hRow).2 ▸ List.mem_append_right _ List.mem_cons_self
  refine ⟨_, hMem, ?_, rfl, rfl, (openSession_opened hOpen).2.1⟩
  exact congrArg Subtype.val (openSession_id hOpen)

section

variable {register : CashRegister} {handoverId : String} {out : CashTables × CashDocument}

/-- The statements of an opening on a free register, by somebody who may open there. -/
theorem serve_openSession_iff (hRegister : FreeRegister tables register)
    (hMay : actor.can ⟨.create, .cashSession⟩
      (some (.session surroundings.newId.val register.id actor.userId .opened)) = true) :
    serve (Adapter.openSession surroundings actor
        ⟨register.id, cents, some handoverId, true⟩) tables = .ok out ↔
      0 ≤ cents ∧ InRange cents ∧ ∃ row source, findHandover tables handoverId = some row ∧
        findSession tables row.sourceSessionId = some source ∧
        checkOpeningHandover actor register.id row source cents = .ok () ∧
        (∀ session ∈ tables.sessions.rows, session.openingHandoverId ≠ some row.id) ∧
        serve (createSession surroundings actor register cents (some row.id)) tables = .ok out := by
  have hFree : ¬ (tables.sessions.rows.find? fun row =>
      decide (row.registerId = register.id ∧ row.drawerReleasedAt = none)).isSome = true := by
    rw [Option.not_isSome_iff_eq_none, List.find?_eq_none]
    intro session hMem hOccupied
    obtain ⟨hSame, hOut⟩ := of_decide_eq_true hOccupied
    exact hRegister.free session hMem hSame hOut
  have hUnused : ∀ row : CashHandover, (¬ (tables.sessions.rows.find? fun session =>
      decide (session.openingHandoverId = some row.id)).isSome = true) ↔
        ∀ session ∈ tables.sessions.rows, session.openingHandoverId ≠ some row.id := by
    intro row
    rw [Option.not_isSome_iff_eq_none, List.find?_eq_none]
    simp only [decide_eq_true_eq, ne_eq]
  simp only [Adapter.openSession, lockRegisterRow, resolveOpeningHandover, lockSessionRow,
    lockHandoverRow, assertAbility, bind_assoc, pure_bind, serve_check, serve_query, serve_lockRow,
    bind_eq_ok, throwIf_eq_ok, exists_const, orThrow_eq_ok, assertNonNegativeCents_eq_ok,
    assertStorageRangeCents_eq_ok, hRegister.found, hUnused]
  constructor
  · rintro ⟨_, found, hFound, _, _, _, hNonneg, hRange, _, preview, hPreview, row, hRow, source,
      hSource, _, hCheck, hNone, hServe⟩
    obtain rfl := Option.some.inj hFound
    exact ⟨hNonneg, hRange, row, source, hRow, hSource, hCheck, hNone, hServe⟩
  · rintro ⟨hNonneg, hRange, row, source, hRow, hSource, hCheck, hNone, hServe⟩
    refine ⟨by simp, register, rfl, ?_, ?_, by simp, hNonneg, hRange, hFree, row, hRow, row, hRow,
      source, hSource, (), hCheck, hNone, hServe⟩
    · rw [hMay]
      exact Bool.true_eq_false.mp
    · rw [hRegister.active]
      exact Bool.true_eq_false.mp

theorem openSession_permission {command : OpenSessionCommand}
    (h : serve (Adapter.openSession surroundings actor command) tables = .ok out) :
    actor.can ⟨.create, .cashSession⟩ (some
      (.session surroundings.newId.val command.registerId actor.userId .opened)) = true := by
  simp only [Adapter.openSession, lockRegisterRow, assertAbility, serve_lockRow, serve_query,
    serve_check, bind_eq_ok, throwIf_eq_ok, exists_const, orThrow_eq_ok, Bool.not_eq_false] at h
  obtain ⟨_, register, hFound, hMay, _⟩ := h
  rwa [← (Keyed.Rows.find_eq_some_iff.mp hFound).2]

/-- The opening takes a usable float, in the amount that was received. -/
theorem openSession_accepted_iff (hRegister : FreeRegister tables register)
    (hSourced : ∀ handover ∈ tables.handovers.rows,
      (findSession tables handover.sourceSessionId).isSome)
    (hFresh : findSession tables surroundings.newId.val = none)
    (hMay : actor.can ⟨.create, .cashSession⟩
      (some (.session surroundings.newId.val register.id actor.userId .opened)) = true) :
    (∃ out, serve (Adapter.openSession surroundings actor
        ⟨register.id, cents, some handoverId, true⟩) tables = .ok out) ↔
      ∃ row, row.id = handoverId ∧ Usable actor tables row ∧ row.receivedCents = some cents := by
  simp only [serve_openSession_iff hRegister hMay, checkOpeningHandover_iff]
  constructor
  · rintro ⟨out, _, _, row, source, hRow, _, ⟨hFloat, hRecipient, hReceiver, hFund, _⟩, hUnused, _⟩
    obtain ⟨hMem, hId⟩ := Keyed.Rows.find_eq_some_iff.mp hRow
    exact ⟨row, hId, ⟨hMem, hFloat, hRecipient, hReceiver, ⟨cents, hFund⟩, hUnused⟩,
      (resolveOpeningFundCents_spec hFund).1⟩
  · rintro ⟨row, rfl, h, hReceived⟩
    obtain ⟨fund, hFund⟩ := h.funds
    obtain ⟨hCents, _, hNonneg, hRange, hRecipient⟩ := resolveOpeningFundCents_spec hFund
    obtain rfl : cents = fund := Option.some.inj (hReceived.symm.trans hCents)
    obtain ⟨source, hSource⟩ := Option.isSome_iff_exists.mp (hSourced row h.stored)
    have hReleased : source.registerId = register.id → source.drawerReleasedAt ≠ none :=
      hRegister.free source (Keyed.Rows.find_eq_some_iff.mp hSource).1
    obtain ⟨out, hServe⟩ : ∃ out,
        serve (createSession surroundings actor register cents (some row.id)) tables = .ok out :=
      createSession_accepted hRegister.free hFresh hNonneg hRange (h.recipient ▸ hRecipient)
        h.unused
    exact ⟨out, hNonneg, hRange, row, source, Keyed.Rows.find_of_mem h.stored, hSource,
      ⟨h.float, h.recipient, h.receiver, hFund, hReleased⟩, h.unused, hServe⟩

end

end

/-! ### Handovers and their sources -/

/-- The session that a handover came from is in its table. -/
def Sourced (tables : CashTables) : Prop :=
  ∀ handover ∈ tables.handovers.rows, (findSession tables handover.sourceSessionId).isSome

section

variable {tables : CashTables}

theorem Sourced.updateSession (h : Sourced tables) {id : String}
    {change : SessionRow → SessionRow} {hKey : ∀ row, (change row).key = row.key} :
    Sourced (updateSession id change hKey tables) := by
  intro handover hMem
  rw [find_updateSession]
  split
  · rw [Option.isSome_map]
    exact h handover hMem
  · exact h handover hMem

theorem Sourced.change (h : Sourced tables) {after : CashTables}
    (hChange : CashChange tables after) : Sourced after := by
  cases hChange with
  | registers => exact h
  | opened insert =>
      intro handover hMem
      obtain ⟨source, hSource⟩ := Option.isSome_iff_exists.mp (h handover hMem)
      exact Option.isSome_iff_exists.mpr ⟨source, Keyed.Rows.find_insert_of_find insert hSource⟩
  | recorded => exact h
  | frozen => exact h.updateSession
  | declared => exact Sourced.updateSession h
  | annotated => exact h
  | verified => exact h
  | handedOver found _ _ ofSession _ _ _ insert =>
      intro handover hMem
      rw [show _ = _ from (Keyed.Rows.insert_eq_some.mp insert).2] at hMem
      rcases List.mem_append.mp hMem with hOld | hNew
      · exact h handover hOld
      · rw [List.mem_singleton.mp hNew, ofSession]
        exact Option.isSome_iff_exists.mpr ⟨_, found⟩
  | received =>
      intro handover hMem
      obtain ⟨row, hRow, rfl⟩ := List.mem_map.mp hMem
      split
      · exact h row hRow
      · exact h row hRow
  | released => exact h.updateSession
  | closed => exact Sourced.updateSession h

end

theorem sourced_of_runs {Tid : Type} [DecidableEq Tid]
    {events : List (Event Tid CashLock CashTables DomainError CashDocument)}
    {system : System Tid CashLock CashTables DomainError CashDocument}
    (run : Runs (Step CashBody) (System.idle CashTables.empty) events system) :
    Sourced system.tables := by
  refine invariant_of_runs (fun _ _ h hChange => h.change hChange) (fun _ _ h => h)
    (sound_idle _) (fun handover hMem => ?_) run
  exact absurd hMem List.not_mem_nil

/-! ### Offered floats are usable -/

/-- In every state of every interleaving: to somebody who may read the handover and may open on
the register, a float is offered exactly when an opening of the free register on it is accepted,
and the session opens with the received amount that was shown. -/
theorem offered_iff_opens {Tid : Type} [DecidableEq Tid]
    {events : List (Event Tid CashLock CashTables DomainError CashDocument)}
    {system : System Tid CashLock CashTables DomainError CashDocument}
    (run : Runs (Step CashBody) (System.idle CashTables.empty) events system)
    {listing opening : Surroundings} {actor : CashActor} {register : CashRegister}
    {handoverId : String} (hReads : actor.can handoverReadRequirement none = true)
    (hSees : ∀ row, findHandover system.tables handoverId = some row → visible actor row = true)
    (hMay : actor.can ⟨.create, .cashSession⟩
      (some (.session opening.newId.val register.id actor.userId .opened)) = true)
    (hRegister : FreeRegister system.tables register)
    (hFresh : findSession system.tables opening.newId.val = none) :
    ((∃ item, Offered listing actor system.tables item ∧ item.id = handoverId) ↔
      ∃ cents out, serve (Adapter.openSession opening actor
        ⟨register.id, cents, some handoverId, true⟩) system.tables = .ok out) ∧
    ∀ item, Offered listing actor system.tables item → item.id = handoverId → ∀ cents out,
      serve (Adapter.openSession opening actor
        ⟨register.id, cents, some handoverId, true⟩) system.tables = .ok out →
      item.receivedCents = some cents ∧ ∃ session ∈ out.1.sessions.rows,
        session.key = opening.newId.val ∧ session.registerId = register.id ∧
          session.openingHandoverId = some handoverId ∧ session.openingCents.val = cents := by
  have hSourced := sourced_of_runs run
  constructor
  · constructor
    · rintro ⟨item, hOffered, hId⟩
      obtain ⟨_, row, hUsable, _, rfl⟩ := offered_iff.mp hOffered
      obtain ⟨cents, hFund⟩ := hUsable.funds
      exact ⟨cents, (openSession_accepted_iff hRegister hSourced hFresh hMay).mpr
        ⟨row, hId, hUsable, (resolveOpeningFundCents_spec hFund).1⟩⟩
    · rintro ⟨cents, hAccepted⟩
      obtain ⟨row, rfl, hUsable, _⟩ :=
        (openSession_accepted_iff hRegister hSourced hFresh hMay).mp hAccepted
      have hVisible := hSees row (Keyed.Rows.find_of_mem hUsable.stored)
      exact ⟨_, offered_iff.mpr ⟨hReads, row, hUsable, hVisible, rfl⟩, rfl⟩
  · intro item hOffered hId cents out hServe
    obtain ⟨_, row, hUsable, _, rfl⟩ := offered_iff.mp hOffered
    obtain ⟨other, hOther, hAccepted, hReceived⟩ :=
      (openSession_accepted_iff hRegister hSourced hFresh hMay).mp ⟨out, hServe⟩
    obtain rfl : other = row :=
      Keyed.Rows.eq_of_key hAccepted.stored hUsable.stored (hOther.trans hId.symm)
    obtain ⟨_, _, found, _, hFound, _, _, _, hCreated⟩ :=
      (serve_openSession_iff hRegister hMay).mp hServe
    obtain ⟨session, hMem, hKey, hOn, hOpening, hCents⟩ := createSession_stored hCreated
    have hFoundId : found.id = handoverId := (Keyed.Rows.find_eq_some_iff.mp hFound).2
    exact ⟨hReceived, session, hMem, hKey, hOn, hFoundId ▸ hOpening, hCents⟩

/-- Ana hands her drawer over as a float, Bob receives 480 of it, and Ana releases the drawer. -/
def floatMorning : List (CashTx CashEnding) := floatDay.take 7

/-- The register of the floats, as it was created. -/
def frontDesk : CashRegister := ⟨"front", "Front desk", true, 1⟩

/-- Somebody who may do everything but one thing. -/
def unlessMay (userId : String) (missing : CashAbilityRequirement) : CashActor :=
  ⟨userId, fun requirement _ => requirement != missing⟩

/-- An opening of the front desk on the float. -/
def eveningOpening (actor : CashActor) (cents : Int) : CashTx CashEnding :=
  Adapter.openSession (moment 8 "evening") actor ⟨"front", cents, some "float", true⟩

instance (tables : CashTables) (register : CashRegister) :
    Decidable (FreeRegister tables register) :=
  decidable_of_iff (findRegister tables register.id = some register ∧ register.isActive = true ∧
    ∀ session ∈ tables.sessions.rows, session.registerId = register.id →
      session.drawerReleasedAt ≠ none)
    ⟨fun h => ⟨h.1, h.2.1, h.2.2⟩, fun h => ⟨h.found, h.active, h.free⟩⟩

/-- The float of the morning: who may not list it can open on it, and who lists it may not be
allowed to open. -/
theorem serveAll_floatMorning : ∃ tables, serveAll floatMorning .empty = some tables ∧
    FreeRegister tables frontDesk ∧ findSession tables "evening" = none ∧
    (serve (eveningOpening (unlessMay "bob" handoverReadRequirement) 480) tables).isOk = true ∧
    ((queryCustody (moment 8 "list") (unlessMay "bob" ⟨.create, .cashSession⟩) ⟨none, none⟩
      tables).map fun document => document.eligibleFloat.items.map fun item =>
        (item.id, item.receivedCents)) = .ok [("float", some 480)] := by
  have hAll : (serveAll floatMorning .empty).any (fun tables => decide (
      FreeRegister tables frontDesk ∧ findSession tables "evening" = none ∧
      (serve (eveningOpening (unlessMay "bob" handoverReadRequirement) 480) tables).isOk = true ∧
      ((queryCustody (moment 8 "list") (unlessMay "bob" ⟨.create, .cashSession⟩) ⟨none, none⟩
        tables).map fun document => document.eligibleFloat.items.map fun item =>
          (item.id, item.receivedCents)) = .ok [("float", some 480)])) = true := by
    decide +kernel
  cases hServed : serveAll floatMorning .empty with
  | none => simp [hServed] at hAll
  | some tables =>
      rw [hServed] at hAll
      exact ⟨tables, rfl, of_decide_eq_true hAll⟩

theorem runs_of_floatMorning {tables : CashTables}
    (h : serveAll floatMorning .empty = some tables) :
    ∃ events, Runs (Step CashBody) (System.idle CashTables.empty :
      System Unit CashLock CashTables DomainError CashDocument) events (System.idle tables) := by
  have hBodies : ∀ body ∈ floatDay, CashBody body := by
    simp [floatDay, cashBody_requestAt]
  exact runs_of_serveAll (fun body hBody => hBodies body (List.mem_of_mem_take hBody)) h

theorem offered_iff_opens_of_floatMorning : ∃ tables : CashTables,
    (∃ item, Offered (moment 8 "list") (someone "bob") tables item ∧ item.id = "float") ↔
      ∃ cents out, serve (eveningOpening (someone "bob") cents) tables = .ok out := by
  obtain ⟨tables, hServed, hRegister, hFresh, _⟩ := serveAll_floatMorning
  obtain ⟨events, run⟩ := runs_of_floatMorning hServed
  have hOffers := @offered_iff_opens Unit _ events _ run (moment 8 "list") (moment 8 "evening")
    (someone "bob") frontDesk "float" rfl (fun _ _ => rfl) rfl hRegister hFresh
  exact ⟨tables, hOffers.1⟩

/-- The permissions to list and to open are granted apart: on the float of the morning, who may
not list it can open, and who may not open is offered it. -/
theorem floats_offered_apart : ∃ events system,
    Runs (Step CashBody) (System.idle CashTables.empty :
      System Unit CashLock CashTables DomainError CashDocument) events system ∧
    FreeRegister system.tables frontDesk ∧
    (¬ ((∃ item, Offered (moment 8 "list") (unlessMay "bob" handoverReadRequirement)
        system.tables item ∧ item.id = "float") ↔
      ∃ cents out, serve (eveningOpening (unlessMay "bob" handoverReadRequirement) cents)
        system.tables = .ok out)) ∧
    ¬ ((∃ item, Offered (moment 8 "list") (unlessMay "bob" ⟨.create, .cashSession⟩)
        system.tables item ∧ item.id = "float") ↔
      ∃ cents out, serve (eveningOpening (unlessMay "bob" ⟨.create, .cashSession⟩) cents)
        system.tables = .ok out) := by
  obtain ⟨tables, hServed, hRegister, _, hOpens, hListed⟩ := serveAll_floatMorning
  obtain ⟨events, run⟩ := runs_of_floatMorning hServed
  refine ⟨events, _, run, hRegister, fun hIff => ?_, fun hIff => ?_⟩
  · cases hServe : serve (eveningOpening (unlessMay "bob" handoverReadRequirement) 480) tables with
    | error error => simp [hServe, Except.isOk, Except.toBool] at hOpens
    | ok out =>
        obtain ⟨item, hOffered, _⟩ := hIff.mpr ⟨480, out, hServe⟩
        exact absurd (offered_iff.mp hOffered).1 (by decide)
  · obtain ⟨document, hDocument, hItems⟩ := map_eq_ok.mp hListed
    have hFloat : ("float", some 480) ∈
        document.eligibleFloat.items.map fun item => (item.id, item.receivedCents) :=
      hItems ▸ List.mem_cons_self
    obtain ⟨item, hItem, hShown⟩ := List.mem_map.mp hFloat
    obtain ⟨cents, out, hServe⟩ := hIff.mp ⟨item, ⟨_, document, hDocument, hItem⟩,
      congrArg Prod.fst hShown⟩
    exact absurd (openSession_permission hServe) Bool.false_ne_true

end Houndfe.Cash
