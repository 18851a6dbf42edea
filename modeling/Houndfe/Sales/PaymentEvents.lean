import Houndfe.Sales.PaymentLedger

/-! The events of a batch of payments: what each says is paid and owed after it, rebuilt
backwards from the state after the batch. -/

namespace Houndfe.Sales

open PaymentMethods Transition

/-! ### The events -/

structure PersistedSalePaymentRecord where
  paymentId : String
  method : TenderMethod
  amountCents : Int
  reference : Option String
  deriving DecidableEq

/-- The payload of `sale.payment.received`. -/
structure PaymentReceived where
  saleId : String
  tenantId : String
  actorId : Option String
  paymentId : String
  method : TenderMethod
  amountCents : Int
  reference : Option String
  occurredAt : Int
  resultingPaidCents : Int
  resultingDebtCents : Int
  resultingPaymentStatus : SalePaymentStatus
  deriving DecidableEq

structure PaymentEventsInput where
  saleId : String
  tenantId : String
  actorId : Option String
  payments : List PersistedSalePaymentRecord
  paidCents : Int
  debtCents : Int
  occurredAt : Int
  resultingPaymentStatus : Option SalePaymentStatus
  deriving DecidableEq

/-- The loop over the payments, with its two running amounts. -/
def publishPayments (input : PaymentEventsInput) :
    Int → Int → List PersistedSalePaymentRecord → List PaymentReceived
  | _, _, [] => []
  | cumulativePaidCents, remainingDebtCents, payment :: rest =>
      let paidCents := cumulativePaidCents + payment.amountCents
      let debtCents := max (remainingDebtCents - payment.amountCents) 0
      { saleId := input.saleId
        tenantId := input.tenantId
        actorId := input.actorId
        paymentId := payment.paymentId
        method := payment.method
        amountCents := payment.amountCents
        reference := payment.reference
        occurredAt := input.occurredAt
        resultingPaidCents := paidCents
        resultingDebtCents := debtCents
        resultingPaymentStatus := input.resultingPaymentStatus.getD
          (if debtCents = 0 then .paid else .partialPaid) } ::
        publishPayments input paidCents debtCents rest

def publishPaymentReceivedEvents (input : PaymentEventsInput) : List PaymentReceived :=
  let cumulativePaidCents := input.paidCents - (input.payments.map (·.amountCents)).sum
  publishPayments input cumulativePaidCents
    (input.paidCents + input.debtCents - cumulativePaidCents) input.payments

def SalePayment.record (row : SalePayment) : PersistedSalePaymentRecord :=
  ⟨row.id, row.payment.method, row.payment.amountCents, row.payment.reference⟩

/-- What the two money requests know besides the money. -/
structure EventContext where
  saleId : String
  tenantId : String
  actorId : Option String
  occurredAt : Int
  deriving DecidableEq

/-- The events of `executeChargeDraft`. -/
def chargeEvents (context : EventContext) (outcome : MoneyOutcome) : List PaymentReceived :=
  publishPaymentReceivedEvents ⟨context.saleId, context.tenantId, context.actorId,
    outcome.created.map SalePayment.record, outcome.account.paidCents, outcome.account.debtCents,
    context.occurredAt, none⟩

/-- The events of `executeAddPayment`. -/
def collectionEvents (context : EventContext) (outcome : MoneyOutcome) : List PaymentReceived :=
  publishPaymentReceivedEvents ⟨context.saleId, context.tenantId, context.actorId,
    outcome.created.map SalePayment.record, outcome.account.paidCents, outcome.account.debtCents,
    context.occurredAt, outcome.account.paymentStatus⟩

/-! ### Consistent events -/

/-- Events that lead from one state of a sale to the next: from what was paid on they never
decrease, each is between zero and the total and adds up to it, and the last is the state after. -/
structure ConsistentEvents (before after : SaleAccount) (events : List PaymentReceived) : Prop where
  rising : (before.paidCents :: events.map (·.resultingPaidCents)).Pairwise (· ≤ ·)
  bounded : ∀ event ∈ events, 0 ≤ event.resultingPaidCents ∧
    event.resultingPaidCents ≤ after.totalCents
  adds : ∀ event ∈ events,
    event.resultingPaidCents + event.resultingDebtCents = after.totalCents
  last : ∀ event ∈ events.getLast?, event.resultingPaidCents = after.paidCents ∧
    event.resultingDebtCents = after.debtCents

section

variable {input : PaymentEventsInput} {payments : List PersistedSalePaymentRecord}
  {paid debt : Int}

theorem sum_amounts_nonneg (hNonneg : ∀ payment ∈ payments, 0 ≤ payment.amountCents) :
    0 ≤ (payments.map (·.amountCents)).sum := by
  apply List.sum_nonneg
  intro amount hAmount
  obtain ⟨payment, hPayment, rfl⟩ := List.mem_map.mp hAmount
  exact hNonneg payment hPayment

/-- The paid amounts rise from where the loop starts. -/
theorem rising_publishPayments (hNonneg : ∀ payment ∈ payments, 0 ≤ payment.amountCents) :
    (paid :: (publishPayments input paid debt payments).map (·.resultingPaidCents)).Pairwise
      (· ≤ ·) := by
  induction payments generalizing paid debt with
  | nil => simp [publishPayments]
  | cons payment rest ih =>
      obtain ⟨hPayment, hRest⟩ := List.forall_mem_cons.mp hNonneg
      have hAfter : ((paid + payment.amountCents) :: (publishPayments input
          (paid + payment.amountCents) (max (debt - payment.amountCents) 0) rest).map
            (·.resultingPaidCents)).Pairwise (· ≤ ·) := ih hRest
      rw [publishPayments, List.map_cons, List.pairwise_cons]
      refine ⟨fun other hOther => ?_, hAfter⟩
      rcases List.mem_cons.mp hOther with rfl | hOther
      · dsimp only
        omega
      · have hStep := (List.pairwise_cons.mp hAfter).1 other hOther
        omega

/-- No event says more than is paid in the end. -/
theorem le_of_mem_publishPayments (hNonneg : ∀ payment ∈ payments, 0 ≤ payment.amountCents)
    {event : PaymentReceived} (hEvent : event ∈ publishPayments input paid debt payments) :
    event.resultingPaidCents ≤ paid + (payments.map (·.amountCents)).sum := by
  induction payments generalizing paid debt with
  | nil => cases hEvent
  | cons payment rest ih =>
      obtain ⟨hPayment, hRest⟩ := List.forall_mem_cons.mp hNonneg
      have hBehind := sum_amounts_nonneg hRest
      rw [publishPayments] at hEvent
      rw [List.map_cons, List.sum_cons]
      rcases List.mem_cons.mp hEvent with rfl | hEvent
      · dsimp only
        omega
      · have hStep := ih hRest hEvent
        omega

/-- What an event says is paid and what it says is owed make up the same total, as long as the
payments do not exceed it: nothing is cut off at zero. -/
theorem adds_of_mem_publishPayments (hNonneg : ∀ payment ∈ payments, 0 ≤ payment.amountCents)
    (hFits : (payments.map (·.amountCents)).sum ≤ debt) {event : PaymentReceived}
    (hEvent : event ∈ publishPayments input paid debt payments) :
    event.resultingPaidCents + event.resultingDebtCents = paid + debt := by
  induction payments generalizing paid debt with
  | nil => cases hEvent
  | cons payment rest ih =>
      obtain ⟨hPayment, hRest⟩ := List.forall_mem_cons.mp hNonneg
      have hBehind := sum_amounts_nonneg hRest
      rw [List.map_cons, List.sum_cons] at hFits
      have hUncut : max (debt - payment.amountCents) 0 = debt - payment.amountCents :=
        max_eq_left (by omega)
      rw [publishPayments, hUncut] at hEvent
      rcases List.mem_cons.mp hEvent with rfl | hEvent
      · dsimp only
        omega
      · have hStep := ih hRest (by omega) hEvent
        omega

/-- The last event says what all the payments together make. -/
theorem last_publishPayments {event : PaymentReceived}
    (hLast : (publishPayments input paid debt payments).getLast? = some event) :
    event.resultingPaidCents = paid + (payments.map (·.amountCents)).sum := by
  induction payments generalizing paid debt event with
  | nil => cases hLast
  | cons payment rest ih =>
      rw [publishPayments, List.getLast?_cons, Option.some.injEq] at hLast
      rw [List.map_cons, List.sum_cons, ← add_assoc]
      cases hRest : (publishPayments input (paid + payment.amountCents)
          (max (debt - payment.amountCents) 0) rest).getLast? with
      | some event' =>
          rw [hRest] at hLast
          rw [← hLast]
          exact ih hRest
      | none =>
          rw [hRest] at hLast
          cases rest with
          | nil =>
              rw [← hLast]
              simp
          | cons next rest => simp [publishPayments] at hRest

theorem start_le_of_mem (hNonneg : ∀ payment ∈ input.payments, 0 ≤ payment.amountCents)
    {event : PaymentReceived} (hEvent : event ∈ publishPaymentReceivedEvents input) :
    input.paidCents - (input.payments.map (·.amountCents)).sum ≤ event.resultingPaidCents :=
  (List.pairwise_cons.mp (rising_publishPayments hNonneg)).1 _ (List.mem_map_of_mem hEvent)

end

/-! ### Events of a charge and of a collection -/

section

variable {before after : SaleAccount} {input : PaymentEventsInput}

/-- Events are consistent from an account whose paid amount is not above where they start, if
the first of them is not negative. -/
theorem consistent_publish (hNonneg : ∀ payment ∈ input.payments, 0 ≤ payment.amountCents)
    (hPaid : input.paidCents = after.paidCents) (hDebt : input.debtCents = after.debtCents)
    (hTotal : after.paidCents + after.debtCents = after.totalCents) (hOwed : 0 ≤ after.debtCents)
    (hStart : ∀ event ∈ (publishPaymentReceivedEvents input).head?,
      before.paidCents ≤ event.resultingPaidCents ∧ 0 ≤ event.resultingPaidCents) :
    ConsistentEvents before after (publishPaymentReceivedEvents input) := by
  have hAdds : ∀ event ∈ publishPaymentReceivedEvents input,
      event.resultingPaidCents + event.resultingDebtCents = after.totalCents := by
    intro event hEvent
    rw [adds_of_mem_publishPayments hNonneg (by omega) hEvent]
    omega
  have hRising : ((input.paidCents - (input.payments.map (·.amountCents)).sum) ::
      (publishPaymentReceivedEvents input).map (·.resultingPaidCents)).Pairwise (· ≤ ·) :=
    rising_publishPayments hNonneg
  -- every event says at least what the first does
  have hFirst : ∀ event ∈ publishPaymentReceivedEvents input,
      before.paidCents ≤ event.resultingPaidCents ∧ 0 ≤ event.resultingPaidCents := by
    intro event hEvent
    change (_ :: (publishPaymentReceivedEvents input).map _).Pairwise _ at hRising
    cases hEvents : publishPaymentReceivedEvents input with
    | nil =>
        rw [hEvents] at hEvent
        cases hEvent
    | cons first rest =>
        rw [hEvents] at hEvent hStart hRising
        obtain ⟨hBefore, hZero⟩ := hStart first rfl
        rcases List.mem_cons.mp hEvent with rfl | hEvent
        · exact ⟨hBefore, hZero⟩
        · have hStep : first.resultingPaidCents ≤ event.resultingPaidCents :=
            (List.pairwise_cons.mp (List.pairwise_cons.mp hRising).2).1 _
              (List.mem_map_of_mem hEvent)
          omega
  refine ⟨?_, fun event hEvent => ⟨(hFirst event hEvent).2, ?_⟩, hAdds, fun event hLast => ?_⟩
  · rw [List.pairwise_cons]
    refine ⟨fun paid hMem => ?_, (List.pairwise_cons.mp hRising).2⟩
    obtain ⟨event, hEvent, rfl⟩ := List.mem_map.mp hMem
    exact (hFirst event hEvent).1
  · have hLe := le_of_mem_publishPayments hNonneg hEvent
    omega
  · have hSum := last_publishPayments hLast
    have hTotalOf := hAdds event (List.mem_of_getLast? hLast)
    omega

end

theorem amounts_createPaymentRows (newPaymentId : Nat → String) (userId : Option String)
    (payments : List CanonicalPayment) :
    ((createPaymentRows newPaymentId userId payments).map SalePayment.record).map (·.amountCents) =
      payments.map CanonicalPayment.amountCents := by
  conv_rhs => rw [← payments_createPaymentRows newPaymentId userId payments]
  simp only [List.map_map]
  rfl

theorem nonneg_of_isValid {dto : ChargeSaleDto} {payments : List ChargePaymentEntry}
    (hValid : dto.IsValid) (h : normalizeChargeRequestPayments dto = .ok payments) :
    ∀ payment ∈ payments, 0 ≤ payment.amountCents := by
  obtain ⟨hAmount, hEntries⟩ := hValid
  simp only [normalizeChargeRequestPayments, bind_eq_ok, throwIf_eq_ok, exists_const] at h
  obtain ⟨_, h⟩ := h
  split at h
  · next entries hPayments =>
      simp only [bind_eq_ok, throwIf_eq_ok, exists_const, pure_eq_ok] at h
      obtain ⟨_, _, rfl⟩ := h
      exact (hEntries entries hPayments).2
  · split at h
    · next method amountCents _ hSome =>
        simp only [pure_eq_ok] at h
        subst h
        simpa using hAmount amountCents hSome
    · cases h

section

variable {context : MoneyContext} {event : EventContext} {sale : Sale} {dto : ChargeSaleDto}
  {outcome : MoneyOutcome} {payments : List ChargePaymentEntry}

/-- A batch without a row has no event. -/
theorem consistent_chargeEvents_nil {before after : SaleAccount}
    (hCreated : outcome.created.map SalePayment.record = []) :
    ConsistentEvents before after (chargeEvents event outcome) := by
  have hEvents : chargeEvents event outcome = [] := by
    rw [chargeEvents, publishPaymentReceivedEvents, hCreated, publishPayments]
  rw [hEvents]
  exact ⟨by simp, by simp, by simp, by simp⟩

/-- The first event of a charge says that the payments after the first are still missing. -/
theorem head?_chargeEvents {payment : PersistedSalePaymentRecord}
    {rest : List PersistedSalePaymentRecord}
    (hCreated : outcome.created.map SalePayment.record = payment :: rest) :
    ∃ first, (chargeEvents event outcome).head? = some first ∧
      first.resultingPaidCents =
        outcome.account.paidCents - (rest.map (·.amountCents)).sum := by
  refine ⟨_, by rw [chargeEvents, publishPaymentReceivedEvents, hCreated, publishPayments]; rfl, ?_⟩
  dsimp only
  rw [List.map_cons, List.sum_cons]
  omega

/-- The events of an accepted charge are consistent exactly when the payments after the first
fit the total. -/
theorem chargeEvents_consistent_iff (hValid : dto.IsValid)
    (hPayments : normalizeChargeRequestPayments dto = .ok payments)
    (hCharge : executeChargeDraft context sale .draft dto = .ok outcome) :
    ConsistentEvents .draft outcome.account (chargeEvents event outcome) ↔
      tenderedCents payments.tail ≤ sale.previewTotals.totalCents := by
  have hLedger := ledgerInvariant_afterCharge hCharge
  obtain ⟨payments', split, canonical, hSame, hSplit, hCanonical, hCreated, _, _, hTotal, hPaid,
    _, _, _⟩ := executeChargeDraft_spec hCharge
  obtain rfl := Except.ok.inj (hPayments.symm.trans hSame)
  obtain ⟨_, hCredit, _, hSplitPaid, _⟩ := splitTender_spec hSplit
  have hTotalNonneg := sale.previewTotals_totalCents_nonneg
  cases hHas : hasMethod payments .credit with
  | true =>
      -- the credit entry stands alone and leaves no row
      obtain ⟨hLength, _⟩ := hCredit hHas
      match payments, hHas, hLength with
      | [entry], hHas, _ =>
          have hEntry : entry.method = .credit := by simpa [hasMethod] using hHas
          rw [toCanonicalChargePayments, hEntry] at hCanonical
          cases hCanonical
          exact iff_of_true (consistent_chargeEvents_nil (by rw [hCreated]; rfl)) hTotalNonneg
  | false =>
      have hAmounts : (outcome.created.map SalePayment.record).map (·.amountCents) =
          payments.map ChargePaymentEntry.amountCents := by
        rw [hCreated, amounts_createPaymentRows, amounts_toCanonicalChargePayments hCanonical,
          filter_of_hasMethod_credit hHas]
      cases payments with
      | nil =>
          exact iff_of_true (consistent_chargeEvents_nil (List.map_eq_nil_iff.mp hAmounts))
            hTotalNonneg
      | cons payment rest =>
          obtain ⟨row, rows, hRows, hFirst, hRest⟩ := List.map_eq_cons_iff.mp hAmounts
          have hNonneg := nonneg_of_isValid hValid hPayments
          have hTendered : tenderedCents (payment :: rest) =
              payment.amountCents + tenderedCents rest := by
            rw [tenderedCents, List.map_cons, List.sum_cons, tenderedCents]
          have hBehind : (rows.map (·.amountCents)).sum = tenderedCents rest := by
            rw [hRest, tenderedCents]
          have hPayment := hNonneg payment List.mem_cons_self
          obtain ⟨first, hHead, hSays⟩ : ∃ first, (chargeEvents event outcome).head? = some first ∧
              first.resultingPaidCents =
                outcome.account.paidCents - (rows.map (·.amountCents)).sum :=
            head?_chargeEvents hRows
          rw [hBehind, hPaid, hSplitPaid, hTendered] at hSays
          rw [List.tail_cons]
          constructor
          · intro hConsistent
            have hBounded := hConsistent.bounded first (List.mem_of_mem_head? hHead)
            omega
          · intro hFits
            refine consistent_publish (fun record hRecord => ?_) rfl rfl ?_ ?_ ?_
            · have hMem := List.mem_map_of_mem (f := (·.amountCents)) hRecord
              rw [show (outcome.created.map SalePayment.record).map (·.amountCents) = _
                from hAmounts] at hMem
              obtain ⟨entry, hEntry, hSame⟩ := List.mem_map.mp hMem
              rw [← hSame]
              exact hNonneg entry hEntry
            · have hAdd := hLedger.paid_add_debt
              have hTotalEq := hLedger.total_eq
              exact hAdd.trans hTotalEq.symm
            · exact hLedger.debt_nonneg
            · intro event' hEvent'
              obtain rfl := Option.some.inj (hHead.symm.trans hEvent')
              have hDraft : SaleAccount.draft.paidCents = 0 := rfl
              omega

end

/-- The events of an accepted collection are consistent, whatever happened to the sale before. -/
theorem collectionEvents_consistent {context : MoneyContext} {event : EventContext}
    {channel : SaleChannel} {authMode : AddPaymentAuthMode} {totalCents : Int} {state : MoneyState}
    {dto : AddSalePaymentDto} {outcome : MoneyOutcome} (hLedger : LedgerInvariant totalCents state)
    (hValid : dto.IsValid)
    (h : executeAddPayment context channel authMode state.account dto = .ok outcome) :
    ConsistentEvents state.account outcome.account (collectionEvents event outcome) := by
  simp only [executeAddPayment, persistCollectedPayments, bind_eq_ok, throwIf_eq_ok, exists_const,
    pure_eq_ok, sum_createPaymentRows] at h
  obtain ⟨payments, hPayments, _, canonical, hCanonical, _, ⟨_, hOwed, hFits, rfl⟩, rfl⟩ := h
  have hAmounts := amounts_paymentsToPersist hCanonical
  have hRows := amounts_createPaymentRows context.newPaymentId
    (if authMode = .reviewer then none else some context.actorId) canonical
  obtain ⟨_, hPositive⟩ := pos_of_isValid hValid hPayments
  -- a sale that still owes has returned no change
  have hPaidLedger : state.account.paidFromLedger = state.account.paidCents := by
    have hRowsEq := hLedger.rows_eq
    have hSettled := hLedger.change_settled
    have hSplit := hLedger.paid_add_debt
    have hTotalEq := hLedger.total_eq
    have hChange := hLedger.change_nonneg
    omega
  have hRecord : ∀ record ∈ (createPaymentRows context.newPaymentId
      (if authMode = .reviewer then none else some context.actorId) canonical).map
        SalePayment.record, 1 ≤ record.amountCents := by
    intro record hMem
    have hAmount := List.mem_map_of_mem (f := (·.amountCents)) hMem
    rw [hRows, hAmounts] at hAmount
    obtain ⟨entry, hEntry, hSame⟩ := List.mem_map.mp hAmount
    rw [← hSame]
    exact hPositive entry hEntry
  refine consistent_publish (fun record hMem => by have := hRecord record hMem; omega) rfl rfl
    ?_ ?_ ?_
  · dsimp only
    omega
  · dsimp only
    omega
  · intro first hFirst
    have hPaidNonneg := hLedger.paid_nonneg
    have hStart := start_le_of_mem (fun record hMem => by have := hRecord record hMem; omega)
      (List.mem_of_mem_head? hFirst)
    dsimp only at hStart
    have hSum : (((createPaymentRows context.newPaymentId
        (if authMode = .reviewer then none else some context.actorId) canonical).map
          SalePayment.record).map (·.amountCents)).sum =
        (canonical.map CanonicalPayment.amountCents).sum := by
      rw [hRows]
    omega

/-- The events of an accepted charge are consistent exactly when the payments after the first do
not exceed the total; those of a later collection always are. -/
theorem paymentEvents_consistent_iff (context : MoneyContext) (event : EventContext) (sale : Sale)
    {dto : ChargeSaleDto} {outcome : MoneyOutcome} {payments : List ChargePaymentEntry}
    (hValid : dto.IsValid) (hPayments : normalizeChargeRequestPayments dto = .ok payments)
    (hCharge : executeChargeDraft context sale .draft dto = .ok outcome) :
    (ConsistentEvents .draft outcome.account (chargeEvents event outcome) ↔
      tenderedCents payments.tail ≤ sale.previewTotals.totalCents) ∧
    ∀ requests state, Runs (Fires collect) (afterCharge outcome) requests state →
      ∀ request : CollectionRequest, request.dto.IsValid → ∀ collected,
        executeAddPayment request.context request.channel request.authMode state.account
          request.dto = .ok collected →
        ConsistentEvents state.account collected.account (collectionEvents event collected) := by
  refine ⟨chargeEvents_consistent_iff hValid hPayments hCharge, ?_⟩
  intro requests state run request hRequest collected hCollected
  have hLedger : LedgerInvariant sale.previewTotals.totalCents state :=
    run.invariant (fun _ _ _ hInv hStep => ledgerInvariant_collect hInv hStep)
      (ledgerInvariant_afterCharge hCharge)
  exact collectionEvents_consistent hLedger hRequest hCollected

/-- Two tenders with change, the larger one first, on a draft of 1000 cents. -/
def changeFromFirst : ChargeSaleDto :=
  ⟨none, none, none, some [⟨.tender .cash, 1100, none, none⟩, ⟨.tender .transfer, 400, none, none⟩]⟩

def exampleEvents : EventContext :=
  ⟨"sale", "tenant", some "cashier", 0⟩

theorem paymentEvents_consistent_of_change_from_first : ∃ outcome,
    executeChargeDraft exampleContext twoUnitDraft .draft changeFromFirst = .ok outcome ∧
    ConsistentEvents .draft outcome.account (chargeEvents exampleEvents outcome) := by
  have hValid : changeFromFirst.IsValid := by decide
  have hPayments : normalizeChargeRequestPayments changeFromFirst =
    .ok (changeFromFirst.payments.getD []) := rfl
  have hFits : tenderedCents (changeFromFirst.payments.getD []).tail ≤
    twoUnitDraft.previewTotals.totalCents := by decide
  refine ⟨_, rfl, ?_⟩
  exact (paymentEvents_consistent_iff exampleContext exampleEvents twoUnitDraft hValid hPayments
    rfl).1.mpr hFits

/-- The same tenders the other way round: after the transfer of 400 cents the sale is said to be
paid with minus 100, and to owe more than its total. -/
theorem paid_below_zero : ∃ dto outcome, dto.IsValid ∧
    executeChargeDraft exampleContext twoUnitDraft .draft dto = .ok outcome ∧
    (chargeEvents exampleEvents outcome).map
      (fun event => (event.amountCents, event.resultingPaidCents, event.resultingDebtCents)) =
      [(400, -100, 1100), (1100, 1000, 0)] ∧
    ¬ ConsistentEvents .draft outcome.account (chargeEvents exampleEvents outcome) := by
  refine ⟨⟨none, none, none, some [⟨.tender .transfer, 400, none, none⟩,
    ⟨.tender .cash, 1100, none, none⟩]⟩, _, by decide, rfl, by decide, ?_⟩
  intro hConsistent
  have hBounded := hConsistent.bounded _ List.mem_cons_self
  exact absurd hBounded.1 (by decide)

end Houndfe.Sales
