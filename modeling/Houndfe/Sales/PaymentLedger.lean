import Houndfe.Base.Transition
import Houndfe.Sales.Payments
import Mathlib.Algebra.Order.BigOperators.Group.List

/-! The payment ledger of a sale: a charge, then any sequence of collections. -/

namespace Houndfe.Sales

open PaymentMethods Transition

/-- What an accepted tender split knows of its tenders. -/
theorem splitTender_spec {totalCents : Int} {customerId : Option String}
    {payments : List ChargePaymentEntry} {split : TenderSplit}
    (h : splitTender totalCents customerId payments = .ok split) :
    0 ≤ tenderedCents payments ∧
      (hasMethod payments .credit → payments.length ≤ 1 ∧ tenderedCents payments = 0) ∧
      (totalCents < tenderedCents payments → hasMethod payments (.tender .cash)) ∧
      split.paidCents = min (tenderedCents payments) totalCents ∧
      split.debtCents = totalCents - split.paidCents ∧
      split.paymentStatus = paymentStatusOf split.paidCents totalCents ∧
      split.changeDueCents =
        if hasMethod payments (.tender .cash) ∧ split.paymentStatus = .paid then
          tenderedCents payments - totalCents
        else 0 := by
  simp only [splitTender, bind_eq_ok, throwIf_eq_ok, exists_const, pure_eq_ok] at h
  obtain ⟨hLength, hCredit, hCash, hNonneg, _, _, _, rfl⟩ := h
  refine ⟨by omega, fun hHas => ⟨?_, ?_⟩, fun hOver => ?_, rfl, rfl, rfl, rfl⟩
  · by_contra hLong
    exact hLength ⟨hHas, by omega⟩
  · by_contra hTendered
    exact hCredit ⟨hHas, hTendered⟩
  · by_contra hNone
    exact hCash ⟨hNone, hOver⟩

/-- The rows of a charge carry everything that was not `credit`, in the order of the request. -/
theorem amounts_toCanonicalChargePayments {catalog : Catalog} {payments : List ChargePaymentEntry}
    {canonical : List CanonicalPayment}
    (h : toCanonicalChargePayments catalog payments = .ok canonical) :
    canonical.map CanonicalPayment.amountCents =
      (payments.filter fun payment => payment.method ≠ .credit).map
        ChargePaymentEntry.amountCents := by
  induction payments generalizing canonical with
  | nil =>
      cases h
      rfl
  | cons entry rest ih =>
      cases hMethod : entry.method with
      | credit =>
          rw [toCanonicalChargePayments, hMethod] at h
          simpa [hMethod] using ih h
      | tender method =>
          rw [toCanonicalChargePayments, hMethod] at h
          simp only [bind_eq_ok, pure_eq_ok] at h
          obtain ⟨metadataJson, _, tail, hTail, rfl⟩ := h
          simpa [hMethod] using ih hTail

theorem filter_of_hasMethod_credit {payments : List ChargePaymentEntry}
    (h : hasMethod payments .credit = false) :
    (payments.filter fun payment => payment.method ≠ .credit) = payments := by
  rw [List.filter_eq_self]
  intro payment hMem
  have hAll := List.any_eq_false.mp h payment hMem
  simpa using hAll

/-- An accepted charge has rows for exactly what was tendered: a `credit` entry stands
alone and tenders nothing. -/
theorem sum_canonical_of_split {totalCents : Int} {customerId : Option String}
    {payments : List ChargePaymentEntry} {split : TenderSplit} {catalog : Catalog}
    {canonical : List CanonicalPayment}
    (hSplit : splitTender totalCents customerId payments = .ok split)
    (hCanonical : toCanonicalChargePayments catalog payments = .ok canonical) :
    (canonical.map CanonicalPayment.amountCents).sum = tenderedCents payments := by
  obtain ⟨_, hCredit, _⟩ := splitTender_spec hSplit
  rw [amounts_toCanonicalChargePayments hCanonical]
  cases hHas : hasMethod payments .credit with
  | false => rw [filter_of_hasMethod_credit hHas, tenderedCents]
  | true =>
      obtain ⟨hLength, hZero⟩ := hCredit hHas
      rw [hZero]
      match payments, hHas, hLength with
      | [entry], hHas, _ =>
          have hEntry : entry.method = .credit := by simpa [hasMethod] using hHas
          simp [hEntry, tenderedCents]

theorem payments_createPaymentRows (newPaymentId : Nat → String) (userId : Option String)
    (payments : List CanonicalPayment) :
    (createPaymentRows newPaymentId userId payments).map SalePayment.payment = payments := by
  rw [createPaymentRows, List.map_map]
  exact List.zipIdx_map_fst 0 payments

@[simp] theorem sum_createPaymentRows (newPaymentId : Nat → String) (userId : Option String)
    (payments : List CanonicalPayment) :
    ((createPaymentRows newPaymentId userId payments).map fun row => row.payment.amountCents).sum =
      (payments.map CanonicalPayment.amountCents).sum := by
  conv_rhs => rw [← payments_createPaymentRows newPaymentId userId payments, List.map_map]
  rfl

/-- The account of a sale and all the change its requests returned. -/
structure MoneyState where
  account : SaleAccount
  changeReturned : Int
  deriving DecidableEq

/-- One collection request, with what it reads from its surroundings. -/
structure CollectionRequest where
  context : MoneyContext
  channel : SaleChannel
  authMode : AddPaymentAuthMode
  dto : AddSalePaymentDto

/-- An accepted collection: the validators let the request through and the service
does not refuse it. -/
def collect (state : MoneyState) (request : CollectionRequest) : Option MoneyState :=
  if request.dto.IsValid then
    match executeAddPayment request.context request.channel request.authMode state.account
        request.dto with
    | .ok outcome => some ⟨outcome.account, state.changeReturned + outcome.changeDueCents⟩
    | .error _ => none
  else none

def afterCharge (outcome : MoneyOutcome) : MoneyState :=
  ⟨outcome.account, outcome.changeDueCents⟩

/-- The ledger of a confirmed sale. Change was returned only if nothing is owed, so
while something is owed the rows sum to what is paid. -/
structure LedgerInvariant (totalCents : Int) (state : MoneyState) : Prop where
  confirmed : state.account.status = .confirmed
  total_eq : state.account.totalCents = totalCents
  paid_add_debt : state.account.paidCents + state.account.debtCents = totalCents
  paid_nonneg : 0 ≤ state.account.paidCents
  debt_nonneg : 0 ≤ state.account.debtCents
  rows_eq : state.account.paidFromLedger = state.account.paidCents + state.changeReturned
  change_nonneg : 0 ≤ state.changeReturned
  change_settled : state.changeReturned ≠ 0 → state.account.debtCents = 0
  status_eq : state.account.paymentStatus =
    some (paymentStatusOf state.account.paidCents totalCents)

/-- What an accepted charge wrote. -/
theorem executeChargeDraft_spec {context : MoneyContext} {sale : Sale} {account : SaleAccount}
    {dto : ChargeSaleDto} {outcome : MoneyOutcome}
    (h : executeChargeDraft context sale account dto = .ok outcome) :
    ∃ payments split canonical,
      normalizeChargeRequestPayments dto = .ok payments ∧
      splitTender sale.previewTotals.totalCents sale.customerId payments = .ok split ∧
      toCanonicalChargePayments context.catalog payments = .ok canonical ∧
      outcome.created =
        createPaymentRows context.newPaymentId (some context.actorId) canonical ∧
      outcome.changeDueCents = split.changeDueCents ∧
      outcome.account.status = .confirmed ∧
      outcome.account.totalCents = sale.previewTotals.totalCents ∧
      outcome.account.paidCents = split.paidCents ∧
      outcome.account.debtCents = split.debtCents ∧
      outcome.account.paymentStatus = some split.paymentStatus ∧
      outcome.account.payments = account.payments ++ outcome.created := by
  simp only [executeChargeDraft, persistChargeConfirmation, bind_eq_ok, throwIf_eq_ok, exists_const,
    pure_eq_ok] at h
  obtain ⟨payments, hPayments, _, split, hSplit, canonical, hCanonical, _, ⟨_, rfl⟩, rfl⟩ := h
  exact ⟨payments, split, canonical, hPayments, hSplit, hCanonical, rfl, rfl, rfl, rfl, rfl,
    rfl, rfl, rfl⟩

/-- The charge of a draft opens the ledger. -/
theorem ledgerInvariant_afterCharge {context : MoneyContext} {sale : Sale} {dto : ChargeSaleDto}
    {outcome : MoneyOutcome} (h : executeChargeDraft context sale .draft dto = .ok outcome) :
    LedgerInvariant sale.previewTotals.totalCents (afterCharge outcome) := by
  obtain ⟨payments, split, canonical, _, hSplit, hCanonical, hCreated, hChange, hStatus, hTotal,
    hPaid, hDebt, hPaymentStatus, hRows⟩ := executeChargeDraft_spec h
  have hSum := sum_canonical_of_split hSplit hCanonical
  obtain ⟨hTendered, _, hCash, hSplitPaid, hSplitDebt, hSplitStatus, hSplitChange⟩ :=
    splitTender_spec hSplit
  have hTotalNonneg := sale.previewTotals_totalCents_nonneg
  -- change is returned exactly when more than the total was tendered
  have hChangeEq : split.changeDueCents = tenderedCents payments - split.paidCents := by
    rw [hSplitChange]
    split_ifs with hBoth
    · have hPaidAll : split.paidCents = sale.previewTotals.totalCents := by
        by_contra hne
        have hNot := hBoth.2
        rw [hSplitStatus, paymentStatusOf, if_neg hne] at hNot
        split_ifs at hNot
      omega
    · by_contra hne
      have hOver : sale.previewTotals.totalCents < tenderedCents payments := by omega
      refine hBoth ⟨hCash hOver, ?_⟩
      rw [hSplitStatus, paymentStatusOf, if_pos (by omega)]
  have hLedger : outcome.account.paidFromLedger = tenderedCents payments := by
    rw [SaleAccount.paidFromLedger, hRows, hCreated]
    simpa [SaleAccount.draft] using hSum
  exact {
    confirmed := hStatus
    total_eq := hTotal
    paid_add_debt := by simp only [afterCharge]; omega
    paid_nonneg := by simp only [afterCharge]; omega
    debt_nonneg := by simp only [afterCharge]; omega
    rows_eq := by simp only [afterCharge]; omega
    change_nonneg := by simp only [afterCharge]; omega
    change_settled := by simp only [afterCharge]; omega
    status_eq := by simp only [afterCharge]; rw [hPaymentStatus, hSplitStatus, hPaid] }

/-- A validated collection has an amount, and every amount of it is positive. -/
theorem pos_of_isValid {dto : AddSalePaymentDto} {payments : List CollectionPaymentEntry}
    (hValid : dto.IsValid) (h : normalizeCollectionRequestPayments dto = .ok payments) :
    payments ≠ [] ∧ ∀ payment ∈ payments, 1 ≤ payment.amountCents := by
  obtain ⟨hAmount, hEntries⟩ := hValid
  simp only [normalizeCollectionRequestPayments, bind_eq_ok, throwIf_eq_ok, exists_const] at h
  obtain ⟨_, h⟩ := h
  split at h
  · next entries hPayments =>
      simp only [bind_eq_ok, throwIf_eq_ok, exists_const, pure_eq_ok] at h
      obtain ⟨hNonempty, rfl⟩ := h
      exact ⟨hNonempty, (hEntries entries hPayments).2⟩
  · split at h
    · next method amountCents _ hSome =>
        simp only [pure_eq_ok] at h
        subst h
        simpa using hAmount amountCents hSome
    · cases h

theorem batch_pos_of_isValid {dto : AddSalePaymentDto} {payments : List CollectionPaymentEntry}
    (hValid : dto.IsValid) (h : normalizeCollectionRequestPayments dto = .ok payments) :
    0 < (payments.map CollectionPaymentEntry.amountCents).sum := by
  obtain ⟨hNonempty, hPos⟩ := pos_of_isValid hValid h
  refine List.sum_pos _ (fun amount hMem => ?_) (by simpa using hNonempty)
  obtain ⟨payment, hPayment, rfl⟩ := List.mem_map.mp hMem
  exact Int.lt_of_lt_of_le Int.zero_lt_one (hPos payment hPayment)

/-- The rows of a collection carry its amounts, whoever it runs for. -/
theorem amounts_paymentsToPersist {catalog : Catalog} {channel : SaleChannel}
    {authMode : AddPaymentAuthMode} {payments : List CollectionPaymentEntry}
    {canonical : List CanonicalPayment}
    (h : paymentsToPersist catalog channel authMode payments = .ok canonical) :
    canonical.map CanonicalPayment.amountCents =
      payments.map CollectionPaymentEntry.amountCents := by
  cases authMode with
  | reviewer =>
      cases h
      simp [List.map_map, Function.comp_def]
  | owner =>
      rw [paymentsToPersist] at h
      induction payments generalizing canonical with
      | nil =>
          cases h
          rfl
      | cons payment rest ih =>
          simp only [List.mapM_cons, bind_eq_ok, pure_eq_ok] at h
          obtain ⟨first, ⟨metadataJson, _, rfl⟩, tail, hTail, rfl⟩ := h
          rw [List.map_cons, List.map_cons, ih hTail]

/-- A collection appends its rows and returns no change. -/
theorem executeAddPayment_rows {context : MoneyContext} {channel : SaleChannel}
    {authMode : AddPaymentAuthMode} {account : SaleAccount} {dto : AddSalePaymentDto}
    {outcome : MoneyOutcome}
    (h : executeAddPayment context channel authMode account dto = .ok outcome) :
    outcome.account.payments = account.payments ++ outcome.created ∧
      outcome.changeDueCents = 0 := by
  simp only [executeAddPayment, persistCollectedPayments, bind_eq_ok, pure_eq_ok] at h
  obtain ⟨_, _, _, _, _, _, _, ⟨_, _, _, _, _, _, rfl⟩, rfl⟩ := h
  exact ⟨rfl, rfl⟩

/-- What an accepted collection did: something was owed, a positive batch no larger than
that was added to what is paid, and no change was returned. -/
theorem collect_spec {state next : MoneyState} {request : CollectionRequest}
    (h : collect state request = some next) :
    ∃ batch : Int, 0 < batch ∧ state.account.paidFromLedger < state.account.totalCents ∧
      state.account.paidFromLedger + batch ≤ state.account.totalCents ∧
      next.changeReturned = state.changeReturned ∧
      next.account.status = .confirmed ∧
      next.account.totalCents = state.account.totalCents ∧
      next.account.paidFromLedger = state.account.paidFromLedger + batch ∧
      next.account.paidCents = state.account.paidFromLedger + batch ∧
      next.account.debtCents = state.account.totalCents - next.account.paidCents ∧
      next.account.paymentStatus =
        some (paymentStatusOf next.account.paidCents state.account.totalCents) := by
  unfold collect at h
  split at h
  · next hValid =>
      split at h
      · next outcome hOutcome =>
          cases h
          simp only [executeAddPayment, persistCollectedPayments, bind_eq_ok, throwIf_eq_ok, exists_const,
            pure_eq_ok, sum_createPaymentRows] at hOutcome
          obtain ⟨payments, hPayments, hStatus, canonical, hCanonical, _,
            ⟨_, hOwed, hFits, rfl⟩, rfl⟩ := hOutcome
          have hBatch := batch_pos_of_isValid hValid hPayments
          rw [← amounts_paymentsToPersist hCanonical] at hBatch
          refine ⟨_, hBatch, by omega, by omega, by simp, ?_, rfl, ?_, rfl, rfl, rfl⟩
          · simpa using hStatus
          · simp [SaleAccount.paidFromLedger]
      · cases h
  · cases h

theorem ledgerInvariant_collect {totalCents : Int} {state next : MoneyState}
    {request : CollectionRequest} (hInv : LedgerInvariant totalCents state)
    (h : collect state request = some next) : LedgerInvariant totalCents next := by
  obtain ⟨batch, hBatch, hOwed, hFits, hChange, hStatus, hTotal, hRows, hPaid, hDebt,
    hPaymentStatus⟩ := collect_spec h
  have hTotalEq := hInv.total_eq
  have hSplit := hInv.paid_add_debt
  have hRowsEq := hInv.rows_eq
  have hPaidNonneg := hInv.paid_nonneg
  have hChangeNonneg := hInv.change_nonneg
  have hSettled := hInv.change_settled
  exact {
    confirmed := hStatus
    total_eq := by omega
    paid_add_debt := by omega
    paid_nonneg := by omega
    debt_nonneg := by omega
    rows_eq := by omega
    change_nonneg := by omega
    change_settled := by omega
    status_eq := by rw [hPaymentStatus, hTotalEq] }

/-- On a settled sale the rows already reach the total, and every collection is refused. -/
theorem collect_eq_none_of_settled {totalCents : Int} {state : MoneyState}
    (hInv : LedgerInvariant totalCents state) (hSettled : state.account.debtCents = 0)
    (request : CollectionRequest) : collect state request = none := by
  cases h : collect state request with
  | none => rfl
  | some next =>
      obtain ⟨batch, _, hOwed, _⟩ := collect_spec h
      have hTotalEq := hInv.total_eq
      have hSplit := hInv.paid_add_debt
      have hRowsEq := hInv.rows_eq
      have hChangeNonneg := hInv.change_nonneg
      omega

/-- The ledger as a reader of the account sees it: paid and owed make up the total, the
rows sum to what is paid plus all the change returned, and the payment status says
which case it is. -/
structure PaymentLedgerHolds (state : MoneyState) : Prop where
  paid_add_debt :
    state.account.paidCents + state.account.debtCents = state.account.totalCents
  paid_nonneg : 0 ≤ state.account.paidCents
  paid_le_total : state.account.paidCents ≤ state.account.totalCents
  rows_eq : state.account.paidFromLedger = state.account.paidCents + state.changeReturned
  paid_iff : state.account.paymentStatus = some .paid ↔
    state.account.paidCents = state.account.totalCents
  partialPaid_iff : state.account.paymentStatus = some .partialPaid ↔
    0 < state.account.paidCents ∧ state.account.paidCents < state.account.totalCents
  credit_iff : state.account.paymentStatus = some .credit ↔
    state.account.paidCents = 0 ∧ 0 < state.account.debtCents

theorem LedgerInvariant.holds {totalCents : Int} {state : MoneyState}
    (hInv : LedgerInvariant totalCents state) : PaymentLedgerHolds state := by
  have hTotalEq := hInv.total_eq
  have hSplit := hInv.paid_add_debt
  have hPaidNonneg := hInv.paid_nonneg
  have hDebtNonneg := hInv.debt_nonneg
  have hStatus := hInv.status_eq
  refine ⟨by omega, hPaidNonneg, by omega, hInv.rows_eq, ?_, ?_, ?_⟩
  all_goals
    rw [hStatus, paymentStatusOf]
    split_ifs
    all_goals
      simp only [Option.some.injEq, reduceCtorEq, true_iff, false_iff]
      omega

/-- From the accepted charge of a draft on, after any sequence of accepted collections:
the ledger holds, only the charge can have returned change and then nothing is owed,
a later batch that returned change would bring the debt to zero, and a settled sale
accepts no batch. -/
theorem payment_ledger_of_charge_and_collections (context : MoneyContext) (sale : Sale)
    (dto : ChargeSaleDto) {outcome : MoneyOutcome} {requests : List CollectionRequest}
    {state : MoneyState} (hCharge : executeChargeDraft context sale .draft dto = .ok outcome)
    (run : Runs (Fires collect) (afterCharge outcome) requests state) :
    PaymentLedgerHolds state ∧
      state.account.totalCents = sale.previewTotals.totalCents ∧
      (outcome.changeDueCents ≠ 0 → outcome.account.debtCents = 0) ∧
      (∀ request next, collect state request = some next →
        state.account.debtCents ≠ 0 ∧
          (next.changeReturned ≠ state.changeReturned → next.account.debtCents = 0)) ∧
      (state.account.debtCents = 0 → ∀ request, collect state request = none) := by
  have hStart := ledgerInvariant_afterCharge hCharge
  have hInv : LedgerInvariant sale.previewTotals.totalCents state :=
    run.invariant (fun _ _ _ hInv hStep => ledgerInvariant_collect hInv hStep) hStart
  refine ⟨hInv.holds, hInv.total_eq, hStart.change_settled, ?_,
    fun hSettled => collect_eq_none_of_settled hInv hSettled⟩
  intro request next hNext
  refine ⟨fun hSettled => ?_, fun hChange => ?_⟩
  · rw [collect_eq_none_of_settled hInv hSettled] at hNext
    cases hNext
  · obtain ⟨_, _, _, _, hSame, _⟩ := collect_spec hNext
    exact False.elim (hChange hSame)

section

/-- A draft with one line of two units at 500 cents, for a known customer. -/
def twoUnitDraft : Sale :=
  { Sale.fresh "sale" "cashier" with
    customerId := some "customer"
    items := [SaleItem.fresh
      ⟨"line", "sale", "product", none, "Product", none, none, 2, 500, "MXN"⟩ Quantity.two] }

def exampleContext : MoneyContext :=
  ⟨fun _ => none, fun index => if index = 0 then "first" else "next", "cashier"⟩

def partialCharge : ChargeSaleDto :=
  ⟨none, none, none, some [⟨.tender .cash, 300, none, none⟩]⟩

def remainderCollection : CollectionRequest :=
  ⟨exampleContext, .pos, .owner, ⟨some .transfer, some 700, none, none, none⟩⟩

theorem payment_ledger_of_partial_charge_and_remainder :
    ∃ outcome state, executeChargeDraft exampleContext twoUnitDraft .draft partialCharge =
        .ok outcome ∧
      exec collect (afterCharge outcome) [remainderCollection] = some state ∧
      PaymentLedgerHolds state ∧ collect state remainderCollection = none := by
  refine ⟨_, _, rfl, rfl, ?_⟩
  have hLedger := payment_ledger_of_charge_and_collections exampleContext twoUnitDraft
    partialCharge rfl
    (runs_of_exec (show exec collect _ [remainderCollection] = some _ from rfl))
  exact ⟨hLedger.1, hLedger.2.2.2.2 rfl _⟩

end

end Houndfe.Sales
