import Houndfe.Cash.Counting
import Houndfe.Sales.PaymentLedger

/-! The change of a request against the cash it tendered, and the ledger movements
planned for it. -/

namespace Houndfe.Sales

open Cash PaymentMethods Transition

/-- A money request of either kind. -/
inductive MoneyRequest where
  | charge (context : MoneyContext) (sale : Sale) (dto : ChargeSaleDto)
  | collection (request : CollectionRequest)

/-- The outcome of a request that its validators and the service accept. -/
def MoneyRequest.accept (account : SaleAccount) : MoneyRequest → Option MoneyOutcome
  | .charge context sale dto =>
      if dto.IsValid then (executeChargeDraft context sale account dto).toOption else none
  | .collection request =>
      if request.dto.IsValid then
        (executeAddPayment request.context request.channel request.authMode account
          request.dto).toOption
      else none

/-- The account after an accepted request. -/
def settleRequest (account : SaleAccount) (request : MoneyRequest) : Option SaleAccount :=
  (request.accept account).map MoneyOutcome.account

/-- The payments of an outcome as they are handed to the cash ledger. -/
def ledgerPayments (rows : List SalePayment) : List CashLedgerPayment :=
  rows.map fun row => ⟨row.id, row.payment.method, row.payment.amountCents,
    row.payment.metadataJson⟩

def sumAmounts (payments : List CashLedgerPayment) : Int :=
  (payments.map CashLedgerPayment.amountCents).sum

def cashTendered (payments : List CashLedgerPayment) : Int :=
  sumAmounts (payments.filter fun payment => payment.method = .cash)

def nonCashTendered (payments : List CashLedgerPayment) : Int :=
  sumAmounts (payments.filter fun payment => !decide (payment.method = .cash))

/-- The channel a payment is tendered on. -/
def tenderKey (payment : CashLedgerPayment) : Option String :=
  (resolveCashChannel payment.method (readCatalogIdentity payment.metadataJson)).toOption.map
    CashChannel.channelKey

/-- What was tendered on one channel. -/
def tenderedOn (key : String) (payments : List CashLedgerPayment) : Int :=
  sumAmounts (payments.filter fun payment => tenderKey payment = some key)

/-- The change of a request is cash: it is covered by the request's cash tenders, and the
planned movements leave every channel between nothing and what it tendered and sum to
what the sale was paid. -/
structure ChangeIsCash (account : SaleAccount) (outcome : MoneyOutcome)
    (planned : List CashMovement) : Prop where
  change_le_cash : outcome.changeDueCents ≤ cashTendered (ledgerPayments outcome.created)
  channel_nonneg : ∀ key, 0 ≤ channelSum key planned
  channel_le_tendered : ∀ key,
    channelSum key planned ≤ tenderedOn key (ledgerPayments outcome.created)
  sum_eq_applied : (planned.map CashMovement.deltaCents).sum =
    outcome.account.paidCents - account.paidCents

theorem cashTendered_add_nonCashTendered (payments : List CashLedgerPayment) :
    cashTendered payments + nonCashTendered payments = sumAmounts payments := by
  induction payments with
  | nil => rfl
  | cons payment rest ih =>
      simp only [cashTendered, nonCashTendered, sumAmounts] at ih ⊢
      by_cases hCash : payment.method = .cash <;> simp [hCash] <;> omega

/-- What the tender movements say of the payments they were planned for. -/
theorem planTenders_spec {sessionId : String} {payments : List CashLedgerPayment}
    {tenders : List CashMovement} (h : planTenders sessionId payments = .ok tenders) :
    (∀ payment ∈ payments, 0 ≤ payment.amountCents) ∧
      (tenders.map CashMovement.deltaCents).sum = sumAmounts payments ∧
      (∀ key, channelSum key tenders = tenderedOn key payments) ∧
      tenderedOn pooledCashChannel.channelKey payments = cashTendered payments := by
  induction payments generalizing tenders with
  | nil =>
      cases h
      exact ⟨by simp, rfl, fun _ => rfl, rfl⟩
  | cons payment rest ih =>
      simp only [planTenders, bind_eq_ok, pure_eq_ok] at h
      obtain ⟨tender, hTender, tail, hTail, rfl⟩ := h
      obtain ⟨hNonneg, hSum, hChannels, hDrawer⟩ := ih hTail
      have hOn : ∀ key, tenderedOn key (payment :: rest) =
          (if tenderKey payment = some key then payment.amountCents else 0) +
            tenderedOn key rest := by
        intro key
        by_cases hKey : tenderKey payment = some key <;> simp [tenderedOn, sumAmounts, hKey]
      have hCashSplit : cashTendered (payment :: rest) =
          (if payment.method = .cash then payment.amountCents else 0) + cashTendered rest := by
        by_cases hCash : payment.method = .cash <;> simp [cashTendered, sumAmounts, hCash]
      rcases planTender_spec hTender with ⟨hZero, rfl⟩ |
        ⟨movement, channel, rfl, _, hChannel, hMovement, hDelta, hAmount, _⟩
      · refine ⟨?_, ?_, ?_, ?_⟩
        · intro other hOther
          rcases List.mem_cons.mp hOther with rfl | hOther
          · exact hZero.ge
          · exact hNonneg other hOther
        · simpa [sumAmounts, hZero] using hSum
        · intro key
          simp [hOn, hZero, hChannels]
        · simp [hOn, hCashSplit, hZero, hDrawer]
      · have hKey : tenderKey payment = some movement.channelKey := by
          rw [tenderKey, hChannel, ← hMovement]
          rfl
        refine ⟨?_, ?_, ?_, ?_⟩
        · intro other hOther
          rcases List.mem_cons.mp hOther with rfl | hOther
          · exact hAmount
          · exact hNonneg other hOther
        · simp only [sumAmounts] at hSum
          simp [sumAmounts, hSum, hDelta]
        · intro key
          rw [Option.toList_some, channelSum_append, hOn, hChannels, hKey]
          by_cases hSame : movement.channelKey = key
          · subst hSame
            rw [channelSum_singleton_self, if_pos rfl, hDelta]
          · rw [channelSum_singleton_of_ne hSame, if_neg (by simpa using hSame)]
        · obtain ⟨hMethod, hPooled⟩ := resolveCashChannel_spec hChannel
          rw [hOn, hCashSplit, hDrawer, hKey]
          by_cases hCash : payment.method = .cash
          · have hPool : channel = pooledCashChannel := by
              simpa [CashChannel.Pooled, hMethod, hCash] using hPooled
            have hMovementKey : movement.channelKey = pooledCashChannel.channelKey :=
              congrArg CashChannel.channelKey (hMovement.trans hPool)
            rw [hMovementKey, if_pos rfl, if_pos hCash]
          · have hNotPool : movement.channelKey ≠ pooledCashChannel.channelKey := by
              have hKeyEq : movement.channelKey = channel.channelKey :=
                congrArg CashChannel.channelKey hMovement
              rw [hKeyEq]
              simpa [CashChannel.Pooled, hMethod, hCash] using hPooled
            rw [if_neg (by simpa using hNotPool), if_neg hCash]

/-- The plan of a request: every channel keeps its tenders, the drawer less the change. -/
theorem planLedgerPayments_spec {sessionId saleId : String} {payments : List CashLedgerPayment}
    {changeDueCents : Int} {planned : List CashMovement}
    (h : planLedgerPayments sessionId saleId payments changeDueCents = .ok planned) :
    (∀ payment ∈ payments, 0 ≤ payment.amountCents) ∧ 0 ≤ changeDueCents ∧
      (planned.map CashMovement.deltaCents).sum = sumAmounts payments - changeDueCents ∧
      (∀ key, channelSum key planned = tenderedOn key payments -
        if key = pooledCashChannel.channelKey then changeDueCents else 0) ∧
      tenderedOn pooledCashChannel.channelKey payments = cashTendered payments := by
  simp only [planLedgerPayments, bind_eq_ok, pure_eq_ok] at h
  obtain ⟨tenders, hTenders, change, hChange, rfl⟩ := h
  obtain ⟨hNonneg, hSum, hChannels, hDrawer⟩ := planTenders_spec hTenders
  obtain ⟨hChangeNonneg, hChange⟩ := planChangeMovement_spec hChange
  refine ⟨hNonneg, hChangeNonneg, ?_, ?_, hDrawer⟩
  · rcases hChange with ⟨rfl, rfl⟩ | ⟨movement, rfl, _, _, hDelta, _⟩
    · simpa using hSum
    · simp [hSum, hDelta, sub_eq_add_neg]
  · intro key
    rcases hChange with ⟨rfl, rfl⟩ | ⟨movement, rfl, _, hChannel, hDelta, _⟩
    · simp [hChannels]
    · have hKey : movement.channelKey = pooledCashChannel.channelKey :=
        congrArg CashChannel.channelKey hChannel
      rw [Option.toList_some, channelSum_append, hChannels]
      by_cases hSame : key = pooledCashChannel.channelKey
      · rw [hSame, ← hKey, channelSum_singleton_self, hDelta, if_pos rfl, sub_eq_add_neg]
      · rw [if_neg hSame, channelSum_singleton_of_ne (by rw [hKey]; exact Ne.symm hSame)]
        simp

theorem sumAmounts_ledgerPayments (rows : List SalePayment) :
    sumAmounts (ledgerPayments rows) = (rows.map fun row => row.payment.amountCents).sum := by
  simp [sumAmounts, ledgerPayments, Function.comp_def]

theorem sumAmounts_nonneg {payments : List CashLedgerPayment}
    (h : ∀ payment ∈ payments, 0 ≤ payment.amountCents) : 0 ≤ sumAmounts payments :=
  List.sum_nonneg (by simpa using h)

theorem cashTendered_nonneg {payments : List CashLedgerPayment}
    (h : ∀ payment ∈ payments, 0 ≤ payment.amountCents) : 0 ≤ cashTendered payments :=
  sumAmounts_nonneg fun payment hMem => h payment (List.mem_of_mem_filter hMem)

theorem tenderedOn_nonneg (key : String) {payments : List CashLedgerPayment}
    (h : ∀ payment ∈ payments, 0 ≤ payment.amountCents) : 0 ≤ tenderedOn key payments :=
  sumAmounts_nonneg fun payment hMem => h payment (List.mem_of_mem_filter hMem)

/-- An account that requests reach from a draft is a draft still or carries the ledger. -/
def AccountInvariant (account : SaleAccount) : Prop :=
  account = .draft ∨
    ∃ totalCents changeReturned, 0 ≤ totalCents ∧
      LedgerInvariant totalCents ⟨account, changeReturned⟩

/-- An accepted request tendered something of which the change was returned, and applied
the rest; what it applied is at most the total. -/
theorem accept_spec {account : SaleAccount} {request : MoneyRequest} {outcome : MoneyOutcome}
    (hInv : AccountInvariant account) (h : request.accept account = some outcome) :
    AccountInvariant outcome.account ∧
      sumAmounts (ledgerPayments outcome.created) - outcome.changeDueCents =
        outcome.account.paidCents - account.paidCents ∧
      0 ≤ account.paidCents ∧ outcome.account.paidCents ≤ outcome.account.totalCents ∧
      (outcome.changeDueCents ≠ 0 → account.paidCents = 0 ∧
        outcome.account.paidCents = outcome.account.totalCents) := by
  cases request with
  | charge context sale dto =>
      simp only [MoneyRequest.accept] at h
      split at h
      · cases hCharge : executeChargeDraft context sale account dto with
        | error error =>
            rw [hCharge] at h
            cases h
        | ok charged =>
            rw [hCharge] at h
            cases h
            have hDraft : account = .draft := by
              rcases hInv with hDraft | ⟨_, _, _, hLedger⟩
              · exact hDraft
              · have hConfirmed := hLedger.confirmed
                simp only [executeChargeDraft, bind_eq_ok, throwIf_eq_ok] at hCharge
                obtain ⟨_, _, _, hStatus, _⟩ := hCharge
                simp_all
            subst hDraft
            have hLedger := ledgerInvariant_afterCharge hCharge
            have hSplit := hLedger.paid_add_debt
            have hRows := hLedger.rows_eq
            have hTotal := hLedger.total_eq
            have hDebt := hLedger.debt_nonneg
            have hSettled := hLedger.change_settled
            obtain ⟨_, _, _, _, _, _, _, _, _, _, _, _, _, hPayments⟩ :=
              executeChargeDraft_spec hCharge
            simp only [afterCharge] at hSplit hRows hTotal hDebt hSettled
            rw [SaleAccount.paidFromLedger, hPayments] at hRows
            simp only [SaleAccount.draft, List.nil_append] at hRows
            rw [← sumAmounts_ledgerPayments] at hRows
            have hZero : SaleAccount.draft.paidCents = 0 := rfl
            refine ⟨Or.inr ⟨_, _, sale.previewTotals_totalCents_nonneg, hLedger⟩, ?_, ?_, ?_,
              fun hChange => ⟨hZero, ?_⟩⟩
            · omega
            · omega
            · omega
            · have hPaidAll := hSettled hChange
              omega
      · cases h
  | collection request =>
      simp only [MoneyRequest.accept] at h
      split at h
      · next hValid =>
          cases hCollect : executeAddPayment request.context request.channel request.authMode
              account request.dto with
          | error error =>
              rw [hCollect] at h
              cases h
          | ok collected =>
              rw [hCollect] at h
              cases h
              have hStep : ∀ changeReturned, collect ⟨account, changeReturned⟩ request =
                  some ⟨outcome.account, changeReturned + outcome.changeDueCents⟩ := by
                intro changeReturned
                simp [collect, hValid, hCollect]
              rcases hInv with rfl | ⟨totalCents, changeReturned, hTotalNonneg, hLedger⟩
              · obtain ⟨_, _, hOwed, _⟩ := collect_spec (hStep 0)
                simp [SaleAccount.paidFromLedger, SaleAccount.draft] at hOwed
              · obtain ⟨batch, hBatch, hOwed, hFits, hChange, _, hSameTotal, hRows, hPaid, _⟩ :=
                  collect_spec (hStep changeReturned)
                have hNext := ledgerInvariant_collect hLedger (hStep changeReturned)
                have hRowsEq := hLedger.rows_eq
                have hSplit := hLedger.paid_add_debt
                have hTotal := hLedger.total_eq
                have hNonneg := hLedger.paid_nonneg
                have hSettled := hLedger.change_settled
                have hReturned := hLedger.change_nonneg
                obtain ⟨hPayments, hNoChange⟩ := executeAddPayment_rows hCollect
                have hCreated : sumAmounts (ledgerPayments outcome.created) = batch := by
                  simp only [SaleAccount.paidFromLedger, hPayments, List.map_append,
                    List.sum_append] at hRows
                  rw [sumAmounts_ledgerPayments]
                  omega
                simp only at hRowsEq hSplit hTotal hNonneg hSettled hReturned
                simp only at hPaid hSameTotal hOwed hFits
                exact ⟨Or.inr ⟨_, _, hTotalNonneg, hNext⟩, by omega, hNonneg, by omega,
                  fun hSome => False.elim (hSome hNoChange)⟩
      · cases h

theorem accountInvariant_settleRequest {account next : SaleAccount} {request : MoneyRequest}
    (hInv : AccountInvariant account) (h : settleRequest account request = some next) :
    AccountInvariant next := by
  obtain ⟨outcome, hOutcome, rfl⟩ := Option.map_eq_some_iff.mp h
  exact (accept_spec hInv hOutcome).1

/-- For every accepted request on an account that requests reach from a draft, and the
movements planned for it: the change is cash exactly when the request's tenders other
than cash do not exceed the sale's total. -/
theorem changeIsCash_iff {requests : List MoneyRequest} {account : SaleAccount}
    (run : Runs (Fires settleRequest) .draft requests account) (request : MoneyRequest)
    {outcome : MoneyOutcome} (hAccept : request.accept account = some outcome)
    (sessionId saleId : String) {planned : List CashMovement}
    (hPlan : planLedgerPayments sessionId saleId (ledgerPayments outcome.created)
      outcome.changeDueCents = .ok planned) :
    ChangeIsCash account outcome planned ↔
      nonCashTendered (ledgerPayments outcome.created) ≤ outcome.account.totalCents := by
  have hInv : AccountInvariant account :=
    run.invariant (fun _ _ _ hInv hStep => accountInvariant_settleRequest hInv hStep)
      (Or.inl rfl)
  obtain ⟨_, hApplied, hPaidNonneg, hPaidLe, hSettled⟩ := accept_spec hInv hAccept
  obtain ⟨hNonneg, hChangeNonneg, hSum, hChannels, hDrawer⟩ := planLedgerPayments_spec hPlan
  have hSplit := cashTendered_add_nonCashTendered (ledgerPayments outcome.created)
  have hCashNonneg := cashTendered_nonneg hNonneg
  have hCover : outcome.changeDueCents ≤ cashTendered (ledgerPayments outcome.created) ↔
      nonCashTendered (ledgerPayments outcome.created) ≤ outcome.account.totalCents := by
    by_cases hChange : outcome.changeDueCents = 0
    · constructor <;> intro _ <;> omega
    · obtain ⟨hBefore, hAfter⟩ := hSettled hChange
      constructor <;> intro _ <;> omega
  rw [← hCover]
  refine ⟨ChangeIsCash.change_le_cash, fun hCovered => ⟨hCovered, ?_, ?_, ?_⟩⟩
  · intro key
    have hOn := tenderedOn_nonneg key hNonneg
    rw [hChannels]
    split_ifs with hKey
    · rw [hKey, hDrawer]
      omega
    · omega
  · intro key
    rw [hChannels]
    split_ifs <;> omega
  · rw [hSum, hApplied]

section

/-- A draft whose one unit costs 1000 cents. -/
def thousandCentDraft : Sale :=
  { Sale.fresh "sale" "cashier" with
    items := [SaleItem.fresh
      ⟨"line", "sale", "product", none, "Product", none, none, 1, 1000, "MXN"⟩ Quantity.one] }

def twoTenderCharge (cardCents cashCents : Int) : MoneyRequest :=
  .charge ⟨fun _ => none, fun index => if index = 0 then "card" else "cash", "cashier"⟩
    thousandCentDraft ⟨none, none, none,
      some [⟨.tender .cardDebit, cardCents, none, none⟩, ⟨.tender .cash, cashCents, none, none⟩]⟩

/-- A card for part of the total and too much cash: the change comes out of the cash. -/
theorem changeIsCash_of_part_on_card :
    ∃ outcome planned, (twoTenderCharge 600 500).accept .draft = some outcome ∧
      planLedgerPayments "session" "sale" (ledgerPayments outcome.created)
        outcome.changeDueCents = .ok planned ∧
      ChangeIsCash .draft outcome planned := by
  refine ⟨_, _, rfl, rfl, ?_⟩
  exact (changeIsCash_iff (Runs.zero _) (twoTenderCharge 600 500) rfl "session" "sale" rfl).mpr
    (by decide)

/-- A card charged beyond the total next to one cent of cash is accepted, and the change
takes 500 cents out of the drawer that nobody put there. -/
theorem change_exceeds_cash_of_overcharged_card :
    ∃ outcome planned, (twoTenderCharge 1500 1).accept .draft = some outcome ∧
      planLedgerPayments "session" "sale" (ledgerPayments outcome.created)
        outcome.changeDueCents = .ok planned ∧
      outcome.changeDueCents = 501 ∧ cashTendered (ledgerPayments outcome.created) = 1 ∧
      channelSum pooledCashChannel.channelKey planned = -500 ∧
      ¬ ChangeIsCash .draft outcome planned := by
  refine ⟨_, _, rfl, rfl, rfl, rfl, rfl, fun hCash => ?_⟩
  exact absurd hCash.change_le_cash (by decide)

end

end Houndfe.Sales
