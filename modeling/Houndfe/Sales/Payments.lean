import Houndfe.PaymentMethods.Catalog
import Houndfe.Sales.Sale

/-! The money part of charging a draft and of collecting later payments: request
shapes, the tender split and the payment rows. -/

namespace Houndfe.Sales

open PaymentMethods

/-- A method a charge accepts: a tender, or `credit`, which tenders nothing. -/
inductive ChargeMethod where
  | tender (method : TenderMethod)
  | credit
  deriving DecidableEq, Repr

structure ChargePaymentEntry where
  method : ChargeMethod
  amountCents : Int
  reference : Option String
  paymentMethodId : Option String
  deriving DecidableEq

/-- The payment fields of a charge request. -/
structure ChargeSaleDto where
  method : Option ChargeMethod
  amountCents : Option Int
  paymentMethodId : Option String
  payments : Option (List ChargePaymentEntry)
  deriving DecidableEq

/-- What the request validator lets through. -/
def ChargeSaleDto.IsValid (dto : ChargeSaleDto) : Prop :=
  (∀ amount ∈ dto.amountCents, 0 ≤ amount) ∧
    ∀ entries ∈ dto.payments, entries.length ≤ 5 ∧ ∀ entry ∈ entries, 0 ≤ entry.amountCents

structure CollectionPaymentEntry where
  method : TenderMethod
  amountCents : Int
  reference : Option String
  paymentMethodId : Option String
  deriving DecidableEq

/-- The payment fields of a collection request. -/
structure AddSalePaymentDto where
  method : Option TenderMethod
  amountCents : Option Int
  reference : Option String
  paymentMethodId : Option String
  payments : Option (List CollectionPaymentEntry)
  deriving DecidableEq

/-- What the request validators let through. The receipt reviewer's own request
has the same bound on its one amount. -/
def AddSalePaymentDto.IsValid (dto : AddSalePaymentDto) : Prop :=
  (∀ amount ∈ dto.amountCents, 1 ≤ amount) ∧
    ∀ entries ∈ dto.payments, entries.length ≤ 5 ∧ ∀ entry ∈ entries, 1 ≤ entry.amountCents

instance (dto : ChargeSaleDto) : Decidable dto.IsValid := by
  unfold ChargeSaleDto.IsValid
  infer_instance

instance (dto : AddSalePaymentDto) : Decidable dto.IsValid := by
  unfold AddSalePaymentDto.IsValid
  infer_instance

/-- A payment as it is handed to the repository. -/
structure CanonicalPayment where
  method : TenderMethod
  amountCents : Int
  reference : Option String
  metadataJson : Option PaymentMetadata
  deriving DecidableEq

structure SalePayment where
  id : String
  payment : CanonicalPayment
  userId : Option String
  deriving DecidableEq

/-- The money columns of a sale row, and its payment rows. -/
structure SaleAccount where
  status : SaleStatus
  subtotalCents : Int
  discountCents : Int
  totalCents : Int
  paidCents : Int
  debtCents : Int
  changeDueCents : Int
  paymentStatus : Option SalePaymentStatus
  payments : List SalePayment
  deriving DecidableEq

/-- A draft has no payment and its money columns have their defaults. -/
def SaleAccount.draft : SaleAccount :=
  ⟨.draft, 0, 0, 0, 0, 0, 0, none, []⟩

/-- `SUM(amountCents)` over the payment rows. -/
def SaleAccount.paidFromLedger (account : SaleAccount) : Int :=
  (account.payments.map fun row => row.payment.amountCents).sum

def normalizeChargeRequestPayments (dto : ChargeSaleDto) :
    Except DomainError (List ChargePaymentEntry) := do
  throwIf ((dto.method ≠ none ∨ dto.amountCents ≠ none) ∧ dto.payments ≠ none)
    (ruleCode "AMBIGUOUS_PAYMENT_SHAPE")
  match dto.payments with
  | some entries => do
      throwIf (5 < entries.length) (ruleCode "TOO_MANY_PAYMENTS")
      throwIf (∃ entry ∈ entries, entry.method = .credit)
        (ruleCode "CREDIT_METHOD_NOT_VALID_IN_MULTI")
      return entries
  | none =>
      match dto.method, dto.amountCents with
      | some method, some amountCents => return [⟨method, amountCents, none, dto.paymentMethodId⟩]
      | _, _ => throw (ruleCode "PAYMENT_METHOD_NOT_SUPPORTED")

def normalizeCollectionRequestPayments (dto : AddSalePaymentDto) :
    Except DomainError (List CollectionPaymentEntry) := do
  throwIf ((dto.method ≠ none ∨ dto.amountCents ≠ none) ∧ dto.payments ≠ none)
    (ruleCode "AMBIGUOUS_PAYMENT_SHAPE")
  match dto.payments with
  | some entries => do
      throwIf (entries = []) (ruleCode "EMPTY_PAYMENTS")
      return entries
  | none =>
      match dto.method, dto.amountCents with
      | some method, some amountCents =>
          return [⟨method, amountCents, dto.reference, dto.paymentMethodId⟩]
      | _, _ => throw (ruleCode "PAYMENT_METHOD_NOT_SUPPORTED")

/-- `credit` entries leave no payment row. -/
def toCanonicalChargePayments (catalog : Catalog) :
    List ChargePaymentEntry → Except DomainError (List CanonicalPayment)
  | [] => .ok []
  | entry :: rest =>
      match entry.method with
      | .credit => toCanonicalChargePayments catalog rest
      | .tender method => do
          let metadataJson ← catalogSnapshot catalog method entry.paymentMethodId
          let canonical ← toCanonicalChargePayments catalog rest
          return ⟨method, entry.amountCents, entry.reference, metadataJson⟩ :: canonical

structure TenderSplit where
  paidCents : Int
  debtCents : Int
  paymentStatus : SalePaymentStatus
  changeDueCents : Int
  deriving DecidableEq

def tenderedCents (payments : List ChargePaymentEntry) : Int :=
  (payments.map ChargePaymentEntry.amountCents).sum

def hasMethod (payments : List ChargePaymentEntry) (method : ChargeMethod) : Bool :=
  payments.any fun payment => payment.method = method

/-- The status both money paths derive from what is paid of the total. -/
def paymentStatusOf (paidCents totalCents : Int) : SalePaymentStatus :=
  if paidCents = totalCents then .paid
  else if paidCents = 0 then .credit
  else .partialPaid

/-- The checks and the split of `executeChargeDraft` between the totals and the
payment rows. -/
def splitTender (totalCents : Int) (customerId : Option String)
    (payments : List ChargePaymentEntry) : Except DomainError TenderSplit := do
  let tendered := tenderedCents payments
  let hasCash := hasMethod payments (.tender .cash)
  let hasCreditMethod := hasMethod payments .credit
  throwIf (hasCreditMethod ∧ 1 < payments.length) (ruleCode "INVALID_CREDIT_CHARGE")
  throwIf (hasCreditMethod ∧ tendered ≠ 0) (ruleCode "INVALID_CREDIT_CHARGE")
  throwIf (¬ hasCash ∧ totalCents < tendered) (ruleCode "PAYMENT_AMOUNT_INVALID")
  throwIf (tendered < 0) (ruleCode "PAYMENT_AMOUNT_INVALID")
  throwIf (tendered < totalCents ∧ customerId.getD "" = "")
    (ruleCode "CUSTOMER_REQUIRED_FOR_CREDIT")
  throwIf (¬ hasCreditMethod ∧ tendered < totalCents ∧ tendered ≤ 0 ∧ 0 < payments.length)
    (ruleCode "PAYMENT_AMOUNT_INVALID")
  throwIf (tendered < totalCents ∧ 0 < tendered ∧ ¬ hasCash)
    (ruleCode "PAYMENT_AMOUNT_INSUFFICIENT")
  let paidCents := min tendered totalCents
  let paymentStatus := paymentStatusOf paidCents totalCents
  return {
    paidCents := paidCents
    debtCents := totalCents - paidCents
    paymentStatus := paymentStatus
    changeDueCents := if hasCash ∧ paymentStatus = .paid then tendered - totalCents else 0 }

/-- The rows a request creates, under the ids the store generates for them. -/
def createPaymentRows (newPaymentId : Nat → String) (userId : Option String)
    (payments : List CanonicalPayment) : List SalePayment :=
  payments.zipIdx.map fun (payment, index) => ⟨newPaymentId index, payment, userId⟩

def persistChargeConfirmation (account : SaleAccount) (totals : SaleTotals) (split : TenderSplit)
    (rows : List SalePayment) : Except DomainError SaleAccount := do
  throwIf (account.status ≠ .draft) (ruleCode "SALE_NOT_DRAFT")
  return {
    status := .confirmed
    subtotalCents := totals.subtotalCents
    discountCents := totals.discountCents
    totalCents := totals.totalCents
    paidCents := split.paidCents
    debtCents := split.debtCents
    changeDueCents := split.changeDueCents
    paymentStatus := some split.paymentStatus
    payments := account.payments ++ rows }

/-- What a money request hands to the cash ledger and to its response. -/
structure MoneyOutcome where
  account : SaleAccount
  created : List SalePayment
  changeDueCents : Int
  deriving DecidableEq

/-- The surroundings of a money request: the payment-method catalog it reads, the ids
its rows get and the user it runs for. -/
structure MoneyContext where
  catalog : Catalog
  newPaymentId : Nat → String
  actorId : String

/-- `executeChargeDraft` from the recomputed sale on: totals, split and rows. -/
def executeChargeDraft (context : MoneyContext) (sale : Sale) (account : SaleAccount)
    (dto : ChargeSaleDto) : Except DomainError MoneyOutcome := do
  let normalizedPayments ← normalizeChargeRequestPayments dto
  throwIf (account.status ≠ .draft) (ruleCode "SALE_ALREADY_CONFIRMED")
  let totals := sale.previewTotals
  let split ← splitTender totals.totalCents sale.customerId normalizedPayments
  let canonicalPayments ← toCanonicalChargePayments context.catalog normalizedPayments
  let created := createPaymentRows context.newPaymentId (some context.actorId) canonicalPayments
  let confirmed ← persistChargeConfirmation account totals split created
  return ⟨confirmed, created, split.changeDueCents⟩

def persistCollectedPayments (account : SaleAccount) (rows : List SalePayment) :
    Except DomainError SaleAccount := do
  throwIf (account.status ≠ .confirmed) (ruleCode "SALE_NOT_FOUND")
  let paidFromLedger := account.paidFromLedger
  throwIf (account.totalCents ≤ paidFromLedger) (ruleCode "NO_OUTSTANDING_DEBT")
  let batchTotal := (rows.map fun row => row.payment.amountCents).sum
  let recomputedPaidCents := paidFromLedger + batchTotal
  throwIf (account.totalCents < recomputedPaidCents) (ruleCode "PAYMENT_EXCEEDS_DEBT")
  return { account with
    paidCents := recomputedPaidCents
    debtCents := account.totalCents - recomputedPaidCents
    paymentStatus := some (paymentStatusOf recomputedPaidCents account.totalCents)
    payments := account.payments ++ rows }

inductive AddPaymentAuthMode where
  | owner
  | reviewer
  deriving DecidableEq

/-- The rows of a collection: the reviewer's payment is a transfer with its bot origin,
the owner's resolves its catalog row. -/
def paymentsToPersist (catalog : Catalog) (channel : SaleChannel) (authMode : AddPaymentAuthMode)
    (payments : List CollectionPaymentEntry) : Except DomainError (List CanonicalPayment) :=
  match authMode with
  | .reviewer => .ok (payments.map fun payment =>
      ⟨.transfer, payment.amountCents, payment.reference, some (.origin "bot" channel.text)⟩)
  | .owner => payments.mapM fun payment => do
      let metadataJson ← catalogSnapshot catalog payment.method payment.paymentMethodId
      return ⟨payment.method, payment.amountCents, payment.reference, metadataJson⟩

/-- `executeAddPayment` under the sale's lock; a collection never returns change. -/
def executeAddPayment (context : MoneyContext) (channel : SaleChannel)
    (authMode : AddPaymentAuthMode) (account : SaleAccount) (dto : AddSalePaymentDto) :
    Except DomainError MoneyOutcome := do
  let normalizedPayments ← normalizeCollectionRequestPayments dto
  throwIf (account.status ≠ .confirmed) (ruleCode "SALE_NOT_CONFIRMABLE_FOR_PAYMENT")
  let payments ← paymentsToPersist context.catalog channel authMode normalizedPayments
  let userId := if authMode = .reviewer then none else some context.actorId
  let created := createPaymentRows context.newPaymentId userId payments
  let updated ← persistCollectedPayments account created
  return ⟨updated, created, 0⟩

end Houndfe.Sales
