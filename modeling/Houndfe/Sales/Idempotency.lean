import Houndfe.Base.Transition
import Houndfe.Sales.Payments
import Mathlib.Data.List.Nodup

/-! The idempotency slots of the three money operations of a sale. A slot is acquired before
the business transaction, so that a key is executed once; nothing gives it back when that fails:
only a request whose caller had already opened a transaction takes its slot down with it. -/

namespace Houndfe.Sales

open PaymentMethods Transition

inductive IdempotencyOperation where
  | saleCharge
  | salePayment
  | saleCancel
  deriving DecidableEq, Repr

inductive IdempotencyStatus where
  | inFlight
  | succeeded
  deriving DecidableEq, Repr

/-- What makes a request fail: a rule of the domain, or the database. -/
inductive Failure where
  | domain (error : DomainError)
  | database
  deriving DecidableEq

structure SaleRefundRecord where
  salePaymentId : String
  method : TenderMethod
  amountCents : Int
  reason : SaleCancelReason
  deriving DecidableEq

/-- A persisted sale: the aggregate, its money columns with the payment rows, and its
refunds. -/
structure SaleRecord where
  sale : Sale
  account : SaleAccount
  refunds : List SaleRefundRecord
  deriving DecidableEq

/-- `findByIdForUpdate`: the aggregate with the money columns of its row. -/
def SaleRecord.hydrate (record : SaleRecord) : Sale :=
  { record.sale with
    status := record.account.status
    totalCents := record.account.totalCents
    paidCents := record.account.paidCents
    debtCents := record.account.debtCents
    changeDueCents := record.account.changeDueCents
    paymentStatus := record.account.paymentStatus }

inductive MoneyPayload where
  | settled (saleId : String) (account : SaleAccount)
  | canceled (saleId : String) (refundedCents : Int) (canceledAt : Option Int)
  deriving DecidableEq

structure IdempotencySlot where
  requestHash : String
  status : IdempotencyStatus
  responseJson : Option MoneyPayload
  saleId : String
  deriving DecidableEq

/-- The unique key of a slot within the tenant. -/
abbrev SlotKey := IdempotencyOperation × String

abbrev IdempotencySlots := SlotKey → Option IdempotencySlot

inductive AcquireOutcome where
  | acquired
  | replay (payload : MoneyPayload)
  | conflict
  | inFlight
  deriving DecidableEq

def resolveIdempotencyOutcome (existing : IdempotencySlot) (requestHash : String) :
    AcquireOutcome :=
  if existing.requestHash ≠ requestHash then .conflict
  else
    match existing.status, existing.responseJson with
    | .succeeded, some payload => .replay payload
    | _, _ => .inFlight

/-- Both branches of `acquireIdempotency`: insert the slot, or read the one that is there.
A slot refers to a sale, of any tenant. -/
def acquireIdempotency (saleIds : List String) (slots : IdempotencySlots) (key : SlotKey)
    (saleId requestHash : String) : Except Failure (AcquireOutcome × IdempotencySlots) :=
  match slots key with
  | some existing => .ok (resolveIdempotencyOutcome existing requestHash, slots)
  | none =>
      if saleId ∈ saleIds then
        .ok (.acquired,
          Function.update slots key (some ⟨requestHash, .inFlight, none, saleId⟩))
      else .error .database

/-- The token of an acquired slot names the slot of its key. -/
def markIdempotencySucceeded (slots : IdempotencySlots) (key : SlotKey) (saleId : String)
    (payload : MoneyPayload) : IdempotencySlots :=
  Function.update slots key ((slots key).map fun slot =>
    { slot with status := .succeeded, responseJson := some payload, saleId := saleId })

/-! ### The business transactions -/

/-- What the other modules do for one request, at the time it runs; each may fail. -/
structure MoneyServices where
  catalog : Catalog
  newPaymentId : Nat → String
  now : Int
  recompute : Sale → Except Failure Sale
  assertOpenSession : Except Failure Unit
  claimPromotions : Except Failure Unit
  restorePromotions : Except Failure Unit
  chargeStock : Except Failure Unit
  reverseStock : Except Failure Unit
  recordLedger : Except Failure Unit
  publish : Except Failure Unit

inductive MoneyRequestDto where
  | charge (dto : ChargeSaleDto)
  | addPayment (dto : AddSalePaymentDto) (authMode : AddPaymentAuthMode)
  | cancel (reason : SaleCancelReason)
  deriving DecidableEq

/-- A money request. `callerInTransaction` says that the caller has opened a transaction
already, as the review of a receipt does around `addPayment`. -/
structure SaleMoneyRequest where
  saleId : String
  actorId : String
  dto : MoneyRequestDto
  idempotencyKey : String
  cashSessionId : Option String
  callerInTransaction : Bool
  deriving DecidableEq

def lift {α : Type} : Except DomainError α → Except Failure α
  | .ok a => .ok a
  | .error e => .error (.domain e)

namespace SaleMoneyRequest

/-- `cancelSale` has one key for each sale; the others bring their own. -/
def slotKey (request : SaleMoneyRequest) : SlotKey :=
  match request.dto with
  | .charge _ => (.saleCharge, request.idempotencyKey)
  | .addPayment _ _ => (.salePayment, request.idempotencyKey)
  | .cancel _ => (.saleCancel, "sale:cancel:" ++ request.saleId)

/-- Whether the slot is acquired inside the business transaction: a charge or a
collection with a cash session opens it first, `cancelSale` never does. -/
def acquiresInTransaction (request : SaleMoneyRequest) : Bool :=
  match request.dto with
  | .charge _ => request.cashSessionId.isSome
  | .addPayment _ _ => request.cashSessionId.isSome || request.callerInTransaction
  | .cancel _ => false

/-- The checks before the slot is acquired. -/
def validate (request : SaleMoneyRequest) : Except DomainError Unit :=
  match request.dto with
  | .charge dto => do
      let _ ← normalizeChargeRequestPayments dto
      return ()
  | .addPayment dto authMode => do
      throwIf (request.cashSessionId.isSome ∧ authMode = .reviewer)
        (ruleCode "CASH_SESSION_REVIEWER_NOT_ALLOWED")
      let _ ← normalizeCollectionRequestPayments dto
      return ()
  | .cancel _ => return ()

end SaleMoneyRequest

/-- The refunds of `buildCancellationRefunds` and what they leave of the amount. -/
def takeRefunds (reason : SaleCancelReason) :
    List SalePayment → Int → List SaleRefundRecord × Int
  | [], remaining => ([], remaining)
  | row :: rest, remaining =>
      let amountCents := min row.payment.amountCents remaining
      if remaining ≤ 0 then ([], remaining)
      else if amountCents ≤ 0 then takeRefunds reason rest remaining
      else
        let (refunds, left) := takeRefunds reason rest (remaining - amountCents)
        (⟨row.id, row.payment.method, amountCents, reason⟩ :: refunds, left)

def buildCancellationRefunds (payments : List SalePayment) (refundedCents : Int)
    (reason : SaleCancelReason) : Except DomainError (List SaleRefundRecord) := do
  let (refunds, remaining) := takeRefunds reason payments refundedCents
  throwIf (remaining ≠ 0) (ruleCode "SALE_REFUND_AUDIT_MISMATCH")
  return refunds

abbrev SaleRecords := String → Option SaleRecord

def findSale (sales : SaleRecords) (saleId : String) : Except Failure SaleRecord :=
  match sales saleId with
  | some record => .ok record
  | none => .error (.domain (ruleCode "SALE_NOT_FOUND"))

def whenBound (cashSessionId : Option String) (action : Except Failure Unit) :
    Except Failure Unit :=
  if cashSessionId.isSome then action else .ok ()

def chargeTransaction (services : MoneyServices) (request : SaleMoneyRequest)
    (dto : ChargeSaleDto) (sales : SaleRecords) : Except Failure (SaleRecords × MoneyPayload) := do
  whenBound request.cashSessionId services.assertOpenSession
  let record ← findSale sales request.saleId
  lift (throwIf (record.sale.userId ≠ request.actorId) (ruleCode "SALE_NOT_FOUND"))
  lift (throwIf (record.account.status ≠ .draft) (ruleCode "SALE_ALREADY_CONFIRMED"))
  let sale ← services.recompute record.hydrate
  let outcome ← lift (executeChargeDraft
    ⟨services.catalog, services.newPaymentId, request.actorId⟩ sale record.account dto)
  services.claimPromotions
  services.chargeStock
  whenBound request.cashSessionId services.recordLedger
  services.publish
  return (Function.update sales request.saleId
    (some { record with sale := sale, account := outcome.account }),
    .settled request.saleId outcome.account)

def addPaymentTransaction (services : MoneyServices) (request : SaleMoneyRequest)
    (dto : AddSalePaymentDto) (authMode : AddPaymentAuthMode) (sales : SaleRecords) :
    Except Failure (SaleRecords × MoneyPayload) := do
  whenBound request.cashSessionId services.assertOpenSession
  let record ← findSale sales request.saleId
  lift (throwIf (authMode = .owner ∧ record.sale.userId ≠ request.actorId)
    (ruleCode "SALE_NOT_FOUND"))
  let outcome ← lift (executeAddPayment
    ⟨services.catalog, services.newPaymentId, request.actorId⟩ record.sale.channel authMode
      record.account dto)
  whenBound request.cashSessionId services.recordLedger
  services.publish
  return (Function.update sales request.saleId (some { record with account := outcome.account }),
    .settled request.saleId outcome.account)

def cancelTransaction (services : MoneyServices) (request : SaleMoneyRequest)
    (reason : SaleCancelReason) (sales : SaleRecords) :
    Except Failure (SaleRecords × MoneyPayload) := do
  let record ← findSale sales request.saleId
  let sale := record.hydrate
  if sale.status = .canceled then
    let refundedCents :=
      if sale.paymentStatus = some .credit ∨ sale.paidCents = 0 then 0 else sale.paidCents
    return (sales, .canceled request.saleId refundedCents sale.canceledAt)
  else
    let (canceledSale, refundedCents) ← lift (sale.cancel reason request.actorId services.now)
    services.reverseStock
    let refunds ← if refundedCents = 0 then .ok []
      else lift (buildCancellationRefunds record.account.payments refundedCents reason)
    services.restorePromotions
    services.publish
    let account := { record.account with
      status := .canceled
      debtCents := if canceledSale.paymentStatus = some .credit then 0
        else canceledSale.debtCents }
    return (Function.update sales request.saleId
      (some ⟨canceledSale, account, record.refunds ++ refunds⟩),
      .canceled request.saleId refundedCents canceledSale.canceledAt)

def SaleMoneyRequest.transaction (services : MoneyServices) (request : SaleMoneyRequest)
    (sales : SaleRecords) : Except Failure (SaleRecords × MoneyPayload) :=
  match request.dto with
  | .charge dto => chargeTransaction services request dto sales
  | .addPayment dto authMode => addPaymentTransaction services request dto authMode sales
  | .cancel reason => cancelTransaction services request reason sales

/-! ### A request from its slot to its answer -/

/-- `saleIds` are the ids of the sale table, whose other tenants `sales` does not show. -/
structure MoneyStore where
  saleIds : List String
  sales : SaleRecords
  slots : IdempotencySlots

/-- How a request is answered: rejected before its slot, from its slot, or by the run of
its transaction. -/
inductive MoneyAnswer where
  | rejected (failure : Failure)
  | replayed (payload : MoneyPayload)
  | conflict
  | inFlight
  | executed (result : Except Failure MoneyPayload)

section

variable (digest : SaleMoneyRequest → String)

/-- One request. `digest` is the hash of its content; a failure rolls the transaction back,
and the slot with it only where it was acquired inside. -/
def SaleMoneyRequest.handle (services : MoneyServices) (request : SaleMoneyRequest)
    (store : MoneyStore) : MoneyAnswer × MoneyStore :=
  match request.validate with
  | .error e => (.rejected (.domain e), store)
  | .ok _ =>
      match acquireIdempotency store.saleIds store.slots request.slotKey request.saleId
        (digest request) with
      | .error failure => (.rejected failure, store)
      | .ok (.replay payload, _) => (.replayed payload, store)
      | .ok (.conflict, _) => (.conflict, store)
      | .ok (.inFlight, _) => (.inFlight, store)
      | .ok (.acquired, slots) =>
          match request.transaction services store.sales with
          | .error failure =>
              (.executed (.error failure),
                if request.acquiresInTransaction then store else { store with slots := slots })
          | .ok (sales, payload) =>
              (.executed (.ok payload),
                { store with
                  sales := sales
                  slots := markIdempotencySucceeded slots request.slotKey request.saleId
                    payload })

/-- One request after another, each with the services of its time. -/
def HandleStep (store : MoneyStore) (label : MoneyServices × SaleMoneyRequest)
    (store' : MoneyStore) : Prop :=
  (label.2.handle digest label.1 store).2 = store'

/-- Sent again, the request is executed: whatever the services do now, the answer is what
its transaction comes to on the sale as it is. -/
def Retryable (request : SaleMoneyRequest) (store : MoneyStore) : Prop :=
  ∀ services : MoneyServices, (request.handle digest services store).1 =
    .executed ((request.transaction services store.sales).map Prod.snd)

theorem resolveIdempotencyOutcome_ne_acquired (existing : IdempotencySlot)
    (requestHash : String) : resolveIdempotencyOutcome existing requestHash ≠ .acquired := by
  unfold resolveIdempotencyOutcome
  split
  · exact AcquireOutcome.noConfusion
  · split <;> exact AcquireOutcome.noConfusion

/-- Any slot, also one that nobody holds any more, keeps a key from being acquired. -/
theorem acquireIdempotency_acquired {saleIds : List String} {slots slots' : IdempotencySlots}
    {key : SlotKey} {saleId requestHash : String}
    (h : acquireIdempotency saleIds slots key saleId requestHash = .ok (.acquired, slots')) :
    saleId ∈ saleIds ∧ slots key = none ∧
      slots' = Function.update slots key (some ⟨requestHash, .inFlight, none, saleId⟩) := by
  cases hSlot : slots key with
  | some existing =>
      simp only [acquireIdempotency, hSlot, Except.ok.injEq, Prod.mk.injEq] at h
      exact absurd h.1 (resolveIdempotencyOutcome_ne_acquired existing requestHash)
  | none =>
      by_cases hKnown : saleId ∈ saleIds
      · simp only [acquireIdempotency, hSlot, hKnown, if_true, Except.ok.injEq,
          Prod.mk.injEq] at h
        exact ⟨hKnown, rfl, h.2.symm⟩
      · simp only [acquireIdempotency, hSlot, hKnown, if_false] at h
        cases h

/-- The slot that an executed request held. -/
def heldSlot (request : SaleMoneyRequest) : IdempotencySlot :=
  ⟨digest request, .inFlight, none, request.saleId⟩

/-- A request that acquired its slot and whose transaction then failed. -/
structure FailedAfterAcquire (services : MoneyServices) (request : SaleMoneyRequest)
    (store : MoneyStore) (failure : Failure) : Prop where
  valid : request.validate = .ok ()
  known : request.saleId ∈ store.saleIds
  acquires : store.slots request.slotKey = none
  fails : request.transaction services store.sales = .error failure

variable {digest}

/-- A request is answered with what its transaction failed with only when it held its
slot. -/
theorem failedAfterAcquire_of_answer {services : MoneyServices} {request : SaleMoneyRequest}
    {store : MoneyStore} {failure : Failure}
    (h : (request.handle digest services store).1 = .executed (.error failure)) :
    FailedAfterAcquire services request store failure := by
  unfold SaleMoneyRequest.handle at h
  split at h
  · cases h
  next hValid =>
  split at h
  · cases h
  · cases h
  · cases h
  · cases h
  next hAcquire =>
  obtain ⟨hKnown, hFree, -⟩ := acquireIdempotency_acquired hAcquire
  split at h
  · next hFails =>
      cases h
      exact ⟨hValid, hKnown, hFree, hFails⟩
  · cases h

theorem FailedAfterAcquire.store_after {services : MoneyServices} {request : SaleMoneyRequest}
    {store : MoneyStore} {failure : Failure}
    (h : FailedAfterAcquire services request store failure) :
    (request.handle digest services store).2 =
      if request.acquiresInTransaction then store
      else { store with
        slots := Function.update store.slots request.slotKey (some (heldSlot digest request)) } := by
  simp [SaleMoneyRequest.handle, h.valid, acquireIdempotency, h.acquires, h.known, h.fails,
    heldSlot]

/-- A free key lets a valid request through to its transaction. -/
theorem retryable_of_free {request : SaleMoneyRequest} {store : MoneyStore}
    (hValid : request.validate = .ok ()) (hKnown : request.saleId ∈ store.saleIds)
    (hFree : store.slots request.slotKey = none) : Retryable digest request store := by
  intro services
  simp only [SaleMoneyRequest.handle, hValid, acquireIdempotency, hFree, hKnown, if_true]
  cases request.transaction services store.sales <;> rfl

/-- A request changes the slot of its own key only, and only if the key was free. -/
theorem handle_slots (services : MoneyServices) (request : SaleMoneyRequest)
    (store : MoneyStore) :
    (request.handle digest services store).2 = store ∨
      store.slots request.slotKey = none ∧ ∀ key, key ≠ request.slotKey →
        (request.handle digest services store).2.slots key = store.slots key := by
  unfold SaleMoneyRequest.handle
  split
  · exact .inl rfl
  split
  · exact .inl rfl
  · exact .inl rfl
  · exact .inl rfl
  · exact .inl rfl
  next hAcquire =>
  obtain ⟨-, hFree, rfl⟩ := acquireIdempotency_acquired hAcquire
  refine .inr ⟨hFree, fun key hOther => ?_⟩
  split
  · cases request.acquiresInTransaction with
    | true => rfl
    | false => exact Function.update_of_ne hOther _ _
  · simp only [markIdempotencySucceeded, Function.update_of_ne hOther]

/-- No request touches a slot that is taken, not even one with its key. -/
theorem handle_keeps_slot {store : MoneyStore} {key : SlotKey} {slot : IdempotencySlot}
    (services : MoneyServices) (request : SaleMoneyRequest)
    (hSlot : store.slots key = some slot) :
    (request.handle digest services store).2.slots key = some slot := by
  rcases handle_slots services request store with hSame | ⟨hFree, hOther⟩
  · rw [hSame]
    exact hSlot
  · have hKey : key ≠ request.slotKey := by
      intro hEq
      rw [hEq, hFree] at hSlot
      cases hSlot
    rw [hOther key hKey]
    exact hSlot

/-- A slot that was left in flight stays so whatever requests follow. -/
theorem slot_stays {store store' : MoneyStore} {key : SlotKey} {slot : IdempotencySlot}
    {labels : List (MoneyServices × SaleMoneyRequest)}
    (run : Runs (HandleStep digest) store labels store') (hSlot : store.slots key = some slot) :
    store'.slots key = some slot := by
  have hStep : ∀ (c : MoneyStore) (label : MoneyServices × SaleMoneyRequest) (d : MoneyStore),
      c.slots key = some slot → HandleStep digest c label d → d.slots key = some slot := by
    intro c label d hInv hHandled
    rw [← hHandled]
    exact handle_keeps_slot label.1 label.2 hInv
  exact run.invariant hStep hSlot

/-- With the slot of its key in flight a request is never executed. -/
theorem handle_of_inFlight {store : MoneyStore} {services : MoneyServices}
    {request : SaleMoneyRequest} {slot : IdempotencySlot} (hValid : request.validate = .ok ())
    (hSlot : store.slots request.slotKey = some slot) (hStatus : slot.status = .inFlight) :
    (request.handle digest services store).1 =
      if slot.requestHash = digest request then .inFlight else .conflict := by
  by_cases hHash : slot.requestHash = digest request <;>
    simp [SaleMoneyRequest.handle, hValid, acquireIdempotency, hSlot, resolveIdempotencyOutcome,
      hStatus, hHash]

variable (digest)

/-- A money request that fails after it acquired its slot leaves the sales as they were. It
can be sent again exactly when its slot was acquired inside the transaction that failed;
otherwise it, and any request with its key, is answered as in progress or as a conflict
from then on. -/
theorem failed_money_operation_retryable_iff (services : MoneyServices)
    (request : SaleMoneyRequest) (store : MoneyStore) (failure : Failure)
    (hFailed : (request.handle digest services store).1 = .executed (.error failure)) :
    (request.handle digest services store).2.sales = store.sales ∧
      (Retryable digest request (request.handle digest services store).2 ↔
        request.acquiresInTransaction = true) ∧
      (request.acquiresInTransaction = false →
        ∀ labels store', Runs (HandleStep digest) (request.handle digest services store).2
            labels store' →
          ∀ services' request', request'.slotKey = request.slotKey →
            request'.validate = .ok () →
              (request'.handle digest services' store').1 =
                if digest request = digest request' then .inFlight else .conflict) := by
  have hAcquired := failedAfterAcquire_of_answer hFailed
  rw [hAcquired.store_after]
  cases hBound : request.acquiresInTransaction with
  | true =>
      have hRetry : Retryable digest request store :=
        retryable_of_free hAcquired.valid hAcquired.known hAcquired.acquires
      exact ⟨rfl, by simpa using hRetry, by simp⟩
  | false =>
      simp only [Bool.false_eq_true, if_false]
      have hHeld := Function.update_self request.slotKey (some (heldSlot digest request))
        store.slots
      refine ⟨trivial, ?_, ?_⟩
      · rw [iff_false]
        intro hRetry
        have hAnswer := hRetry services
        rw [handle_of_inFlight hAcquired.valid hHeld rfl] at hAnswer
        simp [heldSlot] at hAnswer
      · intro _ labels store' run services' request' hKey hValid
        have hStays := slot_stays run hHeld
        rw [← hKey] at hStays
        exact handle_of_inFlight hValid hStays rfl

end

/-! ### A cancellation that fails once -/

/-- Services that all succeed; the first argument is what the stock answers. -/
def sampleServices (reverseStock : Except Failure Unit) : MoneyServices where
  catalog _ := none
  newPaymentId _ := "payment"
  now := 0
  recompute := .ok
  assertOpenSession := .ok ()
  claimPromotions := .ok ()
  restorePromotions := .ok ()
  chargeStock := .ok ()
  reverseStock := reverseStock
  recordLedger := .ok ()
  publish := .ok ()

/-- A paid sale that waits for its delivery. -/
def paidSale : SaleRecord where
  sale := { Sale.fresh "sale" "seller" with deliveryStatus := .pending }
  account := ⟨.confirmed, 1000, 0, 1000, 1000, 0, 0, some .paid,
    [⟨"payment", ⟨.cash, 1000, none, none⟩, some "seller"⟩]⟩
  refunds := []

def paidStore : MoneyStore where
  saleIds := ["sale"]
  sales saleId := if saleId = "sale" then some paidSale else none
  slots _ := none

/-- The seller cancels, at the register without a cash session. -/
def sampleCancel : SaleMoneyRequest :=
  ⟨"sale", "seller", .cancel .customerRequest, "", none, false⟩

/-- The seller charges the same sale once more, in a cash session. -/
def sampleCharge : SaleMoneyRequest :=
  ⟨"sale", "seller", .charge ⟨some (.tender .cash), some 1000, none, none⟩, "key",
    some "session", false⟩

def sampleDigest (request : SaleMoneyRequest) : String :=
  request.saleId ++ request.actorId

theorem sampleCancel_fails : (sampleCancel.handle sampleDigest
    (sampleServices (.error .database)) paidStore).1 = .executed (.error .database) := rfl

/-- The failed charge can be sent again, the failed cancellation cannot. -/
theorem retryable_of_sample_failures :
    Retryable sampleDigest sampleCharge
        (sampleCharge.handle sampleDigest (sampleServices (.ok ())) paidStore).2 ∧
      ¬ Retryable sampleDigest sampleCancel
        (sampleCancel.handle sampleDigest (sampleServices (.error .database)) paidStore).2 := by
  constructor
  · exact (failed_money_operation_retryable_iff sampleDigest (sampleServices (.ok ()))
      sampleCharge paidStore (.domain (ruleCode "SALE_ALREADY_CONFIRMED")) rfl).2.1.mpr rfl
  · intro hRetry
    have hBound := (failed_money_operation_retryable_iff sampleDigest
      (sampleServices (.error .database)) sampleCancel paidStore .database
      sampleCancel_fails).2.1.mp hRetry
    cases hBound

/-- The stock fails once. When it answers again the cancellation could be executed, but it
is answered as in progress. -/
theorem failed_cancellation_not_retryable :
    let store := (sampleCancel.handle sampleDigest (sampleServices (.error .database))
      paidStore).2
    (sampleCancel.handle sampleDigest (sampleServices (.error .database)) paidStore).1 =
        .executed (.error .database) ∧
      (sampleCancel.transaction (sampleServices (.ok ())) store.sales).map Prod.snd =
        .ok (.canceled "sale" 1000 (some 0)) ∧
      (sampleCancel.handle sampleDigest (sampleServices (.ok ())) store).1 = .inFlight :=
  ⟨rfl, rfl, rfl⟩

/-! ### Requests that overlap -/

/-- The requests under way hold their slots; their transactions are still to run. -/
structure MoneySystem where
  store : MoneyStore
  underWay : List SaleMoneyRequest

/-- A transaction that was committed, its slot marked with it. -/
def MoneyStore.commit (store : MoneyStore) (request : SaleMoneyRequest) (sales : SaleRecords)
    (payload : MoneyPayload) : MoneyStore :=
  { store with
    sales
    slots := markIdempotencySucceeded store.slots request.slotKey request.saleId payload }

section

variable (digest : SaleMoneyRequest → String)

/-- A request, labelled with its answer, is handled at once, or acquires its slot first and runs
its transaction later, if at all. -/
inductive MoneyStep (system : MoneySystem) :
    SaleMoneyRequest × Option MoneyAnswer → MoneySystem → Prop where
  | handled (services request) : MoneyStep system
      (request, some (request.handle digest services system.store).1)
      { system with store := (request.handle digest services system.store).2 }
  | acquired {request slots} (valid : request.validate = .ok ())
      (unbound : request.acquiresInTransaction = false)
      (acquires : acquireIdempotency system.store.saleIds system.store.slots request.slotKey
        request.saleId (digest request) = .ok (.acquired, slots)) :
      MoneyStep system (request, none) ⟨{ system.store with slots }, request :: system.underWay⟩
  | committed {services request sales payload} (mem : request ∈ system.underWay)
      (commits : request.transaction services system.store.sales = .ok (sales, payload)) :
      MoneyStep system (request, some (.executed (.ok payload)))
        ⟨system.store.commit request sales payload, system.underWay.erase request⟩
  | failed {services request failure} (mem : request ∈ system.underWay)
      (fails : request.transaction services system.store.sales = .error failure) :
      MoneyStep system (request, some (.executed (.error failure)))
        { system with underWay := system.underWay.erase request }

/-- Every request under way holds a slot of its own. -/
structure MoneySystem.Held (system : MoneySystem) : Prop where
  keys : (system.underWay.map SaleMoneyRequest.slotKey).Nodup
  slots : ∀ request ∈ system.underWay,
    system.store.slots request.slotKey = some (heldSlot digest request)

variable {digest} {system next : MoneySystem} {label : SaleMoneyRequest × Option MoneyAnswer}
  {request : SaleMoneyRequest} {key : SlotKey} {slot : IdempotencySlot}

/-- Only the request that holds a slot changes it. -/
theorem MoneyStep.keeps (hStep : MoneyStep digest system label next)
    (hSlot : system.store.slots key = some slot)
    (hOwn : label.1 ∈ system.underWay → key ≠ label.1.slotKey) :
    next.store.slots key = some slot := by
  cases hStep with
  | handled services request => exact handle_keeps_slot services request hSlot
  | acquired _ _ acquires =>
      obtain ⟨-, hFree, rfl⟩ := acquireIdempotency_acquired acquires
      refine (Function.update_of_ne ?_ _ _).trans hSlot
      rintro rfl
      cases hFree.symm.trans hSlot
  | committed mem _ => exact (Function.update_of_ne (hOwn mem) _ _).trans hSlot
  | failed => exact hSlot

theorem MoneySystem.Held.step (h : system.Held digest)
    (hStep : MoneyStep digest system label next) : next.Held digest := by
  have hErase : ((system.underWay.erase label.1).map SaleMoneyRequest.slotKey).Nodup :=
    h.keys.sublist (List.erase_sublist.map _)
  have hKept : ∀ other ∈ system.underWay.erase label.1,
      next.store.slots other.slotKey = some (heldSlot digest other) := by
    intro other hOther
    obtain ⟨hNe, hMem⟩ := (List.Nodup.of_map _ h.keys).mem_erase_iff.mp hOther
    exact hStep.keeps (h.slots other hMem) fun hLabel hKey =>
      hNe (List.inj_on_of_nodup_map h.keys hMem hLabel hKey)
  cases hStep with
  | handled services request =>
      exact ⟨h.keys, fun other hOther => handle_keeps_slot services request (h.slots other hOther)⟩
  | @acquired request _ _ _ acquires =>
      obtain ⟨-, hFree, rfl⟩ := acquireIdempotency_acquired acquires
      have hNew : ∀ other ∈ system.underWay, other.slotKey ≠ request.slotKey := by
        intro other hOther hKey
        cases hFree.symm.trans (hKey ▸ h.slots other hOther)
      refine ⟨List.nodup_cons.mpr ⟨by simpa using hNew, h.keys⟩, List.forall_mem_cons.mpr ⟨?_, ?_⟩⟩
      · exact Function.update_self ..
      · exact fun other hOther =>
          (Function.update_of_ne (hNew other hOther) _ _).trans (h.slots other hOther)
  | committed => exact ⟨hErase, hKept⟩
  | failed => exact ⟨hErase, hKept⟩

/-- The slot of a request that was executed. -/
def SettledAs (digest : SaleMoneyRequest → String) (request : SaleMoneyRequest)
    (payload : MoneyPayload) (system : MoneySystem) : Prop :=
  system.store.slots request.slotKey =
    some ⟨digest request, .succeeded, some payload, request.saleId⟩

theorem MoneySystem.Held.settled_ne (h : system.Held digest) {first : SaleMoneyRequest}
    {payload : MoneyPayload} (hSettled : SettledAs digest first payload system)
    (hMem : request ∈ system.underWay) : first.slotKey ≠ request.slotKey := by
  intro hKey
  have hSlot := h.slots request hMem
  rw [← hKey, hSettled] at hSlot
  simp [heldSlot] at hSlot

theorem MoneyStep.settles (h : system.Held digest) {payload : MoneyPayload}
    (hStep : MoneyStep digest system (request, some (.executed (.ok payload))) next) :
    SettledAs digest request payload next := by
  generalize hAnswer : MoneyAnswer.executed (.ok payload) = answer at hStep
  cases hStep with
  | handled services =>
      unfold SaleMoneyRequest.handle at hAnswer
      split at hAnswer
      · cases hAnswer
      next hValid =>
      split at hAnswer <;> try cases hAnswer
      next hAcquire =>
      split at hAnswer <;> cases hAnswer
      next hCommits =>
      obtain ⟨-, -, rfl⟩ := acquireIdempotency_acquired hAcquire
      simp [SettledAs, SaleMoneyRequest.handle, hValid, hAcquire, hCommits,
        markIdempotencySucceeded]
  | committed mem =>
      cases hAnswer
      simp [SettledAs, MoneyStore.commit, markIdempotencySucceeded, h.slots request mem, heldSlot]
  | failed => cases hAnswer

end

/-- However requests overlap, a key is executed once: whatever comes under it later changes nothing
and is answered with the payload of that execution, or with a conflict. -/
theorem executed_once (digest : SaleMoneyRequest → String) {store : MoneyStore}
    {before after system next : MoneySystem}
    {earlier later : List (SaleMoneyRequest × Option MoneyAnswer)}
    {first request : SaleMoneyRequest} {payload : MoneyPayload} {answer : Option MoneyAnswer}
    (run : Runs (MoneyStep digest) ⟨store, []⟩ earlier before)
    (hExecuted : MoneyStep digest before (first, some (.executed (.ok payload))) after)
    (onward : Runs (MoneyStep digest) after later system)
    (hStep : MoneyStep digest system (request, answer) next)
    (hKey : request.slotKey = first.slotKey) :
    next = system ∧ (request.validate = .ok () → answer = some
      (if digest first = digest request then .replayed payload else .conflict)) := by
  have hBefore : before.Held digest :=
    run.invariant (fun _ _ _ h => h.step) ⟨List.nodup_nil, by simp⟩
  have hSteps : ∀ c label d, c.Held digest ∧ SettledAs digest first payload c →
      MoneyStep digest c label d → d.Held digest ∧ SettledAs digest first payload d :=
    fun _ _ _ h hStep => ⟨h.1.step hStep, hStep.keeps h.2 (h.1.settled_ne h.2)⟩
  obtain ⟨hHeld, hSettled⟩ :=
    onward.invariant hSteps ⟨hBefore.step hExecuted, hExecuted.settles hBefore⟩
  have hSlot := hSettled
  rw [SettledAs, ← hKey] at hSlot
  cases hStep with
  | handled services =>
      cases hValid : request.validate with
      | error e => simp [SaleMoneyRequest.handle, hValid]
      | ok =>
          by_cases hHash : digest first = digest request <;>
            simp [SaleMoneyRequest.handle, hValid, acquireIdempotency, hSlot,
              resolveIdempotencyOutcome, hHash]
  | acquired _ _ acquires => cases (acquireIdempotency_acquired acquires).2.1.symm.trans hSlot
  | committed mem => exact absurd hKey.symm (hHeld.settled_ne hSettled mem)
  | failed mem => exact absurd hKey.symm (hHeld.settled_ne hSettled mem)

/-- The cancellation of the paid sale is committed, and sent again. -/
theorem executed_once_of_cancel : ∃ payload system,
    Runs (MoneyStep sampleDigest) ⟨paidStore, []⟩
      [(sampleCancel, none), (sampleCancel, some (.executed (.ok payload)))] system ∧
    (sampleCancel.handle sampleDigest (sampleServices (.ok ())) system.store).1 =
      .replayed payload := by
  obtain ⟨middle, hAcquired, hMem, ⟨sales, payload⟩, hCommits⟩ : ∃ middle : MoneySystem,
      MoneyStep sampleDigest ⟨paidStore, []⟩ (sampleCancel, none) middle ∧
      sampleCancel ∈ middle.underWay ∧ ∃ result,
        sampleCancel.transaction (sampleServices (.ok ())) middle.store.sales = .ok result :=
    ⟨_, .acquired rfl rfl rfl, List.mem_singleton_self _, _, rfl⟩
  have hExecuted : MoneyStep sampleDigest _ _ _ := .committed hMem hCommits
  exact ⟨payload, _, (Runs.single hAcquired).succ hExecuted, Option.some.inj
    ((executed_once sampleDigest (Runs.single hAcquired) hExecuted (Runs.zero _)
      (.handled _ sampleCancel) rfl).2 rfl)⟩

end Houndfe.Sales
