import Houndfe.Base.RowLocks
import Houndfe.Sales.Sale

/-! The rows of one persisted sale and the requests that write them, each as the list of
its database statements in source order. Statements are atomic and interleave under READ
COMMITTED; the statements on other tables (stock, payments, outbox) are left out, and any
failure of theirs is the failure of the request at that point. -/

namespace Houndfe.Sales.Persistence

open RowLocks

/-- The columns that `writeImpl` writes (`saleData`). -/
structure SaleData where
  status : SaleStatus
  channel : SaleChannel
  register : String
  deliveryStatus : SaleDeliveryStatus
  customerId : Option String
  shippingAddressId : Option String
  sellerUserId : Option String
  dueDate : Option Int
  confirmedAt : Option Int
  folio : Option String
  globalPriceListId : Option String
  priceListExplicitlySet : Bool
  deriving DecidableEq, Repr

/-- The columns that only a charge, a collection or a cancellation writes. -/
structure ChargeTotals where
  subtotalCents : Int
  discountCents : Int
  totalCents : Int
  paidCents : Int
  debtCents : Int
  changeDueCents : Int
  paymentStatus : Option SalePaymentStatus
  deriving DecidableEq, Repr

structure SaleRow where
  id : String
  userId : String
  createdAt : Option Int
  data : SaleData
  totals : ChargeTotals
  canceledAt : Option Int
  cancelReason : Option SaleCancelReason
  canceledByUserId : Option String
  deriving DecidableEq, Repr

def saleData (sale : Sale) : SaleData where
  status := sale.status
  channel := sale.channel
  register := sale.register
  deliveryStatus := sale.deliveryStatus
  customerId := sale.customerId
  shippingAddressId := sale.shippingAddressId
  sellerUserId := sale.sellerUserId
  dueDate := sale.dueDate
  confirmedAt := sale.confirmedAt
  folio := sale.folio
  globalPriceListId := sale.globalPriceListId
  priceListExplicitlySet := sale.priceListExplicitlySet

/-- The aggregate of a row, before its relations are read. -/
def SaleRow.hydrate (row : SaleRow) : Sale where
  id := row.id
  userId := row.userId
  status := row.data.status
  channel := row.data.channel
  register := row.data.register
  deliveryStatus := row.data.deliveryStatus
  customerId := row.data.customerId
  shippingAddressId := row.data.shippingAddressId
  sellerUserId := row.data.sellerUserId
  dueDate := row.data.dueDate
  items := []
  confirmedAt := row.data.confirmedAt
  folio := row.data.folio
  totalCents := row.totals.totalCents
  paidCents := row.totals.paidCents
  debtCents := row.totals.debtCents
  changeDueCents := row.totals.changeDueCents
  paymentStatus := row.totals.paymentStatus
  canceledAt := row.canceledAt
  cancelReason := row.cancelReason
  canceledByUserId := row.canceledByUserId
  createdAt := row.createdAt
  appliedOrderPromotion := none
  vetoedPromotionIds := []
  optedInManualPromotionIds := []
  globalPriceListId := row.data.globalPriceListId
  priceListExplicitlySet := row.data.priceListExplicitlySet

/-- The ids of lines and promotions in use. -/
structure SaleIds where
  itemIds : List String
  promotionIds : List String

/-- The sale's row and its relations. -/
structure SaleTables (Tid : Type) where
  sale : Row Tid SaleRow
  items : Table Tid SaleItem
  vetoes : Table Tid Unit
  optIns : Table Tid Unit
  applied : Row Tid (Option AppliedOrderPromotionSnapshot)

inductive WriteIntent where
  | draft
  | generic
  deriving DecidableEq, Repr

inductive Stmt where
  | readSale
  | readItems
  | readVetoes
  | readOptIns
  | readApplied
  | readPaymentStatus
  | service
  | lockSale
  | checkStatus (intent : WriteIntent)
  | compareItems
  | deleteItems
  | updateSale
  | createItems
  | deleteVetoes
  | createVetoes
  | deleteOptIns
  | createOptIns
  | writeApplied
  | confirmSale
  | persistCancellation
  | markSaleDelivered
  | commit
  deriving DecidableEq, Repr

/-- What a charge hands to `persistChargeConfirmation`. -/
structure ChargeConfirmation where
  sale : Sale
  totals : ChargeTotals
  confirmedAt : Int
  folio : String
  deriving DecidableEq, Repr

/-- The requests. A draft mutation and the computation of a charge are functions of the
sale they load: their own reads of catalog and promotions may return anything. -/
inductive Request where
  | assignSeller (sellerUserId : String)
  | clearSeller
  | setDueDate (now : Int) (dueDate : Option Int)
  | draft (mutate : Sale → Except DomainError Sale)
  | cancelSale (reason : SaleCancelReason) (actorId : String) (now : Int)
  | markSaleDelivered
  | charge (confirm : Sale → Except DomainError ChargeConfirmation)

/-- `findById`: one query for the row and one for each relation. -/
def load : List Stmt :=
  [.readSale, .readItems, .readVetoes, .readOptIns, .readApplied]

/-- The writes of `writeImpl` after its gates. -/
def rewrite : List Stmt :=
  [.deleteItems, .updateSale, .createItems, .deleteVetoes, .createVetoes, .deleteOptIns,
    .createOptIns, .writeApplied]

/-- `save`: the row is locked, but only after the aggregate was loaded. -/
def save : List Stmt :=
  .lockSale :: .checkStatus .generic :: .compareItems :: rewrite ++ [.commit]

/-- `saveDraftItems`: the status is read without a lock. -/
def saveDraftItems : List Stmt :=
  .checkStatus .draft :: rewrite ++ [.commit]

def persistChargeConfirmation : List Stmt :=
  [.deleteItems, .createItems, .writeApplied, .confirmSale]

def Request.program : Request → List Stmt
  | .assignSeller _ | .clearSeller => load ++ .service :: save
  | .setDueDate _ _ => load ++ .readPaymentStatus :: .service :: save
  | .draft _ => load ++ .service :: saveDraftItems
  | .cancelSale _ _ _ => .lockSale :: load ++ [.service, .persistCancellation, .commit]
  | .markSaleDelivered => [.markSaleDelivered, .commit]
  | .charge _ => .lockSale :: load ++ .service :: persistChargeConfirmation ++ [.commit]

/-- The variables of a request: its aggregate, the status it last read, and what a
charge confirms. -/
structure Vars where
  sale : Sale
  existing : SaleStatus
  confirmation : Option ChargeConfirmation
  deriving DecidableEq, Repr

def Vars.initial : Vars := ⟨.fresh "" "", .draft, none⟩

def dayOf (ms : Int) : Int := ms / 86400000

def saleNotDraft : DomainError := ruleCode "SALE_NOT_DRAFT"

/-- The service code between the load and the writes. -/
def Request.service (request : Request) (vars : Vars) : Except DomainError Vars :=
  match request with
  | .assignSeller sellerUserId => do
      let sale ← vars.sale.assignSeller sellerUserId
      return { vars with sale := sale }
  | .clearSeller => do
      let sale ← vars.sale.clearSeller
      return { vars with sale := sale }
  | .setDueDate now dueDate => do
      throwIf (vars.sale.status = .canceled) (ruleCode "SALE_CANCELED")
      throwIf (vars.sale.status ≠ .confirmed) (ruleCode "SALE_NOT_FOUND")
      throwIf (vars.sale.paymentStatus = some .paid) (ruleCode "SALE_FULLY_PAID")
      throwIf (∃ due ∈ dueDate, dayOf due < dayOf now) (ruleCode "INVALID_DUE_DATE")
      let sale ← vars.sale.setDueDate dueDate
      return { vars with sale := sale }
  | .draft mutate => do
      vars.sale.ensureDraft
      let sale ← mutate vars.sale
      return { vars with sale := sale }
  | .cancelSale reason actorId now =>
      if vars.sale.status = .canceled then .ok vars
      else do
        let (sale, _) ← vars.sale.cancel reason actorId now
        return { vars with sale := sale }
  | .markSaleDelivered => .ok vars
  | .charge confirm => do
      throwIf (vars.sale.status ≠ .draft) (ruleCode "SALE_ALREADY_CONFIRMED")
      let confirmation ← confirm vars.sale
      return { vars with sale := confirmation.sale, confirmation := some confirmation }

/-- `snapshotItemsEqual`: the same lines, by id and in every column. -/
def snapshotItemsEqual (incoming persisted : List SaleItem) : Prop :=
  incoming.length = persisted.length ∧ (incoming.map SaleItem.id).Nodup ∧
    (persisted.map SaleItem.id).Nodup ∧ ∀ item ∈ incoming, item ∈ persisted

instance (incoming persisted : List SaleItem) : Decidable (snapshotItemsEqual incoming persisted) :=
  inferInstanceAs (Decidable (_ ∧ _))

/-- What a statement comes to: it waits for a lock, fails the request, or is done. -/
inductive Outcome (α : Type) where
  | waits
  | fails (error : Option DomainError)
  | done (result : α)

namespace Outcome

variable {α β : Type}

def map (f : α → β) : Outcome α → Outcome β
  | waits => waits
  | fails error => fails error
  | done result => done (f result)

def ofLock : Option α → Outcome α
  | none => waits
  | some result => done result

def ofInsert : Option (Option α) → Outcome α
  | none => waits
  | some none => fails none
  | some (some result) => done result

theorem map_eq_done {f : α → β} {outcome : Outcome α} {b : β} :
    outcome.map f = done b ↔ ∃ a, outcome = done a ∧ f a = b := by
  cases outcome <;> simp [map]

theorem ofLock_eq_done {result : Option α} {a : α} : ofLock result = done a ↔ result = some a := by
  cases result <;> simp [ofLock]

theorem ofInsert_eq_done {result : Option (Option α)} {a : α} :
    ofInsert result = done a ↔ result = some (some a) := by
  rcases result with _ | _ | result <;> simp [ofInsert]

end Outcome

namespace SaleTables

variable {Tid : Type} [DecidableEq Tid]

/-- An `UPDATE` of the sale's row. -/
def updateSale (db : SaleTables Tid) (t : Tid) (f : SaleRow → SaleRow) :
    Outcome (SaleTables Tid) :=
  if db.sale.FreeFor t then
    .done { db with sale := db.sale.write t (f (db.sale.view t)) }
  else .waits

/-- The upsert or the delete of `sale_promotion_applied`. -/
def writeApplied (db : SaleTables Tid) (t : Tid)
    (snapshot : Option AppliedOrderPromotionSnapshot) : Outcome (SaleTables Tid) :=
  if snapshot = none ∧ db.applied.view t = none then .done db
  else if db.applied.FreeFor t then .done { db with applied := db.applied.write t snapshot }
  else .waits

def confirm (confirmation : ChargeConfirmation) (row : SaleRow) : SaleRow :=
  { row with
    data := { row.data with
      status := .confirmed
      deliveryStatus := confirmation.sale.deliveryStatus
      customerId := confirmation.sale.customerId
      sellerUserId := confirmation.sale.sellerUserId
      dueDate := confirmation.sale.dueDate
      confirmedAt := some confirmation.confirmedAt
      folio := some confirmation.folio }
    totals := confirmation.totals }

def cancel (sale : Sale) (row : SaleRow) : SaleRow :=
  { row with
    data := { row.data with status := .canceled }
    totals := { row.totals with
      debtCents := if sale.paymentStatus = some .credit then 0 else sale.debtCents }
    canceledAt := sale.canceledAt
    cancelReason := sale.cancelReason
    canceledByUserId := sale.canceledByUserId }

/-- The `where` of `markSaleDelivered`. -/
def deliverable (row : SaleRow) : Prop :=
  row.data.status = .confirmed ∧ row.data.deliveryStatus ≠ .notApplicable

instance (row : SaleRow) : Decidable (deliverable row) := inferInstanceAs (Decidable (_ ∧ _))

/-- The statements that change no row. -/
def query (ids : SaleIds) (db : SaleTables Tid) (t : Tid) (request : Request) (vars : Vars) :
    Stmt → Except DomainError Vars
  | .readSale =>
      .ok { vars with
        sale := (db.sale.view t).hydrate
        existing := (db.sale.view t).data.status }
  | .readVetoes =>
      .ok { vars with sale := { vars.sale with
        vetoedPromotionIds := ids.promotionIds.filter fun id => ((db.vetoes id).view t).isSome } }
  | .readOptIns =>
      .ok { vars with sale := { vars.sale with
        optedInManualPromotionIds :=
          ids.promotionIds.filter fun id => ((db.optIns id).view t).isSome } }
  | .readApplied =>
      .ok { vars with sale := { vars.sale with appliedOrderPromotion := db.applied.view t } }
  | .readPaymentStatus =>
      .ok { vars with sale := { vars.sale with
        paymentStatus := (db.sale.view t).totals.paymentStatus } }
  | .service => request.service vars
  | .checkStatus .draft => do
      throwIf ((db.sale.view t).data.status ≠ .draft ∨ vars.sale.status ≠ .draft) saleNotDraft
      return { vars with existing := (db.sale.view t).data.status }
  | .checkStatus .generic => do
      throwIf ((db.sale.view t).data.status ≠ .draft ∧ vars.sale.status = .draft) saleNotDraft
      return { vars with existing := (db.sale.view t).data.status }
  | .compareItems => do
      throwIf (vars.existing ≠ .draft ∧
        ¬ snapshotItemsEqual vars.sale.items (Table.visible ids.itemIds db.items t)) saleNotDraft
      return vars
  | _ => .ok vars

/-- The statements that lock or write rows. -/
def write (ids : SaleIds) (db : SaleTables Tid) (t : Tid) (vars : Vars) :
    Stmt → Outcome (SaleTables Tid)
  | .lockSale => db.updateSale t id
  | .deleteItems =>
      (Outcome.ofLock (Table.deleteMany ids.itemIds db.items t)).map ({ db with items := · })
  | .updateSale => db.updateSale t ({ · with data := saleData vars.sale })
  | .createItems =>
      (Outcome.ofInsert (Table.createMany ids.itemIds db.items t
        (vars.sale.items.map fun item => (item.id, item)))).map ({ db with items := · })
  | .deleteVetoes =>
      (Outcome.ofLock (Table.deleteMany ids.promotionIds db.vetoes t)).map ({ db with vetoes := · })
  | .createVetoes =>
      (Outcome.ofInsert (Table.createMany ids.promotionIds db.vetoes t
        (vars.sale.vetoedPromotionIds.map fun id => (id, ())))).map ({ db with vetoes := · })
  | .deleteOptIns =>
      (Outcome.ofLock (Table.deleteMany ids.promotionIds db.optIns t)).map ({ db with optIns := · })
  | .createOptIns =>
      (Outcome.ofInsert (Table.createMany ids.promotionIds db.optIns t
        (vars.sale.optedInManualPromotionIds.map fun id => (id, ())))).map ({ db with optIns := · })
  | .writeApplied => db.writeApplied t vars.sale.appliedOrderPromotion
  | .confirmSale =>
      match vars.confirmation with
      | none => .done db
      | some confirmation =>
          if (db.sale.view t).data.status ≠ .draft then .fails (some saleNotDraft)
          else db.updateSale t (confirm confirmation)
  | .persistCancellation =>
      -- a sale that was canceled already is answered again, without a write
      if vars.existing = .canceled then .done db else db.updateSale t (cancel vars.sale)
  | .markSaleDelivered =>
      if deliverable (db.sale.view t) then
        db.updateSale t fun row => { row with data := { row.data with deliveryStatus := .delivered } }
      else .done db
  | _ => .done db

/-- One statement: what it writes, then what it reads into the variables. -/
def exec (ids : SaleIds) (db : SaleTables Tid) (t : Tid) (request : Request) (stmt : Stmt)
    (vars : Vars) : Outcome (SaleTables Tid × Vars) :=
  match db.query ids t request vars stmt with
  | .error e => .fails (some e)
  | .ok vars' => (db.write ids t vars stmt).map fun db' => (db', vars')

theorem exec_eq_done {ids : SaleIds} {db db' : SaleTables Tid} {t : Tid} {request : Request}
    {stmt : Stmt} {vars vars' : Vars} :
    db.exec ids t request stmt vars = .done (db', vars') ↔
      db.query ids t request vars stmt = .ok vars' ∧ db.write ids t vars stmt = .done db' := by
  unfold exec
  cases db.query ids t request vars stmt with
  | error e => simp
  | ok read =>
      simp only [Outcome.map_eq_done, Prod.mk.injEq, Except.ok.injEq]
      constructor
      · rintro ⟨written, hWritten, rfl, rfl⟩
        exact ⟨rfl, hWritten⟩
      · rintro ⟨rfl, hWritten⟩
        exact ⟨db', hWritten, rfl, rfl⟩

theorem updateSale_eq_done {db db' : SaleTables Tid} {t : Tid} {f : SaleRow → SaleRow} :
    db.updateSale t f = .done db' ↔
      db.sale.FreeFor t ∧ { db with sale := db.sale.write t (f (db.sale.view t)) } = db' := by
  unfold updateSale
  split <;> simp [*]

/-- The version of the sale's row that a statement writes over the version `row`. -/
inductive RowWrite (vars : Vars) (row : SaleRow) : Stmt → SaleRow → Prop where
  | lock : RowWrite vars row .lockSale row
  | save : RowWrite vars row .updateSale { row with data := saleData vars.sale }
  | confirm (confirmation : ChargeConfirmation) (hConfirms : vars.confirmation = some confirmation)
      (hDraft : row.data.status = .draft) :
      RowWrite vars row .confirmSale (SaleTables.confirm confirmation row)
  | cancel : RowWrite vars row .persistCancellation (SaleTables.cancel vars.sale row)
  | deliver : RowWrite vars row .markSaleDelivered
      { row with data := { row.data with deliveryStatus := .delivered } }

/-- A table after a bulk statement of `t`: rows that `t` wrote, and rows left alone. -/
def WrittenBy {V : Type} (t : Tid) (before after : Table Tid V) : Prop :=
  ∀ key, after key = before key ∨
    ((before key).FreeFor t ∧ ∃ v, after key = (before key).write t v)

/-- Everything that one statement can do to the tables. -/
inductive WriteEffect (ids : SaleIds) (db : SaleTables Tid) (t : Tid) (vars : Vars) :
    Stmt → SaleTables Tid → Prop where
  | nothing {stmt : Stmt} (hLock : stmt ≠ .lockSale) (hSave : stmt ≠ .updateSale)
      (hDelete : stmt ≠ .deleteItems) (hCreate : stmt ≠ .createItems)
      (hApplied : stmt = .writeApplied → db.applied.view t = vars.sale.appliedOrderPromotion)
      (hConfirm : stmt = .confirmSale → vars.confirmation = none) :
      WriteEffect ids db t vars stmt db
  | sale {stmt : Stmt} (row : SaleRow) (hFree : db.sale.FreeFor t)
      (hWrite : RowWrite vars (db.sale.view t) stmt row) :
      WriteEffect ids db t vars stmt { db with sale := db.sale.write t row }
  | deleteItems (items : Table Tid SaleItem)
      (hItems : Table.deleteMany ids.itemIds db.items t = some items) :
      WriteEffect ids db t vars .deleteItems { db with items := items }
  | createItems (items : Table Tid SaleItem)
      (hItems : Table.createMany ids.itemIds db.items t
        (vars.sale.items.map fun item => (item.id, item)) = some (some items)) :
      WriteEffect ids db t vars .createItems { db with items := items }
  | vetoes {stmt : Stmt} (vetoes : Table Tid Unit) (hStmt : stmt = .deleteVetoes ∨ stmt = .createVetoes)
      (hVetoes : WrittenBy t db.vetoes vetoes) :
      WriteEffect ids db t vars stmt { db with vetoes := vetoes }
  | optIns {stmt : Stmt} (optIns : Table Tid Unit) (hStmt : stmt = .deleteOptIns ∨ stmt = .createOptIns)
      (hOptIns : WrittenBy t db.optIns optIns) :
      WriteEffect ids db t vars stmt { db with optIns := optIns }
  | applied (hFree : db.applied.FreeFor t) :
      WriteEffect ids db t vars .writeApplied
        { db with applied := db.applied.write t vars.sale.appliedOrderPromotion }

theorem WrittenBy.of_deleteMany {V : Type} {keys : List String} {t : Tid}
    {before after : Table Tid V} (h : Table.deleteMany keys before t = some after) :
    WrittenBy t before after := by
  intro key
  rcases Table.deleteMany_eq_some h key with hSame | ⟨hFree, hWritten⟩
  · exact Or.inl hSame
  · exact Or.inr ⟨hFree, _, hWritten⟩

theorem WrittenBy.of_createMany {V : Type} {keys : List String} {t : Tid}
    {before after : Table Tid V} {rows : List (String × V)}
    (h : Table.createMany keys before t rows = some (some after)) : WrittenBy t before after := by
  intro key
  rcases Table.createMany_eq_some h key with hSame | ⟨hFree, v, hWritten⟩
  · exact Or.inl hSame
  · exact Or.inr ⟨hFree, _, hWritten⟩

theorem updateSale_effect {ids : SaleIds} {db db' : SaleTables Tid} {t : Tid}
    {f : SaleRow → SaleRow} {vars : Vars} {stmt : Stmt} (h : db.updateSale t f = .done db')
    (hWrite : RowWrite vars (db.sale.view t) stmt (f (db.sale.view t))) :
    WriteEffect ids db t vars stmt db' := by
  obtain ⟨hFree, rfl⟩ := updateSale_eq_done.mp h
  exact WriteEffect.sale _ hFree hWrite

theorem WriteEffect.of_read {ids : SaleIds} {db : SaleTables Tid} {t : Tid} {vars : Vars}
    {stmt : Stmt} (h : stmt ∉ [.lockSale, .updateSale, .deleteItems, .createItems, .writeApplied,
      .confirmSale]) : WriteEffect ids db t vars stmt db := by
  simp only [List.mem_cons, List.not_mem_nil, or_false, not_or] at h
  obtain ⟨hLock, hSave, hDelete, hCreate, hApplied, hConfirm⟩ := h
  exact WriteEffect.nothing hLock hSave hDelete hCreate (absurd · hApplied) (absurd · hConfirm)

theorem write_effect {ids : SaleIds} {db db' : SaleTables Tid} {t : Tid} {vars : Vars}
    {stmt : Stmt} (h : db.write ids t vars stmt = .done db') :
    WriteEffect ids db t vars stmt db' := by
  cases stmt with
  | lockSale => exact updateSale_effect h .lock
  | updateSale =>
      simp only [write] at h
      exact updateSale_effect h .save
  | confirmSale =>
      simp only [write] at h
      split at h
      · next hNone =>
          cases h
          exact WriteEffect.nothing (by simp) (by simp) (by simp) (by simp) (by simp) fun _ => hNone
      · next confirmation hConfirms =>
          split at h
          · cases h
          · next hDraft =>
              exact updateSale_effect h (.confirm confirmation hConfirms (not_not.mp hDraft))
  | persistCancellation =>
      simp only [write] at h
      split at h
      · cases h
        exact WriteEffect.of_read (by simp)
      · exact updateSale_effect h .cancel
  | markSaleDelivered =>
      simp only [write] at h
      split at h
      · exact updateSale_effect h .deliver
      · cases h
        exact WriteEffect.of_read (by simp)
  | deleteItems =>
      obtain ⟨items, hItems, rfl⟩ := Outcome.map_eq_done.mp h
      exact WriteEffect.deleteItems items (Outcome.ofLock_eq_done.mp hItems)
  | createItems =>
      obtain ⟨items, hItems, rfl⟩ := Outcome.map_eq_done.mp h
      exact WriteEffect.createItems items (Outcome.ofInsert_eq_done.mp hItems)
  | deleteVetoes =>
      obtain ⟨vetoes, hVetoes, rfl⟩ := Outcome.map_eq_done.mp h
      exact WriteEffect.vetoes vetoes (Or.inl rfl) (.of_deleteMany (Outcome.ofLock_eq_done.mp hVetoes))
  | createVetoes =>
      obtain ⟨vetoes, hVetoes, rfl⟩ := Outcome.map_eq_done.mp h
      exact WriteEffect.vetoes vetoes (Or.inr rfl)
        (.of_createMany (Outcome.ofInsert_eq_done.mp hVetoes))
  | deleteOptIns =>
      obtain ⟨optIns, hOptIns, rfl⟩ := Outcome.map_eq_done.mp h
      exact WriteEffect.optIns optIns (Or.inl rfl) (.of_deleteMany (Outcome.ofLock_eq_done.mp hOptIns))
  | createOptIns =>
      obtain ⟨optIns, hOptIns, rfl⟩ := Outcome.map_eq_done.mp h
      exact WriteEffect.optIns optIns (Or.inr rfl)
        (.of_createMany (Outcome.ofInsert_eq_done.mp hOptIns))
  | writeApplied =>
      simp only [write, writeApplied] at h
      split at h
      · next hNone =>
          cases h
          exact WriteEffect.nothing (by simp) (by simp) (by simp) (by simp)
            (fun _ => hNone.2.trans hNone.1.symm) (by simp)
      · split at h
        · next hFree =>
            cases h
            exact WriteEffect.applied hFree
        · cases h
  | _ =>
      cases h
      exact WriteEffect.of_read (by simp)

theorem WriteEffect.sale_committed {ids : SaleIds} {db db' : SaleTables Tid} {t : Tid}
    {vars : Vars} {stmt : Stmt} (h : WriteEffect ids db t vars stmt db') :
    db'.sale.committed = db.sale.committed := by
  cases h <;> rfl

/-- The end of `t`: `endRow` is what becomes of each row. -/
def finish (db : SaleTables Tid) (endRow : {V : Type} → Row Tid V → Row Tid V) :
    SaleTables Tid where
  sale := endRow db.sale
  items key := endRow (db.items key)
  vetoes key := endRow (db.vetoes key)
  optIns key := endRow (db.optIns key)
  applied := endRow db.applied

def commit (db : SaleTables Tid) (t : Tid) : SaleTables Tid :=
  db.finish (·.commit t)

def rollback (db : SaleTables Tid) (t : Tid) : SaleTables Tid :=
  db.finish (·.rollback t)

end SaleTables

/-- What a connection is doing. -/
inductive Work where
  | idle
  | running (request : Request) (todo : List Stmt) (vars : Vars)
  | failed (error : Option DomainError)

/-- The next statement of a request and the variables that it finds. -/
def Work.next : Work → Option (Stmt × Vars)
  | .running _ (stmt :: _) vars => some (stmt, vars)
  | _ => none

structure SaleStore (Tid : Type) where
  tables : SaleTables Tid
  work : Tid → Work

inductive Label (Tid : Type) where
  | start (t : Tid) (request : Request)
  | run (t : Tid)
  | readItems (t : Tid) (items : List SaleItem)
  | fail (t : Tid)
  | rollback (t : Tid)

namespace SaleStore

variable {Tid : Type} [DecidableEq Tid]

def setWork (store : SaleStore Tid) (t : Tid) (work : Work) : SaleStore Tid :=
  { store with work := Function.update store.work t work }

def start (store : SaleStore Tid) (t : Tid) (request : Request) : Option (SaleStore Tid) :=
  match store.work t with
  | .idle => some (store.setWork t (.running request request.program .initial))
  | _ => none

/-- The next statement of `t`. -/
def run (ids : SaleIds) (store : SaleStore Tid) (t : Tid) : Option (SaleStore Tid) :=
  match store.work t with
  | .running _ [.commit] _ => some ⟨store.tables.commit t, Function.update store.work t .idle⟩
  | .running _ (.readItems :: _) _ => none
  | .running request (stmt :: rest) vars =>
      match store.tables.exec ids t request stmt vars with
      | .waits => none
      | .fails error => some (store.setWork t (.failed error))
      | .done (tables, vars') =>
          some ⟨tables, Function.update store.work t (.running request rest vars')⟩
  | _ => none

/-- A read of the lines, which come in any order. -/
def readItems (ids : SaleIds) (store : SaleStore Tid) (t : Tid) (items : List SaleItem) :
    Option (SaleStore Tid) :=
  match store.work t with
  | .running request (.readItems :: rest) vars =>
      if items.Perm (Table.visible ids.itemIds store.tables.items t) then
        some (store.setWork t
          (.running request rest { vars with sale := { vars.sale with items := items } }))
      else none
  | _ => none

/-- What a step of the request that `t` runs can be. -/
theorem run_cases {ids : SaleIds} {store store' : SaleStore Tid} {t : Tid}
    (h : store.run ids t = some store') :
    (∃ request vars, store.work t = .running request [.commit] vars ∧
      store' = ⟨store.tables.commit t, Function.update store.work t .idle⟩) ∨
    (∃ request stmt rest vars, store.work t = .running request (stmt :: rest) vars ∧
      stmt :: rest ≠ [.commit] ∧ stmt ≠ .readItems ∧
        ((∃ error, store.tables.exec ids t request stmt vars = .fails error ∧
            store' = store.setWork t (.failed error)) ∨
          ∃ tables vars', store.tables.exec ids t request stmt vars = .done (tables, vars') ∧
            store' = ⟨tables, Function.update store.work t (.running request rest vars')⟩)) := by
  unfold run at h
  split at h
  · next request vars hWork =>
      cases h
      exact Or.inl ⟨request, vars, hWork, rfl⟩
  · cases h
  · next request stmt rest vars hCommit hRead hWork =>
      refine Or.inr ⟨request, stmt, rest, vars, hWork, ?_, ?_, ?_⟩
      · rintro ⟨⟩
        exact hCommit rfl rfl
      · rintro rfl
        exact hRead rfl
      · split at h
        · cases h
        · next error hExec =>
            cases h
            exact Or.inl ⟨error, hExec, rfl⟩
        · next tables vars' hExec =>
            cases h
            exact Or.inr ⟨tables, vars', hExec, rfl⟩
  · cases h

theorem readItems_cases {ids : SaleIds} {store store' : SaleStore Tid} {t : Tid}
    {items : List SaleItem} (h : store.readItems ids t items = some store') :
    ∃ request rest vars, store.work t = .running request (.readItems :: rest) vars ∧
      items.Perm (Table.visible ids.itemIds store.tables.items t) ∧
        store' = store.setWork t
          (.running request rest { vars with sale := { vars.sale with items := items } }) := by
  unfold readItems at h
  split at h
  · next request rest vars hWork =>
      obtain ⟨hItems, hStore⟩ := Option.ite_none_right_eq_some.mp h
      cases hStore
      exact ⟨request, rest, vars, hWork, hItems, rfl⟩
  · cases h

theorem start_cases {store store' : SaleStore Tid} {t : Tid} {request : Request}
    (h : store.start t request = some store') :
    store.work t = .idle ∧
      store' = store.setWork t (.running request request.program .initial) := by
  unfold start at h
  split at h
  · next hWork =>
      cases h
      exact ⟨hWork, rfl⟩
  · cases h

def step (ids : SaleIds) (store : SaleStore Tid) : Label Tid → Option (SaleStore Tid)
  | .start t request => store.start t request
  | .run t => store.run ids t
  | .readItems t items => store.readItems ids t items
  | .fail t => some (store.setWork t (.failed none))
  | .rollback t =>
      some ⟨store.tables.rollback t, Function.update store.work t .idle⟩

/-- No request is in progress and nobody holds the sale's row. -/
def Quiet (store : SaleStore Tid) : Prop :=
  (∀ t, store.work t = .idle) ∧ store.tables.sale.held = none

end SaleStore

end Houndfe.Sales.Persistence
