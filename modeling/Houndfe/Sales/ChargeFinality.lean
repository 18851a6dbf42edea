import Houndfe.Base.Transition
import Houndfe.Sales.SaleStore
import Mathlib.Data.List.Infix

/-! The charge of a draft against its concurrent draft mutations. A draft write reads the
status without a lock, so a charge may commit between that read and the update of the row.
In the runs where every draft write updates a row that is still a draft, a committed charge
is final. -/

namespace Houndfe.Sales.Persistence

open RowLocks Transition

/-- The draft mutations and the charge. -/
def Request.OfDraft : Request → Prop
  | .draft _ | .charge _ => True
  | _ => False

instance : (request : Request) → Decidable request.OfDraft
  | .draft _ | .charge _ => isTrue trivial
  | .assignSeller _ | .clearSeller | .setDueDate _ _ | .cancelSale _ _ _
  | .markSaleDelivered => isFalse id

def draftProgram : List Stmt := load ++ .service :: saveDraftItems

def chargeProgram : List Stmt :=
  .lockSale :: load ++ .service :: persistChargeConfirmation ++ [.commit]

/-- A charge that has only its commit left. -/
def Work.CommitsCharge : Work → Prop
  | .running (.charge _) todo _ => todo = [.commit]
  | _ => False

instance : (work : Work) → Decidable work.CommitsCharge
  | .running (.charge _) todo _ => inferInstanceAs (Decidable (todo = _))
  | .running (.draft _) _ _ | .running (.assignSeller _) _ _ | .running .clearSeller _ _
  | .running (.setDueDate _ _) _ _ | .running (.cancelSale _ _ _) _ _
  | .running .markSaleDelivered _ _ | .idle | .failed _ => isFalse id

theorem Work.CommitsCharge.exists_confirm {work : Work} (h : work.CommitsCharge) :
    ∃ confirm vars, work = .running (.charge confirm) [.commit] vars := by
  cases work with
  | running request todo vars =>
      cases request with
      | charge confirm => exact ⟨confirm, vars, by rw [show todo = [.commit] from h]⟩
      | _ => exact absurd h id
  | _ => exact absurd h id

/-- The line of an id, among the lines a charge persists. -/
def lineOf (items : List SaleItem) (id : String) : Option SaleItem :=
  (items.map fun item => (item.id, item)).lookup id

section

variable {Tid : Type}

/-- The committed rows of the sale are the same. -/
structure SameCommitted (db db' : SaleTables Tid) : Prop where
  sale : db'.sale.committed = db.sale.committed
  items : ∀ id, (db'.items id).committed = (db.items id).committed
  vetoes : ∀ id, (db'.vetoes id).committed = (db.vetoes id).committed
  optIns : ∀ id, (db'.optIns id).committed = (db.optIns id).committed
  applied : db'.applied.committed = db.applied.committed

theorem SameCommitted.refl (db : SaleTables Tid) : SameCommitted db db :=
  ⟨rfl, fun _ => rfl, fun _ => rfl, fun _ => rfl, rfl⟩

theorem SameCommitted.trans {a b c : SaleTables Tid} (hFirst : SameCommitted a b)
    (hSecond : SameCommitted b c) : SameCommitted a c :=
  ⟨hSecond.sale.trans hFirst.sale, fun id => (hSecond.items id).trans (hFirst.items id),
    fun id => (hSecond.vetoes id).trans (hFirst.vetoes id),
    fun id => (hSecond.optIns id).trans (hFirst.optIns id),
    hSecond.applied.trans hFirst.applied⟩

variable [DecidableEq Tid]

def Label.OfDraft : Label Tid → Prop
  | .start _ request => request.OfDraft
  | _ => True

instance : (label : Label Tid) → Decidable label.OfDraft
  | .start _ request => inferInstanceAs (Decidable request.OfDraft)
  | .run _ | .readItems _ _ | .fail _ | .rollback _ => isTrue trivial

/-- A draft write that is about to update the sale's row finds it a draft. -/
def UpdatesDraft (store : SaleStore Tid) : Label Tid → Prop
  | .run t => ∀ next ∈ (store.work t).next, next.1 = .updateSale →
      (store.tables.sale.view t).data.status = .draft
  | _ => True

instance (store : SaleStore Tid) : (label : Label Tid) → Decidable (UpdatesDraft store label)
  | .run _ => inferInstanceAs (Decidable (∀ _ ∈ _, _))
  | .start _ _ | .readItems _ _ | .fail _ | .rollback _ => isTrue trivial

/-- What the database is to `t` when only others have moved. -/
structure SeesSame (t : Tid) (db db' : SaleTables Tid) : Prop where
  committed : db'.sale.committed = db.sale.committed
  held : db'.sale.HeldBy t ↔ db.sale.HeldBy t
  sale : db'.sale.view t = db.sale.view t
  items : ∀ id, (db'.items id).view t = (db.items id).view t
  applied : db'.applied.view t = db.applied.view t

theorem SeesSame.refl (t : Tid) (db : SaleTables Tid) : SeesSame t db db :=
  ⟨rfl, Iff.rfl, rfl, fun _ => rfl, rfl⟩


/-- A statement of `t` changes nothing that `u` sees. -/
theorem write_seesSame {ids : SaleIds} {db db' : SaleTables Tid} {t u : Tid} {vars : Vars}
    {stmt : Stmt} (hEffect : SaleTables.WriteEffect ids db t vars stmt db') (hne : u ≠ t) :
    SeesSame u db db' := by
  have hTable : ∀ {V : Type} {before after : Table Tid V}, SaleTables.WrittenBy t before after →
      ∀ key, (after key).view u = (before key).view u := by
    intro V before after h key
    rcases h key with hSame | ⟨hFree, v, hWritten⟩
    · rw [hSame]
    · rw [hWritten, Row.view_write_other _ _ hFree hne]
  cases hEffect with
  | nothing => exact SeesSame.refl _ _
  | sale row hFree _ =>
      exact ⟨rfl, Row.heldBy_write_other _ _ hFree hne, Row.view_write_other _ _ hFree hne,
        fun _ => rfl, rfl⟩
  | deleteItems items hItems =>
      exact ⟨rfl, Iff.rfl, rfl, hTable (.of_deleteMany hItems), rfl⟩
  | createItems items hItems =>
      exact ⟨rfl, Iff.rfl, rfl, hTable (.of_createMany hItems), rfl⟩
  | vetoes | optIns => exact ⟨rfl, Iff.rfl, rfl, fun _ => rfl, rfl⟩
  | applied hFree =>
      exact ⟨rfl, Iff.rfl, rfl, fun _ => rfl, Row.view_write_other _ _ hFree hne⟩

theorem rollback_seesSame (db : SaleTables Tid) {t u : Tid} (hne : u ≠ t) :
    SeesSame u db (db.rollback t) :=
  ⟨Row.rollback_committed _ _, Row.heldBy_rollback_other _ hne, Row.view_rollback_other _ hne,
    fun _ => Row.view_rollback_other _ hne, Row.view_rollback_other _ hne⟩

/-- A draft mutation holds the sale's row from its update on, and then the row is a draft,
as committed and in its version. -/
structure DraftSound (db : SaleTables Tid) (t : Tid) (todo : List Stmt) (vars : Vars) : Prop where
  suffix : todo <:+ draftProgram
  checked : .checkStatus .draft ∉ todo → vars.sale.status = .draft
  before : .updateSale ∈ todo → ¬ db.sale.HeldBy t
  after : .updateSale ∉ todo → db.sale.HeldBy t ∧ (db.sale.view t).data.status = .draft ∧
    db.sale.committed.data.status = .draft

/-- A charge holds the sale's row from its start; past the service code the committed
sale is a draft, and each write leaves the rows as it confirms them. -/
structure ChargeSound (ids : SaleIds) (db : SaleTables Tid) (t : Tid) (todo : List Stmt)
    (vars : Vars) : Prop where
  suffix : todo <:+ chargeProgram
  before : .lockSale ∈ todo → ¬ db.sale.HeldBy t
  locked : .lockSale ∉ todo → db.sale.HeldBy t
  unchanged : .confirmSale ∈ todo → db.sale.view t = db.sale.committed
  read : .readSale ∉ todo → .service ∈ todo →
    vars.sale.status = db.sale.committed.data.status
  checked : .service ∉ todo → db.sale.committed.data.status = .draft ∧
    ∃ confirmation, vars.confirmation = some confirmation ∧ vars.sale = confirmation.sale
  deleted : .deleteItems ∉ todo → .createItems ∈ todo →
    ∀ id ∈ ids.itemIds, (db.items id).view t = none
  created : .createItems ∉ todo →
    ∀ id ∈ ids.itemIds, (db.items id).view t = lineOf vars.sale.items id
  applied : .writeApplied ∉ todo → db.applied.view t = vars.sale.appliedOrderPromotion
  confirmed : .confirmSale ∉ todo → ∀ confirmation, vars.confirmation = some confirmation →
    db.sale.view t = SaleTables.confirm confirmation db.sale.committed

def Work.Sound (ids : SaleIds) (db : SaleTables Tid) (t : Tid) : Work → Prop
  | .idle => ¬ db.sale.HeldBy t
  | .failed _ => True
  | .running (.draft _) todo vars => DraftSound db t todo vars
  | .running (.charge _) todo vars => ChargeSound ids db t todo vars
  | .running _ _ _ => False

/-- What `t` has established stands while only others move. -/
theorem Work.Sound.of_seesSame {ids : SaleIds} {db db' : SaleTables Tid} {t : Tid} {work : Work}
    (h : work.Sound ids db t) (hSame : SeesSame t db db') : work.Sound ids db' t := by
  obtain ⟨hCommitted, hHeld, hSale, hItems, hApplied⟩ := hSame
  cases work with
  | idle =>
      show ¬ db'.sale.HeldBy t
      rw [hHeld]
      exact h
  | failed error => trivial
  | running request todo vars =>
      cases request with
      | draft mutate =>
          obtain ⟨hSuffix, hChecked, hBefore, hAfter⟩ := h
          refine ⟨hSuffix, hChecked, ?_, ?_⟩
          · rw [hHeld]
            exact hBefore
          · rw [hHeld, hSale, hCommitted]
            exact hAfter
      | charge confirm =>
          obtain ⟨hSuffix, hBefore, hLocked, hUnchanged, hRead, hChecked, hDeleted, hCreated,
            hOrder, hConfirmed⟩ := h
          refine ⟨hSuffix, ?_, ?_, ?_, ?_, ?_, ?_, ?_, ?_, ?_⟩
          · rw [hHeld]
            exact hBefore
          · rw [hHeld]
            exact hLocked
          · rw [hSale, hCommitted]
            exact hUnchanged
          · rw [hCommitted]
            exact hRead
          · rw [hCommitted]
            exact hChecked
          · simp only [hItems]
            exact hDeleted
          · simp only [hItems]
            exact hCreated
          · rw [hApplied]
            exact hOrder
          · rw [hSale, hCommitted]
            exact hConfirmed
      | _ => exact h


/-- The statements that write the sale's row. -/
def saleWrites : List Stmt :=
  [.lockSale, .updateSale, .confirmSale, .persistCancellation, .markSaleDelivered]

theorem sale_same {ids : SaleIds} {db db' : SaleTables Tid} {t : Tid} {vars : Vars} {stmt : Stmt}
    (hEffect : SaleTables.WriteEffect ids db t vars stmt db') (hStmt : stmt ∉ saleWrites) :
    db'.sale = db.sale := by
  cases hEffect with
  | sale row _ hWrite => cases hWrite <;> simp [saleWrites] at hStmt
  | _ => rfl

theorem items_same {ids : SaleIds} {db db' : SaleTables Tid} {t : Tid} {vars : Vars} {stmt : Stmt}
    (hEffect : SaleTables.WriteEffect ids db t vars stmt db') (hDelete : stmt ≠ .deleteItems)
    (hCreate : stmt ≠ .createItems) : db'.items = db.items := by
  cases hEffect with
  | deleteItems => exact absurd rfl hDelete
  | createItems => exact absurd rfl hCreate
  | _ => rfl

theorem applied_same {ids : SaleIds} {db db' : SaleTables Tid} {t : Tid} {vars : Vars}
    {stmt : Stmt} (hEffect : SaleTables.WriteEffect ids db t vars stmt db')
    (hStmt : stmt ≠ .writeApplied) : db'.applied = db.applied := by
  cases hEffect with
  | applied => exact absurd rfl hStmt
  | _ => rfl

theorem still_held {ids : SaleIds} {db db' : SaleTables Tid} {t : Tid} {vars : Vars} {stmt : Stmt}
    (hEffect : SaleTables.WriteEffect ids db t vars stmt db') (hHeld : db.sale.HeldBy t) :
    db'.sale.HeldBy t := by
  cases hEffect with
  | sale row _ _ => exact Row.heldBy_write_self _ _ _
  | _ => exact hHeld

/-- The statements after the service code read nothing into the variables. -/
theorem query_of_write {ids : SaleIds} {db : SaleTables Tid} {t : Tid} {request : Request}
    {vars vars' : Vars} {stmt : Stmt} (hStmt : stmt ∈ rewrite ++ [.confirmSale, .commit])
    (h : db.query ids t request vars stmt = .ok vars') : vars' = vars := by
  simp only [rewrite, List.cons_append, List.nil_append, List.mem_cons, List.not_mem_nil,
    or_false] at hStmt
  rcases hStmt with rfl | rfl | rfl | rfl | rfl | rfl | rfl | rfl | rfl | rfl <;>
    exact (Except.ok.inj h).symm

/-- What lies around each statement of a draft mutation. -/
theorem draft_order {stmt : Stmt} {rest : List Stmt} (h : stmt :: rest <:+ draftProgram) :
    (.checkStatus .draft ∉ stmt :: rest → stmt ∈ rewrite ++ [.confirmSale, .commit]) ∧
      (stmt ∈ saleWrites → stmt = .updateSale) ∧ (.updateSale ∈ rest → stmt ≠ .updateSale) ∧
        (stmt = .updateSale → .checkStatus .draft ∉ stmt :: rest) ∧
          (stmt = .checkStatus .draft → .updateSale ∈ rest) := by
  have hAll : ∀ l ∈ draftProgram.tails, ∀ stmt ∈ l.head?,
      (.checkStatus .draft ∉ l → stmt ∈ rewrite ++ [.confirmSale, .commit]) ∧
        (stmt ∈ saleWrites → stmt = .updateSale) ∧ (.updateSale ∈ l.tail → stmt ≠ .updateSale) ∧
          (stmt = .updateSale → .checkStatus .draft ∉ l) ∧
            (stmt = .checkStatus .draft → .updateSale ∈ l.tail) := by decide
  exact hAll _ ((List.mem_tails _ _).mpr h) stmt rfl

theorem of_not_mem_rest (stmt : Stmt) {other : Stmt} {rest : List Stmt} (h : other ∉ rest) :
    stmt = other ∨ other ∉ stmt :: rest := by
  by_cases hEq : stmt = other
  · exact Or.inl hEq
  · exact Or.inr fun hMem => (List.mem_cons.mp hMem).elim (fun h' => hEq h'.symm) h

theorem draftSound_exec {ids : SaleIds} {db db' : SaleTables Tid} {t : Tid}
    {mutate : Sale → Except DomainError Sale} {stmt : Stmt} {rest : List Stmt} {vars vars' : Vars}
    (h : DraftSound db t (stmt :: rest) vars)
    (hCurrent : stmt = .updateSale → (db.sale.view t).data.status = .draft)
    (hExec : db.exec ids t (.draft mutate) stmt vars = .done (db', vars')) :
    DraftSound db' t rest vars' := by
  obtain ⟨hQuery, hWrite⟩ := SaleTables.exec_eq_done.mp hExec
  have hEffect := SaleTables.write_effect hWrite
  obtain ⟨hWrites, hSaleWrite, hOnce, hChecked, _⟩ := draft_order h.suffix
  refine ⟨(List.suffix_cons _ _).trans h.suffix, ?_, ?_, ?_⟩
  · intro hPast
    rcases of_not_mem_rest stmt hPast with rfl | hOld
    · simp only [SaleTables.query, bind_eq_ok, throwIf_eq_ok, exists_const, pure_eq_ok] at hQuery
      obtain ⟨hStatus, rfl⟩ := hQuery
      exact not_not.mp (not_or.mp hStatus).2
    · rw [query_of_write (hWrites hOld) hQuery]
      exact h.checked hOld
  · intro hAhead
    have hNot : stmt ∉ saleWrites := fun hMem => hOnce hAhead (hSaleWrite hMem)
    rw [sale_same hEffect hNot]
    exact h.before (List.mem_cons_of_mem _ hAhead)
  · intro hPast
    rcases of_not_mem_rest stmt hPast with rfl | hOld
    · have hDraft := h.checked (hChecked rfl)
      have hView := Row.view_of_not_heldBy _ _ (h.before (List.mem_cons_self ..))
      have hCommitted := hCurrent rfl
      rw [hView] at hCommitted
      cases hEffect with
      | nothing _ hSave => exact absurd rfl hSave
      | sale row _ hRow =>
          cases hRow
          refine ⟨Row.heldBy_write_self _ _ _, ?_, hCommitted⟩
          rw [Row.view_write_self]
          exact hDraft
      | vetoes _ hStmt => simp at hStmt
      | optIns _ hStmt => simp at hStmt
    · have hNot : stmt ∉ saleWrites :=
        fun hMem => hOld (hSaleWrite hMem ▸ List.mem_cons_self ..)
      rw [sale_same hEffect hNot]
      exact h.after hOld


/-- What lies around each statement of a charge: its lock and its reads. -/
theorem charge_reads {stmt : Stmt} {rest : List Stmt} (h : stmt :: rest <:+ chargeProgram) :
    .lockSale ∉ rest ∧ (.confirmSale ∈ rest → stmt ∈ saleWrites → stmt = .lockSale) ∧
      (.service ∈ rest → stmt ∈ .lockSale :: load) ∧ (stmt = .service → .readSale ∉ stmt :: rest) ∧
        (stmt = .readSale → .confirmSale ∈ stmt :: rest) := by
  have hAll : ∀ l ∈ chargeProgram.tails, ∀ stmt ∈ l.head?,
      .lockSale ∉ l.tail ∧ (.confirmSale ∈ l.tail → stmt ∈ saleWrites → stmt = .lockSale) ∧
        (.service ∈ l.tail → stmt ∈ .lockSale :: load) ∧ (stmt = .service → .readSale ∉ l) ∧
          (stmt = .readSale → .confirmSale ∈ l) := by decide
  exact hAll _ ((List.mem_tails _ _).mpr h) stmt rfl

/-- What lies around each statement of a charge: its writes. -/
theorem charge_writes {stmt : Stmt} {rest : List Stmt} (h : stmt :: rest <:+ chargeProgram) :
    (.service ∉ stmt :: rest → stmt ∈ rewrite ++ [.confirmSale, .commit]) ∧
      (.createItems ∈ rest → .deleteItems ∉ rest → stmt = .deleteItems) ∧
        (stmt = .createItems → .deleteItems ∉ stmt :: rest) := by
  have hAll : ∀ l ∈ chargeProgram.tails, ∀ stmt ∈ l.head?,
      (.service ∉ l → stmt ∈ rewrite ++ [.confirmSale, .commit]) ∧
        (.createItems ∈ l.tail → .deleteItems ∉ l.tail → stmt = .deleteItems) ∧
          (stmt = .createItems → .deleteItems ∉ l) := by decide
  exact hAll _ ((List.mem_tails _ _).mpr h) stmt rfl

theorem charge_past {stmt : Stmt} {rest : List Stmt} (h : stmt :: rest <:+ chargeProgram) :
    (.createItems ∉ stmt :: rest → .service ∉ stmt :: rest ∧ stmt ≠ .deleteItems) ∧
      (.writeApplied ∉ stmt :: rest → .service ∉ stmt :: rest) ∧
        (.confirmSale ∉ stmt :: rest → stmt :: rest = [.commit]) := by
  have hAll : ∀ l ∈ chargeProgram.tails, ∀ stmt ∈ l.head?,
      (.createItems ∉ l → .service ∉ l ∧ stmt ≠ .deleteItems) ∧
        (.writeApplied ∉ l → .service ∉ l) ∧ (.confirmSale ∉ l → l = [.commit]) := by decide
  exact hAll _ ((List.mem_tails _ _).mpr h) stmt rfl

theorem query_of_load {ids : SaleIds} {db : SaleTables Tid} {t : Tid} {request : Request}
    {vars vars' : Vars} {stmt : Stmt} (hStmt : stmt ∈ .lockSale :: load)
    (h : db.query ids t request vars stmt = .ok vars') (hRead : stmt ≠ .readSale) :
    vars'.sale.status = vars.sale.status := by
  simp only [load, List.mem_cons, List.not_mem_nil, or_false] at hStmt
  rcases hStmt with rfl | rfl | rfl | rfl | rfl | rfl
  · rw [← Except.ok.inj h]
  · exact absurd rfl hRead
  · rw [← Except.ok.inj h]
  · rw [← Except.ok.inj h]
  · rw [← Except.ok.inj h]
  · rw [← Except.ok.inj h]

theorem charge_service {confirm : Sale → Except DomainError ChargeConfirmation} {vars vars' : Vars}
    (h : (Request.charge confirm).service vars = .ok vars') :
    vars.sale.status = .draft ∧
      ∃ confirmation, vars'.confirmation = some confirmation ∧ vars'.sale = confirmation.sale := by
  simp only [Request.service, bind_eq_ok, throwIf_eq_ok, exists_const, pure_eq_ok] at h
  obtain ⟨hDraft, confirmation, _, rfl⟩ := h
  exact ⟨not_not.mp hDraft, confirmation, rfl, rfl⟩

theorem chargeSound_exec {ids : SaleIds} {db db' : SaleTables Tid} {t : Tid}
    {confirm : Sale → Except DomainError ChargeConfirmation} {stmt : Stmt} {rest : List Stmt}
    {vars vars' : Vars} (h : ChargeSound ids db t (stmt :: rest) vars)
    (hCommit : stmt :: rest ≠ [.commit])
    (hExec : db.exec ids t (.charge confirm) stmt vars = .done (db', vars')) :
    ChargeSound ids db' t rest vars' := by
  obtain ⟨hQuery, hWrite⟩ := SaleTables.exec_eq_done.mp hExec
  have hEffect := SaleTables.write_effect hWrite
  have hCommitted := hEffect.sale_committed
  obtain ⟨hLockOnce, hSaleWrite, hLoad, hAfterRead, hReadEarly⟩ := charge_reads h.suffix
  obtain ⟨hWrites, hDeleteNext, hDeleted⟩ := charge_writes h.suffix
  obtain ⟨hCreated, hApplied, hLast⟩ := charge_past h.suffix
  refine ⟨(List.suffix_cons _ _).trans h.suffix, fun hAhead => absurd hAhead hLockOnce, ?_, ?_,
    ?_, ?_, ?_, ?_, ?_, ?_⟩
  · intro hPast
    rcases of_not_mem_rest stmt hPast with rfl | hOld
    · cases hEffect with
      | nothing hLock => exact absurd rfl hLock
      | sale row _ _ => exact Row.heldBy_write_self _ _ _
      | vetoes _ hStmt => simp at hStmt
      | optIns _ hStmt => simp at hStmt
    · exact still_held hEffect (h.locked hOld)
  · intro hAhead
    have hOld := h.unchanged (List.mem_cons_of_mem _ hAhead)
    by_cases hLock : stmt ∈ saleWrites
    · obtain rfl := hSaleWrite hAhead hLock
      cases hEffect with
      | nothing hLock => exact absurd rfl hLock
      | sale row _ hRow =>
          cases hRow
          rw [Row.view_write_self]
          exact hOld
      | vetoes _ hStmt => simp at hStmt
      | optIns _ hStmt => simp at hStmt
    · rw [sale_same hEffect hLock]
      exact hOld
  · intro hPast hAhead
    rw [hCommitted]
    by_cases hRead : stmt = .readSale
    · subst hRead
      have hSame := h.unchanged (hReadEarly rfl)
      rw [← Except.ok.inj hQuery]
      show (db.sale.view t).data.status = _
      rw [hSame]
    · rw [query_of_load (hLoad hAhead) hQuery hRead]
      rcases of_not_mem_rest stmt hPast with hEq | hOld
      · exact absurd hEq hRead
      · exact h.read hOld (List.mem_cons_of_mem _ hAhead)
  · intro hPast
    rw [hCommitted]
    rcases of_not_mem_rest stmt hPast with rfl | hOld
    · obtain ⟨hDraft, hConfirmation⟩ := charge_service hQuery
      have hRead := h.read (hAfterRead rfl) (List.mem_cons_self ..)
      exact ⟨hRead.symm.trans hDraft, hConfirmation⟩
    · rw [query_of_write (hWrites hOld) hQuery]
      exact h.checked hOld
  · intro hPast hAhead
    obtain rfl := hDeleteNext hAhead hPast
    cases hEffect with
    | nothing _ _ hDelete => exact absurd rfl hDelete
    | sale row _ hRow => cases hRow
    | deleteItems items hItems => exact fun id hId => Table.deleteMany_view hItems hId
    | vetoes _ hStmt => simp at hStmt
    | optIns _ hStmt => simp at hStmt
  · intro hPast
    rcases of_not_mem_rest stmt hPast with rfl | hOld
    · rw [query_of_write (by decide) hQuery]
      cases hEffect with
      | nothing _ _ _ hCreate => exact absurd rfl hCreate
      | sale row _ hRow => cases hRow
      | createItems items hItems =>
          intro id hId
          have hNone := h.deleted (hDeleted rfl) (List.mem_cons_self ..) id hId
          show (items id).view t = _
          rw [Table.createMany_view hItems, hNone, Option.or_none]
          rfl
      | vetoes _ hStmt => simp at hStmt
      | optIns _ hStmt => simp at hStmt
    · obtain ⟨hService, hDelete⟩ := hCreated hOld
      have hCreate : stmt ≠ .createItems := fun hEq => hOld (hEq ▸ List.mem_cons_self ..)
      rw [query_of_write (hWrites hService) hQuery, items_same hEffect hDelete hCreate]
      exact h.created hOld
  · intro hPast
    rcases of_not_mem_rest stmt hPast with rfl | hOld
    · rw [query_of_write (by decide) hQuery]
      cases hEffect with
      | nothing _ _ _ _ hSame => exact hSame rfl
      | sale row _ hRow => cases hRow
      | applied => exact Row.view_write_self _ _ _
      | vetoes _ hStmt => simp at hStmt
      | optIns _ hStmt => simp at hStmt
    · have hStmt : stmt ≠ .writeApplied := fun hEq => hOld (hEq ▸ List.mem_cons_self ..)
      rw [query_of_write (hWrites (hApplied hOld)) hQuery, applied_same hEffect hStmt]
      exact h.applied hOld
  · intro hPast confirmation hConfirmation
    rcases of_not_mem_rest stmt hPast with rfl | hOld
    · rw [query_of_write (by decide) hQuery] at hConfirmation
      rw [hCommitted]
      cases hEffect with
      | nothing _ _ _ _ _ hNone =>
          rw [hNone rfl] at hConfirmation
          cases hConfirmation
      | sale row _ hRow =>
          cases hRow with
          | confirm other hOther =>
              rw [hOther] at hConfirmation
              cases hConfirmation
              rw [Row.view_write_self, h.unchanged (List.mem_cons_self ..)]
      | vetoes _ hStmt => simp at hStmt
      | optIns _ hStmt => simp at hStmt
    · exact absurd (hLast hOld) hCommit


theorem sound_readItems {ids : SaleIds} {db : SaleTables Tid} {t : Tid} {request : Request}
    {rest : List Stmt} {vars : Vars} {items : List SaleItem}
    (h : (Work.running request (.readItems :: rest) vars).Sound ids db t) :
    (Work.running request rest { vars with sale := { vars.sale with items := items } }).Sound
      ids db t := by
  cases request with
  | draft mutate =>
      obtain ⟨hSuffix, hChecked, hBefore, hAfter⟩ := h
      refine ⟨(List.suffix_cons _ _).trans hSuffix, ?_, ?_, ?_⟩
      · exact fun hPast => hChecked (List.not_mem_cons_of_ne_of_not_mem nofun hPast)
      · exact fun hAhead => hBefore (List.mem_cons_of_mem _ hAhead)
      · exact fun hPast => hAfter (List.not_mem_cons_of_ne_of_not_mem nofun hPast)
  | charge confirm =>
      obtain ⟨hSuffix, hBefore, hLocked, hUnchanged, hRead, _, _, _, _, _⟩ := h
      have hRest : rest = [.readVetoes, .readOptIns, .readApplied, .service] ++
          persistChargeConfirmation ++ [.commit] := by
        have hAll : ∀ l ∈ chargeProgram.tails, l.head? = some .readItems →
            l.tail = [.readVetoes, .readOptIns, .readApplied, .service] ++
              persistChargeConfirmation ++ [.commit] := by decide
        exact hAll _ ((List.mem_tails _ _).mpr hSuffix) rfl
      subst hRest
      refine ⟨(List.suffix_cons _ _).trans hSuffix, ?_, ?_, ?_, ?_, ?_, ?_, ?_, ?_, ?_⟩
      · exact fun hAhead => hBefore (List.mem_cons_of_mem _ hAhead)
      · exact fun hPast => hLocked (List.not_mem_cons_of_ne_of_not_mem nofun hPast)
      · exact fun _ => hUnchanged (by decide)
      · exact fun _ _ => hRead (by decide) (by decide)
      all_goals exact fun hPast => absurd (by decide) hPast
  | _ => exact h

/-- Whoever is about to commit holds the sale's row. -/
theorem held_at_commit {ids : SaleIds} {db : SaleTables Tid} {t : Tid} {request : Request}
    {vars : Vars} (h : (Work.running request [.commit] vars).Sound ids db t) :
    db.sale.HeldBy t := by
  cases request with
  | draft mutate => exact (h.after (by decide)).1
  | charge confirm => exact h.locked (by decide)
  | _ => exact absurd h id

/-- While `t` commits, the others have yet to take the row. -/
theorem sound_commit_other {ids : SaleIds} {db : SaleTables Tid} {t u : Tid} {work : Work}
    (h : work.Sound ids db u) (hHeld : db.sale.HeldBy t) (hne : u ≠ t) :
    work.Sound ids (db.commit t) u := by
  have hFree : ¬ db.sale.HeldBy u := fun hOther => hne (hOther.eq hHeld)
  have hReleased : (db.commit t).sale.held = none :=
    (Row.commit_committed_of_heldBy _ _ hHeld).2
  have hFree' : ¬ (db.commit t).sale.HeldBy u := by
    rintro ⟨row, hRow⟩
    rw [hReleased] at hRow
    cases hRow
  cases work with
  | idle => exact hFree'
  | failed error => trivial
  | running request todo vars =>
      cases request with
      | draft mutate =>
          have hAhead : .updateSale ∈ todo := by
            by_contra hPast
            exact hFree (h.after hPast).1
          exact ⟨h.suffix, h.checked, fun _ => hFree', fun hPast => absurd hAhead hPast⟩
      | charge confirm =>
          have hAhead : .lockSale ∈ todo := by
            by_contra hPast
            exact hFree (h.locked hPast)
          have hStart : todo = chargeProgram := by
            have hAll : ∀ l ∈ chargeProgram.tails, .lockSale ∈ l → l = chargeProgram := by decide
            exact hAll _ ((List.mem_tails _ _).mpr h.suffix) hAhead
          subst hStart
          refine ⟨h.suffix, fun _ => hFree', fun hPast => absurd hAhead hPast, ?_, ?_, ?_, ?_, ?_,
            ?_, ?_⟩
          · exact fun _ => Row.view_of_not_heldBy _ _ hFree'
          all_goals exact fun hPast => absurd (by decide) hPast
      | _ => exact h

theorem sound_start {ids : SaleIds} {db : SaleTables Tid} {t : Tid} {request : Request}
    (hDraft : request.OfDraft) (hFree : ¬ db.sale.HeldBy t) :
    (Work.running request request.program .initial).Sound ids db t := by
  cases request with
  | draft mutate =>
      change DraftSound db t draftProgram .initial
      exact ⟨List.suffix_refl _, fun hPast => absurd (by decide) hPast, fun _ => hFree,
        fun hPast => absurd (by decide) hPast⟩
  | charge confirm =>
      change ChargeSound ids db t chargeProgram .initial
      refine ⟨List.suffix_refl _, fun _ => hFree, fun hPast => absurd (by decide) hPast, ?_, ?_,
        ?_, ?_, ?_, ?_, ?_⟩
      · exact fun _ => Row.view_of_not_heldBy _ _ hFree
      all_goals exact fun hPast => absurd (by decide) hPast
  | _ => exact absurd hDraft id

def FinalitySound (ids : SaleIds) (store : SaleStore Tid) : Prop :=
  ∀ t, (store.work t).Sound ids store.tables t

/-- The work that a step gives `t`, while the others go on as before. -/
theorem FinalitySound.with_work {ids : SaleIds} {store : SaleStore Tid} {t : Tid}
    {tables : SaleTables Tid} {work : Work} (hOwn : work.Sound ids tables t)
    (hOthers : ∀ u ≠ t, (store.work u).Sound ids tables u) :
    FinalitySound ids ⟨tables, Function.update store.work t work⟩ := by
  intro u
  by_cases hu : u = t
  · subst hu
    show (Function.update store.work u work u).Sound ids tables u
    rw [Function.update_self]
    exact hOwn
  · show (Function.update store.work t work u).Sound ids tables u
    rw [Function.update_of_ne hu]
    exact hOthers u hu

/-- The step lemma. -/
theorem finalitySound_step {ids : SaleIds} {store store' : SaleStore Tid} {label : Label Tid}
    (h : FinalitySound ids store) (hStart : label.OfDraft) (hCurrent : UpdatesDraft store label)
    (hStep : store.step ids label = some store') : FinalitySound ids store' := by
  cases label with
  | start t request =>
      obtain ⟨hIdle, rfl⟩ := SaleStore.start_cases hStep
      have hFree := h t
      rw [hIdle] at hFree
      exact FinalitySound.with_work (sound_start hStart hFree) fun u _ => h u
  | run t =>
      rcases SaleStore.run_cases hStep with
        ⟨request, vars, hWork, rfl⟩ | ⟨request, stmt, rest, vars, hWork, hCommit, _, hRest⟩
      · have hOwn := h t
        rw [hWork] at hOwn
        apply FinalitySound.with_work
        · exact Row.not_heldBy_commit_self _ _
        · exact fun u hu => sound_commit_other (h u) (held_at_commit hOwn) hu
      · have hOwn := h t
        rw [hWork] at hOwn
        rcases hRest with ⟨error, _, rfl⟩ | ⟨tables, vars', hExec, rfl⟩
        · have hFailed : (Work.failed error).Sound ids store.tables t := trivial
          exact FinalitySound.with_work hFailed fun u _ => h u
        · have hEffect := SaleTables.write_effect (SaleTables.exec_eq_done.mp hExec).2
          have hSame : ∀ u ≠ t, (store.work u).Sound ids tables u :=
            fun u hu => (h u).of_seesSame (write_seesSame hEffect hu)
          cases request with
          | draft mutate =>
              have hNext := hCurrent (stmt, vars) (by rw [hWork]; rfl)
              have hDone : (Work.running (.draft mutate) rest vars').Sound ids tables t :=
                draftSound_exec hOwn hNext hExec
              exact FinalitySound.with_work hDone hSame
          | charge confirm =>
              have hDone : (Work.running (.charge confirm) rest vars').Sound ids tables t :=
                chargeSound_exec hOwn hCommit hExec
              exact FinalitySound.with_work hDone hSame
          | _ => exact absurd hOwn id
  | readItems t items =>
      obtain ⟨request, rest, vars, hWork, _, rfl⟩ := SaleStore.readItems_cases hStep
      have hOwn := h t
      rw [hWork] at hOwn
      exact FinalitySound.with_work (sound_readItems hOwn) fun u _ => h u
  | fail t =>
      cases hStep
      have hFailed : (Work.failed none).Sound ids store.tables t := trivial
      exact FinalitySound.with_work hFailed fun u _ => h u
  | rollback t =>
      cases hStep
      apply FinalitySound.with_work
      · exact Row.not_heldBy_rollback_self _ _
      · exact fun u hu => (h u).of_seesSame (rollback_seesSame _ hu)

theorem write_sameCommitted {ids : SaleIds} {db db' : SaleTables Tid} {t : Tid} {vars : Vars}
    {stmt : Stmt} (hEffect : SaleTables.WriteEffect ids db t vars stmt db') :
    SameCommitted db db' := by
  have hTable : ∀ {V : Type} {before after : Table Tid V}, SaleTables.WrittenBy t before after →
      ∀ key, (after key).committed = (before key).committed := by
    intro V before after h key
    rcases h key with hSame | ⟨_, v, hWritten⟩
    · rw [hSame]
    · rw [hWritten, Row.write_committed]
  cases hEffect with
  | nothing => exact SameCommitted.refl _
  | sale => exact ⟨rfl, fun _ => rfl, fun _ => rfl, fun _ => rfl, rfl⟩
  | deleteItems items hItems =>
      exact ⟨rfl, hTable (.of_deleteMany hItems), fun _ => rfl, fun _ => rfl, rfl⟩
  | createItems items hItems =>
      exact ⟨rfl, hTable (.of_createMany hItems), fun _ => rfl, fun _ => rfl, rfl⟩
  | vetoes vetoes _ hVetoes => exact ⟨rfl, fun _ => rfl, hTable hVetoes, fun _ => rfl, rfl⟩
  | optIns optIns _ hOptIns => exact ⟨rfl, fun _ => rfl, fun _ => rfl, hTable hOptIns, rfl⟩
  | applied => exact ⟨rfl, fun _ => rfl, fun _ => rfl, fun _ => rfl, rfl⟩

theorem rollback_sameCommitted (db : SaleTables Tid) (t : Tid) :
    SameCommitted db (db.rollback t) :=
  ⟨Row.rollback_committed _ _, fun _ => Row.rollback_committed _ _,
    fun _ => Row.rollback_committed _ _, fun _ => Row.rollback_committed _ _,
    Row.rollback_committed _ _⟩

/-- Nothing commits any more once the sale is not a draft. -/
theorem frozen_step {ids : SaleIds} {store store' : SaleStore Tid} {label : Label Tid}
    (h : FinalitySound ids store)
    (hStatus : store.tables.sale.committed.data.status ≠ .draft)
    (hStep : store.step ids label = some store') : SameCommitted store.tables store'.tables := by
  cases label with
  | start t request =>
      obtain ⟨_, rfl⟩ := SaleStore.start_cases hStep
      exact SameCommitted.refl _
  | run t =>
      rcases SaleStore.run_cases hStep with
        ⟨request, vars, hWork, rfl⟩ | ⟨_, _, _, _, _, _, _, ⟨_, _, rfl⟩ | ⟨tables, _, hExec, rfl⟩⟩
      · have hOwn := h t
        rw [hWork] at hOwn
        cases request with
        | draft mutate => exact absurd (hOwn.after (by decide)).2.2 hStatus
        | charge confirm => exact absurd (hOwn.checked (by decide)).1 hStatus
        | _ => exact absurd hOwn id
      · exact SameCommitted.refl _
      · exact write_sameCommitted (SaleTables.write_effect (SaleTables.exec_eq_done.mp hExec).2)
  | readItems t items =>
      obtain ⟨_, _, _, _, _, rfl⟩ := SaleStore.readItems_cases hStep
      exact SameCommitted.refl _
  | fail t =>
      cases hStep
      exact SameCommitted.refl _
  | rollback t =>
      cases hStep
      exact rollback_sameCommitted _ _

/-- A step of the draft mutations and charges of one sale in which a draft write updates
a row that is still a draft. -/
def CurrentStep (ids : SaleIds) : SaleStore Tid → Label Tid → SaleStore Tid → Prop :=
  Guarded (Fires (SaleStore.step ids)) fun store label =>
    label.OfDraft ∧ UpdatesDraft store label

def CurrentWrites (ids : SaleIds) : SaleStore Tid → List (Label Tid) → SaleStore Tid → Prop :=
  Runs (CurrentStep ids)

theorem finalitySound_current {ids : SaleIds} {c d : SaleStore Tid} {label : Label Tid}
    (h : FinalitySound ids c) (hStep : CurrentStep ids c label d) : FinalitySound ids d :=
  finalitySound_step h hStep.2.1 hStep.2.2 hStep.1

theorem finalitySound_of_run {ids : SaleIds} {c d : SaleStore Tid} {labels : List (Label Tid)}
    (run : CurrentWrites ids c labels d) (h : FinalitySound ids c) : FinalitySound ids d :=
  run.invariant (fun _ _ _ hInv hStep => finalitySound_current hInv hStep) h

theorem SaleStore.Quiet.finalitySound {store : SaleStore Tid} (h : store.Quiet) (ids : SaleIds) :
    FinalitySound ids store := by
  intro t
  rw [h.1 t]
  rintro ⟨row, hRow⟩
  rw [h.2] at hRow
  cases hRow

theorem frozen_run {ids : SaleIds} {c d : SaleStore Tid} {labels : List (Label Tid)}
    (run : CurrentWrites ids c labels d) (h : FinalitySound ids c)
    (hStatus : c.tables.sale.committed.data.status ≠ .draft) :
    SameCommitted c.tables d.tables := by
  induction run with
  | zero => exact SameCommitted.refl _
  | succ prior last ih =>
      have hMiddle := finalitySound_of_run prior h
      have hStatus' := hStatus
      rw [← ih.sale] at hStatus'
      exact ih.trans (frozen_step hMiddle hStatus' last.1)

/-- A status check on a sale that is not a draft rejects the draft write. -/
theorem draft_write_rejected {ids : SaleIds} {store store' : SaleStore Tid} {t : Tid}
    {mutate : Sale → Except DomainError Sale} {rest : List Stmt} {vars : Vars}
    (h : FinalitySound ids store)
    (hStatus : store.tables.sale.committed.data.status ≠ .draft)
    (hWork : store.work t = .running (.draft mutate) (.checkStatus .draft :: rest) vars)
    (hStep : store.step ids (.run t) = some store') :
    store' = store.setWork t (.failed (some saleNotDraft)) := by
  have hOwn := h t
  rw [hWork] at hOwn
  obtain ⟨_, _, _, _, hBefore⟩ := draft_order hOwn.suffix
  have hFree := hOwn.before (List.mem_cons_of_mem _ (hBefore rfl))
  have hView := Row.view_of_not_heldBy _ _ hFree
  have hFails : store.tables.exec ids t (.draft mutate) (.checkStatus .draft) vars =
      .fails (some saleNotDraft) := by
    simp [SaleTables.exec, SaleTables.query, hView, throwIf, hStatus, bind, Except.bind]
  simp only [SaleStore.step, SaleStore.run, hWork, hFails] at hStep
  exact (Option.some.inj hStep).symm

/-- A committed charge is final: in every later state the sale, its lines and its
order promotion are as the charge confirmed them, nothing else of the sale changes either,
and every draft write that checks the status now is rejected without effect. -/
theorem charge_is_final (ids : SaleIds) {start c d e : SaleStore Tid}
    {labels labels' : List (Label Tid)} {t : Tid}
    {confirm : Sale → Except DomainError ChargeConfirmation} {vars : Vars}
    (hQuiet : start.Quiet) (run : CurrentWrites ids start labels c)
    (hWork : c.work t = .running (.charge confirm) [.commit] vars)
    (hCommit : CurrentStep ids c (.run t) d) (later : CurrentWrites ids d labels' e) :
    (∃ confirmation, vars.confirmation = some confirmation ∧
      e.tables.sale.committed = SaleTables.confirm confirmation c.tables.sale.committed ∧
        (∀ id ∈ ids.itemIds,
          (e.tables.items id).committed = lineOf confirmation.sale.items id) ∧
            e.tables.applied.committed = confirmation.sale.appliedOrderPromotion) ∧
      SameCommitted d.tables e.tables ∧
        ∀ u mutate rest vars' e', e.work u = .running (.draft mutate) (.checkStatus .draft :: rest) vars' →
          e.step ids (.run u) = some e' → e' = e.setWork u (.failed (some saleNotDraft)) := by
  have hSound := finalitySound_of_run run (hQuiet.finalitySound ids)
  have hOwn := hSound t
  rw [hWork] at hOwn
  have hStored : d = ⟨c.tables.commit t, Function.update c.work t .idle⟩ := by
    have hFires := hCommit.1
    simp only [Fires, SaleStore.step, SaleStore.run, hWork] at hFires
    exact (Option.some.inj hFires).symm
  obtain ⟨_, confirmation, hConfirmation, hSale⟩ := hOwn.checked (by decide)
  have hRow : d.tables.sale.committed =
      SaleTables.confirm confirmation c.tables.sale.committed := by
    rw [hStored]
    exact (Row.commit_committed _ _).trans (hOwn.confirmed (by decide) _ hConfirmation)
  have hStatus : d.tables.sale.committed.data.status ≠ .draft := by
    rw [hRow]
    exact nofun
  have hSound' := finalitySound_current hSound hCommit
  have hFrozen := frozen_run later hSound' hStatus
  refine ⟨⟨confirmation, hConfirmation, hFrozen.sale.trans hRow, ?_, ?_⟩, hFrozen, ?_⟩
  · intro id hId
    rw [hFrozen.items, hStored, ← hSale]
    exact (Row.commit_committed _ _).trans (hOwn.created (by decide) id hId)
  · rw [hFrozen.applied, hStored, ← hSale]
    exact (Row.commit_committed _ _).trans (hOwn.applied (by decide))
  · intro u mutate rest vars' e' hDraft hStep
    have hSound'' := finalitySound_of_run later hSound'
    rw [← hFrozen.sale] at hStatus
    exact draft_write_rejected hSound'' hStatus hDraft hStep

end

/-! ### A charge that commits into the gap of a draft write -/

def sampleLine : SaleItem :=
  .fresh ⟨"line", "sale", "product", none, "Product", none, none, 1, 1000, "MXN"⟩ Quantity.one

def lineIds : SaleIds := ⟨["line"], []⟩

/-- A draft with one line. -/
def draftSale : SaleStore (Fin 3) where
  tables := {
    sale := .ofCommitted {
      id := "sale"
      userId := "seller"
      createdAt := some 0
      data := saleData (.fresh "sale" "seller")
      totals := ⟨0, 0, 0, 0, 0, 0, none⟩
      canceledAt := none
      cancelReason := none
      canceledByUserId := none }
    items := fun id => .ofCommitted (if id = "line" then some sampleLine else none)
    vetoes := fun _ => .ofCommitted none
    optIns := fun _ => .ofCommitted none
    applied := .ofCommitted none }
  work _ := .idle

theorem draftSale_quiet : draftSale.Quiet := ⟨fun _ => rfl, rfl⟩

def sampleConfirm (sale : Sale) : Except DomainError ChargeConfirmation :=
  .ok ⟨sale, ⟨1000, 0, 1000, 1000, 0, 0, some .paid⟩, 5, "A-1"⟩

/-- A draft mutation up to its status check, on lines that it reads as `items`. -/
def draftSteps (t : Fin 3) (mutate : Sale → Except DomainError Sale) (items : List SaleItem) :
    List (Label (Fin 3)) :=
  [.start t (.draft mutate), .run t, .readItems t items] ++ List.replicate 5 (.run t)

/-- A charge up to its commit. -/
def chargeSteps (t : Fin 3) (items : List SaleItem) : List (Label (Fin 3)) :=
  [.start t (.charge sampleConfirm), .run t, .run t, .readItems t items] ++
    List.replicate 8 (.run t)

/-- The steps that `CurrentWrites` allows. -/
def currentWriteStep (store : SaleStore (Fin 3)) (label : Label (Fin 3)) : Option (SaleStore (Fin 3)) :=
  if label.OfDraft ∧ UpdatesDraft store label then store.step lineIds label else none

/-- A draft write that ends before the charge commits. -/
def chargedInOrder : List (Label (Fin 3)) :=
  draftSteps 0 (·.updateItemQuantity "line" 1) [sampleLine] ++ List.replicate 9 (.run 0) ++
    chargeSteps 1 [sampleLine]

/-- After it a second draft write comes too late, and the charge stands. -/
theorem charge_is_final_of_writes_in_order :
    ∃ c d e, CurrentWrites lineIds draftSale chargedInOrder c ∧ CurrentStep lineIds c (.run 1) d ∧
      CurrentWrites lineIds d [.start 2 (.draft (·.clearItems)), .run 2] e ∧
        e.tables.sale.committed.data.status = .confirmed := by
  have hReady : ((exec currentWriteStep draftSale chargedInOrder).map fun store =>
      decide (store.work 1).CommitsCharge) = some true := by decide
  obtain ⟨c, hRun, hCommits⟩ := Option.map_eq_some_iff.mp hReady
  obtain ⟨confirm, vars, hWork⟩ := (of_decide_eq_true hCommits).exists_confirm
  have hDone : (((exec currentWriteStep draftSale chargedInOrder).bind fun store =>
      exec currentWriteStep store [.run 1]).bind fun store =>
        exec currentWriteStep store [.start 2 (.draft (·.clearItems)), .run 2]).isSome := by decide
  rw [hRun] at hDone
  obtain ⟨e, hAll⟩ := Option.isSome_iff_exists.mp hDone
  obtain ⟨d, hCharged, hLater⟩ := Option.bind_eq_some_iff.mp hAll
  have hCommit : CurrentStep lineIds c (.run 1) d := by
    have hStepped : exec currentWriteStep c [.run 1] = some d := hCharged
    obtain ⟨middle, hStep, hEnd⟩ := Option.bind_eq_some_iff.mp hStepped
    cases hEnd
    obtain ⟨hGuard, hFires⟩ := Option.ite_none_right_eq_some.mp hStep
    exact ⟨hFires, hGuard⟩
  have hFirst := runs_guarded_of_exec hRun
  have hLast := runs_guarded_of_exec hLater
  obtain ⟨⟨confirmation, _, hSale, _⟩, _⟩ :=
    charge_is_final lineIds draftSale_quiet hFirst hWork hCommit hLast
  refine ⟨c, d, e, hFirst, hCommit, hLast, ?_⟩
  rw [hSale]
  rfl

/-- A draft mutation that has checked the status, and a charge from start to end. -/
def chargedMeanwhile : List (Label (Fin 3)) :=
  draftSteps 0 (·.clearItems) [sampleLine] ++ chargeSteps 1 [sampleLine] ++ [.run 1]

/-- The writes of the draft mutation, which find the charged sale. -/
def lateWrites : List (Label (Fin 3)) := List.replicate 9 (.run 0)

/-- The charged sale is a draft again, and its line is gone. -/
theorem charged_sale_back_to_draft :
    (∀ label ∈ chargedMeanwhile ++ lateWrites, label.OfDraft) ∧
      ∃ c d, Runs (Fires (SaleStore.step lineIds)) draftSale chargedMeanwhile c ∧
        Runs (Fires (SaleStore.step lineIds)) c lateWrites d ∧
          (c.tables.sale.committed.data.status = .confirmed ∧
            (c.tables.items "line").committed = some sampleLine) ∧
              d.tables.sale.committed.data.status = .draft ∧
                (d.tables.items "line").committed = none := by
  refine ⟨by decide, ?_⟩
  have hCharged : ((exec (SaleStore.step lineIds) draftSale chargedMeanwhile).map fun store =>
      (store.tables.sale.committed.data.status, (store.tables.items "line").committed)) =
        some (.confirmed, some sampleLine) := by decide
  obtain ⟨c, hRun, hBefore⟩ := Option.map_eq_some_iff.mp hCharged
  have hUndone : (((exec (SaleStore.step lineIds) draftSale chargedMeanwhile).bind fun store =>
      exec (SaleStore.step lineIds) store lateWrites).map fun store =>
        (store.tables.sale.committed.data.status, (store.tables.items "line").committed)) =
          some (.draft, none) := by decide
  rw [hRun] at hUndone
  obtain ⟨d, hLater, hAfter⟩ := Option.map_eq_some_iff.mp hUndone
  exact ⟨c, d, runs_of_exec hRun, runs_of_exec hLater, Prod.mk.inj hBefore, Prod.mk.inj hAfter⟩

end Houndfe.Sales.Persistence
