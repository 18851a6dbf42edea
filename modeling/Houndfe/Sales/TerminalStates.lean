import Houndfe.Base.Transition
import Houndfe.Sales.SaleStore

/-! Cancellation, delivery and the metadata saves of a charged sale. A save writes the
status and delivery status of the aggregate it loaded before it took the lock. As long as
no cancellation and no delivery was committed in between, `CANCELED` and `DELIVERED` are
final; else the save undoes them. -/

namespace Houndfe.Sales.Persistence

open RowLocks Transition

/-- The requests on a sale other than its draft mutations and its charge. -/
def Request.AfterCharge : Request → Prop
  | .draft _ | .charge _ => False
  | _ => True

instance : (request : Request) → Decidable request.AfterCharge
  | .draft _ | .charge _ => isFalse id
  | .assignSeller _ | .clearSeller | .setDueDate _ _ | .cancelSale _ _ _
  | .markSaleDelivered => isTrue trivial

/-- How the row of a sale may go on: a canceled sale stays canceled, a delivered one
delivered. -/
def RowAdvances (before after : SaleRow) : Prop :=
  (before.data.status = .canceled → after.data.status = .canceled) ∧
    (before.data.deliveryStatus = .delivered → after.data.deliveryStatus = .delivered)

theorem RowAdvances.refl (row : SaleRow) : RowAdvances row row := ⟨id, id⟩

theorem RowAdvances.trans {a b c : SaleRow} (hFirst : RowAdvances a b)
    (hSecond : RowAdvances b c) : RowAdvances a c :=
  ⟨hSecond.1 ∘ hFirst.1, hSecond.2 ∘ hFirst.2⟩

section

variable {Tid : Type} [DecidableEq Tid]

/-- Only the requests of a charged sale start. -/
def Label.AfterCharge : Label Tid → Prop
  | .start _ request => request.AfterCharge
  | _ => True

instance : (label : Label Tid) → Decidable label.AfterCharge
  | .start _ request => inferInstanceAs (Decidable request.AfterCharge)
  | .run _ | .readItems _ _ | .fail _ | .rollback _ => isTrue trivial

/-- A save that is about to write a canceled row loaded it as canceled, and a delivered
one as delivered. -/
def SavesCurrent (store : SaleStore Tid) : Label Tid → Prop
  | .run t => ∀ next ∈ (store.work t).next, next.1 = .updateSale →
      ((store.tables.sale.view t).data.status = .canceled → next.2.sale.status = .canceled) ∧
        ((store.tables.sale.view t).data.deliveryStatus = .delivered →
          next.2.sale.deliveryStatus = .delivered)
  | _ => True

instance (store : SaleStore Tid) : (label : Label Tid) → Decidable (SavesCurrent store label)
  | .run _ => inferInstanceAs (Decidable (∀ _ ∈ _, _))
  | .start _ _ | .readItems _ _ | .fail _ | .rollback _ => isTrue trivial

/-- No statement left to `work` confirms the sale. -/
def Work.ConfirmsNothing : Work → Prop
  | .running _ todo _ => Stmt.confirmSale ∉ todo
  | _ => True

structure TerminalSound (store : SaleStore Tid) : Prop where
  works : ∀ t, (store.work t).ConfirmsNothing
  sale : store.tables.sale.Extends RowAdvances

theorem confirmsNothing_of_afterCharge {request : Request} (h : request.AfterCharge) :
    (Work.running request request.program .initial).ConfirmsNothing := by
  cases request with
  | draft mutate => cases h
  | charge confirm => cases h
  | _ => simp [Work.ConfirmsNothing, Request.program, load, save, rewrite]

/-- The write of a statement keeps the versions of the row advancing. -/
theorem write_advances {ids : SaleIds} {db db' : SaleTables Tid} {t : Tid} {stmt : Stmt}
    {vars : Vars} (h : db.write ids t vars stmt = .done db') (hConfirm : stmt ≠ .confirmSale)
    (hCurrent : stmt = .updateSale →
      ((db.sale.view t).data.status = .canceled → vars.sale.status = .canceled) ∧
        ((db.sale.view t).data.deliveryStatus = .delivered →
          vars.sale.deliveryStatus = .delivered))
    (hSale : db.sale.Extends RowAdvances) : db'.sale.Extends RowAdvances := by
  cases SaleTables.write_effect h with
  | sale row _ hWrite =>
      apply hSale.write RowAdvances.refl (fun _ _ _ => RowAdvances.trans) t
      cases hWrite with
      | lock => exact RowAdvances.refl _
      | save => exact hCurrent rfl
      | confirm => exact absurd rfl hConfirm
      | cancel => exact ⟨fun _ => rfl, id⟩
      | deliver => exact ⟨id, fun _ => rfl⟩
  | nothing | deleteItems | createItems | vetoes | optIns | applied => exact hSale

/-- The work that a step gives `t`, while everybody else goes on as before. -/
theorem TerminalSound.with_work {store : SaleStore Tid} (h : TerminalSound store) (t : Tid)
    {tables : SaleTables Tid} {work : Work} (hWork : work.ConfirmsNothing)
    (hSale : tables.sale.Extends RowAdvances) :
    TerminalSound ⟨tables, Function.update store.work t work⟩ := by
  refine ⟨fun u => ?_, hSale⟩
  by_cases hu : u = t
  · rw [hu]
    show (Function.update store.work t work t).ConfirmsNothing
    rw [Function.update_self]
    exact hWork
  · show (Function.update store.work t work u).ConfirmsNothing
    rw [Function.update_of_ne hu]
    exact h.works u

/-- The step lemma. -/
theorem terminalSound_step {ids : SaleIds} {store store' : SaleStore Tid} {label : Label Tid}
    (h : TerminalSound store) (hStart : label.AfterCharge)
    (hCurrent : SavesCurrent store label) (hStep : store.step ids label = some store') :
    TerminalSound store' := by
  cases label with
  | start t request =>
      obtain ⟨_, rfl⟩ := SaleStore.start_cases hStep
      exact h.with_work t (confirmsNothing_of_afterCharge hStart) h.sale
  | run t =>
      rcases SaleStore.run_cases hStep with
        ⟨_, _, _, rfl⟩ | ⟨request, stmt, rest, vars, hWork, _, _, hRest⟩
      · exact h.with_work t trivial (h.sale.commit RowAdvances.refl t)
      · have hNothing := h.works t
        rw [hWork] at hNothing
        obtain ⟨hStmt, hTodo⟩ := not_or.mp (mt List.mem_cons.mpr hNothing)
        rcases hRest with ⟨_, _, rfl⟩ | ⟨tables, vars', hExec, rfl⟩
        · exact h.with_work t trivial h.sale
        · have hWork' : (Work.running request rest vars').ConfirmsNothing := hTodo
          apply h.with_work t hWork'
          apply write_advances (SaleTables.exec_eq_done.mp hExec).2 (Ne.symm hStmt) _ h.sale
          rintro rfl
          exact hCurrent (.updateSale, vars) (by rw [hWork]; rfl) rfl
  | readItems t items =>
      obtain ⟨request, rest, vars, hWork, _, rfl⟩ := SaleStore.readItems_cases hStep
      have hNothing := h.works t
      rw [hWork] at hNothing
      exact h.with_work t (not_or.mp (mt List.mem_cons.mpr hNothing)).2 h.sale
  | fail t =>
      cases hStep
      exact h.with_work t trivial h.sale
  | rollback t =>
      cases hStep
      exact h.with_work t trivial (h.sale.rollback RowAdvances.refl t)

/-- What is committed advances: a commit shows a version that was in progress. -/
theorem committed_advances_step {ids : SaleIds} {store store' : SaleStore Tid}
    {label : Label Tid} (h : TerminalSound store) (hStep : store.step ids label = some store') :
    RowAdvances store.tables.sale.committed store'.tables.sale.committed := by
  cases label with
  | start t request =>
      obtain ⟨_, rfl⟩ := SaleStore.start_cases hStep
      exact RowAdvances.refl _
  | run t =>
      rcases SaleStore.run_cases hStep with
        ⟨_, _, _, rfl⟩ | ⟨_, _, _, _, _, _, _, ⟨_, _, rfl⟩ | ⟨tables, _, hExec, rfl⟩⟩
      · show RowAdvances _ (store.tables.sale.commit t).committed
        rw [Row.commit_committed]
        exact h.sale t
      · exact RowAdvances.refl _
      · have hWrite := (SaleTables.exec_eq_done.mp hExec).2
        show RowAdvances _ tables.sale.committed
        rw [(SaleTables.write_effect hWrite).sale_committed]
        exact RowAdvances.refl _
  | readItems t items =>
      obtain ⟨_, _, _, _, _, rfl⟩ := SaleStore.readItems_cases hStep
      exact RowAdvances.refl _
  | fail t =>
      cases hStep
      exact RowAdvances.refl _
  | rollback t =>
      cases hStep
      show RowAdvances _ (store.tables.sale.rollback t).committed
      rw [Row.rollback_committed]
      exact RowAdvances.refl _

theorem SaleStore.Quiet.terminalSound {store : SaleStore Tid} (h : store.Quiet) : TerminalSound store := by
  refine ⟨fun t => ?_, fun t => ?_⟩
  · rw [h.1 t]
    trivial
  · have hView : store.tables.sale.view t = store.tables.sale.committed := by
      simp [Row.view, h.2]
    rw [hView]
    exact RowAdvances.refl _

/-- The runs of the requests on a charged sale in which no save overtakes a cancellation
or a delivery that was committed since it loaded the sale. -/
def CurrentSaves (ids : SaleIds) : SaleStore Tid → List (Label Tid) → SaleStore Tid → Prop :=
  Runs (Guarded (Fires (SaleStore.step ids)) fun store label =>
    label.AfterCharge ∧ SavesCurrent store label)

theorem terminalSound_of_run {ids : SaleIds} {c d : SaleStore Tid} {labels : List (Label Tid)}
    (run : CurrentSaves ids c labels d) (h : TerminalSound c) : TerminalSound d :=
  run.invariant (fun _ _ _ hInv hStep => terminalSound_step hInv hStep.2.1 hStep.2.2 hStep.1) h

/-- Terminal states are final while every save is current: whatever was committed as
canceled or as delivered at some point of a run is so at every later point. -/
theorem terminal_states_stay (ids : SaleIds) {start c d : SaleStore Tid}
    {labels labels' : List (Label Tid)} (hQuiet : start.Quiet)
    (run : CurrentSaves ids start labels c) (later : CurrentSaves ids c labels' d) :
    (c.tables.sale.committed.data.status = .canceled →
      d.tables.sale.committed.data.status = .canceled) ∧
      (c.tables.sale.committed.data.deliveryStatus = .delivered →
        d.tables.sale.committed.data.deliveryStatus = .delivered) := by
  have hSound := terminalSound_of_run run hQuiet.terminalSound
  apply Runs.related TerminalSound
    (fun c d => RowAdvances c.tables.sale.committed d.tables.sale.committed) later _ _ _ _ hSound
  · exact fun _ => RowAdvances.refl _
  · exact fun _ _ _ => RowAdvances.trans
  · exact fun _ _ _ hInv hStep => terminalSound_step hInv hStep.2.1 hStep.2.2 hStep.1
  · exact fun _ _ _ hInv hStep => committed_advances_step hInv hStep.1

end

/-! ### A save that overtakes a cancellation -/

def sampleIds : SaleIds := ⟨[], []⟩

/-- A confirmed sale that waits for its delivery. -/
def confirmedSale : SaleStore Nat where
  tables := {
    sale := .ofCommitted {
      id := "sale"
      userId := "seller"
      createdAt := some 0
      data := { saleData (.fresh "sale" "seller") with
        status := .confirmed
        deliveryStatus := .pending
        confirmedAt := some 0 }
      totals := ⟨1000, 0, 1000, 1000, 0, 0, some .paid⟩
      canceledAt := none
      cancelReason := none
      canceledByUserId := none }
    items := fun _ => .ofCommitted none
    vetoes := fun _ => .ofCommitted none
    optIns := fun _ => .ofCommitted none
    applied := .ofCommitted none }
  work _ := .idle

/-- The load of a request: five queries and the service code. -/
def loadSteps (t : Nat) : List (Label Nat) :=
  [.run t, .readItems t [], .run t, .run t, .run t, .run t]

theorem confirmedSale_quiet : confirmedSale.Quiet := ⟨fun _ => rfl, rfl⟩

/-- A request assigns a seller from its load to its commit. -/
def assignSellerSteps (t : Nat) : List (Label Nat) :=
  .start t (.assignSeller "other") :: loadSteps t ++ List.replicate 12 (.run t)

/-- A request cancels the sale. -/
def cancelSteps (t : Nat) : List (Label Nat) :=
  .start t (.cancelSale .customerRequest "seller" 5) :: .run t :: loadSteps t ++ [.run t, .run t]

/-- The steps that `CurrentSaves` allows. -/
def currentStep (store : SaleStore Nat) (label : Label Nat) : Option (SaleStore Nat) :=
  if label.AfterCharge ∧ SavesCurrent store label then store.step sampleIds label else none

/-- With the saves in order a canceled sale stays canceled through a late delivery. -/
theorem terminal_states_stay_of_saves_in_order :
    ∃ c d, CurrentSaves sampleIds confirmedSale (assignSellerSteps 1 ++ cancelSteps 2) c ∧
      CurrentSaves sampleIds c [.start 3 .markSaleDelivered, .run 3, .run 3] d ∧
        d.tables.sale.committed.data.status = .canceled := by
  have hCanceled : ((exec currentStep confirmedSale (assignSellerSteps 1 ++ cancelSteps 2)).map
      fun store => store.tables.sale.committed.data.status) = some .canceled := by decide
  obtain ⟨c, hRun, hStatus⟩ := Option.map_eq_some_iff.mp hCanceled
  have hDelivered : ((exec currentStep confirmedSale (assignSellerSteps 1 ++ cancelSteps 2)).bind
      fun store => exec currentStep store
        [.start 3 .markSaleDelivered, .run 3, .run 3]).isSome := by decide
  rw [hRun] at hDelivered
  obtain ⟨d, hLater⟩ := Option.isSome_iff_exists.mp hDelivered
  have hFirst := runs_guarded_of_exec hRun
  have hSecond := runs_guarded_of_exec hLater
  exact ⟨c, d, hFirst, hSecond,
    (terminal_states_stay sampleIds confirmedSale_quiet hFirst hSecond).1 hStatus⟩

/-- One request assigns a seller and loads the sale; a second one cancels it. -/
def overtakenByCancellation : List (Label Nat) :=
  .start 1 (.assignSeller "other") :: loadSteps 1 ++ cancelSteps 2

/-- The first request saves what it loaded. -/
def staleSave : List (Label Nat) := List.replicate 12 (.run 1)

/-- The stale save sets the canceled sale back to confirmed. -/
theorem canceled_sale_confirmed_again :
    (∀ label ∈ overtakenByCancellation ++ staleSave, label.AfterCharge) ∧
      ∃ c d, Runs (Fires (SaleStore.step sampleIds)) confirmedSale overtakenByCancellation c ∧
        Runs (Fires (SaleStore.step sampleIds)) c staleSave d ∧
          c.tables.sale.committed.data.status = .canceled ∧
            d.tables.sale.committed.data.status = .confirmed := by
  refine ⟨by decide, ?_⟩
  have hCanceled : ((exec (SaleStore.step sampleIds) confirmedSale overtakenByCancellation).map
      fun store => store.tables.sale.committed.data.status) = some .canceled := by decide
  obtain ⟨c, hRun, hStatus⟩ := Option.map_eq_some_iff.mp hCanceled
  have hConfirmed : (((exec (SaleStore.step sampleIds) confirmedSale overtakenByCancellation).bind
      fun store => exec (SaleStore.step sampleIds) store staleSave).map
        fun store => store.tables.sale.committed.data.status) = some .confirmed := by decide
  rw [hRun] at hConfirmed
  obtain ⟨d, hLater, hStatus'⟩ := Option.map_eq_some_iff.mp hConfirmed
  exact ⟨c, d, runs_of_exec hRun, runs_of_exec hLater, hStatus, hStatus'⟩

end Houndfe.Sales.Persistence
