import Houndfe.Promotions.PromotionCommits

/-! An end by the operator under concurrency. An update saves every column of the row it loaded,
the flag of the operator among them, so that an end which commits in between is undone; when no
update saves over an end that it has not seen, a promotion stays ended until it is activated. -/

namespace Houndfe.Promotions

open Transactions Transition

def Outcome.Ends (id : String) : Outcome → Prop
  | .ended ids => id ∈ ids
  | _ => False

def Outcome.Activates (id : String) : Outcome → Prop
  | .activated ids => id ∈ ids
  | _ => False

instance (id : String) : DecidablePred (Outcome.Activates id) := fun outcome => by
  cases outcome <;> unfold Outcome.Activates <;> infer_instance

/-- The operator has ended the promotion, so that it is ended at every instant. -/
def EndedByOperator (id : String) (tables : Tables) : Prop :=
  ∃ row, tables.promotions.find id = some row ∧ row.promotion.manuallyEnded = true

/-- The id that a creation draws at random names no promotion yet. -/
def FreshId (tables : Tables) : Outcome → Prop
  | .created id => tables.promotions.find id = none
  | _ => True

/-- An update saves over a promotion that is ended only if it loaded it ended. -/
def SeesEnd (tables : Tables) : Outcome → Prop
  | .updated loaded => EndedByOperator loaded.promotion.id tables →
      loaded.promotion.manuallyEnded = true
  | _ => True

section

variable {id other tenantId : String} {row : PromotionRow} {before after : Tables}
  {writes : StatusWrites} {request : Request} {outcome : Outcome}

theorem EndedByOperator.of_only {ids : List String} (h : EndedByOperator id before)
    (hOnly : OnlyPromotions ids before after) (hId : id ∉ ids) : EndedByOperator id after := by
  obtain ⟨row, hRow, hEnded⟩ := h
  exact ⟨row, hOnly.others id row hId hRow, hEnded⟩

/-- A save keeps the end of every row but its own, and that one too if it saves the flag set. -/
theorem EndedByOperator.saved (h : EndedByOperator id before)
    (hWrite : overwrite row before = .ok after ∨ insert row before = .ok after)
    (hRow : row.promotion.id = id → row.promotion.manuallyEnded = true) :
    EndedByOperator id after := by
  rcases hWrite with hOverwrite | hInsert
  · obtain ⟨stored, hOverwrites⟩ := overwrite_eq_ok hOverwrite
    by_cases hSame : row.promotion.id = id
    · refine ⟨stored.overwrite row, ?_, hRow hSame⟩
      rw [hOverwrites.find, if_pos hSame.symm]
    · exact h.of_only hOverwrites.only (by simpa using Ne.symm hSame)
  · exact h.of_only (insert_eq_ok hInsert).only (List.not_mem_nil)

/-- An ended row that an end writes again stays ended. -/
theorem EndedByOperator.endedStatus {write : StatusWrite} (h : EndedByOperator id before)
    (hEnds : write.status = .ended ∧ write.manuallyEnded = none)
    (hWrite : updateStatus tenantId other write before = .ok after) :
    EndedByOperator id after := by
  obtain ⟨row, hRow, hEnded⟩ := h
  rw [EndedByOperator, find_updateStatus hWrite]
  split
  · exact ⟨row.withStatus write, by rw [hRow, Option.map_some],
      by simp [PromotionRow.withStatus, hEnds.1, hEnds.2]⟩
  · exact ⟨row, hRow, hEnded⟩

theorem endedByOperator_updateStatus {write : StatusWrite}
    (hEnds : write.status = .ended ∧ write.manuallyEnded = none)
    (hWrite : updateStatus tenantId id write before = .ok after) : EndedByOperator id after := by
  obtain ⟨hOwns, _⟩ := updateStatus_eq_ok hWrite
  obtain ⟨row, hRow⟩ := Option.isSome_iff_exists.mp hOwns
  have hFind := (findPromotion_eq_some.mp hRow).1
  refine ⟨row.withStatus write, ?_, by simp [PromotionRow.withStatus, hEnds.1, hEnds.2]⟩
  rw [find_updateStatus hWrite, if_pos rfl, hFind, Option.map_some]

theorem EndedByOperator.endedStatuses (h : EndedByOperator id before)
    (hEnds : ∀ write ∈ writes, write.2.status = .ended ∧ write.2.manuallyEnded = none)
    (hWrite : updateStatuses tenantId writes before = .ok after) : EndedByOperator id after := by
  induction writes generalizing before with
  | nil =>
      cases hWrite
      exact h
  | cons first rest ih =>
      obtain ⟨middle, hFirst, hRest⟩ := bind_eq_ok.mp hWrite
      have hMiddle := h.endedStatus (hEnds first List.mem_cons_self) hFirst
      exact ih hMiddle (fun write hMem => hEnds write (List.mem_cons_of_mem _ hMem)) hRest

/-- Every id that an end names is ended by it. -/
theorem endedByOperator_updateStatuses (hMem : id ∈ writes.map Prod.fst)
    (hEnds : ∀ write ∈ writes, write.2.status = .ended ∧ write.2.manuallyEnded = none)
    (hWrite : updateStatuses tenantId writes before = .ok after) : EndedByOperator id after := by
  induction writes generalizing before with
  | nil => simp at hMem
  | cons first rest ih =>
      obtain ⟨middle, hFirst, hRest⟩ := bind_eq_ok.mp hWrite
      have hTail : ∀ write ∈ rest, write.2.status = .ended ∧ write.2.manuallyEnded = none :=
        fun write hMem => hEnds write (List.mem_cons_of_mem _ hMem)
      rw [List.map_cons, List.mem_cons] at hMem
      rcases hMem with rfl | hMem
      · have hMiddle := endedByOperator_updateStatus (hEnds first List.mem_cons_self) hFirst
        exact hMiddle.endedStatuses hTail hRest
      · exact ih hMem hTail hRest

theorem endedByOperator_of_ends (hServes : Serves request before after outcome)
    (hEnds : outcome.Ends id) : EndedByOperator id after := by
  cases hServes with
  | ended _ names ends write => exact endedByOperator_updateStatuses (names ▸ hEnds) ends write
  | created | updated | activated | claimed | alreadyAlerted | notEligible | elapsed =>
      exact hEnds.elim

/-- The step lemma: an end survives every commit that is no activation of the promotion and no
update that has not seen it. -/
theorem EndedByOperator.serves (h : EndedByOperator id before)
    (hServes : Serves request before after outcome) (hFresh : FreshId before outcome)
    (hSees : SeesEnd before outcome) (hActivates : ¬ outcome.Activates id) :
    EndedByOperator id after := by
  cases hServes with
  | created id_eq write =>
      apply h.saved write
      intro hSame
      obtain ⟨stored, hStored, _⟩ := h
      rw [← hSame, id_eq] at hStored
      rw [FreshId, hStored] at hFresh
      cases hFresh
  | updated id_eq ended write =>
      apply h.saved write
      intro hSame
      rw [ended]
      rw [id_eq] at hSame
      exact hSees (hSame ▸ h)
  | ended _ names ends write => exact h.endedStatuses ends write
  | activated _ names write =>
      exact h.of_only (only_updateStatuses write) fun hMem => hActivates (names hMem)
  | claimed due gate =>
      obtain ⟨row, hRow, hEnded⟩ := h
      refine ⟨row, ?_, hEnded⟩
      show (seed _ before).promotions.find id = some row
      rw [seed_promotions, hRow]
  | alreadyAlerted due gate =>
      obtain ⟨row, hRow, hEnded⟩ := h
      exact ⟨row, by rw [seed_promotions, hRow], hEnded⟩
  | notEligible => exact h
  | elapsed _ promotions _ _ _ =>
      obtain ⟨row, hRow, hEnded⟩ := h
      exact ⟨row, promotions ▸ hRow, hEnded⟩

theorem getEffectiveStatus_of_ended {promotion : Promotion} (h : promotion.manuallyEnded = true)
    (now : Int) : promotion.getEffectiveStatus now = .ended := by
  simp [Promotion.getEffectiveStatus, h]

end

/-- Once an end has committed, the promotion is ended at every instant of every state that is
reached before an activation of it commits, in every run whose commits meet the guard. -/
def EndIsPermanent (guard : Tables → Outcome → Prop) : Prop :=
  ∀ (zoneOffset : ZoneOffset) (Tid : Type) [DecidableEq Tid] (tables : Tables)
    (loaded ended final : System Tid Lock Tables Failure Outcome)
    (earlier later : List (Event Tid Lock Tables Failure Outcome)) (tid : Tid)
    (body : PromotionTx Ending) (outcome : Outcome) (id : String),
    Runs (Guarded (Step (promotionService zoneOffset).Body) (OnCommit guard)) (System.idle tables)
      earlier loaded →
    Step (promotionService zoneOffset).Body loaded (.commit tid body outcome) ended →
    outcome.Ends id →
    Runs (Guarded (Step (promotionService zoneOffset).Body) (OnCommit guard)) ended later final →
    (∀ outcome ∈ answers later, ¬ outcome.Activates id) →
    ∃ row, final.tables.promotions.find id = some row ∧
      ∀ now, row.promotion.getEffectiveStatus now = .ended

/-- The end of a promotion lasts until an activation, where updates see it. -/
theorem end_permanent (zoneOffset : ZoneOffset) (Tid : Type) [DecidableEq Tid] (tables : Tables)
    (loaded ended final : System Tid Lock Tables Failure Outcome)
    (earlier later : List (Event Tid Lock Tables Failure Outcome)) (tid : Tid)
    (body : PromotionTx Ending) (outcome : Outcome) (id : String)
    (hEarlier : Runs (Guarded (Step (promotionService zoneOffset).Body) (OnCommit
      fun tables outcome => FreshId tables outcome ∧ SeesEnd tables outcome))
      (System.idle tables) earlier loaded)
    (hEnd : Step (promotionService zoneOffset).Body loaded (.commit tid body outcome) ended)
    (hEnds : outcome.Ends id)
    (hLater : Runs (Guarded (Step (promotionService zoneOffset).Body) (OnCommit
      fun tables outcome => FreshId tables outcome ∧ SeesEnd tables outcome)) ended later final)
    (hOpen : ∀ outcome ∈ answers later, ¬ outcome.Activates id) :
    ∃ row, final.tables.promotions.find id = some row ∧
      ∀ now, row.promotion.getEffectiveStatus now = .ended := by
  have hKeeps := promotionService_keeps zoneOffset
  have hAny : ∀ request before after outcome, (promotionService zoneOffset).invariant before →
      (promotionService zoneOffset).serves request before after outcome →
        (promotionService zoneOffset).invariant after := fun _ _ _ _ _ _ => trivial
  have hStart : (promotionService zoneOffset).Reached
      (System.idle tables : System Tid Lock Tables Failure Outcome) :=
    Service.reached_idle trivial
  have hLoaded := (hStart.runs hKeeps hAny hEarlier.of_guarded).1
  have hEnded := (hLoaded.runs hKeeps hAny (Runs.single hEnd)).1
  have hFlag : EndedByOperator id ended.tables := by
    have hBody : (promotionService zoneOffset).Body body := by
      cases hEnd with
      | commit running written => exact (hLoaded.flies.each _ _ running).1
    obtain ⟨request, rfl⟩ := hBody
    exact endedByOperator_of_ends (hLoaded.commit hKeeps hEnd) hEnds
  have hGuarded : Runs (Guarded (Step (promotionService zoneOffset).Body) (OnCommit
      fun tables outcome => (FreshId tables outcome ∧ SeesEnd tables outcome) ∧
        ¬ outcome.Activates id)) ended later final := by
    apply (runs_of_answers hLater hOpen).mono
    rintro system event next ⟨⟨hStep, hGuard⟩, hNot⟩
    refine ⟨hStep, ?_⟩
    cases event with
    | commit tid body outcome => exact ⟨hGuard, hNot⟩
    | begin tid body => exact trivial
    | statement tid => exact trivial
    | rollback tid => exact trivial
  have hFinal : EndedByOperator id final.tables := by
    apply hEnded.invariant hKeeps hAny _ hGuarded hFlag
    intro system tid request outcome after _ hGuard hServes h
    exact EndedByOperator.serves h hServes hGuard.1.1 hGuard.1.2 hGuard.2
  obtain ⟨row, hRow, hManual⟩ := hFinal
  exact ⟨row, hRow, getEffectiveStatus_of_ended hManual⟩

/-! ### An end that is undone -/

namespace OperatorEnd

def promotion : Promotion where
  botEligible := false
  id := "p1"
  title := "Promo"
  type := .orderDiscount
  method := .automatic
  manuallyEnded := false
  startDate := none
  endDate := none
  customerScope := .all
  discountType := some .percentage
  discountValue := some 10
  minPurchaseAmountCents := none
  appliesTo := none
  buyQuantity := none
  getQuantity := none
  getDiscountPercent := none
  buyTargetType := none
  getTargetType := none
  maxProductUnits := none
  consumedProductUnits := 0
  targetItems := []
  customers := []
  priceLists := []
  daysOfWeek := []

def tables : Tables where
  catalog _ := ⟨[], [], [], [], [], []⟩
  promotions := ⟨[⟨"t1", promotion, .active⟩], by decide⟩
  alertStates := []
  outbox := []
  clock := 0

/-- An update of the title alone. -/
def retitle (title : String) : Request :=
  .update "t1" "p1" { UpdatePromotionDto.empty with title := some title } 5

def finish : Request :=
  .endPromotion "t1" "p1" 7

/-- An update loads the promotion and looks up its relations; an end commits; the update saves. -/
def undone : List (Move Bool Request) :=
  .start false (retitle "Promo 2") :: List.replicate 4 (.advance false) ++
    Move.times true finish 3 ++ List.replicate 2 (.advance false)

/-- An update loads the promotion after the end. -/
def kept : List (Move Bool Request) :=
  Move.times true finish 3 ++ Move.times false (retitle "Promo 2") 6

/-- What the requests of a schedule tell, and what is left of the promotion. -/
def report (moves : List (Move Bool Request)) : Option (List Outcome × Option PromotionRow) :=
  (playRequests tables moves).map fun (told, last) => (told, last.promotions.find "p1")

def ended : Promotion := { promotion with manuallyEnded := true, endDate := some 7 }

theorem report_undone : report undone = some ([.ended ["p1"], .updated ⟨"t1", promotion, .active⟩],
    some ⟨"t1", { promotion with title := "Promo 2" }, .active⟩) := by
  decide +kernel

theorem report_kept : report kept = some ([.ended ["p1"], .updated ⟨"t1", ended, .ended⟩],
    some ⟨"t1", { ended with title := "Promo 2" }, .ended⟩) := by
  decide +kernel

/-- What is reported is a run; where its answers meet a guard on any tables, it is guarded. -/
theorem runs_of_report {guard : Tables → Outcome → Prop} {moves : List (Move Bool Request)}
    {told : List Outcome} {row : Option PromotionRow} (h : report moves = some (told, row))
    (hGuard : ∀ outcome ∈ told, ∀ tables, guard tables outcome) :
    ∃ (events : List (Event Bool Lock Tables Failure Outcome))
      (last : System Bool Lock Tables Failure Outcome),
      Runs (Guarded (Step (promotionService fun _ => 0).Body) (OnCommit guard))
        (System.idle tables) events last ∧
      answers events = told ∧ last.tables.promotions.find "p1" = row := by
  obtain ⟨⟨told', tables'⟩, hPlayed, hReport⟩ := Option.map_eq_some_iff.mp h
  obtain ⟨rfl, rfl⟩ := Prod.mk.inj hReport
  obtain ⟨events, last, run, rfl, rfl⟩ := runs_of_playRequests hPlayed
  refine ⟨events, last, (runs_of_answers run hGuard).mono ?_, rfl, rfl⟩
  rintro system event next ⟨hStep, hCommit⟩
  refine ⟨hStep, ?_⟩
  cases event with
  | commit tid body outcome => exact hCommit system.tables
  | begin tid body => exact trivial
  | statement tid => exact trivial
  | rollback tid => exact trivial

end OperatorEnd

/-- The end commits between the load and the save of an update, and the promotion is in force
again. -/
theorem not_endIsPermanent : ¬ EndIsPermanent FreshId := by
  intro h
  have hFresh : ∀ outcome ∈ [Outcome.ended ["p1"], .updated ⟨"t1", OperatorEnd.promotion, .active⟩],
      ∀ tables, FreshId tables outcome := by
    simp [FreshId]
  obtain ⟨events, last, run, hTold, hRow⟩ :=
    OperatorEnd.runs_of_report OperatorEnd.report_undone hFresh
  have hSplit : answers events = [] ++ Outcome.ended ["p1"] ::
      [.updated ⟨"t1", OperatorEnd.promotion, .active⟩] := hTold
  obtain ⟨loaded, committed, earlier, later, tid, body, hEarlier, hEnd, hLater, _, hAfter⟩ :=
    exists_commit_of_answers run hSplit
  obtain ⟨row, hFound, hStatus⟩ := h (fun _ => 0) Bool OperatorEnd.tables loaded committed last
    earlier later tid body _ "p1" hEarlier hEnd.1 (by simp [Outcome.Ends]) hLater
    (by simp [hAfter, Outcome.Activates])
  rw [hRow, Option.some.injEq] at hFound
  subst hFound
  exact absurd (hStatus 10) (by decide)

/-- An update that comes after the end leaves the promotion ended. -/
theorem end_permanent_kept : ∃ (events : List (Event Bool Lock Tables Failure Outcome))
    (last : System Bool Lock Tables Failure Outcome),
    Runs (Step (promotionService fun _ => 0).Body) (System.idle OperatorEnd.tables) events last ∧
    answers events = [.ended ["p1"], .updated ⟨"t1", OperatorEnd.ended, .ended⟩] ∧
    ∃ row, last.tables.promotions.find "p1" = some row ∧
      ∀ now, row.promotion.getEffectiveStatus now = .ended := by
  have hGuard : ∀ outcome ∈ [Outcome.ended ["p1"], .updated ⟨"t1", OperatorEnd.ended, .ended⟩],
      ∀ tables, FreshId tables outcome ∧ SeesEnd tables outcome := by
    simp [FreshId, SeesEnd, OperatorEnd.ended]
  obtain ⟨events, last, run, hTold, _⟩ := OperatorEnd.runs_of_report OperatorEnd.report_kept hGuard
  have hSplit : answers events = [] ++ Outcome.ended ["p1"] ::
      [.updated ⟨"t1", OperatorEnd.ended, .ended⟩] := hTold
  obtain ⟨loaded, committed, earlier, later, tid, body, hEarlier, hEnd, hLater, _, hAfter⟩ :=
    exists_commit_of_answers run hSplit
  refine ⟨events, last, run.of_guarded, hTold, ?_⟩
  exact end_permanent (fun _ => 0) Bool OperatorEnd.tables loaded committed last earlier later tid
    body _ "p1" hEarlier hEnd.1 (by simp [Outcome.Ends]) hLater
    (by simp [hAfter, Outcome.Activates])

end Houndfe.Promotions
