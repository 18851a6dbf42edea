import Houndfe.Employees.TimeOff

/-! Decisions on time off in any interleaving of requests. As long as no decision commits between
the two statements of another on the same row, every row goes on from pending by one decision and
from approved to cancelled before its first day. A decision that commits in between is
overwritten. -/

namespace Houndfe.Employees

open Transactions Transition

/-! ### What the requests commit -/

/-- Rows stay, and so do their first days. -/
def KeepsRows (a b : Tables) : Prop :=
  ∀ id row, a.timeOff.find id = some row →
    ∃ later, b.timeOff.find id = some later ∧ later.startDate = row.startDate

def timeOffProtection : Protection Empty Tables where
  agree _ := KeepsRows
  refl _ _ _ row h := ⟨row, h, rfl⟩
  trans _ _ _ _ h h' := by
    intro id row hRow
    obtain ⟨middle, hMiddle, hStart⟩ := h id row hRow
    obtain ⟨last, hLast, hStart'⟩ := h' id middle hMiddle
    exact ⟨last, hLast, hStart'.trans hStart⟩
  mono _ _ _ _ h := h

/-- What a request does to the rows, and what it says it did. -/
inductive Serves : Request → Tables → Tables → Outcome → Prop where
  | requested {client : Option String} {id employeeId : String} {dto : CreateTimeOffDto}
      {requestedByUserId : Option String} {before after : Tables} {row : EmployeeTimeOff}
      (id_eq : row.id = id) (write : before.timeOff.insert row = some after.timeOff) :
      Serves (.request client id employeeId dto requestedByUserId) before after (.requested id)
  | reviewed {client : Option String} {employeeId timeOffId reviewerUserId : String}
      {dto : ReviewTimeOffDto} {now : Int} {before after : Tables} {seen : EmployeeTimeOff}
      {review : Review} (review_eq : review = ⟨dto.decision, reviewerUserId, now, dto.reviewerNotes⟩)
      (id_eq : seen.id = timeOffId) (isOpen : seen.status = .pending)
      (write : after.timeOff =
        before.timeOff.modify timeOffId (·.reviewed review) (EmployeeTimeOff.id_reviewed review)) :
      Serves (.review client employeeId timeOffId dto reviewerUserId now) before after
        (.reviewed seen review)
  | cancelled {client : Option String} {employeeId timeOffId : String} {now : Int}
      {before after : Tables} {seen : EmployeeTimeOff} (id_eq : seen.id = timeOffId)
      (may : seen.MayCancel now)
      (kept : ∃ stored, before.timeOff.find timeOffId = some stored ∧
        stored.startDate = seen.startDate)
      (write : after.timeOff = before.timeOff.modify timeOffId EmployeeTimeOff.cancelled
        EmployeeTimeOff.id_cancelled) :
      Serves (.cancel client employeeId timeOffId now) before after (.cancelled seen now)

def anyTables (_ : Tables) : Prop := True

def timeOffService : Service Empty Tables Failure Outcome Request where
  protection := timeOffProtection
  invariant := anyTables
  body := Request.body
  serves := Serves

section

variable {client : Option String} {employeeId id : String} {tables before after : Tables}
  {row : EmployeeTimeOff} {change : EmployeeTimeOff → EmployeeTimeOff}
  {hKey : ∀ row, (change row).id = row.id}

theorem findTimeOff_eq_some (h : tables.findTimeOff client employeeId id = some row) :
    tables.timeOff.find id = some row ∧ row.id = id := by
  obtain ⟨hFind, _⟩ := Option.filter_eq_some_iff.mp h
  exact ⟨hFind, (Keyed.Rows.find_eq_some_iff.mp hFind).2⟩

theorem update_eq_ok (h : update client id change hKey before = .ok after) :
    after.timeOff = before.timeOff.modify id change hKey := by
  unfold update at h
  split at h
  · cases h
    rfl
  · cases h

theorem keepsRows_modify (h : after.timeOff = before.timeOff.modify id change hKey)
    (hStart : ∀ row, (change row).startDate = row.startDate) : KeepsRows before after := by
  intro other row hRow
  rw [h, Keyed.Rows.find_modify]
  split
  · rw [hRow]
    exact ⟨change row, rfl, hStart row⟩
  · exact ⟨row, hRow, rfl⟩

theorem keepsRows_insert (h : before.timeOff.insert row = some after.timeOff) :
    KeepsRows before after := by
  intro other found hFound
  exact ⟨found, Keyed.Rows.find_insert_of_find h hFound, rfl⟩

theorem insert_eq_ok (h : insert row before = .ok after) :
    before.timeOff.insert row = some after.timeOff := by
  unfold insert at h
  split at h
  · cases h
  · next timeOff hInsert =>
      cases h
      exact hInsert

end

theorem keeps_request {client : Option String} {id employeeId : String} {dto : CreateTimeOffDto}
    {requestedByUserId : Option String} :
    timeOffService.Keeps (.request client id employeeId dto requestedByUserId) := by
  show (request client id employeeId dto requestedByUserId).Ensures _ _ _ _ _
  unfold request
  rw [ensures_bind]
  apply ensures_query
  intro seen _ _
  cases seen.findEmployee client employeeId with
  | none => exact trivial
  | some employee =>
      simp only
      split
      · exact trivial
      · cases client with
        | none => exact trivial
        | some tenantId =>
            simp only
            rw [ensures_bind]
            apply ensures_queryOwn
            intro seen' own _ _ _ before after _ _ hWrite
            obtain ⟨written, hInsert, hAfter⟩ := map_eq_ok.mp hWrite
            have hRows : after.timeOff = written.timeOff := by
              rw [← hAfter]
              split <;> rfl
            have hInserted := insert_eq_ok hInsert
            rw [← hRows] at hInserted
            exact ⟨.requested rfl hInserted, fun _ _ => keepsRows_insert hInserted⟩

theorem keeps_review {client : Option String} {employeeId timeOffId reviewerUserId : String}
    {dto : ReviewTimeOffDto} {now : Int} :
    timeOffService.Keeps (.review client employeeId timeOffId dto reviewerUserId now) := by
  show (review client employeeId timeOffId dto reviewerUserId now).Ensures _ _ _ _ _
  unfold review
  rw [ensures_bind]
  apply ensures_query
  intro seen _ _
  cases hFound : seen.findTimeOff client employeeId timeOffId with
  | none => exact trivial
  | some row =>
      simp only
      split
      · exact trivial
      · next hOpen =>
          intro before after _ _ hWrite
          have hRows := update_eq_ok hWrite
          exact ⟨.reviewed rfl (findTimeOff_eq_some hFound).2 (not_not.mp hOpen) hRows,
            fun _ _ => keepsRows_modify hRows fun _ => rfl⟩

theorem keeps_cancel {client : Option String} {employeeId timeOffId : String} {now : Int} :
    timeOffService.Keeps (.cancel client employeeId timeOffId now) := by
  show (cancel client employeeId timeOffId now).Ensures _ _ _ _ _
  unfold cancel
  rw [ensures_bind]
  apply ensures_query
  intro seen _ _
  cases hFound : seen.findTimeOff client employeeId timeOffId with
  | none => exact trivial
  | some row =>
      simp only
      split
      · next hMay =>
          intro before after hKnown _ hWrite
          have hRows := update_eq_ok hWrite
          obtain ⟨hFind, hId⟩ := findTimeOff_eq_some hFound
          exact ⟨.cancelled hId hMay (hKnown.2 timeOffId row hFind) hRows,
            fun _ _ => keepsRows_modify hRows fun _ => rfl⟩
      · exact trivial

theorem timeOffService_keeps (request : Request) : timeOffService.Keeps request := by
  cases request with
  | request client id employeeId dto requestedByUserId => exact keeps_request
  | review client employeeId timeOffId dto reviewerUserId now => exact keeps_review
  | cancel client employeeId timeOffId now => exact keeps_cancel

/-! ### Decisions on one row -/

def Outcome.timeOffId : Outcome → String
  | .requested id => id
  | .reviewed seen _ => seen.id
  | .cancelled seen _ => seen.id

/-- What an outcome makes of the row of `id`. -/
inductive Decides (id : String) : EmployeeTimeOff → Outcome → EmployeeTimeOff → Prop where
  | other {row : EmployeeTimeOff} {outcome : Outcome} (others : outcome.timeOffId ≠ id) :
      Decides id row outcome row
  | reviewed {row seen : EmployeeTimeOff} {review : Review} (same : seen.id = id)
      (isOpen : row.status = .pending) : Decides id row (.reviewed seen review) (row.reviewed review)
  | cancelled {row seen : EmployeeTimeOff} {now : Int} (same : seen.id = id)
      (may : row.MayCancel now) : Decides id row (.cancelled seen now) row.cancelled

/-- Nobody decided on the row since it was read; a cancellation may come after an approval too, if
it comes before the first day. -/
def Unraced (tables : Tables) : Outcome → Prop
  | .requested _ => True
  | .reviewed seen _ =>
      ∀ stored, tables.timeOff.find seen.id = some stored → stored.status = seen.status
  | .cancelled seen now =>
      ∀ stored, tables.timeOff.find seen.id = some stored →
        stored.status = seen.status ∨ stored.status = .approved ∧ now < stored.startDate

/-- What lasts of a row, whatever is decided later: its columns from the first decision on, all of
it once it is rejected or cancelled, and an approval up to a cancellation. -/
structure EmployeeTimeOff.Lasts (row last : EmployeeTimeOff) : Prop where
  approved : row.status = .approved → last = row ∨ last = row.cancelled
  closed : row.status = .rejected ∨ row.status = .cancelled → last = row
  pending : last.status = .pending → last = row

section

variable {id : String} {row middle last : EmployeeTimeOff} {outcome : Outcome} {request : Request}
  {before after : Tables}

theorem EmployeeTimeOff.Lasts.refl (row : EmployeeTimeOff) : row.Lasts row :=
  ⟨fun _ => Or.inl rfl, fun _ => rfl, fun _ => rfl⟩

theorem EmployeeTimeOff.Lasts.trans (h : row.Lasts middle) (h' : middle.Lasts last) :
    row.Lasts last where
  approved := by
    intro hApproved
    rcases h.approved hApproved with rfl | rfl
    · exact h'.approved hApproved
    · exact Or.inr (h'.closed (Or.inr rfl))
  closed := by
    intro hClosed
    have hMiddle := h.closed hClosed
    subst hMiddle
    exact h'.closed hClosed
  pending := by
    intro hPending
    have hLast := h'.pending hPending
    subst hLast
    exact h.pending hPending

theorem Decides.lasts (h : Decides id row outcome last) : row.Lasts last := by
  cases h with
  | other others => exact .refl row
  | @reviewed _ review same isOpen =>
      refine ⟨?_, ?_, ?_⟩
      · intro hApproved
        rw [isOpen] at hApproved
        cases hApproved
      · intro hClosed
        rw [isOpen] at hClosed
        rcases hClosed with hClosed | hClosed <;> cases hClosed
      · intro hPending
        have hDecision : review.decision.status = .pending := hPending
        cases hReview : review.decision <;> simp [hReview, ReviewDecision.status] at hDecision
  | cancelled same may =>
      refine ⟨fun _ => Or.inr rfl, ?_, ?_⟩
      · rintro (hClosed | hClosed) <;> rcases may with hMay | ⟨hMay, _⟩ <;>
          rw [hClosed] at hMay <;> cases hMay
      · intro hPending
        cases hPending

theorem lasts_of_runs {outcomes : List Outcome} (run : Runs (Decides id) row outcomes last) :
    row.Lasts last := by
  induction run with
  | zero => exact .refl row
  | succ prior step ih => exact ih.trans step.lasts

/-- The step lemma: a commit that nobody got ahead of decides on its row, and leaves the other
rows alone. -/
theorem decides_of_serves (hServes : Serves request before after outcome)
    (hUnraced : Unraced before outcome) (hRow : before.timeOff.find id = some row) :
    ∃ last, after.timeOff.find id = some last ∧ Decides id row outcome last := by
  cases hServes with
  | @requested _ requested _ _ _ _ _ created id_eq write =>
      refine ⟨row, Keyed.Rows.find_insert_of_find write hRow, .other ?_⟩
      intro hSame
      have hFree := (Keyed.Rows.insert_eq_some.mp write).1 row (Keyed.Rows.find_eq_some_iff.mp hRow).1
      have hTaken : requested = id := hSame
      exact hFree (by rw [id_eq, hTaken, (Keyed.Rows.find_eq_some_iff.mp hRow).2])
  | @reviewed _ _ timeOffId _ _ _ _ _ seen review _ id_eq isOpen write =>
      by_cases hSame : id = timeOffId
      · have hSeen : seen.id = id := id_eq.trans hSame.symm
        refine ⟨row.reviewed review, ?_, .reviewed hSeen ?_⟩
        · rw [write, Keyed.Rows.find_modify, if_pos hSame, hRow]
          rfl
        · exact (hUnraced row (by rw [hSeen, hRow])).trans isOpen
      · refine ⟨row, ?_, .other ?_⟩
        · rw [write, Keyed.Rows.find_modify, if_neg hSame, hRow]
        · exact fun hId => hSame (hId.symm.trans id_eq)
  | @cancelled _ _ timeOffId now _ _ seen id_eq may kept write =>
      by_cases hSame : id = timeOffId
      · have hSeen : seen.id = id := id_eq.trans hSame.symm
        refine ⟨row.cancelled, ?_, .cancelled hSeen ?_⟩
        · rw [write, Keyed.Rows.find_modify, if_pos hSame, hRow]
          rfl
        · obtain ⟨stored, hStored, hStart⟩ := kept
          rw [← hSame, hRow, Option.some.injEq] at hStored
          subst hStored
          rcases hUnraced row (by rw [hSeen, hRow]) with hStatus | hApproved
          · unfold EmployeeTimeOff.MayCancel at may ⊢
            rwa [hStatus, hStart]
          · exact Or.inr hApproved
      · refine ⟨row, ?_, .other ?_⟩
        · rw [write, Keyed.Rows.find_modify, if_neg hSame, hRow]
        · exact fun hId => hSame (hId.symm.trans id_eq)

end

section

variable {Tid : Type} [DecidableEq Tid] {start final : System Tid Empty Tables Failure Outcome}
  {events : List (Event Tid Empty Tables Failure Outcome)}

theorem reached_runs (hStart : timeOffService.Reached start)
    (run : Runs (Step timeOffService.Body) start events final) : timeOffService.Reached final :=
  (hStart.runs timeOffService_keeps (fun _ _ _ _ _ _ => trivial) run).1

/-- The run lemma: what becomes of a row is what the answers of the run decide, one by one. -/
theorem decides_of_runs (hStart : timeOffService.Reached start)
    (run : Runs (Guarded (Step timeOffService.Body) (OnCommit Unraced)) start events final)
    {id : String} {row : EmployeeTimeOff} (hRow : start.tables.timeOff.find id = some row) :
    ∃ last, final.tables.timeOff.find id = some last ∧
      Runs (Decides id) row (answers events) last := by
  induction run with
  | zero => exact ⟨row, hRow, Runs.zero row⟩
  | @succ middle after labels label prior last ih =>
      obtain ⟨found, hFound, hPrior⟩ := ih
      obtain ⟨hStep, hUnraced⟩ := last
      have hQuiet : answers [label] = [] → Runs (Decides id) row (answers (labels ++ [label])) found := by
        intro hNone
        rwa [answers_append, hNone, List.append_nil]
      cases hStep with
      | begin idle admitted => exact ⟨found, hFound, hQuiet rfl⟩
      | read running => exact ⟨found, hFound, hQuiet rfl⟩
      | locked running there free => exact ⟨found, hFound, hQuiet rfl⟩
      | missing running absent => exact ⟨found, hFound, hQuiet rfl⟩
      | rollback => exact ⟨found, hFound, hQuiet rfl⟩
      | @commit _ body ending _ written running write =>
          have hMiddle := reached_runs hStart prior.of_guarded
          obtain ⟨request, rfl⟩ := (hMiddle.flies.each _ _ running).1
          have hServes := hMiddle.commit timeOffService_keeps (Step.commit running write)
          obtain ⟨later, hLater, hDecides⟩ := decides_of_serves hServes hUnraced hFound
          rw [answers_append]
          exact ⟨later, hLater, hPrior.succ hDecides⟩

end

/-- Where no decision gets ahead of another, a row follows the decisions one by one, each of them
open to it, and what was decided lasts. -/
theorem decisions_last (Tid : Type) [DecidableEq Tid] (tables : Tables)
    (reached final : System Tid Empty Tables Failure Outcome)
    (earlier later : List (Event Tid Empty Tables Failure Outcome))
    (hEarlier : Runs (Guarded (Step timeOffService.Body) (OnCommit Unraced)) (System.idle tables)
      earlier reached)
    (hLater : Runs (Guarded (Step timeOffService.Body) (OnCommit Unraced)) reached later final)
    (id : String) (row : EmployeeTimeOff) (hRow : reached.tables.timeOff.find id = some row) :
    ∃ last, final.tables.timeOff.find id = some last ∧
      Runs (Decides id) row (answers later) last ∧ row.Lasts last := by
  have hReached := reached_runs (Service.reached_idle trivial) hEarlier.of_guarded
  obtain ⟨last, hLast, hDecides⟩ := decides_of_runs hReached hLater hRow
  exact ⟨last, hLast, hDecides, lasts_of_runs hDecides⟩

/-! ### A cancellation that is overwritten -/

namespace TimeOffDecisions

def row : EmployeeTimeOff where
  id := "t1"
  employeeId := "e1"
  tenantId := "acme"
  type := .vacation
  startDate := 86400000
  endDate := 172800000
  reason := none
  status := .pending
  reviewerUserId := none
  reviewedAt := none
  reviewerNotes := none
  requestedByUserId := none

def tables : Tables where
  employees := [⟨"e1", "acme", some "Ana", none⟩]
  timeOff := ⟨[row], List.nodup_singleton _⟩
  notificationConfig _ := ⟨false, []⟩
  outbox := []

def approve : Request :=
  .review (some "acme") "e1" "t1" ⟨.approved, none⟩ "boss" 10

def withdraw : Request :=
  .cancel (some "acme") "e1" "t1" 20

abbrev TimeOffStage := Stage Bool Request Empty Tables Failure Outcome

def play (moves : List (Move Bool Request)) (stage : TimeOffStage) : Option TimeOffStage :=
  stage.plays Request.body (fun _ _ => true) moves

theorem runs_of_play {moves : List (Move Bool Request)} {stage last : TimeOffStage}
    (h : play moves stage = some last) :
    ∃ events, Runs (Step timeOffService.Body) (stage.system Request.body) events
      (last.system Request.body) := by
  have hPlays : stage.plays timeOffService.body (fun _ _ => true) moves = some last := h
  exact Service.runs_of_schedule hPlays

def statusOf (stage : TimeOffStage) : Option TimeOffStatus :=
  (stage.tables.timeOff.find "t1").map (·.status)

/-- Both read the row, and the cancellation commits. -/
def first : List (Move Bool Request) :=
  Move.times false approve 1 ++ Move.times true withdraw 2

/-- The review commits. -/
def second : List (Move Bool Request) :=
  [.advance false]

/-- A request that is served while nobody else is there. -/
theorem runs_of_served {before after : Tables} {body : TimeOffTx Ending} {outcome : Outcome}
    (hBody : timeOffService.Body body) (hUnraced : Unraced before outcome)
    (h : serve body before = .ok (after, outcome)) :
    ∃ events : List (Event Bool Empty Tables Failure Outcome),
      Runs (Guarded (Step timeOffService.Body) (OnCommit Unraced)) (System.idle before) events
        (System.idle after) ∧ commits events = [(body, outcome)] :=
  runs_of_serve true hBody hUnraced h

end TimeOffDecisions

open TimeOffDecisions in
theorem cancelled_then_approved : ∃ (earlier later : List (Event Bool Empty Tables Failure Outcome))
    (reached final : System Bool Empty Tables Failure Outcome),
    Runs (Step timeOffService.Body) (System.idle tables) earlier reached ∧
    Runs (Step timeOffService.Body) reached later final ∧
    (reached.tables.timeOff.find "t1").map (·.status) = some .cancelled ∧
    (final.tables.timeOff.find "t1").map (·.status) = some .approved := by
  have hFirst : (play first (Stage.empty tables)).bind statusOf = some .cancelled := by
    decide +kernel
  have hSecond : (play first (Stage.empty tables)).bind
      (fun stage => (play second stage).bind statusOf) = some .approved := by
    decide +kernel
  obtain ⟨reached, hReached, hCancelled⟩ := Option.bind_eq_some_iff.mp hFirst
  rw [hReached, Option.bind_some] at hSecond
  obtain ⟨final, hFinal, hApproved⟩ := Option.bind_eq_some_iff.mp hSecond
  obtain ⟨earlier, hEarlier⟩ := runs_of_play hReached
  obtain ⟨later, hLater⟩ := runs_of_play hFinal
  exact ⟨earlier, later, _, _, hEarlier, hLater, hCancelled, hApproved⟩

open TimeOffDecisions in
/-- An approval that is withdrawn before the first day, one request after the other. -/
theorem decisions_last_withdrawn : ∃ (answers : List Outcome) (final : Tables),
    ∃ last, final.timeOff.find "t1" = some last ∧
      Runs (Decides "t1") (row.reviewed ⟨.approved, "boss", 10, none⟩) answers last ∧
      (row.reviewed ⟨.approved, "boss", 10, none⟩).Lasts last ∧ last.status = .cancelled := by
  have hApprove : serve approve.body tables = .ok ({ tables with
      timeOff := tables.timeOff.modify "t1" (·.reviewed ⟨.approved, "boss", 10, none⟩)
        (EmployeeTimeOff.id_reviewed _) }, .reviewed row ⟨.approved, "boss", 10, none⟩) := rfl
  have hFresh : Unraced tables (.reviewed row ⟨.approved, "boss", 10, none⟩) := by
    intro stored hStored
    cases hStored
    rfl
  obtain ⟨earlier, hEarlier, _⟩ := runs_of_served ⟨approve, rfl⟩ hFresh hApprove
  generalize hTables : ({ tables with
      timeOff := tables.timeOff.modify "t1" (·.reviewed ⟨.approved, "boss", 10, none⟩)
        (EmployeeTimeOff.id_reviewed _) } : Tables) = approved at hEarlier
  have hRow : approved.timeOff.find "t1" =
      some (row.reviewed ⟨.approved, "boss", 10, none⟩) := by
    rw [← hTables]
    rfl
  have hWithdraw : serve withdraw.body approved = .ok ({ approved with
      timeOff := approved.timeOff.modify "t1" EmployeeTimeOff.cancelled
        EmployeeTimeOff.id_cancelled },
      .cancelled (row.reviewed ⟨.approved, "boss", 10, none⟩) 20) := by
    rw [← hTables]
    rfl
  have hStill : Unraced approved
      (.cancelled (row.reviewed ⟨.approved, "boss", 10, none⟩) 20) := by
    intro stored hStored
    rw [show (row.reviewed ⟨.approved, "boss", 10, none⟩).id = "t1" from rfl, hRow,
      Option.some.injEq] at hStored
    rw [hStored]
    exact Or.inl rfl
  obtain ⟨later, hLater, _⟩ := runs_of_served ⟨withdraw, rfl⟩ hStill hWithdraw
  obtain ⟨last, hLast, hDecides, hLasts⟩ :=
    decisions_last Bool tables _ _ earlier later hEarlier hLater "t1" _ hRow
  refine ⟨_, _, last, hLast, hDecides, hLasts, ?_⟩
  have hFind : (approved.timeOff.modify "t1" EmployeeTimeOff.cancelled
      EmployeeTimeOff.id_cancelled).find "t1" = some last := hLast
  rw [Keyed.Rows.find_modify, if_pos rfl, hRow] at hFind
  cases hFind
  rfl

end Houndfe.Employees
