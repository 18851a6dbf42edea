import Houndfe.Base.Transactions
import Mathlib.Data.Fintype.Basic

/-! Schedules of the interleaved system: a list of moves says whose turn it is, and playing it
computes the tables it ends with. What is played is a run of the system. -/

namespace Transactions

open Transition

variable {Tid Request Lock Tables Error Answer : Type}

/-- A transaction of a schedule, with the request it serves. -/
structure Seat (Request Lock Tables Error Answer : Type) where
  request : Request
  rest : Tx Lock Tables Error (Commit Tables Error Answer)
  held : List Lock

structure Stage (Tid Request Lock Tables Error Answer : Type) where
  tables : Tables
  seats : Tid → Option (Seat Request Lock Tables Error Answer)

/-- The stage before anybody takes a seat. -/
def Stage.empty (tables : Tables) : Stage Tid Request Lock Tables Error Answer :=
  ⟨tables, fun _ => none⟩

inductive Move (Tid Request : Type) where
  | start (tid : Tid) (request : Request)
  | advance (tid : Tid)
  deriving DecidableEq

/-- A request is started and goes on for so many statements, its commit among them. -/
def Move.times (tid : Tid) (request : Request) (statements : Nat) : List (Move Tid Request) :=
  .start tid request :: List.replicate statements (.advance tid)

section

variable (body : Request → Tx Lock Tables Error (Commit Tables Error Answer))

def Seat.flight (seat : Seat Request Lock Tables Error Answer) :
    Flight Lock Tables Error Answer :=
  ⟨body seat.request, seat.rest, seat.held⟩

/-- The system that a stage stands for. -/
def Stage.system (stage : Stage Tid Request Lock Tables Error Answer) :
    System Tid Lock Tables Error Answer :=
  ⟨stage.tables, fun tid => (stage.seats tid).map (Seat.flight body)⟩

variable [DecidableEq Tid]

def Stage.seat (stage : Stage Tid Request Lock Tables Error Answer) (tid : Tid)
    (seat : Option (Seat Request Lock Tables Error Answer)) :
    Stage Tid Request Lock Tables Error Answer :=
  { stage with seats := Function.update stage.seats tid seat }

/-- Nobody else holds the lock. -/
def Stage.Free (stage : Stage Tid Request Lock Tables Error Answer) (tid : Tid) (key : Lock) :
    Prop :=
  ∀ other, other ≠ tid → ∀ seat ∈ stage.seats other, key ∉ seat.held

instance [Fintype Tid] [DecidableEq Lock] (stage : Stage Tid Request Lock Tables Error Answer)
    (tid : Tid) (key : Lock) : Decidable (stage.Free tid key) :=
  inferInstanceAs (Decidable (∀ other, other ≠ tid → ∀ seat ∈ stage.seats other, key ∉ seat.held))

variable [Fintype Tid] [DecidableEq Lock] (timely : Request → Tables → Bool)

/-- One event of a transaction on the stage. A move that has to wait, a commit out of time and a
write that is refused end the schedule; a failed transaction rolls back. -/
def Stage.advance (stage : Stage Tid Request Lock Tables Error Answer) (tid : Tid) :
    Option (Stage Tid Request Lock Tables Error Answer) :=
  match stage.seats tid with
  | none => some stage
  | some ⟨request, .done ending, _⟩ =>
      match ending.write stage.tables with
      | .ok after =>
          if timely request stage.tables then
            some ⟨after, Function.update stage.seats tid none⟩
          else none
      | .error _ => none
  | some ⟨_, .fail _, _⟩ => some (stage.seat tid none)
  | some ⟨request, .lock key isThere next, held⟩ =>
      if isThere stage.tables then
        if stage.Free tid key then
          some (stage.seat tid (some ⟨request, next true, key :: held⟩))
        else none
      else some (stage.seat tid (some ⟨request, next false, held⟩))
  | some ⟨request, .read next, held⟩ =>
      some (stage.seat tid (some ⟨request, next stage.tables, held⟩))

/-- One move. A request takes a seat that is free. -/
def Stage.play (stage : Stage Tid Request Lock Tables Error Answer) :
    Move Tid Request → Option (Stage Tid Request Lock Tables Error Answer)
  | .start tid request =>
      match stage.seats tid with
      | none => some (stage.seat tid (some ⟨request, body request, []⟩))
      | some _ => none
  | .advance tid => stage.advance timely tid

def Stage.plays (stage : Stage Tid Request Lock Tables Error Answer)
    (moves : List (Move Tid Request)) : Option (Stage Tid Request Lock Tables Error Answer) :=
  moves.foldlM (Stage.play body timely) stage

/-- The event that a move is, if it is one. -/
def Stage.events (stage : Stage Tid Request Lock Tables Error Answer) :
    Move Tid Request → List (Event Tid Lock Tables Error Answer)
  | .start tid request => [.begin tid (body request)]
  | .advance tid =>
      match stage.seats tid with
      | none => []
      | some ⟨request, .done ending, _⟩ => [.commit tid (body request) ending.answer]
      | some ⟨_, .fail _, _⟩ => [.rollback tid]
      | some ⟨_, .lock _ _ _, _⟩ | some ⟨_, .read _, _⟩ => [.statement tid]

/-- The events of a schedule, as far as it can be played. -/
def Stage.trace (stage : Stage Tid Request Lock Tables Error Answer) :
    List (Move Tid Request) → List (Event Tid Lock Tables Error Answer)
  | [] => []
  | move :: rest =>
      match stage.play body timely move with
      | none => []
      | some middle => stage.events body move ++ middle.trace rest

variable {body timely} {Admitted : Tx Lock Tables Error (Commit Tables Error Answer) → Prop}
  {guard : System Tid Lock Tables Error Answer → Event Tid Lock Tables Error Answer → Prop}
  {stage after : Stage Tid Request Lock Tables Error Answer}

omit [Fintype Tid] [DecidableEq Lock] in
theorem Stage.system_seat (stage : Stage Tid Request Lock Tables Error Answer) (tid : Tid)
    (seat : Option (Seat Request Lock Tables Error Answer)) :
    (stage.seat tid seat).system body =
      (stage.system body).setFlight tid (seat.map (Seat.flight body)) := by
  simp only [Stage.system, Stage.seat, System.setFlight, System.mk.injEq, true_and]
  funext other
  by_cases hOther : other = tid
  · rw [hOther, Function.update_self, Function.update_self]
  · rw [Function.update_of_ne hOther, Function.update_of_ne hOther]

omit [DecidableEq Tid] [Fintype Tid] [DecidableEq Lock] in
theorem Stage.flights_eq {tid : Tid} {seat : Seat Request Lock Tables Error Answer}
    (h : stage.seats tid = some seat) :
    (stage.system body).flights tid = some (seat.flight body) := by
  simp [Stage.system, h]

/-- The guard lets a schedule pass: nothing but a commit is held up, and a commit in time is
not. -/
structure Passes (body : Request → Tx Lock Tables Error (Commit Tables Error Answer))
    (timely : Request → Tables → Bool)
    (guard : System Tid Lock Tables Error Answer → Event Tid Lock Tables Error Answer → Prop) :
    Prop where
  start : ∀ system tid started, guard system (.begin tid started)
  statement : ∀ system tid, guard system (.statement tid)
  rollback : ∀ system tid, guard system (.rollback tid)
  commit : ∀ system tid request answer, timely request system.tables = true →
    guard system (.commit tid (body request) answer)

theorem runs_of_advance {tid : Tid} (hPasses : Passes body timely guard)
    (h : stage.advance timely tid = some after) :
    Runs (Guarded (Step Admitted) guard) (stage.system body) (stage.events body (.advance tid))
      (after.system body) := by
  cases hSeat : stage.seats tid with
  | none =>
      simp only [Stage.advance, hSeat, Option.some.injEq] at h
      simp only [Stage.events, hSeat]
      exact h ▸ Runs.zero _
  | some seat =>
      obtain ⟨request, rest, held⟩ := seat
      have hRunning : (stage.system body).flights tid = some ⟨body request, rest, held⟩ :=
        Stage.flights_eq hSeat
      cases rest with
      | done ending =>
          simp only [Stage.advance, hSeat] at h
          simp only [Stage.events, hSeat]
          split at h
          · next written hWrite =>
              obtain ⟨hTimely, h⟩ := Option.ite_none_right_eq_some.mp h
              cases h
              have hStep : Step Admitted (stage.system body)
                  (.commit tid (body request) ending.answer)
                  ⟨written, Function.update (stage.system body).flights tid none⟩ :=
                Step.commit hRunning hWrite
              have hSystem : (⟨written, Function.update (stage.system body).flights tid none⟩ :
                  System Tid Lock Tables Error Answer) =
                  Stage.system body ⟨written, Function.update stage.seats tid none⟩ :=
                congrArg (fun system : System Tid Lock Tables Error Answer =>
                  (⟨written, system.flights⟩ : System Tid Lock Tables Error Answer))
                  (stage.system_seat tid none).symm
              exact Runs.single ⟨hSystem ▸ hStep, hPasses.commit _ _ _ _ hTimely⟩
          · cases h
      | fail error =>
          simp only [Stage.advance, hSeat, Option.some.injEq] at h
          simp only [Stage.events, hSeat]
          subst h
          rw [Stage.system_seat]
          exact Runs.single ⟨Step.rollback, hPasses.rollback _ _⟩
      | lock key isThere next =>
          simp only [Stage.advance, hSeat] at h
          simp only [Stage.events, hSeat]
          split at h
          · next hThere =>
              obtain ⟨hFree, h⟩ := Option.ite_none_right_eq_some.mp h
              cases h
              rw [Stage.system_seat]
              refine Runs.single ⟨Step.locked hRunning hThere ?_, hPasses.statement _ _⟩
              intro other flight hNe hOther
              obtain ⟨seat, hSeat', rfl⟩ := Option.map_eq_some_iff.mp hOther
              exact hFree other hNe seat hSeat'
          · next hAbsent =>
              cases h
              rw [Stage.system_seat]
              exact Runs.single ⟨Step.missing hRunning (Bool.eq_false_iff.mpr hAbsent),
                hPasses.statement _ _⟩
      | read next =>
          simp only [Stage.advance, hSeat, Option.some.injEq] at h
          simp only [Stage.events, hSeat]
          subst h
          rw [Stage.system_seat]
          exact Runs.single ⟨Step.read hRunning, hPasses.statement _ _⟩

/-- What is played is a run, with the events that it tells. -/
theorem runs_trace_of_plays (hAdmitted : ∀ request, Admitted (body request))
    (hPasses : Passes body timely guard) {moves : List (Move Tid Request)}
    (h : stage.plays body timely moves = some after) :
    Runs (Guarded (Step Admitted) guard) (stage.system body) (stage.trace body timely moves)
      (after.system body) := by
  induction moves generalizing stage with
  | nil =>
      cases h
      exact Runs.zero _
  | cons move rest ih =>
      rw [Stage.plays, List.foldlM_cons] at h
      obtain ⟨middle, hMove, hRest⟩ := Option.bind_eq_some_iff.mp h
      simp only [Stage.trace, hMove]
      refine Runs.trans ?_ (ih hRest)
      cases move with
      | start tid request =>
          simp only [Stage.play] at hMove
          split at hMove
          · next hIdle =>
              cases hMove
              have hFlight : (stage.system body).flights tid = none := by
                simp [Stage.system, hIdle]
              rw [Stage.system_seat]
              exact Runs.single ⟨Step.begin hFlight (hAdmitted request), hPasses.start _ _ _⟩
          · cases hMove
      | advance tid => exact runs_of_advance hPasses hMove

theorem runs_of_plays (hAdmitted : ∀ request, Admitted (body request))
    (hPasses : Passes body timely guard) {moves : List (Move Tid Request)}
    (h : stage.plays body timely moves = some after) :
    ∃ events, Runs (Guarded (Step Admitted) guard) (stage.system body) events
      (after.system body) :=
  ⟨_, runs_trace_of_plays hAdmitted hPasses h⟩

end

end Transactions
