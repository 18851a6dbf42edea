import Houndfe.Base.Rely
import Houndfe.Base.Schedules

/-! A service over a database: a set of requests, the transaction that each of them runs and what
each is meant to do to the tables. When every transaction keeps that word, every interleaving of
any number of them commits what the requests are meant to do, one after another. -/

namespace Transactions

open Transition

variable {Lock Tables Error Answer Request Tid : Type}

/-- The requests of a service, their transactions and their meaning. -/
structure Service (Lock Tables Error Answer Request : Type) where
  protection : Protection Lock Tables
  invariant : Tables → Prop
  body : Request → Tx Lock Tables Error (Commit Tables Error Answer)
  serves : Request → Tables → Tables → Answer → Prop

namespace Service

variable (service : Service Lock Tables Error Answer Request)

/-- The transactions that the service runs. -/
def Body (body : Tx Lock Tables Error (Commit Tables Error Answer)) : Prop :=
  ∃ request, service.body request = body

/-- A transaction keeps the word of every request that runs it. -/
def terms : Terms Lock Tables Error Answer where
  protection := service.protection
  possible _ _ := True
  promise body before after answer :=
    ∀ request, service.body request = body → service.serves request before after answer
  invariant := service.invariant

/-- The transaction of a request does what the request means. -/
def Keeps (request : Request) : Prop :=
  (service.body request).Ensures service.protection service.invariant [] (fun _ => True)
    (Warranted service.protection service.invariant (service.serves request))

variable {service}

theorem keptBy_of_keeps (hKeeps : ∀ request, service.Keeps request)
    {body : Tx Lock Tables Error (Commit Tables Error Answer)} (h : service.Body body) :
    service.terms.KeptBy body := by
  have hEach : ∀ request, service.body request = body →
      body.Ensures service.protection service.invariant [] (fun _ => True)
        (Warranted service.protection service.invariant (service.serves request)) := by
    rintro request rfl
    exact hKeeps request
  apply (Tx.Ensures.forall hEach).mono
  intro held known ending hEnding before after hKnown hPossible hWrite
  obtain ⟨request, hRequest⟩ := h
  refine ⟨fun other hOther => ?_, ?_⟩
  · exact (hEnding other hOther before after hKnown hPossible.1 hWrite).1
  · exact (hEnding request hRequest before after hKnown hPossible.1 hWrite).2

/-- One commit of the serial service. -/
def Commits (service : Service Lock Tables Error Answer Request) (before : Tables)
    (served : Tx Lock Tables Error (Commit Tables Error Answer) × Answer) (after : Tables) : Prop :=
  ∃ request, service.body request = served.1 ∧ service.serves request before after served.2

/-- What is in flight knows what it needs, and the tables are consistent. -/
structure Reached (service : Service Lock Tables Error Answer Request)
    (system : System Tid Lock Tables Error Answer) : Prop where
  flies : system.Each (service.terms.Flies service.Body system.tables)
  inv : service.invariant system.tables

theorem reached_idle {tables : Tables} (hInv : service.invariant tables) :
    service.Reached (System.idle tables : System Tid Lock Tables Error Answer) :=
  ⟨System.each_idle _ _, hInv⟩

/-- A request that is served with nobody else around does what it means. -/
theorem serves_of_serve {request : Request} {tables after : Tables} {answer : Answer}
    (hKeeps : service.Keeps request) (hInv : service.invariant tables)
    (h : serve (service.body request) tables = .ok (after, answer)) :
    service.serves request tables after answer := by
  unfold serve at h
  cases hAlone : (service.body request).alone tables with
  | error error => simp [hAlone, bind, Except.bind] at h
  | ok ending =>
      obtain ⟨held, known, hKnown, hEnding⟩ := Tx.Ensures.alone hKeeps hInv trivial hAlone
      cases hWrite : ending.write tables with
      | error error => simp [hAlone, hWrite, bind, Except.bind] at h
      | ok written =>
          simp only [hAlone, hWrite, bind, Except.bind, pure, Except.pure, Except.ok.injEq,
            Prod.mk.injEq] at h
          obtain ⟨rfl, rfl⟩ := h
          exact (hEnding tables written hKnown hInv hWrite).1

section

variable [DecidableEq Tid] {system after : System Tid Lock Tables Error Answer}
  {events : List (Event Tid Lock Tables Error Answer)}

omit [DecidableEq Tid] in
/-- Nothing makes a commit untimely. -/
theorem timely (event : Event Tid Lock Tables Error Answer) : service.terms.Timely system event := by
  cases event <;> trivial

theorem commits_of_terms {before later : Tables}
    {served : Tx Lock Tables Error (Commit Tables Error Answer) × Answer}
    (h : service.terms.Commits service.Body before served later) :
    service.Commits before served later := by
  obtain ⟨⟨request, hRequest⟩, _, hPromise⟩ := h
  exact ⟨request, hRequest, hPromise request hRequest⟩

/-- The run lemma: what is reached stays reached, and the tables change by whole requests. -/
theorem Reached.runs (hKeeps : ∀ request, service.Keeps request)
    (hInvariant : ∀ request before after answer, service.invariant before →
      service.serves request before after answer → service.invariant after)
    (h : service.Reached system) (run : Runs (Step service.Body) system events after) :
    service.Reached after ∧
      Runs service.Commits system.tables (Transactions.commits events) after.tables := by
  have hSteps : ∀ before served later, service.terms.invariant before →
      service.terms.Commits service.Body before served later → service.terms.invariant later := by
    intro before served later hInv hCommits
    obtain ⟨request, _, hServes⟩ := commits_of_terms hCommits
    exact hInvariant request before later served.2 hInv hServes
  have hGuarded : Runs (Guarded (Step service.Body) service.terms.Timely) system events after :=
    run.mono fun _ event _ hStep => ⟨hStep, timely event⟩
  obtain ⟨hFlies, hInv, hSerial⟩ := Terms.commits_of_runs (fun _ => keptBy_of_keeps hKeeps) hSteps
    h.flies h.inv hGuarded
  exact ⟨⟨hFlies, hInv⟩, hSerial.mono fun _ _ _ => commits_of_terms⟩

/-- A commit does what every request with its transaction means. -/
theorem Reached.commit (hKeeps : ∀ request, service.Keeps request) (h : service.Reached system)
    {tid : Tid} {answer : Answer} {request : Request}
    (hStep : Step service.Body system (.commit tid (service.body request) answer) after) :
    service.serves request system.tables after.tables answer := by
  obtain ⟨_, hSerial⟩ := Terms.step_commits (fun _ => keptBy_of_keeps hKeeps) h.flies h.inv
    (⟨hStep, timely _⟩ : Guarded (Step service.Body) service.terms.Timely _ _ _)
  exact hSerial.of_single.2.2 request rfl

/-- What every guarded commit keeps holds of the tables after every guarded run. -/
theorem Reached.invariant {guard : System Tid Lock Tables Error Answer →
      Event Tid Lock Tables Error Answer → Prop} {P : Tables → Prop}
    (hKeeps : ∀ request, service.Keeps request)
    (hInvariant : ∀ request before after answer, service.invariant before →
      service.serves request before after answer → service.invariant after)
    (hCommit : ∀ (system : System Tid Lock Tables Error Answer) tid request answer after,
      service.invariant system.tables → guard system (.commit tid (service.body request) answer) →
        service.serves request system.tables after answer → P system.tables → P after)
    (h : service.Reached system) (run : Runs (Guarded (Step service.Body) guard) system events after)
    (hStart : P system.tables) : P after.tables := by
  induction run with
  | zero => exact hStart
  | @succ middle later _ event prior last ih =>
      obtain ⟨hStep, hGuard⟩ := last
      obtain ⟨hReached, _⟩ := h.runs hKeeps hInvariant prior.of_guarded
      have hMiddle := ih
      cases hStep with
      | begin idle admitted => exact hMiddle
      | read running => exact hMiddle
      | locked running there free => exact hMiddle
      | missing running absent => exact hMiddle
      | @commit _ body ending _ _ running written =>
          obtain ⟨request, rfl⟩ := (hReached.flies.each _ _ running).1
          have hServes := hReached.commit hKeeps (Step.commit running written)
          exact hCommit middle _ request _ _ hReached.inv hGuard hServes hMiddle
      | rollback => exact hMiddle

/-- A schedule of requests that is played is a run of the service, with the events it tells. -/
theorem runs_trace [Fintype Tid] [DecidableEq Lock]
    {stage later : Stage Tid Request Lock Tables Error Answer} {moves : List (Move Tid Request)}
    (h : stage.plays service.body (fun _ _ => true) moves = some later) :
    Runs (Step service.Body) (stage.system service.body)
      (stage.trace service.body (fun _ _ => true) moves) (later.system service.body) := by
  have hPasses : Passes service.body (fun _ _ => true)
      fun (_ : System Tid Lock Tables Error Answer) _ => True := by
    constructor <;> simp
  have hAdmitted : ∀ request, service.Body (service.body request) := fun request => ⟨request, rfl⟩
  exact (runs_trace_of_plays hAdmitted hPasses h).of_guarded

/-- A schedule of requests that is played is a run of the service. -/
theorem runs_of_schedule [Fintype Tid] [DecidableEq Lock]
    {stage later : Stage Tid Request Lock Tables Error Answer} {moves : List (Move Tid Request)}
    (h : stage.plays service.body (fun _ _ => true) moves = some later) :
    ∃ events, Runs (Step service.Body) (stage.system service.body) events
      (later.system service.body) :=
  ⟨_, runs_trace h⟩

end

end Service

end Transactions
