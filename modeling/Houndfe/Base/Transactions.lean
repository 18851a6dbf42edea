import Houndfe.Base.Transition

/-! Transactions of a database under READ COMMITTED with explicit locks. A transaction is
written statement by statement; the system interleaves the statements of any number of them.
When every read is either covered by a lock that is held or can only turn a commit into a
failure, the transactions that commit do what they would do alone, one after another. -/

namespace Transactions

open Transition

/-- The body of a transaction: every statement sees the tables as they are committed when it
runs. What the body writes is handed over at its end. -/
inductive Tx (Lock Tables Error : Type) (α : Type) : Type where
  | done (a : α)
  | fail (error : Error)
  | lock (key : Lock) (isThere : Tables → Bool) (next : Bool → Tx Lock Tables Error α)
  | read (next : Tables → Tx Lock Tables Error α)

variable {Lock Tables Error α β : Type}

namespace Tx

def bind (tx : Tx Lock Tables Error α) (k : α → Tx Lock Tables Error β) :
    Tx Lock Tables Error β :=
  match tx with
  | .done a => k a
  | .fail error => .fail error
  | .lock key isThere next => .lock key isThere fun found => (next found).bind k
  | .read next => .read fun tables => (next tables).bind k

instance : Monad (Tx Lock Tables Error) where
  pure := .done
  bind := Tx.bind

instance : LawfulMonad (Tx Lock Tables Error) :=
  LawfulMonad.mk' _
    (by
      intro α tx
      show tx.bind .done = tx
      induction tx with
      | done a => rfl
      | fail error => rfl
      | lock key isThere next ih => simp only [Tx.bind, ih]
      | read next ih => simp only [Tx.bind, ih])
    (by
      intro α β a k
      rfl)
    (by
      intro α β γ tx k l
      show (tx.bind k).bind l = tx.bind fun a => (k a).bind l
      induction tx with
      | done a => rfl
      | fail error => rfl
      | lock key isThere next ih => simp only [Tx.bind, ih]
      | read next ih => simp only [Tx.bind, ih])

/-- `SELECT … FOR UPDATE` of the row with this key: nothing is locked when it is not there. -/
def lockRow (key : Lock) (isThere : Tables → Bool) : Tx Lock Tables Error Bool :=
  .lock key isThere .done

/-- An advisory lock needs no row. -/
def lockKey (key : Lock) : Tx Lock Tables Error Unit :=
  .lock key (fun _ => true) fun _ => .done ()

def query (f : Tables → α) : Tx Lock Tables Error α :=
  .read fun tables => .done (f tables)

/-- A statement that sees what its own transaction has written before it. -/
def queryOwn (pending : Tables → Except Error Tables) (f : Tables → α) : Tx Lock Tables Error α :=
  .read fun tables =>
    match pending tables with
    | .ok own => .done (f own)
    | .error error => .fail error

def ofExcept : Except Error α → Tx Lock Tables Error α
  | .ok a => .done a
  | .error error => .fail error

instance : MonadLift (Except Error) (Tx Lock Tables Error) := ⟨ofExcept⟩

/-- The body with nobody else around. -/
def alone : Tx Lock Tables Error α → Tables → Except Error α
  | .done a, _ => .ok a
  | .fail error, _ => .error error
  | .lock _ isThere next, tables => (next (isThere tables)).alone tables
  | .read next, tables => (next tables).alone tables

section

variable {tables : Tables}

@[simp] theorem alone_pure (a : α) :
    (pure a : Tx Lock Tables Error α).alone tables = .ok a := rfl

@[simp] theorem alone_lockRow (key : Lock) (isThere : Tables → Bool) :
    (lockRow key isThere : Tx Lock Tables Error Bool).alone tables = .ok (isThere tables) := rfl

@[simp] theorem alone_lockKey (key : Lock) :
    (lockKey key : Tx Lock Tables Error Unit).alone tables = .ok () := rfl

@[simp] theorem alone_query (f : Tables → α) :
    (query f : Tx Lock Tables Error α).alone tables = .ok (f tables) := rfl

@[simp] theorem alone_ofExcept (x : Except Error α) :
    (ofExcept x : Tx Lock Tables Error α).alone tables = x := by
  cases x <;> rfl

@[simp] theorem alone_liftM (x : Except Error α) :
    (liftM x : Tx Lock Tables Error α).alone tables = x :=
  alone_ofExcept x

theorem alone_bind (tx : Tx Lock Tables Error α) (k : α → Tx Lock Tables Error β) :
    (tx >>= k).alone tables = tx.alone tables >>= fun a => (k a).alone tables := by
  show (tx.bind k).alone tables = _
  induction tx with
  | done a => rfl
  | fail error => rfl
  | lock key isThere next ih => exact ih (isThere tables)
  | read next ih => exact ih tables

end

end Tx

/-- What a transaction ends with: the write that its commit publishes, which a constraint of
the database may still refuse, and its answer. -/
structure Commit (Tables Error Answer : Type) where
  write : Tables → Except Error Tables
  answer : Answer

variable {Answer Tid : Type}

/-- A transaction that also writes a row for the answer it gives. -/
def Tx.andWrite (extra : Answer → Tables → Except Error Tables)
    (tx : Tx Lock Tables Error (Commit Tables Error Answer)) :
    Tx Lock Tables Error (Commit Tables Error Answer) :=
  tx >>= fun ending => pure {
    write := fun tables => ending.write tables >>= extra ending.answer
    answer := ending.answer }

theorem map_eq_ok {x : Except Error α} {f : α → β} {b : β} :
    x.map f = .ok b ↔ ∃ a, x = .ok a ∧ f a = b := by
  cases x <;> simp [Except.map]

/-- A transaction from its first statement to its commit, with nobody else around. -/
def serve (tx : Tx Lock Tables Error (Commit Tables Error Answer)) (tables : Tables) :
    Except Error (Tables × Answer) := do
  let ending ← tx.alone tables
  let after ← ending.write tables
  return (after, ending.answer)

theorem serve_done {ending : Commit Tables Error Answer} {tables after : Tables}
    (h : ending.write tables = .ok after) :
    serve (.done ending : Tx Lock Tables Error (Commit Tables Error Answer)) tables =
      .ok (after, ending.answer) := by
  simp [serve, Tx.alone, h, bind, Except.bind, pure, Except.pure]

section

variable {tables : Tables}

@[simp] theorem serve_pure (ending : Commit Tables Error Answer) :
    serve (pure ending : Tx Lock Tables Error (Commit Tables Error Answer)) tables =
      (ending.write tables).map fun after => (after, ending.answer) := by
  show (do
    let after ← ending.write tables
    return (after, ending.answer)) = _
  cases ending.write tables <;> rfl

theorem serve_bind (tx : Tx Lock Tables Error α)
    (k : α → Tx Lock Tables Error (Commit Tables Error Answer)) :
    serve (tx >>= k) tables = tx.alone tables >>= fun a => serve (k a) tables := by
  simp only [serve, Tx.alone_bind, bind_assoc]

@[simp] theorem serve_check (x : Except Error α)
    (k : α → Tx Lock Tables Error (Commit Tables Error Answer)) :
    serve ((liftM x : Tx Lock Tables Error α) >>= k) tables =
      x >>= fun a => serve (k a) tables := by
  cases x <;> rfl

@[simp] theorem serve_query (f : Tables → α)
    (k : α → Tx Lock Tables Error (Commit Tables Error Answer)) :
    serve (Tx.query f >>= k) tables = serve (k (f tables)) tables := rfl

@[simp] theorem serve_lockRow (key : Lock) (isThere : Tables → Bool)
    (k : Bool → Tx Lock Tables Error (Commit Tables Error Answer)) :
    serve (Tx.lockRow key isThere >>= k) tables = serve (k (isThere tables)) tables := rfl

@[simp] theorem serve_lockKey (key : Lock)
    (k : Unit → Tx Lock Tables Error (Commit Tables Error Answer)) :
    serve (Tx.lockKey key >>= k) tables = serve (k ()) tables := rfl

end

/-! ### The interleaved system -/

/-- A transaction in flight: the body it was started with, what is left of it, and the locks
it holds. -/
structure Flight (Lock Tables Error Answer : Type) where
  body : Tx Lock Tables Error (Commit Tables Error Answer)
  rest : Tx Lock Tables Error (Commit Tables Error Answer)
  held : List Lock

structure System (Tid Lock Tables Error Answer : Type) where
  tables : Tables
  flights : Tid → Option (Flight Lock Tables Error Answer)

/-- The database when nothing is in flight. -/
def System.idle (tables : Tables) : System Tid Lock Tables Error Answer :=
  ⟨tables, fun _ => none⟩

inductive Event (Tid Lock Tables Error Answer : Type) where
  | begin (tid : Tid) (body : Tx Lock Tables Error (Commit Tables Error Answer))
  | statement (tid : Tid)
  | commit (tid : Tid) (body : Tx Lock Tables Error (Commit Tables Error Answer))
      (answer : Answer)
  | rollback (tid : Tid)

section

variable [DecidableEq Tid]

/-- Put a transaction in flight, or take it out. -/
def System.setFlight (system : System Tid Lock Tables Error Answer) (tid : Tid)
    (flight : Option (Flight Lock Tables Error Answer)) : System Tid Lock Tables Error Answer :=
  { system with flights := Function.update system.flights tid flight }

theorem System.setFlight_self (system : System Tid Lock Tables Error Answer) (tid : Tid)
    (flight : Option (Flight Lock Tables Error Answer)) :
    (system.setFlight tid flight).flights tid = flight :=
  Function.update_self _ _ _

theorem System.setFlight_of_ne (system : System Tid Lock Tables Error Answer) {tid other : Tid}
    (flight : Option (Flight Lock Tables Error Answer)) (hNe : other ≠ tid) :
    (system.setFlight tid flight).flights other = system.flights other :=
  Function.update_of_ne hNe _ _

/-- One event of the system. A lock is waited for until nobody else holds it; a transaction
may be rolled back at any time, by its own failure or from outside. -/
inductive Step (Admitted : Tx Lock Tables Error (Commit Tables Error Answer) → Prop) :
    System Tid Lock Tables Error Answer → Event Tid Lock Tables Error Answer →
      System Tid Lock Tables Error Answer → Prop where
  | begin {system : System Tid Lock Tables Error Answer} {tid : Tid}
      {body : Tx Lock Tables Error (Commit Tables Error Answer)} (idle : system.flights tid = none)
      (admitted : Admitted body) :
      Step Admitted system (.begin tid body) (system.setFlight tid (some ⟨body, body, []⟩))
  | read {system : System Tid Lock Tables Error Answer} {tid : Tid}
      {body : Tx Lock Tables Error (Commit Tables Error Answer)}
      {next : Tables → Tx Lock Tables Error (Commit Tables Error Answer)} {held : List Lock}
      (running : system.flights tid = some ⟨body, .read next, held⟩) :
      Step Admitted system (.statement tid)
        (system.setFlight tid (some ⟨body, next system.tables, held⟩))
  | locked {system : System Tid Lock Tables Error Answer} {tid : Tid}
      {body : Tx Lock Tables Error (Commit Tables Error Answer)} {key : Lock}
      {isThere : Tables → Bool} {next : Bool → Tx Lock Tables Error (Commit Tables Error Answer)}
      {held : List Lock} (running : system.flights tid = some ⟨body, .lock key isThere next, held⟩)
      (there : isThere system.tables = true)
      (free : ∀ other flight, other ≠ tid → system.flights other = some flight →
        key ∉ flight.held) :
      Step Admitted system (.statement tid)
        (system.setFlight tid (some ⟨body, next true, key :: held⟩))
  | missing {system : System Tid Lock Tables Error Answer} {tid : Tid}
      {body : Tx Lock Tables Error (Commit Tables Error Answer)} {key : Lock}
      {isThere : Tables → Bool} {next : Bool → Tx Lock Tables Error (Commit Tables Error Answer)}
      {held : List Lock} (running : system.flights tid = some ⟨body, .lock key isThere next, held⟩)
      (absent : isThere system.tables = false) :
      Step Admitted system (.statement tid) (system.setFlight tid (some ⟨body, next false, held⟩))
  | commit {system : System Tid Lock Tables Error Answer} {tid : Tid}
      {body : Tx Lock Tables Error (Commit Tables Error Answer)}
      {ending : Commit Tables Error Answer} {held : List Lock} {after : Tables}
      (running : system.flights tid = some ⟨body, .done ending, held⟩)
      (written : ending.write system.tables = .ok after) :
      Step Admitted system (.commit tid body ending.answer)
        ⟨after, Function.update system.flights tid none⟩
  | rollback {system : System Tid Lock Tables Error Answer} {tid : Tid} :
      Step Admitted system (.rollback tid) (system.setFlight tid none)

end

/-- The transactions that commit in a run, in the order of their commits. -/
def commits : List (Event Tid Lock Tables Error Answer) →
    List (Tx Lock Tables Error (Commit Tables Error Answer) × Answer)
  | [] => []
  | .commit _ body answer :: rest => (body, answer) :: commits rest
  | .begin _ _ :: rest => commits rest
  | .statement _ :: rest => commits rest
  | .rollback _ :: rest => commits rest

theorem commits_append (first second : List (Event Tid Lock Tables Error Answer)) :
    commits (first ++ second) = commits first ++ commits second := by
  induction first with
  | nil => rfl
  | cons event rest ih =>
      cases event <;> simp [commits, ih]

/-- What the transactions that commit in a run answer. -/
def answers (events : List (Event Tid Lock Tables Error Answer)) : List Answer :=
  (commits events).map Prod.snd

/-- A condition on the tables that a commit finds and on its answer. -/
def OnCommit (guard : Tables → Answer → Prop) (system : System Tid Lock Tables Error Answer) :
    Event Tid Lock Tables Error Answer → Prop
  | .commit _ _ answer => guard system.tables answer
  | .begin _ _ | .statement _ | .rollback _ => True

/-- A condition on all the answers of a run guards each of its commits. -/
theorem runs_of_answers {step : System Tid Lock Tables Error Answer →
      Event Tid Lock Tables Error Answer → System Tid Lock Tables Error Answer → Prop}
    {guard : Answer → Prop} {system after : System Tid Lock Tables Error Answer}
    {events : List (Event Tid Lock Tables Error Answer)} (run : Runs step system events after)
    (h : ∀ answer ∈ answers events, guard answer) :
    Runs (Guarded step (OnCommit fun _ => guard)) system events after := by
  induction run with
  | zero => exact Runs.zero _
  | @succ _ _ labels label prior last ih =>
      simp only [answers, commits_append, List.map_append, List.mem_append] at h
      refine Runs.succ (ih fun answer hAnswer => h answer (Or.inl hAnswer)) ⟨last, ?_⟩
      cases label with
      | commit tid body answer => exact h answer (Or.inr (by simp [commits]))
      | begin tid body => exact trivial
      | statement tid => exact trivial
      | rollback tid => exact trivial

theorem answers_append (first second : List (Event Tid Lock Tables Error Answer)) :
    answers (first ++ second) = answers first ++ answers second := by
  rw [answers, commits_append, List.map_append]
  rfl

/-- A run that answers `answer` at some point has a commit there that does. -/
theorem exists_commit_of_answers {step : System Tid Lock Tables Error Answer →
      Event Tid Lock Tables Error Answer → System Tid Lock Tables Error Answer → Prop}
    {system after : System Tid Lock Tables Error Answer}
    {events : List (Event Tid Lock Tables Error Answer)} {answer : Answer}
    {earlier later : List Answer} (run : Runs step system events after)
    (h : answers events = earlier ++ answer :: later) :
    ∃ found committed before rest tid body, Runs step system before found ∧
      step found (.commit tid body answer) committed ∧ Runs step committed rest after ∧
        answers before = earlier ∧ answers rest = later := by
  induction run generalizing later with
  | zero => simp [answers, commits] at h
  | @succ middle final labels label prior last ih =>
      rw [answers_append] at h
      have hOther : answers [label] = [] → ∃ found committed before rest tid body,
          Runs step system before found ∧ step found (.commit tid body answer) committed ∧
            Runs step committed rest final ∧ answers before = earlier ∧ answers rest = later := by
        intro hNone
        rw [hNone, List.append_nil] at h
        obtain ⟨found, committed, before, rest, tid, body, hBefore, hStep, hRest, hLeft, hRight⟩ :=
          ih h
        refine ⟨found, committed, before, rest ++ [label], tid, body, hBefore, hStep,
          Runs.succ hRest last, hLeft, ?_⟩
        rw [answers_append, hNone, List.append_nil, hRight]
      cases label with
      | begin tid body => exact hOther rfl
      | statement tid => exact hOther rfl
      | rollback tid => exact hOther rfl
      | commit tid body told =>
          have hLast : answers [(.commit tid body told : Event Tid Lock Tables Error Answer)] =
            [told] := rfl
          rcases List.eq_nil_or_concat later with rfl | ⟨rest, last', rfl⟩
          · rw [hLast] at h
            obtain ⟨hLeft, hTold⟩ := List.append_inj' h rfl
            cases hTold
            exact ⟨middle, final, labels, [], tid, body, prior, last, Runs.zero _, hLeft, rfl⟩
          · have hSplit : answers labels ++ [told] = (earlier ++ answer :: rest) ++ [last'] := by
              simpa [hLast] using h
            obtain ⟨hLeft, hTold⟩ := List.append_inj' hSplit rfl
            cases hTold
            obtain ⟨found, committed, before, rest', tid', body', hBefore, hStep, hRest, hFirst,
              hSecond⟩ := ih hLeft
            refine ⟨found, committed, before, rest' ++ [.commit tid body told], tid', body',
              hBefore, hStep, Runs.succ hRest last, hFirst, ?_⟩
            rw [answers_append, hSecond, hLast, List.concat_eq_append]

/-- The serial system: one whole transaction after another. -/
def Serves (Admitted : Tx Lock Tables Error (Commit Tables Error Answer) → Prop)
    (tables : Tables) (served : Tx Lock Tables Error (Commit Tables Error Answer) × Answer)
    (after : Tables) : Prop :=
  Admitted served.1 ∧ serve served.1 tables = .ok (after, served.2)

/-- `P` holds of every transaction in flight, and no two of them hold the same lock. -/
structure System.Each (P : Flight Lock Tables Error Answer → Prop)
    (system : System Tid Lock Tables Error Answer) : Prop where
  each : ∀ tid flight, system.flights tid = some flight → P flight
  disjoint : ∀ tid other flight other', tid ≠ other → system.flights tid = some flight →
    system.flights other = some other' → ∀ key ∈ flight.held, key ∉ other'.held

/-- Nothing is in flight in an idle database. -/
theorem System.each_idle (P : Flight Lock Tables Error Answer → Prop) (tables : Tables) :
    (System.idle tables : System Tid Lock Tables Error Answer).Each P := by
  constructor <;> simp [System.idle]

section

variable [DecidableEq Tid] {P Q : Flight Lock Tables Error Answer → Prop}
  {system : System Tid Lock Tables Error Answer} {tid : Tid}

/-- Replacing one flight by another whose new locks nobody else holds. -/
theorem System.Each.setFlight (h : system.Each P) {flight : Flight Lock Tables Error Answer}
    (hFlight : P flight)
    (hFree : ∀ other other', other ≠ tid → system.flights other = some other' →
      ∀ key ∈ flight.held, key ∉ other'.held) :
    (system.setFlight tid (some flight)).Each P := by
  constructor
  · intro other other' hOther
    by_cases hTid : other = tid
    · subst hTid
      rw [System.setFlight_self] at hOther
      cases hOther
      exact hFlight
    · rw [System.setFlight_of_ne _ _ hTid] at hOther
      exact h.each other other' hOther
  · intro first second flight₁ flight₂ hNe hFirst hSecond key hKey hOther
    by_cases hTid : first = tid
    · subst hTid
      rw [System.setFlight_self] at hFirst
      rw [System.setFlight_of_ne _ _ (Ne.symm hNe)] at hSecond
      cases hFirst
      exact hFree second flight₂ (Ne.symm hNe) hSecond key hKey hOther
    · rw [System.setFlight_of_ne _ _ hTid] at hFirst
      by_cases hTid' : second = tid
      · subst hTid'
        rw [System.setFlight_self] at hSecond
        cases hSecond
        exact hFree first flight₁ hTid hFirst key hOther hKey
      · rw [System.setFlight_of_ne _ _ hTid'] at hSecond
        exact h.disjoint first second flight₁ flight₂ hNe hFirst hSecond key hKey hOther

/-- Taking a transaction out of flight, whatever the tables become. -/
theorem System.Each.remove (h : system.Each P) {tables : Tables}
    (hOthers : ∀ other flight, other ≠ tid → system.flights other = some flight → P flight →
      Q flight) :
    System.Each Q (⟨tables, Function.update system.flights tid none⟩ :
      System Tid Lock Tables Error Answer) := by
  have hRemain : ∀ other flight, Function.update system.flights tid none other = some flight →
      other ≠ tid ∧ system.flights other = some flight := by
    intro other flight hOther
    by_cases hTid : other = tid
    · subst hTid
      rw [Function.update_self] at hOther
      cases hOther
    · rw [Function.update_of_ne hTid] at hOther
      exact ⟨hTid, hOther⟩
  constructor
  · intro other flight hOther
    obtain ⟨hNe, hFlight⟩ := hRemain other flight hOther
    exact hOthers other flight hNe hFlight (h.each other flight hFlight)
  · intro first second flight₁ flight₂ hNe hFirst hSecond
    exact h.disjoint first second flight₁ flight₂ hNe (hRemain first flight₁ hFirst).2
      (hRemain second flight₂ hSecond).2

end

/-! ### The locking discipline -/

/-- What the locks protect: `agree held tables tables'` says that `tables'` still has all that a
holder of `held` may rely on. -/
structure Protection (Lock Tables : Type) where
  agree : List Lock → Tables → Tables → Prop
  refl : ∀ held tables, agree held tables tables
  trans : ∀ held a b c, agree held a b → agree held b c → agree held a c
  mono : ∀ key held a b, agree (key :: held) a b → agree held a b

/-- Wherever `first` succeeds on `tables`, `second` does the same. -/
def Follows (first second : Tx Lock Tables Error (Commit Tables Error Answer))
    (tables : Tables) : Prop :=
  ∀ out, serve first tables = .ok out → serve second tables = .ok out

/-- The transaction can be served on these tables. -/
def Servable (tx : Tx Lock Tables Error (Commit Tables Error Answer)) (tables : Tables) : Prop :=
  ∃ out, serve tx tables = .ok out

/-- The transaction can be served on these tables and does not leave them as they are. -/
def Changes (tx : Tx Lock Tables Error (Commit Tables Error Answer)) (tables : Tables) : Prop :=
  ∃ out, serve tx tables = .ok out ∧ out.1 ≠ tables

/-- What is left of a transaction keeps the discipline: what it read before others committed it
could read after them, unless it fails, and what it writes on the tables that are `possible` is
covered by the locks it holds. -/
def Disciplined (protection : Protection Lock Tables) (possible : Tables → Prop) :
    List Lock → Tx Lock Tables Error (Commit Tables Error Answer) → Prop
  | held, .done ending => ∀ before after, possible before → ending.write before = .ok after →
      ∀ others : List Lock, (∀ key ∈ others, key ∉ held) → protection.agree others before after
  | _, .fail _ => True
  | held, .lock key isThere next =>
      (∀ a b, isThere a = true → protection.agree (key :: held) a b →
        Follows (next true) (next (isThere b)) b) ∧
      (∀ a b, isThere a = false → protection.agree held a b →
        Follows (next false) (next (isThere b)) b) ∧
      Disciplined protection possible (key :: held) (next true) ∧
      ((∃ tables, isThere tables = false) → Disciplined protection possible held (next false))
  | held, .read next =>
      (∀ a b, protection.agree held a b → Follows (next a) (next b) b) ∧
      ∀ tables, Disciplined protection possible held (next tables)

/-- What holds of every transaction in flight: whatever the others still commit, going on
from here does what the whole body would do. -/
structure Flight.Sound (protection : Protection Lock Tables) (tables : Tables)
    (flight : Flight Lock Tables Error Answer) : Prop where
  follows : ∀ later, protection.agree flight.held tables later →
    Follows flight.rest flight.body later
  disciplined : Disciplined protection (Changes flight.body) flight.held flight.rest

structure System.Sound (Admitted : Tx Lock Tables Error (Commit Tables Error Answer) → Prop)
    (protection : Protection Lock Tables) (system : System Tid Lock Tables Error Answer) :
    Prop where
  admitted : ∀ tid flight, system.flights tid = some flight → Admitted flight.body
  flight : ∀ tid flight, system.flights tid = some flight →
    flight.Sound protection system.tables
  disjoint : ∀ tid other flight other', tid ≠ other → system.flights tid = some flight →
    system.flights other = some other' → ∀ key ∈ flight.held, key ∉ other'.held

section

variable [DecidableEq Tid] {protection : Protection Lock Tables}
  {Admitted : Tx Lock Tables Error (Commit Tables Error Answer) → Prop}
  {system after : System Tid Lock Tables Error Answer}

omit [DecidableEq Tid] in
theorem System.sound_iff : system.Sound Admitted protection ↔
    system.Each fun flight => Admitted flight.body ∧ flight.Sound protection system.tables :=
  ⟨fun h => ⟨fun tid flight hFlight => ⟨h.admitted tid flight hFlight, h.flight tid flight hFlight⟩,
      h.disjoint⟩,
    fun h => ⟨fun tid flight hFlight => (h.each tid flight hFlight).1,
      fun tid flight hFlight => (h.each tid flight hFlight).2, h.disjoint⟩⟩

/-- Replacing one flight by a sound one whose new locks nobody else holds. -/
theorem System.Sound.setFlight (h : system.Sound Admitted protection) {tid : Tid}
    {flight : Flight Lock Tables Error Answer} (hAdmitted : Admitted flight.body)
    (hSound : flight.Sound protection system.tables)
    (hFree : ∀ other other', other ≠ tid → system.flights other = some other' →
      ∀ key ∈ flight.held, key ∉ other'.held) :
    (system.setFlight tid (some flight)).Sound Admitted protection := by
  rw [System.sound_iff] at h ⊢
  exact h.setFlight ⟨hAdmitted, hSound⟩ hFree

/-- Taking a transaction out of flight, whatever the tables become as long as the others may
still rely on what they hold. -/
theorem System.Sound.remove (h : system.Sound Admitted protection) {tid : Tid} {tables : Tables}
    (hAgree : ∀ other flight, other ≠ tid → system.flights other = some flight →
      protection.agree flight.held system.tables tables) :
    System.Sound Admitted protection
      (⟨tables, Function.update system.flights tid none⟩ :
        System Tid Lock Tables Error Answer) := by
  rw [System.sound_iff] at h ⊢
  apply h.remove
  rintro other flight hNe hFlight ⟨hAdmitted, hSound⟩
  refine ⟨hAdmitted, fun later hLater => ?_, hSound.disciplined⟩
  exact hSound.follows later
    (protection.trans _ _ _ _ (hAgree other flight hNe hFlight) hLater)

variable {event : Event Tid Lock Tables Error Answer}

/-- One event: the tables change by whole transactions only, and the system stays sound. -/
theorem step_serial
    (hAdmitted : ∀ body, Admitted body → Disciplined protection (Changes body) [] body)
    (h : system.Sound Admitted protection) (hStep : Step Admitted system event after) :
    after.Sound Admitted protection ∧
      Runs (Serves Admitted) system.tables (commits [event]) after.tables := by
  cases hStep with
  | begin idle admitted =>
      refine ⟨h.setFlight admitted ⟨fun _ _ _ hOut => hOut, hAdmitted _ admitted⟩ ?_, Runs.zero _⟩
      simp
  | read running =>
      have hFlight := h.flight _ _ running
      obtain ⟨hStable, hRest⟩ := hFlight.disciplined
      have hBody := h.admitted _ _ running
      refine ⟨h.setFlight hBody ⟨fun later hLater out hOut => ?_, hRest _⟩ ?_, Runs.zero _⟩
      · exact hFlight.follows later hLater out (hStable _ _ hLater out hOut)
      · intro other flight hNe hOther key hKey
        exact h.disjoint _ other _ flight (Ne.symm hNe) running hOther key hKey
  | locked running there free =>
      have hFlight := h.flight _ _ running
      obtain ⟨hStable, _, hRest, _⟩ := hFlight.disciplined
      have hBody := h.admitted _ _ running
      refine ⟨h.setFlight hBody ⟨fun later hLater out hOut => ?_, hRest⟩ ?_, Runs.zero _⟩
      · exact hFlight.follows later (protection.mono _ _ _ _ hLater) out
          (hStable _ _ there hLater out hOut)
      · intro other flight hNe hOther key hKey
        rcases List.mem_cons.mp hKey with rfl | hKey
        · exact free other flight hNe hOther
        · exact h.disjoint _ other _ flight (Ne.symm hNe) running hOther key hKey
  | missing running absent =>
      have hFlight := h.flight _ _ running
      obtain ⟨_, hStable, _, hRest⟩ := hFlight.disciplined
      have hBody := h.admitted _ _ running
      refine ⟨h.setFlight hBody ⟨fun later hLater out hOut => ?_, hRest ⟨_, absent⟩⟩ ?_, Runs.zero _⟩
      · exact hFlight.follows later hLater out (hStable _ _ absent hLater out hOut)
      · intro other flight hNe hOther key hKey
        exact h.disjoint _ other _ flight (Ne.symm hNe) running hOther key hKey
  | @commit _ _ _ _ later running written =>
      have hFlight := h.flight _ _ running
      have hServed := hFlight.follows _ (protection.refl _ _) (_, _) (serve_done written)
      constructor
      · refine h.remove fun other flight hNe hOther => ?_
        by_cases hSame : later = system.tables
        · rw [hSame]
          exact protection.refl _ _
        refine hFlight.disciplined _ _ ⟨_, hServed, hSame⟩ written flight.held ?_
        exact fun key hKey hHeld => h.disjoint other _ flight _ hNe hOther running key hKey hHeld
      · exact Runs.single ⟨h.admitted _ _ running, hServed⟩
  | rollback =>
      exact ⟨h.remove fun _ _ _ _ => protection.refl _ _, Runs.zero _⟩

omit [DecidableEq Tid] in
/-- A database where nothing is in flight is sound. -/
theorem sound_idle (tables : Tables) :
    (System.idle tables : System Tid Lock Tables Error Answer).Sound Admitted protection :=
  System.sound_iff.mpr (System.each_idle _ _)

/-- The commits of every interleaving are a serial run of whole transactions. -/
theorem serial_of_runs
    (hAdmitted : ∀ body, Admitted body → Disciplined protection (Changes body) [] body)
    (h : system.Sound Admitted protection)
    {events : List (Event Tid Lock Tables Error Answer)}
    (run : Runs (Step Admitted) system events after) :
    after.Sound Admitted protection ∧
      Runs (Serves Admitted) system.tables (commits events) after.tables := by
  induction run with
  | zero => exact ⟨h, Runs.zero _⟩
  | succ prior last ih =>
      obtain ⟨hSound, hSerial⟩ := ih
      obtain ⟨hNext, hLast⟩ := step_serial hAdmitted hSound last
      refine ⟨hNext, ?_⟩
      rw [commits_append]
      exact hSerial.trans hLast

/-- The database with one transaction in flight. -/
def System.only (tables : Tables) (tid : Tid) (flight : Flight Lock Tables Error Answer) :
    System Tid Lock Tables Error Answer :=
  (System.idle tables).setFlight tid (some flight)

theorem System.only_setFlight (tables : Tables) (tid : Tid)
    (first second : Flight Lock Tables Error Answer) :
    (System.only tables tid first).setFlight tid (some second) =
      System.only tables tid second := by
  simp only [System.only, System.setFlight, Function.update_idem]

/-- A transaction that flies alone goes on to its commit. -/
theorem runs_of_rest {tid : Tid} {body rest : Tx Lock Tables Error (Commit Tables Error Answer)}
    {held : List Lock} {tables later : Tables} {answer : Answer} {guard : Tables → Answer → Prop}
    (hGuard : guard tables answer) (h : serve rest tables = .ok (later, answer)) :
    ∃ events, Runs (Guarded (Step Admitted) (OnCommit guard))
        (System.only tables tid ⟨body, rest, held⟩) events (System.idle later) ∧
      commits events = [(body, answer)] := by
  have hSelf : ∀ flight : Flight Lock Tables Error Answer,
      (System.only tables tid flight).flights tid = some flight :=
    fun flight => System.setFlight_self _ _ _
  have hOn : ∀ {first next : Flight Lock Tables Error Answer},
      Step Admitted (System.only tables tid first) (.statement tid)
        ((System.only tables tid first).setFlight tid (some next)) →
      (∃ events, Runs (Guarded (Step Admitted) (OnCommit guard)) (System.only tables tid next)
        events (System.idle later) ∧ commits events = [(body, answer)]) →
      ∃ events, Runs (Guarded (Step Admitted) (OnCommit guard)) (System.only tables tid first)
        events (System.idle later) ∧ commits events = [(body, answer)] := by
    rintro first next hStep ⟨events, run, hCommits⟩
    rw [System.only_setFlight] at hStep
    exact ⟨.statement tid :: events, (Runs.single ⟨hStep, trivial⟩).trans run, hCommits⟩
  induction rest generalizing held with
  | done ending =>
      cases hWrite : ending.write tables with
      | error error => simp [serve, Tx.alone, hWrite, bind, Except.bind] at h
      | ok written =>
          rw [serve_done hWrite] at h
          cases h
          have hIdle : (⟨later, Function.update (System.only tables tid
              ⟨body, .done ending, held⟩).flights tid none⟩ :
                System Tid Lock Tables Error Answer) = System.idle later := by
            simp [System.only, System.setFlight, System.idle]
          have hStep : Step Admitted (System.only tables tid ⟨body, .done ending, held⟩)
              (.commit tid body ending.answer) (System.idle later) :=
            hIdle ▸ Step.commit (hSelf ⟨body, .done ending, held⟩) hWrite
          exact ⟨_, Runs.single ⟨hStep, hGuard⟩, rfl⟩
  | fail error => cases h
  | lock key isThere next ih =>
      cases hThere : isThere tables with
      | true =>
          have hNext : serve (next true) tables = .ok (later, answer) := hThere ▸ h
          refine hOn (Step.locked (hSelf _) hThere fun other flight hNe hOther => ?_) (ih true hNext)
          rw [System.only, System.setFlight_of_ne _ _ hNe] at hOther
          cases hOther
      | false =>
          have hNext : serve (next false) tables = .ok (later, answer) := hThere ▸ h
          exact hOn (Step.missing (hSelf _) hThere) (ih false hNext)
  | read next ih => exact hOn (Step.read (hSelf _)) (ih tables h)

/-- A transaction that is served with nobody else around is a run. -/
theorem runs_of_serve (tid : Tid) {body : Tx Lock Tables Error (Commit Tables Error Answer)}
    {tables later : Tables} {answer : Answer} {guard : Tables → Answer → Prop}
    (hBody : Admitted body) (hGuard : guard tables answer)
    (h : serve body tables = .ok (later, answer)) :
    ∃ events, Runs (Guarded (Step Admitted) (OnCommit guard))
        (System.idle tables : System Tid Lock Tables Error Answer) events (System.idle later) ∧
      commits events = [(body, answer)] := by
  have hBegin : Step Admitted (System.idle tables) (.begin tid body)
      (System.only tables tid ⟨body, body, []⟩) := Step.begin rfl hBody
  obtain ⟨events, run, hCommits⟩ : ∃ events, Runs (Guarded (Step Admitted) (OnCommit guard))
      (System.only tables tid ⟨body, body, []⟩) events (System.idle later) ∧
        commits events = [(body, answer)] := runs_of_rest hGuard h
  exact ⟨.begin tid body :: events, (Runs.single ⟨hBegin, trivial⟩).trans run, hCommits⟩

/-- Every serial run is an interleaving: the one where nobody waits for anybody. -/
theorem runs_of_serial (tid : Tid) {tables later : Tables}
    {served : List (Tx Lock Tables Error (Commit Tables Error Answer) × Answer)}
    (run : Runs (Serves Admitted) tables served later) :
    ∃ events, Runs (Step Admitted) (System.idle tables : System Tid Lock Tables Error Answer)
      events (System.idle later) ∧ commits events = served := by
  induction run with
  | zero => exact ⟨[], Runs.zero _, rfl⟩
  | @succ middle last served one prior hLast ih =>
      obtain ⟨events, run, hCommits⟩ := ih
      obtain ⟨body, answer⟩ := one
      obtain ⟨hBody, hServe⟩ := hLast
      obtain ⟨rest, hRest, hOne⟩ : ∃ rest, Runs (Guarded (Step Admitted) (OnCommit fun _ _ => True))
          (System.idle middle : System Tid Lock Tables Error Answer) rest (System.idle last) ∧
            commits rest = [(body, answer)] := runs_of_serve tid hBody trivial hServe
      refine ⟨_, run.trans hRest.of_guarded, ?_⟩
      rw [commits_append, hCommits, hOne]

end

/-! ### Keeping the discipline -/

section

variable {protection : Protection Lock Tables} {held : List Lock} {possible : Tables → Prop}

theorem serve_andWrite (extra : Answer → Tables → Except Error Tables)
    (tx : Tx Lock Tables Error (Commit Tables Error Answer)) (tables : Tables) :
    serve (tx.andWrite extra) tables = (do
      let (middle, answer) ← serve tx tables
      let after ← extra answer middle
      return (after, answer)) := by
  simp only [serve, Tx.andWrite, Tx.alone_bind, Tx.alone_pure]
  cases hAlone : tx.alone tables with
  | error error => rfl
  | ok ending =>
      show (do
        let after ← ending.write tables >>= extra ending.answer
        return (after, ending.answer)) = _
      cases hWrite : ending.write tables with
      | error error => simp [hWrite, bind, Except.bind]
      | ok middle => simp [hWrite, bind, Except.bind, pure, Except.pure]

@[simp] theorem follows_refl (tx : Tx Lock Tables Error (Commit Tables Error Answer))
    (tables : Tables) : Follows tx tx tables :=
  fun _ hOut => hOut

theorem follows_of_fail {tx : Tx Lock Tables Error (Commit Tables Error Answer)} {error : Error}
    {tables : Tables} : Follows (.fail error) tx tables := by
  intro out hOut
  simp [serve, Tx.alone, bind, Except.bind] at hOut

theorem disciplined_pure {ending : Commit Tables Error Answer}
    (h : ∀ before after, possible before → ending.write before = .ok after →
      ∀ others : List Lock, (∀ key ∈ others, key ∉ held) →
        protection.agree others before after) :
    Disciplined protection possible held
      (pure ending : Tx Lock Tables Error (Commit Tables Error Answer)) := h

/-- A check reads nothing. -/
theorem disciplined_check {x : Except Error α}
    {k : α → Tx Lock Tables Error (Commit Tables Error Answer)}
    (h : ∀ a, x = .ok a → Disciplined protection possible held (k a)) :
    Disciplined protection possible held ((liftM x : Tx Lock Tables Error α) >>= k) := by
  cases x with
  | ok a => exact h a rfl
  | error error => exact trivial

/-- A read that the held locks cover, or whose outcomes the rest of the body tells apart only
by failing. -/
theorem disciplined_query {f : Tables → α}
    {k : α → Tx Lock Tables Error (Commit Tables Error Answer)}
    (hStable : ∀ a b, protection.agree held a b → Follows (k (f a)) (k (f b)) b)
    (h : ∀ tables, Disciplined protection possible held (k (f tables))) :
    Disciplined protection possible held ((Tx.query f : Tx Lock Tables Error α) >>= k) :=
  ⟨hStable, h⟩

/-- A read of what the held locks cover. -/
theorem disciplined_query_of_agree {f : Tables → α}
    {k : α → Tx Lock Tables Error (Commit Tables Error Answer)}
    (hStable : ∀ a b, protection.agree held a b → f a = f b)
    (h : ∀ tables, Disciplined protection possible held (k (f tables))) :
    Disciplined protection possible held ((Tx.query f : Tx Lock Tables Error α) >>= k) := by
  refine disciplined_query (fun a b hAgree => ?_) h
  rw [hStable a b hAgree]
  exact follows_refl _ _

theorem disciplined_lockRow {key : Lock} {isThere : Tables → Bool}
    {k : Bool → Tx Lock Tables Error (Commit Tables Error Answer)}
    (hThere : ∀ a b, isThere a = true → protection.agree (key :: held) a b →
      Follows (k true) (k (isThere b)) b)
    (hMissing : ∀ a b, isThere a = false → protection.agree held a b →
      Follows (k false) (k (isThere b)) b)
    (hLocked : Disciplined protection possible (key :: held) (k true))
    (hOther : Disciplined protection possible held (k false)) :
    Disciplined protection possible held
      ((Tx.lockRow key isThere : Tx Lock Tables Error Bool) >>= k) :=
  ⟨hThere, hMissing, hLocked, fun _ => hOther⟩

theorem disciplined_lockKey {key : Lock}
    {k : Unit → Tx Lock Tables Error (Commit Tables Error Answer)}
    (h : Disciplined protection possible (key :: held) (k ())) :
    Disciplined protection possible held ((Tx.lockKey key : Tx Lock Tables Error Unit) >>= k) := by
  refine ⟨fun _ _ _ _ => follows_refl _ _, ?_, h, ?_⟩
  · intro a b hAbsent
    cases hAbsent
  · rintro ⟨tables, hAbsent⟩
    cases hAbsent

/-- Writing a row for the answer keeps the discipline when a lock that is held covers it. -/
theorem disciplined_andWrite {extra : Answer → Tables → Except Error Tables} {key : Lock}
    (hExtra : ∀ answer before after, extra answer before = .ok after →
      ∀ others : List Lock, key ∉ others → protection.agree others before after)
    {tx : Tx Lock Tables Error (Commit Tables Error Answer)} (hKey : key ∈ held)
    (h : Disciplined protection possible held tx) :
    Disciplined protection possible held (tx.andWrite extra) := by
  have hFollows : ∀ {first second : Tx Lock Tables Error (Commit Tables Error Answer)} {tables},
      Follows first second tables →
        Follows (first.andWrite extra) (second.andWrite extra) tables := by
    intro first second tables hFollows out hOut
    rw [serve_andWrite] at hOut ⊢
    cases hFirst : serve first tables with
    | error error => simp [hFirst, bind, Except.bind] at hOut
    | ok served =>
        rw [hFollows served hFirst]
        rw [hFirst] at hOut
        exact hOut
  induction tx generalizing held with
  | done ending =>
      intro before after hPossible hWrite others hOthers
      cases hFirst : ending.write before with
      | error error => simp [hFirst, bind, Except.bind] at hWrite
      | ok middle =>
          simp only [hFirst, bind, Except.bind] at hWrite
          refine protection.trans _ _ _ _ (h before middle hPossible hFirst others hOthers) ?_
          exact hExtra ending.answer middle after hWrite others fun hIn => hOthers key hIn hKey
  | fail error => exact trivial
  | lock key' isThere next ih =>
      obtain ⟨hThere, hMissing, hLocked, hOther⟩ := h
      refine ⟨fun a b hA hAgree => hFollows (hThere a b hA hAgree),
        fun a b hA hAgree => hFollows (hMissing a b hA hAgree), ?_, fun hAbsent => ?_⟩
      · exact ih true (List.mem_cons_of_mem _ hKey) hLocked
      · exact ih false hKey (hOther hAbsent)
  | read next ih =>
      obtain ⟨hStable, hRest⟩ := h
      exact ⟨fun a b hAgree => hFollows (hStable a b hAgree), fun tables =>
        ih tables hKey (hRest tables)⟩

end

end Transactions
