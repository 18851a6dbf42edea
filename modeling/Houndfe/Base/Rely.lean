import Houndfe.Base.Transactions

/-! What a transaction can rely on and what it guarantees. A body is read statement by
statement: each statement sees tables that agree, on what the held locks protect, with all the
tables it saw before. From that the write at its end has to keep the word of the body, whatever
the other transactions commit in between. -/

namespace Transactions

open Transition

variable {Lock Tables Error α β Answer Tid : Type}

/-- Every way through the body, seeing only valid tables, ends with `post`, told the locks that
are held by then and what is known of the tables from then on. -/
def Tx.Ensures (protection : Protection Lock Tables) (valid : Tables → Prop) :
    Tx Lock Tables Error α → List Lock → (Tables → Prop) →
      (List Lock → (Tables → Prop) → α → Prop) → Prop
  | .done a, held, known, post => post held known a
  | .fail _, _, _, _ => True
  | .lock key isThere next, held, known, post =>
      (∀ seen, valid seen → known seen → isThere seen = true →
        (next true).Ensures protection valid (key :: held)
          (fun later => known later ∧ protection.agree (key :: held) seen later) post) ∧
      ∀ seen, valid seen → known seen → isThere seen = false →
        (next false).Ensures protection valid held
          (fun later => known later ∧ protection.agree held seen later) post
  | .read next, held, known, post =>
      ∀ seen, valid seen → known seen →
        (next seen).Ensures protection valid held
          (fun later => known later ∧ protection.agree held seen later) post

section

variable {protection : Protection Lock Tables} {valid : Tables → Prop} {held : List Lock}
  {known : Tables → Prop}

theorem ensures_bind {tx : Tx Lock Tables Error α} {k : α → Tx Lock Tables Error β}
    {post : List Lock → (Tables → Prop) → β → Prop} :
    (tx >>= k).Ensures protection valid held known post ↔
      tx.Ensures protection valid held known fun held known a =>
        (k a).Ensures protection valid held known post := by
  show (tx.bind k).Ensures protection valid held known post ↔ _
  induction tx generalizing held known with
  | done a => exact Iff.rfl
  | fail error => exact Iff.rfl
  | lock key isThere next ih => simp only [Tx.bind, Tx.Ensures, ih]
  | read next ih => simp only [Tx.bind, Tx.Ensures, ih]

theorem Tx.Ensures.mono {tx : Tx Lock Tables Error α}
    {post post' : List Lock → (Tables → Prop) → α → Prop}
    (h : tx.Ensures protection valid held known post)
    (hPost : ∀ held known a, post held known a → post' held known a) :
    tx.Ensures protection valid held known post' := by
  induction tx generalizing held known with
  | done a => exact hPost _ _ _ h
  | fail error => exact trivial
  | lock key isThere next ih =>
      exact ⟨fun seen hValid hSeen hThere => ih true (h.1 seen hValid hSeen hThere),
        fun seen hValid hSeen hAbsent => ih false (h.2 seen hValid hSeen hAbsent)⟩
  | read next ih => exact fun seen hValid hSeen => ih seen (h seen hValid hSeen)

/-- What a body ensures of each index it ensures of all of them together. -/
theorem Tx.Ensures.forall {ι : Type} {P : ι → Prop} {tx : Tx Lock Tables Error α}
    {post : ι → List Lock → (Tables → Prop) → α → Prop}
    (h : ∀ i, P i → tx.Ensures protection valid held known (post i)) :
    tx.Ensures protection valid held known fun held known a =>
      ∀ i, P i → post i held known a := by
  induction tx generalizing held known with
  | done a => exact h
  | fail error => exact trivial
  | lock key isThere next ih =>
      exact ⟨fun seen hValid hSeen hThere => ih true fun i hP =>
          (h i hP).1 seen hValid hSeen hThere,
        fun seen hValid hSeen hAbsent => ih false fun i hP =>
          (h i hP).2 seen hValid hSeen hAbsent⟩
  | read next ih =>
      exact fun seen hValid hSeen => ih seen fun i hP => h i hP seen hValid hSeen

/-- A check lets only what it accepts go on. -/
theorem ensures_check {x : Except Error α} {post : List Lock → (Tables → Prop) → α → Prop}
    (h : ∀ a, x = .ok a → post held known a) :
    (liftM x : Tx Lock Tables Error α).Ensures protection valid held known post := by
  cases x with
  | ok a => exact h a rfl
  | error error => exact trivial

theorem ensures_query {f : Tables → α} {post : List Lock → (Tables → Prop) → α → Prop}
    (h : ∀ seen, valid seen → known seen →
      post held (fun later => known later ∧ protection.agree held seen later) (f seen)) :
    (Tx.query f : Tx Lock Tables Error α).Ensures protection valid held known post := h

/-- A statement that sees the writes before it, when they go through. -/
theorem ensures_queryOwn {pending : Tables → Except Error Tables} {f : Tables → α}
    {post : List Lock → (Tables → Prop) → α → Prop}
    (h : ∀ seen own, valid seen → known seen → pending seen = .ok own →
      post held (fun later => known later ∧ protection.agree held seen later) (f own)) :
    (Tx.queryOwn pending f : Tx Lock Tables Error α).Ensures protection valid held known post := by
  intro seen hValid hKnown
  cases hOwn : pending seen with
  | ok own =>
      simp only [hOwn]
      exact h seen own hValid hKnown hOwn
  | error error =>
      simp only [hOwn]
      exact trivial

theorem ensures_lockRow {key : Lock} {isThere : Tables → Bool}
    {post : List Lock → (Tables → Prop) → Bool → Prop}
    (hThere : ∀ seen, valid seen → known seen → isThere seen = true → post (key :: held)
      (fun later => known later ∧ protection.agree (key :: held) seen later) true)
    (hAbsent : ∀ seen, valid seen → known seen → isThere seen = false → post held
      (fun later => known later ∧ protection.agree held seen later) false) :
    (Tx.lockRow key isThere : Tx Lock Tables Error Bool).Ensures protection valid held known post :=
  ⟨hThere, hAbsent⟩

theorem ensures_lockKey {key : Lock} {post : List Lock → (Tables → Prop) → Unit → Prop}
    (h : ∀ seen, valid seen → known seen → post (key :: held)
      (fun later => known later ∧ protection.agree (key :: held) seen later) ()) :
    (Tx.lockKey key : Tx Lock Tables Error Unit).Ensures protection valid held known post := by
  refine ⟨fun seen hValid hSeen _ => h seen hValid hSeen, ?_⟩
  intro seen _ _ hAbsent
  cases hAbsent

/-- A body that runs alone ends as it ensures, on the tables it ran on. -/
theorem Tx.Ensures.alone {tx : Tx Lock Tables Error α} {tables : Tables} {a : α}
    {post : List Lock → (Tables → Prop) → α → Prop}
    (h : tx.Ensures protection valid held known post) (hValid : valid tables)
    (hKnown : known tables) (hAlone : tx.alone tables = .ok a) :
    ∃ held known, known tables ∧ post held known a := by
  induction tx generalizing held known with
  | done b =>
      cases hAlone
      exact ⟨held, known, hKnown, h⟩
  | fail error => cases hAlone
  | lock key isThere next ih =>
      cases hThere : isThere tables with
      | true =>
          have hNext : (next true).alone tables = .ok a := hThere ▸ hAlone
          exact ih true (h.1 tables hValid hKnown hThere) ⟨hKnown, protection.refl _ _⟩ hNext
      | false =>
          have hNext : (next false).alone tables = .ok a := hThere ▸ hAlone
          exact ih false (h.2 tables hValid hKnown hThere) ⟨hKnown, protection.refl _ _⟩ hNext
  | read next ih => exact ih tables (h tables hValid hKnown) ⟨hKnown, protection.refl _ _⟩ hAlone

end

/-- The write at the end keeps the word of the body: on the tables that are possible it does what
was promised, and it leaves alone what the locks of others protect. -/
def Warranted (protection : Protection Lock Tables) (possible : Tables → Prop)
    (promise : Tables → Tables → Answer → Prop) (held : List Lock) (known : Tables → Prop)
    (ending : Commit Tables Error Answer) : Prop :=
  ∀ before after, known before → possible before → ending.write before = .ok after →
    promise before after ending.answer ∧
      ∀ others : List Lock, (∀ key ∈ others, key ∉ held) → protection.agree others before after

/-- The words of a system of transactions: the invariant of its tables, when a body may commit,
and what it then does. -/
structure Terms (Lock Tables Error Answer : Type) where
  protection : Protection Lock Tables
  possible : Tx Lock Tables Error (Commit Tables Error Answer) → Tables → Prop
  promise : Tx Lock Tables Error (Commit Tables Error Answer) → Tables → Tables → Answer → Prop
  invariant : Tables → Prop

namespace Terms

variable (terms : Terms Lock Tables Error Answer)

/-- The body keeps its word from its first statement on. -/
def KeptBy (body : Tx Lock Tables Error (Commit Tables Error Answer)) : Prop :=
  body.Ensures terms.protection terms.invariant [] (fun _ => True)
    (Warranted terms.protection (fun before => terms.invariant before ∧ terms.possible body before)
      (terms.promise body))

/-- The commits of the serial system. -/
def Commits (Admitted : Tx Lock Tables Error (Commit Tables Error Answer) → Prop)
    (before : Tables) (served : Tx Lock Tables Error (Commit Tables Error Answer) × Answer)
    (after : Tables) : Prop :=
  Admitted served.1 ∧ terms.possible served.1 before ∧
    terms.promise served.1 before after served.2

/-- A commit comes only when it is possible. -/
def Timely (system : System Tid Lock Tables Error Answer) :
    Event Tid Lock Tables Error Answer → Prop
  | .commit _ body _ => terms.possible body system.tables
  | .begin _ _ | .statement _ | .rollback _ => True

/-- What holds of a transaction in flight: what it knows is true and stays true, and with that
what is left of it keeps the word of its body. -/
def Flies (Admitted : Tx Lock Tables Error (Commit Tables Error Answer) → Prop) (tables : Tables)
    (flight : Flight Lock Tables Error Answer) : Prop :=
  Admitted flight.body ∧ ∃ known : Tables → Prop, known tables ∧
    (∀ a b, known a → terms.protection.agree flight.held a b → known b) ∧
    flight.rest.Ensures terms.protection terms.invariant flight.held known
      (Warranted terms.protection
        (fun before => terms.invariant before ∧ terms.possible flight.body before)
        (terms.promise flight.body))

variable {terms}

/-- What was known stays known when what was just seen is added to it. -/
theorem stable_seen {protection : Protection Lock Tables} {held : List Lock}
    {known : Tables → Prop} {seen : Tables}
    (hStable : ∀ a b, known a → protection.agree held a b → known b) (a b : Tables)
    (hKnown : known a ∧ protection.agree held seen a) (hAgree : protection.agree held a b) :
    known b ∧ protection.agree held seen b :=
  ⟨hStable a b hKnown.1 hAgree, protection.trans _ _ _ _ hKnown.2 hAgree⟩

section

variable [DecidableEq Tid] {Admitted : Tx Lock Tables Error (Commit Tables Error Answer) → Prop}
  {system after : System Tid Lock Tables Error Answer} {event : Event Tid Lock Tables Error Answer}

/-- One event: the tables change only by commits that keep their word, and everybody in flight
goes on to keep theirs. -/
theorem step_commits (hKept : ∀ body, Admitted body → terms.KeptBy body)
    (h : system.Each (terms.Flies Admitted system.tables))
    (hInv : terms.invariant system.tables)
    (hStep : Guarded (Step Admitted) terms.Timely system event after) :
    after.Each (terms.Flies Admitted after.tables) ∧
      Runs (terms.Commits Admitted) system.tables (Transactions.commits [event]) after.tables := by
  obtain ⟨hStep, hTimely⟩ := hStep
  cases hStep with
  | begin idle admitted =>
      refine ⟨h.setFlight ⟨admitted, fun _ => True, trivial, fun _ _ _ _ => trivial,
        hKept _ admitted⟩ ?_, Runs.zero _⟩
      simp
  | read running =>
      obtain ⟨hAdmitted, known, hKnown, hStable, hRest⟩ := h.each _ _ running
      refine ⟨h.setFlight ⟨hAdmitted, _, ⟨hKnown, terms.protection.refl _ _⟩,
        stable_seen hStable, hRest _ hInv hKnown⟩ ?_, Runs.zero _⟩
      intro other flight hNe hOther key hKey
      exact h.disjoint _ other _ flight (Ne.symm hNe) running hOther key hKey
  | locked running there free =>
      obtain ⟨hAdmitted, known, hKnown, hStable, hRest, _⟩ := h.each _ _ running
      refine ⟨h.setFlight ⟨hAdmitted, _, ⟨hKnown, terms.protection.refl _ _⟩,
        stable_seen fun a b hA hAgree => hStable a b hA (terms.protection.mono _ _ _ _ hAgree),
        hRest _ hInv hKnown there⟩ ?_, Runs.zero _⟩
      intro other flight hNe hOther key hKey
      rcases List.mem_cons.mp hKey with rfl | hKey
      · exact free other flight hNe hOther
      · exact h.disjoint _ other _ flight (Ne.symm hNe) running hOther key hKey
  | missing running absent =>
      obtain ⟨hAdmitted, known, hKnown, hStable, _, hRest⟩ := h.each _ _ running
      refine ⟨h.setFlight ⟨hAdmitted, _, ⟨hKnown, terms.protection.refl _ _⟩,
        stable_seen hStable, hRest _ hInv hKnown absent⟩ ?_, Runs.zero _⟩
      intro other flight hNe hOther key hKey
      exact h.disjoint _ other _ flight (Ne.symm hNe) running hOther key hKey
  | @commit _ _ _ _ later running written =>
      obtain ⟨hAdmitted, known, hKnown, _, hEnding⟩ := h.each _ _ running
      obtain ⟨hPromise, hAgree⟩ := hEnding _ _ hKnown ⟨hInv, hTimely⟩ written
      constructor
      · apply h.remove
        rintro other flight hNe hOther ⟨hBody, known', hKnown', hStable', hRest'⟩
        refine ⟨hBody, known', hStable' _ _ hKnown' (hAgree flight.held ?_), hStable', hRest'⟩
        exact fun key hKey hHeld => h.disjoint other _ flight _ hNe hOther running key hKey hHeld
      · exact Runs.single ⟨hAdmitted, hTimely, hPromise⟩
  | rollback => exact ⟨h.remove fun _ _ _ _ hOther => hOther, Runs.zero _⟩

/-- The commits of every interleaving are a serial run of transactions that keep their word. -/
theorem commits_of_runs (hKept : ∀ body, Admitted body → terms.KeptBy body)
    (hInvariant : ∀ before served later, terms.invariant before →
      terms.Commits Admitted before served later → terms.invariant later)
    (h : system.Each (terms.Flies Admitted system.tables))
    (hInv : terms.invariant system.tables) {events : List (Event Tid Lock Tables Error Answer)}
    (run : Runs (Guarded (Step Admitted) terms.Timely) system events after) :
    after.Each (terms.Flies Admitted after.tables) ∧ terms.invariant after.tables ∧
      Runs (terms.Commits Admitted) system.tables (Transactions.commits events) after.tables := by
  induction run with
  | zero => exact ⟨h, hInv, Runs.zero _⟩
  | succ prior last ih =>
      obtain ⟨hFlies, hMiddle, hSerial⟩ := ih
      obtain ⟨hNext, hLast⟩ := step_commits hKept hFlies hMiddle last
      refine ⟨hNext, hLast.invariant hInvariant hMiddle, ?_⟩
      rw [commits_append]
      exact hSerial.trans hLast

end

end Terms

end Transactions
