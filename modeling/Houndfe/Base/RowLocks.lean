import Mathlib.Data.List.Nodup
import Mathlib.Data.Option.Basic

/-! Rows of a database under READ COMMITTED with row locks. A row has its
committed version and at most one holder, whose own version nobody else sees;
keeping the holder in the row makes two holders of one row impossible. Tables of such rows
follow. -/

namespace RowLocks

variable {Tid V : Type*}

/-- A row: the committed version, and the transaction that holds its lock
together with that transaction's version. -/
structure Row (Tid V : Type*) where
  committed : V
  held : Option (Tid × V)
  deriving DecidableEq

namespace Row

def ofCommitted (v : V) : Row Tid V := ⟨v, none⟩

/-- A statement of `t` may lock the row: nobody else holds it. -/
def FreeFor (row : Row Tid V) (t : Tid) : Prop :=
  ∀ holder ∈ row.held, holder.1 = t

/-- `t` holds the row. -/
def HeldBy (row : Row Tid V) (t : Tid) : Prop :=
  ∃ v, row.held = some (t, v)

/-- `t` writes its version and keeps the lock until it ends. -/
def write (row : Row Tid V) (t : Tid) (v : V) : Row Tid V :=
  { row with held := some (t, v) }

@[simp] theorem write_committed (row : Row Tid V) (t : Tid) (v : V) :
    (row.write t v).committed = row.committed := rfl

@[simp] theorem write_held (row : Row Tid V) (t : Tid) (v : V) :
    (row.write t v).held = some (t, v) := rfl

theorem HeldBy.eq_of_freeFor {row : Row Tid V} {t u : Tid} (hHeld : row.HeldBy u)
    (hFree : row.FreeFor t) : u = t := by
  obtain ⟨v, hv⟩ := hHeld
  exact hFree (u, v) hv

theorem HeldBy.eq {row : Row Tid V} {t u : Tid} (hFirst : row.HeldBy t)
    (hSecond : row.HeldBy u) : t = u := by
  obtain ⟨v, hv⟩ := hFirst
  obtain ⟨w, hw⟩ := hSecond
  rw [hv] at hw
  exact congrArg Prod.fst (Option.some.inj hw)

theorem heldBy_write_self (row : Row Tid V) (t : Tid) (v : V) : (row.write t v).HeldBy t :=
  ⟨v, rfl⟩

theorem heldBy_write_other (row : Row Tid V) {t u : Tid} (v : V) (hFree : row.FreeFor t)
    (hne : u ≠ t) : (row.write t v).HeldBy u ↔ row.HeldBy u := by
  constructor
  · intro h
    exact absurd (h.eq (row.heldBy_write_self t v)) hne
  · intro h
    exact absurd (h.eq_of_freeFor hFree) hne

variable [DecidableEq Tid]

instance (row : Row Tid V) (t : Tid) : Decidable (row.FreeFor t) :=
  match h : row.held with
  | none => isTrue (by simp [FreeFor, h])
  | some holder =>
      if hOwner : holder.1 = t then isTrue (by simp [FreeFor, h, hOwner])
      else isFalse (by simp [FreeFor, h, hOwner])

/-- What `t` reads: its own version, else the committed one. -/
def view (row : Row Tid V) (t : Tid) : V :=
  match row.held with
  | some (holder, v) => if holder = t then v else row.committed
  | none => row.committed

/-- The row after `t` commits. -/
def commit (row : Row Tid V) (t : Tid) : Row Tid V :=
  match row.held with
  | some (holder, v) => if holder = t then ⟨v, none⟩ else row
  | none => row

/-- The row after `t` rolls back. -/
def rollback (row : Row Tid V) (t : Tid) : Row Tid V :=
  match row.held with
  | some (holder, _) => if holder = t then ⟨row.committed, none⟩ else row
  | none => row

@[simp] theorem view_write_self (row : Row Tid V) (t : Tid) (v : V) :
    (row.write t v).view t = v := by
  simp [view]

theorem view_write_other (row : Row Tid V) {t u : Tid} (v : V) (hFree : row.FreeFor t)
    (hne : u ≠ t) : (row.write t v).view u = row.view u := by
  have hCommitted : (row.write t v).view u = row.committed := by
    simp [view, Ne.symm hne]
  rw [hCommitted, view]
  cases h : row.held with
  | none => rfl
  | some holder =>
      have hOwner : holder.1 = t := hFree holder (by rw [h]; rfl)
      simp [hOwner, Ne.symm hne]

theorem view_of_not_heldBy (row : Row Tid V) (t : Tid) (h : ¬ row.HeldBy t) :
    row.view t = row.committed := by
  unfold view
  split
  · next holder v hHeld =>
      have hne : holder ≠ t := by
        rintro rfl
        exact h ⟨v, hHeld⟩
      simp [hne]
  · rfl

@[simp] theorem commit_of_held_none (row : Row Tid V) (t : Tid) (h : row.held = none) :
    row.commit t = row := by
  simp [commit, h]

@[simp] theorem rollback_committed (row : Row Tid V) (t : Tid) :
    (row.rollback t).committed = row.committed := by
  unfold rollback
  split
  · split <;> rfl
  · rfl

/-- Committing `t` publishes what `t` saw of the rows it holds and leaves the
others alone. -/
theorem commit_committed_of_heldBy (row : Row Tid V) (t : Tid) (h : row.HeldBy t) :
    (row.commit t).committed = row.view t ∧ (row.commit t).held = none := by
  obtain ⟨v, hv⟩ := h
  simp [commit, view, hv]

theorem view_commit_self (row : Row Tid V) (t : Tid) : (row.commit t).view t = row.view t := by
  rcases row with ⟨v, _ | ⟨holder, own⟩⟩
  · rfl
  · by_cases hHolder : holder = t <;> simp [commit, view, hHolder]

theorem commit_committed (row : Row Tid V) (t : Tid) : (row.commit t).committed = row.view t := by
  rcases row with ⟨v, _ | ⟨holder, own⟩⟩
  · rfl
  · by_cases hHolder : holder = t <;> simp [commit, view, hHolder]

/-- A commit of `t` shows `t`'s version to whoever read the committed one. -/
theorem view_commit_other (row : Row Tid V) {t u : Tid} (hne : u ≠ t) :
    (row.view t = row.committed ∧ (row.commit t).view u = row.view u) ∨
      (row.view u = row.committed ∧ (row.commit t).view u = row.view t) := by
  rcases row with ⟨v, _ | ⟨holder, own⟩⟩
  · exact Or.inl ⟨rfl, rfl⟩
  · by_cases hHolder : holder = t
    · right
      have hOther : holder ≠ u := fun h => hne (h.symm.trans hHolder)
      simp [commit, view, hHolder, Ne.symm hne]
    · left
      simp [commit, view, hHolder]

theorem view_rollback_self (row : Row Tid V) (t : Tid) :
    (row.rollback t).view t = row.committed := by
  rcases row with ⟨v, _ | ⟨holder, own⟩⟩
  · rfl
  · by_cases hHolder : holder = t <;> simp [rollback, view, hHolder]

theorem view_rollback_other (row : Row Tid V) {t u : Tid} (hne : u ≠ t) :
    (row.rollback t).view u = row.view u := by
  rcases row with ⟨v, _ | ⟨holder, own⟩⟩
  · rfl
  · by_cases hHolder : holder = t
    · simp [rollback, view, hHolder, Ne.symm hne]
    · simp [rollback, view, hHolder]

/-- Every version in progress is `R`-later than the committed one. -/
def Extends (R : V → V → Prop) (row : Row Tid V) : Prop :=
  ∀ t, R row.committed (row.view t)

theorem Extends.write {R : V → V → Prop} {row : Row Tid V} (h : row.Extends R)
    (hRefl : ∀ v, R v v) (hTrans : ∀ a b c, R a b → R b c → R a c) (t : Tid) {v : V}
    (hNew : R (row.view t) v) : (row.write t v).Extends R := by
  intro u
  by_cases hu : t = u
  · have hOwn := hTrans _ _ _ (h t) hNew
    simpa [view, hu] using hOwn
  · simpa [view, hu] using hRefl row.committed

theorem Extends.commit {R : V → V → Prop} {row : Row Tid V} (h : row.Extends R)
    (hRefl : ∀ v, R v v) (t : Tid) : (row.commit t).Extends R := by
  intro u
  rw [commit_committed]
  by_cases hu : u = t
  · rw [hu, view_commit_self]
    exact hRefl _
  · rcases row.view_commit_other hu with ⟨hSame, hView⟩ | ⟨_, hView⟩
    · rw [hSame, hView]
      exact h u
    · rw [hView]
      exact hRefl _

theorem Extends.rollback {R : V → V → Prop} {row : Row Tid V} (h : row.Extends R)
    (hRefl : ∀ v, R v v) (t : Tid) : (row.rollback t).Extends R := by
  intro u
  rw [rollback_committed]
  by_cases hu : u = t
  · rw [hu, view_rollback_self]
    exact hRefl _
  · rw [view_rollback_other row hu]
    exact h u

theorem not_heldBy_commit_self (row : Row Tid V) (t : Tid) : ¬ (row.commit t).HeldBy t := by
  rintro ⟨own, hOwn⟩
  rcases row with ⟨v, _ | ⟨holder, w⟩⟩
  · simp [commit] at hOwn
  · by_cases hHolder : holder = t <;> simp [commit, hHolder] at hOwn

theorem not_heldBy_rollback_self (row : Row Tid V) (t : Tid) : ¬ (row.rollback t).HeldBy t := by
  rintro ⟨own, hOwn⟩
  rcases row with ⟨v, _ | ⟨holder, w⟩⟩
  · simp [rollback] at hOwn
  · by_cases hHolder : holder = t <;> simp [rollback, hHolder] at hOwn

theorem heldBy_rollback_other (row : Row Tid V) {t u : Tid} (hne : u ≠ t) :
    (row.rollback t).HeldBy u ↔ row.HeldBy u := by
  rcases row with ⟨v, _ | ⟨holder, w⟩⟩
  · rfl
  · by_cases hHolder : holder = t
    · simp [rollback, hHolder, HeldBy, Ne.symm hne]
    · simp [rollback, hHolder]

end Row

end RowLocks

/-! ### Tables

Tables of lockable rows by primary key, with the two bulk statements of an ORM: delete every row
that the transaction sees, and insert a list of rows. -/

namespace RowLocks

variable {Tid V : Type*}

/-- A table: the row of each key, absent while `none`. -/
abbrev Table (Tid V : Type*) := String → Row Tid (Option V)

namespace Table

variable [DecidableEq Tid]

/-- The rows that `t` sees, among the keys in use. -/
def visible (keys : List String) (table : Table Tid V) (t : Tid) : List V :=
  keys.filterMap fun key => (table key).view t

/-- No row that `t` sees is locked by somebody else. -/
def Deletable (keys : List String) (table : Table Tid V) (t : Tid) : Prop :=
  ∀ key ∈ keys, ((table key).view t).isSome → (table key).FreeFor t

instance (keys : List String) (table : Table Tid V) (t : Tid) :
    Decidable (Deletable keys table t) :=
  inferInstanceAs (Decidable (∀ key ∈ keys, _))

/-- `deleteMany`, which waits for the rows that somebody else locks. -/
def deleteMany (keys : List String) (table : Table Tid V) (t : Tid) : Option (Table Tid V) :=
  if Deletable keys table t then
    some fun key =>
      if key ∈ keys ∧ ((table key).view t).isSome then (table key).write t none else table key
  else none

/-- `createMany`: it waits for keys that somebody else is writing, and breaks the unique
key (`some none`) when a key is taken or comes twice. -/
def createMany (keys : List String) (table : Table Tid V) (t : Tid) (rows : List (String × V)) :
    Option (Option (Table Tid V)) :=
  if ∀ row ∈ rows, row.1 ∈ keys ∧ (table row.1).FreeFor t then
    if (rows.map Prod.fst).Nodup ∧ ∀ row ∈ rows, (table row.1).view t = none then
      some (some fun key =>
        match rows.lookup key with
        | some v => (table key).write t (some v)
        | none => table key)
    else some none
  else none

theorem deleteMany_eq_some {keys : List String} {table after : Table Tid V} {t : Tid}
    (h : deleteMany keys table t = some after) (key : String) :
    after key = table key ∨ ((table key).FreeFor t ∧ after key = (table key).write t none) := by
  obtain ⟨hDeletable, hAfter⟩ := Option.ite_none_right_eq_some.mp h
  cases hAfter
  by_cases hSeen : key ∈ keys ∧ ((table key).view t).isSome
  · exact Or.inr ⟨hDeletable key hSeen.1 hSeen.2, if_pos hSeen⟩
  · exact Or.inl (if_neg hSeen)

theorem deleteMany_view {keys : List String} {table after : Table Tid V} {t : Tid}
    (h : deleteMany keys table t = some after) {key : String} (hKey : key ∈ keys) :
    (after key).view t = none := by
  obtain ⟨_, hAfter⟩ := Option.ite_none_right_eq_some.mp h
  cases hAfter
  show Row.view (if _ then _ else _) t = none
  split
  · exact Row.view_write_self _ _ _
  · next hSeen =>
      have hNone : ¬ ((table key).view t).isSome := fun hSome => hSeen ⟨hKey, hSome⟩
      simpa using hNone

theorem createMany_eq_some {keys : List String} {table after : Table Tid V} {t : Tid}
    {rows : List (String × V)} (h : createMany keys table t rows = some (some after))
    (key : String) :
    after key = table key ∨
      ((table key).FreeFor t ∧ ∃ v, after key = (table key).write t (some v)) := by
  obtain ⟨hFree, hAfter⟩ := Option.ite_none_right_eq_some.mp h
  split at hAfter
  · cases hAfter
    cases hRow : rows.lookup key with
    | none => simp [hRow]
    | some v =>
        obtain ⟨before, rest, hRows, _⟩ := List.lookup_eq_some_iff.mp hRow
        have hMem : (key, v) ∈ rows := by simp [hRows]
        exact Or.inr ⟨(hFree _ hMem).2, v, by simp [hRow]⟩
  · cases hAfter

/-- What `t` sees after its insert: the rows inserted, and what it saw before. -/
theorem createMany_view {keys : List String} {table after : Table Tid V} {t : Tid}
    {rows : List (String × V)} (h : createMany keys table t rows = some (some after))
    (key : String) :
    (after key).view t = (rows.lookup key).or ((table key).view t) := by
  obtain ⟨_, hAfter⟩ := Option.ite_none_right_eq_some.mp h
  split at hAfter
  · cases hAfter
    cases hRow : rows.lookup key with
    | none => simp [hRow]
    | some v => simp [hRow]
  · cases hAfter

end Table

end RowLocks
