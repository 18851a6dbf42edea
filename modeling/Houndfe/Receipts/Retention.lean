import Houndfe.Base.KeyedTable
import Houndfe.Shared.Instant
import Mathlib.Algebra.Order.BigOperators.Group.List
import Mathlib.Data.List.Perm.Subperm
import Mathlib.Data.Prod.Lex
import Mathlib.Data.String.Basic

/-! The retention of receipt files: the files of a receipt are removed five years after its upload.
A run takes the due rows in batches, the rows with fewer failures first; a step of it that crashes
is executed again. -/

namespace Houndfe.Receipts

structure ReceiptRow where
  id : String
  tenantId : String
  storageKey : Option String
  previewKey : Option String
  createdAt : Int
  purgedAt : Option Int
  purgeAttempts : Nat
  lastPurgeErrorAt : Option Int
  deriving DecidableEq

/-- `setUTCFullYear`, five years earlier; the leap day becomes the first of March. -/
def cutoff (now : Int) : Int :=
  let (year, month, day) := Instant.civil (now / 86400000)
  Instant.dayOf (year - 5) month day * 86400000 + now % 86400000

/-- The predicate of the scan. -/
def due (now : Int) (row : ReceiptRow) : Bool :=
  row.purgedAt.isNone && row.storageKey.isSome && decide (row.createdAt < cutoff now) &&
    row.lastPurgeErrorAt.all (· < now)

namespace ReceiptRow

def keys (row : ReceiptRow) : List String :=
  (row.storageKey.toList ++ row.previewKey.toList).eraseDups.filter (· ≠ "")

def folder (row : ReceiptRow) : String :=
  "receipts/" ++ row.tenantId ++ "/"

def HasForeignKey (row : ReceiptRow) : Prop :=
  ∃ key ∈ row.keys, ¬ row.folder.toList <+: key.toList

instance (row : ReceiptRow) : Decidable row.HasForeignKey :=
  inferInstanceAs (Decidable (∃ key ∈ row.keys, ¬ row.folder.toList <+: key.toList))

end ReceiptRow

/-- What the service does, in order: it takes a row up, removes an object, and writes the row. -/
inductive Effect where
  | started (id : String)
  | removed (id key : String)
  | purged (id tenantId : String)
  | failed (id tenantId : String)
  deriving DecidableEq

namespace Effect

def id : Effect → String
  | started id | removed id _ | purged id _ | failed id _ => id

/-- The updates are qualified by id, tenant and `purgedAt IS NULL`. -/
def on (now : Int) (effect : Effect) (row : ReceiptRow) : ReceiptRow :=
  match effect with
  | purged id tenantId =>
      if row.id = id ∧ row.tenantId = tenantId ∧ row.purgedAt = none then
        { row with purgedAt := some now, storageKey := none, previewKey := none }
      else row
  | failed id tenantId =>
      if row.id = id ∧ row.tenantId = tenantId ∧ row.purgedAt = none then
        { row with purgeAttempts := row.purgeAttempts + 1, lastPurgeErrorAt := some now }
      else row
  | started _ | removed _ _ => row

end Effect

def afterAll (now : Int) (log : List Effect) (row : ReceiptRow) : ReceiptRow :=
  log.foldl (fun row effect => effect.on now row) row

def replay (now : Int) (log : List Effect) (rows : List ReceiptRow) : List ReceiptRow :=
  rows.map (afterAll now log)

/-- The deletions of one execution that fail, by row and key. -/
abbrev Refusals := String → String → Bool

/-- The keys one after another, until one is refused. -/
def removals (refuses : String → Bool) (row : ReceiptRow) : List String → List Effect
  | [] => [.purged row.id row.tenantId]
  | key :: rest =>
      if refuses key then [.failed row.id row.tenantId]
      else .removed row.id key :: removals refuses row rest

def purge (refuses : Refusals) (row : ReceiptRow) : List Effect :=
  .started row.id ::
    if row.HasForeignKey then [.failed row.id row.tenantId]
    else removals (refuses row.id) row row.keys

/-- The executions of one step: where the first ones crashed, and one that completes. -/
structure BatchPlan where
  crashes : List (Refusals × Nat)
  last : Refusals

section

variable {κ : Type} [LinearOrder κ] (collate : String → κ) (now : Int) (batchSize : Nat)

def scanRank (row : ReceiptRow) : Nat ×ₗ Int ×ₗ κ :=
  toLex (row.purgeAttempts, toLex (row.createdAt, collate row.id))

def candidates (rows : List ReceiptRow) : List ReceiptRow :=
  (Keyed.sortByKey (scanRank collate) (rows.filter (due now))).take batchSize

def batchLog (rows : List ReceiptRow) (refuses : Refusals) : List Effect :=
  (candidates collate now batchSize rows).flatMap (purge refuses)

/-- The effects of `purgeBatch` in a step that is executed until it completes, and how many rows
its last execution scanned. -/
def purgeStep (last : Refusals) : List (Refusals × Nat) → List ReceiptRow → List Effect × Nat
  | [], rows => (batchLog collate now batchSize rows last,
      (candidates collate now batchSize rows).length)
  | crash :: rest, rows =>
      let log := (batchLog collate now batchSize rows crash.1).take crash.2
      let later := purgeStep last rest (replay now log rows)
      (log ++ later.1, later.2)

/-- The loop over at most as many batches as there are plans, and how many it made. -/
def purgeLoop : List BatchPlan → List ReceiptRow → List Effect × Nat
  | [], _ => ([], 0)
  | plan :: rest, rows =>
      let step := purgeStep collate now batchSize plan.last plan.crashes rows
      if step.2 < batchSize then (step.1, 1)
      else
        let later := purgeLoop rest (replay now step.1 rows)
        (step.1 ++ later.1, later.2 + 1)

end

structure Run where
  now : Int
  plans : List BatchPlan

/-- The effects of runs that follow each other. -/
def retention {κ : Type} [LinearOrder κ] (collate : String → κ) (batchSize : Nat) :
    List Run → List ReceiptRow → List Effect
  | [], _ => []
  | run :: rest, rows =>
      let log := (purgeLoop collate run.now batchSize run.plans rows).1
      log ++ retention collate batchSize rest (replay run.now log rows)

/-! ### One row -/

/-- A row that this run does not scan again: purged, or stamped with the time of the run. -/
def settled (now : Int) (row : ReceiptRow) : Bool :=
  row.purgedAt.isSome || row.lastPurgeErrorAt = some now

/-- The effect writes the row. -/
def Closes (effect : Effect) (row : ReceiptRow) : Prop :=
  effect = .purged row.id row.tenantId ∨ effect = .failed row.id row.tenantId

section

variable {now : Int} {row : ReceiptRow} {effect : Effect} {log log' : List Effect}
  {rows : List ReceiptRow}

theorem due_of_settled (h : settled now row = true) : due now row = false := by
  cases hDue : due now row with
  | false => rfl
  | true =>
      simp only [due, settled, Bool.and_eq_true, Bool.or_eq_true, decide_eq_true_eq] at hDue h
      rcases h with hPurged | hStamp
      · simp [Option.isNone_iff_eq_none.mp hDue.1.1.1] at hPurged
      · simp [hStamp] at hDue

/-- An effect leaves a row as it is, settles it, or meets it purged. -/
theorem on_cases (now : Int) (effect : Effect) (row : ReceiptRow) :
    effect.on now row = row ∨ row.purgedAt = none ∧ Closes effect row ∧
      (effect.on now row = { row with
        purgedAt := some now, storageKey := none, previewKey := none } ∨
      effect.on now row = { row with
        purgeAttempts := row.purgeAttempts + 1, lastPurgeErrorAt := some now }) := by
  cases effect with
  | started id => exact Or.inl rfl
  | removed id key => exact Or.inl rfl
  | purged id tenantId =>
      simp only [Effect.on]
      split
      · next hRow =>
          obtain ⟨rfl, rfl, hOpen⟩ := hRow
          exact Or.inr ⟨hOpen, Or.inl rfl, Or.inl rfl⟩
      · exact Or.inl rfl
  | failed id tenantId =>
      simp only [Effect.on]
      split
      · next hRow =>
          obtain ⟨rfl, rfl, hOpen⟩ := hRow
          exact Or.inr ⟨hOpen, Or.inr rfl, Or.inr rfl⟩
      · exact Or.inl rfl

theorem on_of_closes (h : Closes effect row) (hOpen : row.purgedAt = none) :
    effect.on now row ≠ row := by
  rcases h with rfl | rfl
  · rw [Effect.on, if_pos ⟨rfl, rfl, hOpen⟩]
    exact fun hSame => by simpa [hOpen] using congrArg ReceiptRow.purgedAt hSame
  · rw [Effect.on, if_pos ⟨rfl, rfl, hOpen⟩]
    exact fun hSame => by simpa using congrArg ReceiptRow.purgeAttempts hSame

theorem on_same (now : Int) (effect : Effect) (row : ReceiptRow) :
    (effect.on now row).id = row.id ∧ (effect.on now row).tenantId = row.tenantId := by
  rcases on_cases now effect row with hSame | ⟨_, _, hPurged | hFailed⟩
  · simp [hSame]
  · simp [hPurged]
  · simp [hFailed]

theorem settled_on (h : settled now row = true) : settled now (effect.on now row) = true := by
  rcases on_cases now effect row with hSame | ⟨_, _, hPurged | hFailed⟩
  · rwa [hSame]
  · simp [hPurged, settled]
  · simp [hFailed, settled]

theorem settled_of_closes (h : Closes effect row) : settled now (effect.on now row) = true := by
  rcases on_cases now effect row with hSame | ⟨_, _, hPurged | hFailed⟩
  · cases hOpen : row.purgedAt with
    | none => exact absurd hSame (on_of_closes h hOpen)
    | some purgedAt => simp [hSame, settled, hOpen]
  · simp [hPurged, settled]
  · simp [hFailed, settled]

theorem afterAll_cons (effect : Effect) (log : List Effect) (row : ReceiptRow) :
    afterAll now (effect :: log) row = afterAll now log (effect.on now row) := rfl

theorem afterAll_append (log log' : List Effect) (row : ReceiptRow) :
    afterAll now (log ++ log') row = afterAll now log' (afterAll now log row) :=
  List.foldl_append

theorem replay_append (log log' : List Effect) (rows : List ReceiptRow) :
    replay now (log ++ log') rows = replay now log' (replay now log rows) := by
  simp [replay, afterAll_append]

theorem afterAll_same (now : Int) (log : List Effect) (row : ReceiptRow) :
    (afterAll now log row).id = row.id ∧ (afterAll now log row).tenantId = row.tenantId := by
  induction log generalizing row with
  | nil => exact ⟨rfl, rfl⟩
  | cons effect rest ih =>
      obtain ⟨hId, hTenant⟩ := ih (effect.on now row)
      obtain ⟨hId', hTenant'⟩ := on_same now effect row
      exact ⟨hId.trans hId', hTenant.trans hTenant'⟩

theorem settled_afterAll (log : List Effect) (h : settled now row = true) :
    settled now (afterAll now log row) = true := by
  induction log generalizing row with
  | nil => exact h
  | cons effect rest ih => exact ih (settled_on h)

/-- A log leaves a row as it is, or settles it with one of its effects. -/
theorem afterAll_cases (now : Int) (log : List Effect) (row : ReceiptRow) :
    afterAll now log row = row ∨
      settled now (afterAll now log row) = true ∧ ∃ effect ∈ log, Closes effect row := by
  induction log with
  | nil => exact Or.inl rfl
  | cons effect rest ih =>
      rw [afterAll_cons]
      rcases on_cases now effect row with hSame | ⟨_, hCloses, _⟩
      · rw [hSame]
        refine ih.imp_right fun ⟨hSettled, found, hIn, hFound⟩ => ?_
        exact ⟨hSettled, found, List.mem_cons_of_mem _ hIn, hFound⟩
      · exact Or.inr ⟨settled_afterAll rest (settled_of_closes hCloses), effect,
          List.mem_cons_self, hCloses⟩

theorem settled_of_mem (hIn : effect ∈ log) (h : Closes effect row) :
    settled now (afterAll now log row) = true := by
  obtain ⟨before, after, rfl⟩ := List.append_of_mem hIn
  rw [afterAll_append, afterAll_cons]
  apply settled_afterAll
  apply settled_of_closes
  obtain ⟨hId, hTenant⟩ := afterAll_same now before row
  rwa [Closes, hId, hTenant]

theorem mem_of_due (hIn : row ∈ replay now log rows) (hDue : due now row = true) :
    row ∈ rows := by
  obtain ⟨first, hFirst, rfl⟩ := List.mem_map.mp hIn
  rcases afterAll_cases now log first with hSame | ⟨hSettled, _⟩
  · rwa [hSame]
  · rw [due_of_settled hSettled] at hDue
    cases hDue

theorem map_id_replay (log : List Effect) (rows : List ReceiptRow) :
    (replay now log rows).map (·.id) = rows.map (·.id) := by
  simp [replay, Function.comp_def, (afterAll_same now _ _).1]

end

/-! ### Logs -/

/-- What a log does to the rows it starts from: it is about due rows that were taken up, removes
their own objects only, and marks a row purged after all of them. -/
structure Lawful (now : Int) (rows : List ReceiptRow) (log : List Effect) : Prop where
  due : ∀ effect ∈ log, ∃ row ∈ rows, row.id = effect.id ∧ due now row = true
  started : ∀ before effect after, log = before ++ effect :: after →
    .started effect.id ∈ before ++ [effect]
  removed : ∀ id key, .removed id key ∈ log → ∃ row ∈ rows, row.id = id ∧ key ∈ row.keys ∧
    row.folder.toList <+: key.toList
  purged : ∀ before id tenantId after, log = before ++ .purged id tenantId :: after →
    ∃ row ∈ rows, row.id = id ∧ ∀ key ∈ row.keys, .removed id key ∈ before

section

variable {now : Int} {row : ReceiptRow} {rows : List ReceiptRow} {log log' : List Effect}

theorem Lawful.nil : Lawful now rows [] := by
  constructor <;> simp

theorem Lawful.take (h : Lawful now rows log) (n : Nat) : Lawful now rows (log.take n) := by
  have hWhole : ∀ before effect after, log.take n = before ++ effect :: after →
      log = before ++ effect :: (after ++ log.drop n) := by
    intro before effect after hSplit
    calc log = log.take n ++ log.drop n := (List.take_append_drop n log).symm
      _ = before ++ effect :: (after ++ log.drop n) := by simp [hSplit]
  constructor
  case due => exact fun effect hIn => h.due effect (List.mem_of_mem_take hIn)
  case started =>
    intro before effect after hSplit
    exact h.started before effect _ (hWhole before effect after hSplit)
  case removed => exact fun id key hIn => h.removed id key (List.mem_of_mem_take hIn)
  case purged =>
    intro before id tenantId after hSplit
    exact h.purged before id tenantId _ (hWhole before _ after hSplit)

/-- A place in two logs is one in the first, or one in the second after all of the first. -/
theorem split_append {before after : List Effect} {effect : Effect}
    (h : log ++ log' = before ++ effect :: after) :
    (∃ rest, log = before ++ effect :: rest) ∨
      ∃ middle, before = log ++ middle ∧ log' = middle ++ effect :: after := by
  rcases List.append_eq_append_iff.mp h with ⟨middle, hBefore, hSecond⟩ | ⟨middle, hLog, hRest⟩
  · exact Or.inr ⟨middle, hBefore, hSecond⟩
  · cases middle with
    | nil => exact Or.inr ⟨[], by simpa using hLog.symm, by simpa using hRest.symm⟩
    | cons first rest =>
        obtain ⟨rfl, _⟩ := List.cons.inj hRest
        exact Or.inl ⟨rest, hLog⟩

theorem Lawful.append (h : Lawful now rows log) (h' : Lawful now rows log') :
    Lawful now rows (log ++ log') := by
  constructor
  case due =>
    intro effect hIn
    exact (List.mem_append.mp hIn).elim (h.due effect) (h'.due effect)
  case started =>
    intro before effect after hSplit
    rcases split_append hSplit with ⟨rest, hFirst⟩ | ⟨middle, rfl, hSecond⟩
    · exact h.started before effect rest hFirst
    · rw [List.append_assoc]
      exact List.mem_append_right _ (h'.started middle effect after hSecond)
  case removed =>
    intro id key hIn
    exact (List.mem_append.mp hIn).elim (h.removed id key) (h'.removed id key)
  case purged =>
    intro before id tenantId after hSplit
    rcases split_append hSplit with ⟨rest, hFirst⟩ | ⟨middle, rfl, hSecond⟩
    · exact h.purged before id tenantId rest hFirst
    · obtain ⟨row, hRow, hId, hKeys⟩ := h'.purged middle id tenantId after hSecond
      exact ⟨row, hRow, hId, fun key hKey => List.mem_append_right _ (hKeys key hKey)⟩

/-- The rows that a second log is about are due after the first, so they are as they were. -/
theorem Lawful.of_replay (distinct : (rows.map (·.id)).Nodup)
    (h : Lawful now (replay now log rows) log') : Lawful now rows log' := by
  have hDue : ∀ effect ∈ log', ∃ row ∈ rows, row ∈ replay now log rows ∧ row.id = effect.id ∧
      Receipts.due now row = true := by
    intro effect hIn
    obtain ⟨row, hRow, hId, hDue⟩ := h.due effect hIn
    exact ⟨row, mem_of_due hRow hDue, hRow, hId, hDue⟩
  have hSame : ∀ effect ∈ log', ∀ row ∈ replay now log rows, row.id = effect.id → row ∈ rows := by
    intro effect hIn row hRow hId
    obtain ⟨found, hFound, hThere, hFoundId, _⟩ := hDue effect hIn
    have hDistinct : ((replay now log rows).map (·.id)).Nodup := map_id_replay log rows ▸ distinct
    rwa [List.inj_on_of_nodup_map hDistinct hRow hThere (hId.trans hFoundId.symm)]
  constructor
  case due =>
    intro effect hIn
    obtain ⟨row, hRow, _, hId, hRowDue⟩ := hDue effect hIn
    exact ⟨row, hRow, hId, hRowDue⟩
  case started => exact h.started
  case removed =>
    intro id key hIn
    obtain ⟨row, hRow, hId, hKey⟩ := h.removed id key hIn
    exact ⟨row, hSame _ hIn row hRow hId, hId, hKey⟩
  case purged =>
    intro before id tenantId after hSplit
    obtain ⟨row, hRow, hId, hKeys⟩ := h.purged before id tenantId after hSplit
    have hIn : Effect.purged id tenantId ∈ log' := hSplit ▸ by simp
    exact ⟨row, hSame _ hIn row hRow hId, hId, hKeys⟩

/-! ### The effects on one row -/

theorem id_of_mem_removals {refuses : String → Bool} {keys : List String} {effect : Effect}
    (h : effect ∈ removals refuses row keys) : effect.id = row.id := by
  induction keys with
  | nil =>
      obtain rfl := List.mem_singleton.mp h
      rfl
  | cons key rest ih =>
      rw [removals] at h
      split at h
      · obtain rfl := List.mem_singleton.mp h
        rfl
      · rcases List.mem_cons.mp h with rfl | hRest
        · rfl
        · exact ih hRest

theorem key_of_mem_removals {refuses : String → Bool} {keys : List String} {id key : String}
    (h : .removed id key ∈ removals refuses row keys) : key ∈ keys := by
  induction keys with
  | nil => cases List.mem_singleton.mp h
  | cons first rest ih =>
      rw [removals] at h
      split at h
      · cases List.mem_singleton.mp h
      · rcases List.mem_cons.mp h with hSame | hRest
        · cases hSame
          exact List.mem_cons_self
        · exact List.mem_cons_of_mem _ (ih hRest)

theorem removed_before_purged {refuses : String → Bool} {keys : List String}
    {before after : List Effect} {id tenantId : String}
    (h : removals refuses row keys = before ++ .purged id tenantId :: after) :
    id = row.id ∧ ∀ key ∈ keys, .removed row.id key ∈ before := by
  induction keys generalizing before with
  | nil =>
      have hIn : Effect.purged id tenantId ∈ removals refuses row [] := h ▸ by simp
      exact ⟨id_of_mem_removals hIn, by simp⟩
  | cons first rest ih =>
      have hIn : Effect.purged id tenantId ∈ removals refuses row (first :: rest) := h ▸ by simp
      refine ⟨id_of_mem_removals hIn, ?_⟩
      rw [removals] at h hIn
      split at h
      · next hRefused =>
          rw [if_pos hRefused] at hIn
          cases List.mem_singleton.mp hIn
      · cases before with
        | nil => cases (List.cons.inj h).1
        | cons effect before =>
            obtain ⟨rfl, hRest⟩ := List.cons.inj h
            intro key hKey
            rcases List.mem_cons.mp hKey with rfl | hLater
            · exact List.mem_cons_self
            · exact List.mem_cons_of_mem _ ((ih hRest).2 key hLater)

theorem closes_of_removals (refuses : String → Bool) (row : ReceiptRow) (keys : List String) :
    ∃ effect ∈ removals refuses row keys, Closes effect row := by
  induction keys with
  | nil => exact ⟨_, List.mem_singleton_self _, Or.inl rfl⟩
  | cons key rest ih =>
      rw [removals]
      split
      · exact ⟨_, List.mem_singleton_self _, Or.inr rfl⟩
      · obtain ⟨effect, hIn, hCloses⟩ := ih
        exact ⟨effect, List.mem_cons_of_mem _ hIn, hCloses⟩

theorem closes_of_purge (refuses : Refusals) (row : ReceiptRow) :
    ∃ effect ∈ purge refuses row, Closes effect row := by
  rw [purge]
  split
  · exact ⟨.failed row.id row.tenantId, by simp, Or.inr rfl⟩
  · obtain ⟨effect, hIn, hCloses⟩ := closes_of_removals (refuses row.id) row row.keys
    exact ⟨effect, List.mem_cons_of_mem _ hIn, hCloses⟩

theorem id_of_mem_purge {refuses : Refusals} {effect : Effect} (h : effect ∈ purge refuses row) :
    effect.id = row.id := by
  rcases List.mem_cons.mp h with rfl | hRest
  · rfl
  · split at hRest
    · obtain rfl := List.mem_singleton.mp hRest
      rfl
    · exact id_of_mem_removals hRest

theorem lawful_purge {refuses : Refusals} (hIn : row ∈ rows) (hDue : Receipts.due now row = true) :
    Lawful now rows (purge refuses row) := by
  constructor
  case due => exact fun effect hEffect => ⟨row, hIn, (id_of_mem_purge hEffect).symm, hDue⟩
  case started =>
    intro before effect after hSplit
    have hEffect : effect ∈ purge refuses row := hSplit ▸ by simp
    rw [id_of_mem_purge hEffect]
    cases before with
    | nil =>
        obtain ⟨rfl, _⟩ := List.cons.inj hSplit
        exact List.mem_singleton_self _
    | cons first rest =>
        obtain ⟨rfl, _⟩ := List.cons.inj hSplit
        exact List.mem_cons_self
  case removed =>
    intro id key hKey
    have hId : row.id = id := (id_of_mem_purge hKey).symm
    rw [purge] at hKey
    split at hKey
    · simp at hKey
    · next hOwn =>
        have hRemoval : .removed id key ∈ removals (refuses row.id) row row.keys := by
          simpa using hKey
        have hKeys := key_of_mem_removals hRemoval
        refine ⟨row, hIn, hId, hKeys, ?_⟩
        by_contra hForeign
        exact hOwn ⟨key, hKeys, hForeign⟩
  case purged =>
    intro before id tenantId after hSplit
    rw [purge] at hSplit
    cases before with
    | nil => cases (List.cons.inj hSplit).1
    | cons first rest =>
        have hRest := (List.cons.inj hSplit).2
        split at hRest
        · cases rest with
          | nil => cases (List.cons.inj hRest).1
          | cons _ _ => simp at hRest
        · obtain ⟨rfl, hKeys⟩ := removed_before_purged hRest
          exact ⟨row, hIn, rfl, fun key hKey => List.mem_cons_of_mem _ (hKeys key hKey)⟩

end

/-! ### Measures -/

/-- A number that no effect makes greater and that the effects that close a row make smaller. -/
structure Measure (now : Int) (weight : ReceiptRow → Nat) : Prop where
  on : ∀ (effect : Effect) row, weight (effect.on now row) ≤ weight row
  closes : ∀ (effect : Effect) row, Closes effect row → weight (effect.on now row) < weight row ∨
    weight row = 0

section

variable {now : Int} {weight : ReceiptRow → Nat} {row : ReceiptRow} {rows : List ReceiptRow}
  {log : List Effect}

theorem Measure.afterAll (h : Measure now weight) (log : List Effect) (row : ReceiptRow) :
    weight (Receipts.afterAll now log row) ≤ weight row := by
  induction log generalizing row with
  | nil => exact le_rfl
  | cons effect rest ih => exact (ih _).trans (h.on effect row)

theorem Measure.closed (h : Measure now weight) {effect : Effect} (hIn : effect ∈ log)
    (hCloses : Closes effect row) (hPositive : 0 < weight row) :
    weight (Receipts.afterAll now log row) < weight row := by
  obtain ⟨before, after, rfl⟩ := List.append_of_mem hIn
  rw [afterAll_append, afterAll_cons]
  have hBefore := h.afterAll before row
  have hAfter := h.afterAll after (effect.on now (Receipts.afterAll now before row))
  obtain ⟨hId, hTenant⟩ := afterAll_same now before row
  have hThere : Closes effect (Receipts.afterAll now before row) := by
    rwa [Closes, hId, hTenant]
  have hOn := h.on effect (Receipts.afterAll now before row)
  rcases h.closes effect _ hThere with hLess | hZero <;> omega

/-- A sum goes down by one for each of the chosen terms at least. -/
theorem sum_add_length_le {chosen : List ReceiptRow} {weight' : ReceiptRow → Nat}
    (hNodup : chosen.Nodup) (hIn : chosen ⊆ rows) (hLe : ∀ row ∈ rows, weight' row ≤ weight row)
    (hLess : ∀ row ∈ chosen, weight' row < weight row) :
    (rows.map weight').sum + chosen.length ≤ (rows.map weight).sum := by
  obtain ⟨sub, hSub, hSublist⟩ := hNodup.subperm hIn
  obtain ⟨others, hPerm⟩ := hSublist.exists_perm_append
  have hOthers : (others.map weight').sum ≤ (others.map weight).sum :=
    List.sum_le_sum fun row hRow => hLe row (hPerm.mem_iff.mpr (List.mem_append_right _ hRow))
  have hChosen : ∀ list : List ReceiptRow, (∀ row ∈ list, weight' row < weight row) →
      (list.map weight').sum + list.length ≤ (list.map weight).sum := by
    intro list
    induction list with
    | nil => simp
    | cons first rest ih =>
        intro hAll
        have hFirst := hAll first List.mem_cons_self
        have hRest := ih fun row hRow => hAll row (List.mem_cons_of_mem _ hRow)
        simp only [List.map_cons, List.sum_cons, List.length_cons]
        omega
  have hSubLess := hChosen sub fun row hRow => hLess row (hSub.mem_iff.mp hRow)
  rw [(hPerm.map weight').sum_eq, (hPerm.map weight).sum_eq, ← hSub.length_eq]
  simp only [List.map_append, List.sum_append]
  omega

/-- Whether a row is due measures it: what is written is settled. -/
theorem measure_due (now : Int) : Measure now fun row => (due now row).toNat := by
  have hGone : ∀ (effect : Effect) row, Closes effect row → due now (effect.on now row) = false :=
    fun effect row hCloses => due_of_settled (settled_of_closes hCloses)
  constructor
  · intro effect row
    rcases on_cases now effect row with hSame | ⟨_, hCloses, _⟩
    · rw [hSame]
    · simp [hGone effect row hCloses]
  · intro effect row hCloses
    rw [hGone effect row hCloses]
    cases due now row <;> simp

/-- How often a row of these ids can still be tried before a row with so many attempts. -/
def ahead (ids : List String) (attempts : Nat) (row : ReceiptRow) : Nat :=
  if row.id ∈ ids ∧ row.purgedAt = none then attempts + 1 - row.purgeAttempts else 0

theorem measure_ahead (now : Int) (ids : List String) (attempts : Nat) :
    Measure now (ahead ids attempts) := by
  constructor
  · intro effect row
    rcases on_cases now effect row with hSame | ⟨hOpen, _, hPurged | hFailed⟩
    · rw [hSame]
    · simp [hPurged, ahead]
    · simp only [hFailed, ahead]
      split <;> omega
  · intro effect row hCloses
    rcases on_cases now effect row with hSame | ⟨hOpen, _, hPurged | hFailed⟩
    · right
      cases hRow : row.purgedAt with
      | none => exact absurd hSame (on_of_closes hCloses hRow)
      | some purgedAt => simp [ahead, hRow]
    · have hZero : ahead ids attempts (effect.on now row) = 0 := by simp [hPurged, ahead]
      omega
    · simp only [hFailed, ahead]
      split <;> omega

end

/-! ### Batches -/

def Effect.isStart : Effect → Bool
  | started _ => true
  | removed _ _ | purged _ _ | failed _ _ => false

section

variable {κ : Type} [LinearOrder κ] {collate : String → κ} {now : Int} {batchSize : Nat}
  {row : ReceiptRow} {rows : List ReceiptRow} {log : List Effect} {refuses : Refusals}

theorem mem_candidates (h : row ∈ candidates collate now batchSize rows) :
    row ∈ rows ∧ due now row = true :=
  List.mem_filter.mp ((Keyed.sortByKey_perm _ _).mem_iff.mp (List.mem_of_mem_take h))

theorem nodup_candidates (distinct : (rows.map (·.id)).Nodup) :
    ((candidates collate now batchSize rows).map (·.id)).Nodup := by
  have hSorted : ((Keyed.sortByKey (scanRank collate) (rows.filter (due now))).map (·.id)).Nodup :=
    ((Keyed.sortByKey_perm _ _).map _).nodup_iff.mpr (distinct.sublist (List.filter_sublist.map _))
  exact hSorted.sublist ((List.take_sublist _ _).map _)

theorem lawful_batchLog : Lawful now rows (batchLog collate now batchSize rows refuses) := by
  have hEach : ∀ list : List ReceiptRow, (∀ row ∈ list, row ∈ rows ∧ due now row = true) →
      Lawful now rows (list.flatMap (purge refuses)) := by
    intro list
    induction list with
    | nil => exact fun _ => .nil
    | cons first rest ih =>
        intro hAll
        obtain ⟨hIn, hDue⟩ := hAll first List.mem_cons_self
        exact (lawful_purge hIn hDue).append
          (ih fun row hRow => hAll row (List.mem_cons_of_mem _ hRow))
  exact hEach _ fun row hRow => mem_candidates hRow

/-- The candidates of a batch are taken up, and written by its end. -/
theorem candidate_closed (h : row ∈ candidates collate now batchSize rows) :
    .started row.id ∈ batchLog collate now batchSize rows refuses ∧
      ∃ effect ∈ batchLog collate now batchSize rows refuses, Closes effect row := by
  obtain ⟨effect, hIn, hCloses⟩ := closes_of_purge refuses row
  exact ⟨List.mem_flatMap.mpr ⟨row, h, List.mem_cons_self⟩, effect,
    List.mem_flatMap.mpr ⟨row, h, hIn⟩, hCloses⟩

theorem purgeStep_eq (distinct : (rows.map (·.id)).Nodup) (last : Refusals)
    (crashes : List (Refusals × Nat)) : ∃ before, Lawful now rows before ∧
      (crashes = [] → before = []) ∧ purgeStep collate now batchSize last crashes rows =
        (before ++ batchLog collate now batchSize (replay now before rows) last,
          (candidates collate now batchSize (replay now before rows)).length) := by
  induction crashes generalizing rows with
  | nil =>
      have hSame : replay now [] rows = rows := List.map_id rows
      exact ⟨[], .nil, fun _ => rfl, by rw [hSame]; rfl⟩
  | cons crash rest ih =>
      let log := (batchLog collate now batchSize rows crash.1).take crash.2
      have hDistinct : ((replay now log rows).map (·.id)).Nodup := map_id_replay log rows ▸ distinct
      obtain ⟨before, hLawful, _, hStep⟩ := ih hDistinct
      refine ⟨log ++ before, (lawful_batchLog.take _).append (hLawful.of_replay distinct), ?_, ?_⟩
      · simp
      · rw [purgeStep]
        simp only [hStep, replay_append, List.append_assoc, log]

theorem lawful_step (distinct : (rows.map (·.id)).Nodup) (plan : BatchPlan) :
    Lawful now rows (purgeStep collate now batchSize plan.last plan.crashes rows).1 := by
  obtain ⟨before, hLawful, _, hStep⟩ :=
    @purgeStep_eq _ _ collate now batchSize rows distinct plan.last plan.crashes
  rw [hStep]
  exact hLawful.append (lawful_batchLog.of_replay distinct)

theorem lawful_loop (distinct : (rows.map (·.id)).Nodup) (plans : List BatchPlan) :
    Lawful now rows (purgeLoop collate now batchSize plans rows).1 := by
  induction plans generalizing rows with
  | nil => exact .nil
  | cons plan rest ih =>
      have hStep := @lawful_step _ _ collate now batchSize rows distinct plan
      rw [purgeLoop]
      dsimp only
      split
      · exact hStep
      · exact hStep.append ((ih (map_id_replay _ rows ▸ distinct)).of_replay distinct)

theorem mem_replay (h : Lawful now rows log) (hIn : row ∈ rows) (hNot : .started row.id ∉ log) :
    row ∈ replay now log rows := by
  rcases afterAll_cases now log row with hSame | ⟨_, effect, hEffect, hCloses⟩
  · exact List.mem_map.mpr ⟨row, hIn, hSame⟩
  · obtain ⟨before, after, hSplit⟩ := List.append_of_mem hEffect
    have hStarted := h.started before effect after hSplit
    have hId : effect.id = row.id := by rcases hCloses with rfl | rfl <;> rfl
    refine absurd ?_ hNot
    rw [hSplit, ← hId]
    rcases List.mem_append.mp hStarted with hBefore | hLast
    · exact List.mem_append_left _ hBefore
    · exact List.mem_append_right _ (List.mem_cons.mpr (Or.inl (List.mem_singleton.mp hLast)))

theorem Measure.replay {weight : ReceiptRow → Nat} (h : Measure now weight) :
    ((replay now log rows).map weight).sum ≤ (rows.map weight).sum := by
  rw [Receipts.replay, List.map_map]
  exact List.sum_le_sum fun row _ => h.afterAll log row

/-- A batch makes a measure of its candidates smaller, each by one at least. -/
theorem Measure.batch {weight : ReceiptRow → Nat} (h : Measure now weight)
    (distinct : (rows.map (·.id)).Nodup)
    (hPositive : ∀ row ∈ candidates collate now batchSize rows, 0 < weight row) :
    ((Receipts.replay now (batchLog collate now batchSize rows refuses) rows).map weight).sum +
      (candidates collate now batchSize rows).length ≤ (rows.map weight).sum := by
  rw [Receipts.replay, List.map_map]
  apply sum_add_length_le (nodup_candidates distinct).of_map
  · exact fun row hRow => (mem_candidates hRow).1
  · exact fun row _ => h.afterAll _ row
  · intro row hRow
    obtain ⟨_, effect, hIn, hCloses⟩ := @candidate_closed _ _ _ _ _ _ _ refuses hRow
    exact h.closed hIn hCloses (hPositive row hRow)

/-! ### One run -/

theorem sum_due (rows : List ReceiptRow) :
    (rows.map fun row => (due now row).toNat).sum = rows.countP (due now) := by
  induction rows with
  | nil => rfl
  | cons row rest ih =>
      rw [List.map_cons, List.sum_cons, ih, List.countP_cons]
      cases due now row <;> simp [Nat.add_comm]

/-- A full batch leaves so many due rows fewer, and only the last one is not full. -/
theorem batches_le (distinct : (rows.map (·.id)).Nodup) (plans : List BatchPlan) :
    (purgeLoop collate now batchSize plans rows).2 ≤ plans.length ∧
      batchSize * ((purgeLoop collate now batchSize plans rows).2 - 1) ≤ rows.countP (due now) := by
  induction plans generalizing rows with
  | nil => simp [purgeLoop]
  | cons plan rest ih =>
      rw [purgeLoop]
      dsimp only
      split
      · simp
      · next hFull =>
          obtain ⟨before, _, _, hStep⟩ :=
            @purgeStep_eq _ _ collate now batchSize rows distinct plan.last plan.crashes
          have hMiddle : ((replay now before rows).map (·.id)).Nodup :=
            map_id_replay before rows ▸ distinct
          obtain ⟨hPlans, hCount⟩ := ih (map_id_replay
            (purgeStep collate now batchSize plan.last plan.crashes rows).1 rows ▸ distinct)
          have hBefore := @Measure.replay now rows before _ (measure_due now)
          have hBatch := @Measure.batch _ _ collate now batchSize _ plan.last _ (measure_due now)
            hMiddle fun row hRow => by simp [(mem_candidates hRow).2]
          rw [← replay_append, sum_due, sum_due] at hBatch
          rw [sum_due, sum_due] at hBefore
          rw [hStep] at hFull hPlans hCount ⊢
          dsimp only at hFull hPlans hCount ⊢
          refine ⟨by simpa using hPlans, ?_⟩
          rw [Nat.add_sub_cancel]
          cases hLater : (purgeLoop collate now batchSize rest (replay now (before ++ batchLog
              collate now batchSize (replay now before rows) plan.last) rows)).2 with
          | zero => omega
          | succ others =>
              rw [hLater, Nat.add_sub_cancel] at hCount
              rw [Nat.mul_succ]
              omega

theorem starts_purge (refuses : Refusals) (row : ReceiptRow) :
    (purge refuses row).filter Effect.isStart = [.started row.id] := by
  have hRemovals : ∀ keys, (removals (refuses row.id) row keys).filter Effect.isStart = [] := by
    intro keys
    induction keys with
    | nil => rfl
    | cons key rest ih =>
        rw [removals]
        split
        · rfl
        · exact ih
  rw [purge]
  split
  · rfl
  · rw [List.filter_cons_of_pos rfl, hRemovals]

theorem starts_batchLog (rows : List ReceiptRow) (refuses : Refusals) :
    (batchLog collate now batchSize rows refuses).filter Effect.isStart =
      (candidates collate now batchSize rows).map fun row => .started row.id := by
  rw [batchLog]
  induction candidates collate now batchSize rows with
  | nil => rfl
  | cons first rest ih =>
      rw [List.flatMap_cons, List.filter_append, starts_purge, ih]
      rfl

/-- Without crashes no row is taken up twice. -/
theorem starts_nodup (distinct : (rows.map (·.id)).Nodup) {plans : List BatchPlan}
    (hCrashes : ∀ plan ∈ plans, plan.crashes = []) :
    ((purgeLoop collate now batchSize plans rows).1.filter Effect.isStart).Nodup := by
  induction plans generalizing rows with
  | nil => exact List.nodup_nil
  | cons plan rest ih =>
      have hDistinct : ((replay now (batchLog collate now batchSize rows plan.last) rows).map
          (·.id)).Nodup :=
        map_id_replay _ rows ▸ distinct
      have hOwn : ((batchLog collate now batchSize rows plan.last).filter
          Effect.isStart).Nodup := by
        rw [starts_batchLog]
        refine List.Nodup.of_map Effect.id ?_
        rw [List.map_map]
        exact nodup_candidates distinct
      rw [purgeLoop, hCrashes plan List.mem_cons_self]
      dsimp only
      split
      · exact hOwn
      · show ((batchLog collate now batchSize rows plan.last ++ _).filter Effect.isStart).Nodup
        rw [List.filter_append, List.nodup_append]
        refine ⟨hOwn, ih hDistinct fun other hOther => hCrashes other
          (List.mem_cons_of_mem _ hOther), ?_⟩
        rintro effect hFirst _ hSecond rfl
        rw [starts_batchLog] at hFirst
        obtain ⟨row, hRow, rfl⟩ := List.mem_map.mp hFirst
        obtain ⟨again, hAgain, hId, hDue⟩ :=
          (lawful_loop hDistinct rest).due _ (List.mem_filter.mp hSecond).1
        -- The row was settled, so it cannot be due again.
        obtain ⟨first, hThere, rfl⟩ := List.mem_map.mp hAgain
        have hSame : first = row := List.inj_on_of_nodup_map distinct hThere
          (mem_candidates hRow).1 ((afterAll_same now _ first).1.symm.trans hId)
        obtain ⟨_, closing, hClosing, hCloses⟩ := @candidate_closed _ _ _ _ _ _ _ plan.last hRow
        rw [hSame, due_of_settled (settled_of_mem hClosing hCloses)] at hDue
        cases hDue

/-- What holds of one run: it ends, takes no row up twice unless a step is executed again, touches
due rows only, removes their own objects under the folder of their tenant, and marks a row purged
after all of them. -/
structure RunKeeps (collate : String → κ) (batchSize : Nat) (rows : List ReceiptRow) (run : Run) :
    Prop where
  batches : (purgeLoop collate run.now batchSize run.plans rows).2 ≤ min run.plans.length
    ((rows.countP (due run.now) + batchSize - 1) / batchSize + 1)
  once : (∀ plan ∈ run.plans, plan.crashes = []) →
    ((purgeLoop collate run.now batchSize run.plans rows).1.filter Effect.isStart).Nodup
  lawful : Lawful run.now rows (purgeLoop collate run.now batchSize run.plans rows).1
  untouched : ∀ row ∈ rows, due run.now row = false →
    row ∈ replay run.now (purgeLoop collate run.now batchSize run.plans rows).1 rows

theorem runKeeps (distinct : (rows.map (·.id)).Nodup) (hSize : 0 < batchSize) (run : Run) :
    RunKeeps collate batchSize rows run := by
  have hLawful := @lawful_loop _ _ collate run.now batchSize rows distinct run.plans
  constructor
  case batches =>
    obtain ⟨hPlans, hCount⟩ := @batches_le _ _ collate run.now batchSize rows distinct run.plans
    have hQuotient := (Nat.le_div_iff_mul_le hSize).mpr ((Nat.mul_comm _ _).trans_le hCount)
    have hCeil := Nat.div_le_div_right (c := batchSize)
      (Nat.le_sub_one_of_lt (Nat.lt_add_of_pos_right (n := rows.countP (due run.now)) hSize))
    omega
  case once => exact starts_nodup distinct
  case lawful => exact hLawful
  case untouched =>
    intro row hRow hNot
    apply mem_replay hLawful hRow
    intro hStarted
    obtain ⟨found, hFound, hId, hDue⟩ := hLawful.due _ hStarted
    rw [List.inj_on_of_nodup_map distinct hFound hRow hId, hNot] at hDue
    cases hDue

/-! ### Many runs -/

/-- While a due row is not among the candidates they fill the batch and have failed no more often
than it. -/
theorem candidates_before (hIn : row ∈ rows) (hDue : due now row = true)
    (hNot : row ∉ candidates collate now batchSize rows) :
    (candidates collate now batchSize rows).length = batchSize ∧
      ∀ other ∈ candidates collate now batchSize rows,
        other.purgeAttempts ≤ row.purgeAttempts := by
  have hSorted : row ∈ Keyed.sortByKey (scanRank collate) (rows.filter (due now)) :=
    (Keyed.sortByKey_perm _ _).mem_iff.mpr (List.mem_filter.mpr ⟨hIn, hDue⟩)
  have hPairs := Keyed.pairwise_sortByKey (scanRank collate) (rows.filter (due now))
  rw [← List.take_append_drop batchSize
    (Keyed.sortByKey (scanRank collate) (rows.filter (due now)))] at hSorted hPairs
  have hRest := (List.mem_append.mp hSorted).resolve_left hNot
  constructor
  · apply List.length_take_of_le
    by_contra hShort
    rw [List.drop_eq_nil_of_le (by omega)] at hRest
    cases hRest
  · intro other hOther
    rcases Prod.Lex.le_iff.mp ((List.pairwise_append.mp hPairs).2.2 other hOther row hRest) with
      hLess | ⟨hSame, _⟩
    · exact le_of_lt hLess
    · exact le_of_eq hSame

/-- A run that does not take up a due row makes all its batches on rows that come before it. -/
theorem ahead_of_untried {ids : List String} (distinct : (rows.map (·.id)).Nodup)
    (plans : List BatchPlan) (hIn : row ∈ rows) (hDue : due now row = true)
    (hIds : ∀ other ∈ rows, due now other = true → other.id ∈ ids)
    (hNot : .started row.id ∉ (purgeLoop collate now batchSize plans rows).1) :
    ((replay now (purgeLoop collate now batchSize plans rows).1 rows).map
        (ahead ids row.purgeAttempts)).sum + plans.length * batchSize ≤
      (rows.map (ahead ids row.purgeAttempts)).sum := by
  have hMeasure := measure_ahead now ids row.purgeAttempts
  induction plans generalizing rows with
  | nil => simpa using hMeasure.replay
  | cons plan rest ih =>
      obtain ⟨before, hLawful, _, hStep⟩ :=
        @purgeStep_eq _ _ collate now batchSize rows distinct plan.last plan.crashes
      have hStepLawful := @lawful_step _ _ collate now batchSize rows distinct plan
      have hStarted : .started row.id ∉
          (purgeStep collate now batchSize plan.last plan.crashes rows).1 := by
        intro hThere
        apply hNot
        rw [purgeLoop]
        dsimp only
        split
        · exact hThere
        · exact List.mem_append_left _ hThere
      have hAfter := mem_replay hStepLawful hIn hStarted
      have hRows : ((replay now (purgeStep collate now batchSize plan.last plan.crashes
          rows).1 rows).map (·.id)).Nodup :=
        map_id_replay _ rows ▸ distinct
      rw [hStep] at hStarted hAfter hRows
      obtain ⟨hBefore, hBatch⟩ := not_or.mp (mt List.mem_append.mpr hStarted)
      have hMiddle := mem_replay hLawful hIn hBefore
      have hMiddleDistinct : ((replay now before rows).map (·.id)).Nodup :=
        map_id_replay before rows ▸ distinct
      obtain ⟨hFull, hEarlier⟩ := candidates_before hMiddle hDue
        fun hCandidate => hBatch (candidate_closed hCandidate).1
      have hFirst := @Measure.replay now rows before _ hMeasure
      have hSecond := @Measure.batch _ _ collate now batchSize _ plan.last _ hMeasure
        hMiddleDistinct fun other hOther => by
          obtain ⟨hThere, hOtherDue⟩ := mem_candidates hOther
          have hOpen : other.purgedAt = none := by
            simp only [due, Bool.and_eq_true, Option.isNone_iff_eq_none] at hOtherDue
            exact hOtherDue.1.1.1
          have hLeast := hEarlier other hOther
          rw [ahead, if_pos ⟨hIds other (mem_of_due hThere hOtherDue) hOtherDue, hOpen⟩]
          omega
      rw [purgeLoop, hStep] at hNot ⊢
      dsimp only at hNot ⊢
      rw [if_neg (by omega)] at hNot ⊢
      have hLater := ih hRows hAfter (fun other hOther hOtherDue =>
        hIds other (mem_of_due hOther hOtherDue) hOtherDue)
          fun hThere => hNot (List.mem_append_right _ hThere)
      dsimp only at hLater
      rw [← replay_append] at hSecond
      rw [replay_append, List.length_cons, Nat.add_mul, Nat.one_mul]
      omega

/-- Runs that never take up a due row use up what comes before it. -/
theorem runs_of_untried {ids : List String} {batches : Nat} (distinct : (rows.map (·.id)).Nodup)
    {runs : List Run} (hIn : row ∈ rows) (hOpen : row.purgedAt = none) (hId : row.id ∈ ids)
    (hRuns : ∀ run ∈ runs, run.plans.length = batches ∧ due run.now row = true ∧
      ∀ other ∈ rows, due run.now other = true → other.id ∈ ids)
    (hNot : .started row.id ∉ retention collate batchSize runs rows) :
    runs.length * (batches * batchSize) < (rows.map (ahead ids row.purgeAttempts)).sum := by
  induction runs generalizing rows with
  | nil =>
      have hOwn : ahead ids row.purgeAttempts row = 1 := by
        rw [ahead, if_pos ⟨hId, hOpen⟩]
        omega
      have hLe := List.le_sum_of_mem (List.mem_map_of_mem (f := ahead ids row.purgeAttempts) hIn)
      rw [List.length_nil]
      omega
  | cons run rest ih =>
      obtain ⟨hPlans, hDue, hIds⟩ := hRuns run List.mem_cons_self
      rw [retention] at hNot
      obtain ⟨hFirst, hRest⟩ := not_or.mp (mt List.mem_append.mpr hNot)
      have hLawful := @lawful_loop _ _ collate run.now batchSize rows distinct run.plans
      have hRun := ahead_of_untried distinct run.plans hIn hDue hIds hFirst
      have hLater := ih (map_id_replay _ rows ▸ distinct) (mem_replay hLawful hIn hFirst)
        (fun later hLater => ?_) hRest
      · rw [hPlans] at hRun
        rw [List.length_cons, Nat.add_mul, Nat.one_mul]
        omega
      · obtain ⟨hLaterPlans, hLaterDue, hLaterIds⟩ := hRuns later (List.mem_cons_of_mem _ hLater)
        refine ⟨hLaterPlans, hLaterDue, fun other hOther hOtherDue => ?_⟩
        obtain ⟨first, hThere, rfl⟩ := List.mem_map.mp hOther
        rcases afterAll_cases run.now _ first with hSame | ⟨_, effect, hEffect, hCloses⟩
        · rw [hSame] at hOtherDue ⊢
          exact hLaterIds first hThere hOtherDue
        · obtain ⟨found, hFound, hFoundId, hFoundDue⟩ := hLawful.due effect hEffect
          have hEffectId : effect.id = first.id := by rcases hCloses with rfl | rfl <;> rfl
          rw [(afterAll_same run.now _ first).1, ← hEffectId, ← hFoundId]
          exact hIds found hFound hFoundDue

end

def dueIds (now : Int) (rows : List ReceiptRow) : List String :=
  (rows.filter (due now)).map (·.id)

/-- Before a row with the fewest attempts each of the due rows comes once at most. -/
theorem sum_ahead_le {now : Int} {rows : List ReceiptRow} {attempts : Nat}
    (distinct : (rows.map (·.id)).Nodup)
    (hLeast : ∀ other ∈ rows, due now other = true → attempts ≤ other.purgeAttempts) :
    (rows.map (ahead (dueIds now rows) attempts)).sum ≤ rows.countP (due now) := by
  rw [← sum_due]
  apply List.sum_le_sum
  intro row hRow
  rw [ahead]
  split
  · next hCounted =>
      obtain ⟨found, hFound, hId⟩ := List.mem_map.mp hCounted.1
      obtain ⟨hIn, hDue⟩ := List.mem_filter.mp hFound
      obtain rfl := List.inj_on_of_nodup_map distinct hIn hRow hId
      have hMore := hLeast found hIn hDue
      rw [hDue, Bool.toNat_true]
      omega
  · exact Nat.zero_le _

/-- A run keeps its rules. Over runs with as many batches each, while the row is due and no other
row becomes so, the row is taken up after as many runs as it takes to try the rows that come
before it, each until it has failed more often than the row; with the fewest attempts of all that
is each due row once. -/
theorem retention_makes_progress {κ : Type} [LinearOrder κ] (collate : String → κ)
    (table : Keyed.Rows ReceiptRow.id) {batchSize : Nat} (hSize : 0 < batchSize) :
    (∀ run, RunKeeps collate batchSize table.rows run) ∧
    ∀ (first : Run) (rest : List Run) (batches : Nat), ∀ row ∈ table.rows,
      (∀ run ∈ first :: rest, run.plans.length = batches ∧ due run.now row = true ∧
        ∀ other ∈ table.rows, due run.now other = true → due first.now other = true) →
      ((table.rows.map (ahead (dueIds first.now table.rows) row.purgeAttempts)).sum ≤
          (first :: rest).length * (batches * batchSize) →
        .started row.id ∈ retention collate batchSize (first :: rest) table.rows) ∧
      ((∀ other ∈ table.rows, due first.now other = true →
          row.purgeAttempts ≤ other.purgeAttempts) →
        table.rows.countP (due first.now) ≤ (first :: rest).length * (batches * batchSize) →
        .started row.id ∈ retention collate batchSize (first :: rest) table.rows) := by
  refine ⟨runKeeps table.distinct hSize, fun first rest batches row hIn hRuns => ?_⟩
  have hDue := (hRuns first List.mem_cons_self).2.1
  have hOpen : row.purgedAt = none := by
    simp only [due, Bool.and_eq_true, Option.isNone_iff_eq_none] at hDue
    exact hDue.1.1.1
  have hMember : ∀ other ∈ table.rows, due first.now other = true →
      other.id ∈ dueIds first.now table.rows := fun other hOther hOtherDue =>
    List.mem_map_of_mem (List.mem_filter.mpr ⟨hOther, hOtherDue⟩)
  have hTried : (table.rows.map (ahead (dueIds first.now table.rows) row.purgeAttempts)).sum ≤
      (first :: rest).length * (batches * batchSize) →
        .started row.id ∈ retention collate batchSize (first :: rest) table.rows := by
    intro hEnough
    by_contra hNot
    have hLess := runs_of_untried table.distinct hIn hOpen (hMember row hIn hDue)
      (fun run hRun => ⟨(hRuns run hRun).1, (hRuns run hRun).2.1, fun other hOther hOtherDue =>
        hMember other hOther ((hRuns run hRun).2.2 other hOther hOtherDue)⟩) hNot
    omega
  exact ⟨hTried, fun hLeast hEnough => hTried ((sum_ahead_le table.distinct hLeast).trans hEnough)⟩

/-! ### Rows that keep failing -/

def stuck (id : String) (createdAt : Int) (attempts : Nat) : ReceiptRow where
  id
  tenantId := "t"
  storageKey := some ("receipts/t/" ++ id)
  previewKey := none
  createdAt
  purgedAt := none
  purgeAttempts := attempts
  lastPurgeErrorAt := none

/-- A run of one batch whose deletions all fail; its time is in the year 2030. -/
def failing (now : Int) : Run :=
  ⟨1900000000000 + now, [⟨[], fun _ _ => true⟩]⟩

def threeStuck (attempts : Nat) : Keyed.Rows ReceiptRow.id where
  rows := [stuck "a" 1 0, stuck "b" 2 0, stuck "x" 3 attempts]
  distinct := by simp [stuck]

/-- Three runs of one row each take up all three rows, which failed equally often. -/
theorem retention_makes_progress_of_equals :
    .started "x" ∈ retention id 1 [failing 0, failing 1, failing 2] (threeStuck 0).rows := by
  have hAll := (retention_makes_progress id (threeStuck 0) Nat.one_pos).2 (failing 0)
    [failing 1, failing 2] 1 (stuck "x" 3 0) (by decide) (by decide +kernel)
  exact hAll.2 (by decide +kernel) (by decide +kernel)

/-- The row that had failed a hundred times is not among the three that three runs take up. -/
theorem not_started_of_attempts : (threeStuck 100).rows.countP (due (failing 0).now) ≤ 3 * (1 * 1) ∧
    (∀ run ∈ [failing 0, failing 1, failing 2], run.plans.length = 1 ∧
      due run.now (stuck "x" 3 100) = true ∧ ∀ other ∈ (threeStuck 100).rows,
        due run.now other = true → due (failing 0).now other = true) ∧
    .started "x" ∉ retention id 1 [failing 0, failing 1, failing 2] (threeStuck 100).rows := by
  decide +kernel

end Houndfe.Receipts
