import Houndfe.Base.Keyed

/-! A table with a primary key: its rows carry distinct keys by construction, so a key finds one
row and a change of the row of a key changes nothing else. -/

namespace Keyed

variable {α κ : Type} [DecidableEq κ]

/-- The rows of a table in the order they were inserted. -/
@[ext]
structure Rows (key : α → κ) where
  rows : List α
  distinct : (rows.map key).Nodup

namespace Rows

variable {key : α → κ}

def empty (key : α → κ) : Rows key := ⟨[], List.nodup_nil⟩

/-- The row of a key. -/
def find (table : Rows key) (k : κ) : Option α :=
  lookup key table.rows k

omit [DecidableEq κ] in
theorem distinct_append {table : Rows key} {row : α}
    (h : ∀ other ∈ table.rows, key other ≠ key row) :
    ((table.rows ++ [row]).map key).Nodup := by
  rw [List.map_append, List.nodup_append]
  refine ⟨table.distinct, by simp, ?_⟩
  intro first hFirst second hSecond hSame
  obtain ⟨other, hOther, rfl⟩ := List.mem_map.mp hFirst
  rw [List.map_singleton, List.mem_singleton] at hSecond
  exact h other hOther (hSame.trans hSecond)

/-- An insert is refused when the key is taken. -/
def insert (table : Rows key) (row : α) : Option (Rows key) :=
  if h : ∀ other ∈ table.rows, key other ≠ key row then
    some ⟨table.rows ++ [row], distinct_append h⟩
  else none

theorem map_key_modify (rows : List α) (k : κ) {change : α → α}
    (hKey : ∀ row, key (change row) = key row) :
    (rows.map fun row => if key row = k then change row else row).map key = rows.map key := by
  rw [List.map_map]
  apply List.map_congr_left
  intro row _
  simp only [Function.comp]
  split
  · exact hKey row
  · rfl

/-- The update of the row of a key. -/
def modify (table : Rows key) (k : κ) (change : α → α)
    (hKey : ∀ row, key (change row) = key row) : Rows key where
  rows := table.rows.map fun row => if key row = k then change row else row
  distinct := by
    rw [map_key_modify table.rows k hKey]
    exact table.distinct

/-- An update of any number of rows. -/
def mapRows (table : Rows key) (change : α → α) (hKey : ∀ row, key (change row) = key row) :
    Rows key where
  rows := table.rows.map change
  distinct := by
    rw [List.map_map]
    have hSame : key ∘ change = key := funext hKey
    rw [hSame]
    exact table.distinct

section

variable {table after : Rows key} {row other : α} {k k' : κ}

theorem find_eq_some_iff : table.find k = some row ↔ row ∈ table.rows ∧ key row = k :=
  lookup_eq_some_iff table.distinct

theorem find_of_mem (h : row ∈ table.rows) : table.find (key row) = some row :=
  lookup_of_mem table.distinct h

/-- A search for a key with a further condition looks at the row of the key. -/
theorem find?_key_and {p : α → Bool} :
    table.rows.find? (fun row => decide (key row = k) && p row) = (table.find k).filter p := by
  apply Option.ext
  intro row
  rw [Option.filter_eq_some_iff, find_eq_some_iff]
  constructor
  · intro h
    have hHolds := List.find?_some h
    rw [Bool.and_eq_true, decide_eq_true_eq] at hHolds
    exact ⟨⟨List.mem_of_find?_eq_some h, hHolds.1⟩, hHolds.2⟩
  · rintro ⟨⟨hMem, hKey⟩, hHolds⟩
    cases hFound : table.rows.find? (fun row => decide (key row = k) && p row) with
    | none =>
        have hNot := List.find?_eq_none.mp hFound row hMem
        rw [Bool.and_eq_true, decide_eq_true_eq] at hNot
        exact absurd ⟨hKey, hHolds⟩ hNot
    | some other =>
        have hOther := List.find?_some hFound
        rw [Bool.and_eq_true, decide_eq_true_eq] at hOther
        have hSame : lookup key table.rows (key other) = lookup key table.rows (key row) := by
          rw [hOther.1, hKey]
        rw [lookup_of_mem table.distinct (List.mem_of_find?_eq_some hFound),
          lookup_of_mem table.distinct hMem] at hSame
        exact hSame

/-- Rows with the same key are the same row. -/
theorem eq_of_key (h : row ∈ table.rows) (h' : other ∈ table.rows) (hKey : key row = key other) :
    row = other := by
  have hRow := find_of_mem h
  rw [hKey, find_of_mem h'] at hRow
  exact (Option.some.inj hRow).symm

theorem insert_eq_some : table.insert row = some after ↔
    (∀ other ∈ table.rows, key other ≠ key row) ∧ after.rows = table.rows ++ [row] := by
  unfold insert
  split
  · next hFree =>
      rw [Option.some.injEq, Rows.ext_iff, eq_comm]
      exact ⟨fun h => ⟨hFree, h⟩, fun h => h.2⟩
  · next hTaken => simp [hTaken]

theorem find_insert (h : table.insert row = some after) :
    after.find k = if key row = k then some row else table.find k := by
  obtain ⟨hFree, hRows⟩ := insert_eq_some.mp h
  rw [find, hRows, lookup_append, lookup_cons, lookup_nil]
  split
  · next hKey =>
      have hNone : lookup key table.rows k = none :=
        lookup_eq_none.mpr fun other hOther hSame => hFree other hOther (hSame.trans hKey.symm)
      rw [hNone, Option.none_or]
  · rw [Option.or_none]
    rfl

/-- What was there before an insert is still there. -/
theorem find_insert_of_find (h : table.insert row = some after)
    (hFind : table.find k = some other) : after.find k = some other := by
  obtain ⟨hFree, _⟩ := insert_eq_some.mp h
  obtain ⟨hMem, hKey⟩ := find_eq_some_iff.mp hFind
  rw [find_insert h, if_neg fun hSame => hFree other hMem (hKey.trans hSame.symm), hFind]

/-- An insert goes through when nobody has the key. -/
theorem exists_insert (hFree : table.find (key row) = none) :
    ∃ after, table.insert row = some after := by
  have hNone : ∀ other ∈ table.rows, key other ≠ key row :=
    lookup_eq_none.mp hFree
  exact ⟨_, dif_pos hNone⟩

variable {change : α → α} {hKey : ∀ row, key (change row) = key row}

theorem find_modify : (table.modify k change hKey).find k' =
    if k' = k then (table.find k').map change else table.find k' := by
  have hSame : ∀ row, key (if key row = k then change row else row) = key row := by
    intro row
    split
    · exact hKey row
    · rfl
  have hLookup : lookup key (table.modify k change hKey).rows k' = _ := lookup_map hSame
  rw [find, hLookup]
  cases hFind : lookup key table.rows k' with
  | none => simp [find, hFind]
  | some row =>
      have hRow := (lookup_eq_some hFind).2
      simp only [find, hFind, Option.map_some, hRow]
      split <;> rfl

theorem find_mapRows : (table.mapRows change hKey).find k = (table.find k).map change :=
  lookup_map hKey

end

end Rows

end Keyed

/-! ### A column that starts empty and is written at most once -/

namespace WriteOnce

variable {α : Type*} {before middle after : Option α}

end WriteOnce
