import Mathlib.Algebra.Ring.Int.Defs
import Mathlib.Algebra.BigOperators.Group.List.Basic
import Mathlib.Data.List.Induction

/-! Journals: lists of signed entries, what the selected entries add up to, and what was
true of every entry when it was written. -/

namespace Journal

variable {Entry : Type*} {delta : Entry → Int} {on on' : Entry → Bool}
  {entries : List Entry} {entry : Entry}

/-- What the selected entries add up to. -/
def total (delta : Entry → Int) (on : Entry → Bool) (entries : List Entry) : Int :=
  ((entries.filter on).map delta).sum

@[simp] theorem total_nil : total delta on [] = 0 := rfl

theorem total_append (first second : List Entry) :
    total delta on (first ++ second) = total delta on first + total delta on second := by
  simp [total]

theorem total_snoc : total delta on (entries ++ [entry]) =
    total delta on entries + if on entry then delta entry else 0 := by
  rw [total_append]
  cases hOn : on entry <;> simp [total, hOn]

/-- Entries that are not selected add nothing. -/
theorem total_eq_zero (h : ∀ entry ∈ entries, on entry = false) :
    total delta on entries = 0 := by
  have hNone : entries.filter on = [] := by simpa using h
  rw [total, hNone, List.map_nil, List.sum_nil]

/-- Past the last selected entry nothing is added. -/
theorem total_split {before after : List Entry} (h : ∀ other ∈ after, on other = false) :
    total delta on (before ++ entry :: after) = total delta on (before ++ [entry]) := by
  rw [← List.singleton_append, ← List.append_assoc, total_append, total_eq_zero h, add_zero]

theorem total_map {Source : Type*} (f : Source → Entry) (sources : List Source) :
    total delta on (sources.map f) = total (fun source => delta (f source))
      (fun source => on (f source)) sources := by
  simp only [total, List.filter_map, List.map_map]
  rfl

/-- Where keys are distinct, the entries of one key are one entry. -/
theorem total_of_key {κ : Type*} [DecidableEq κ] {key : Entry → κ}
    (hKeys : (entries.map key).Nodup) (hMem : entry ∈ entries) :
    total delta (fun other => key other = key entry) entries = delta entry := by
  induction entries with
  | nil => cases hMem
  | cons first rest ih =>
      obtain ⟨hFirst, hRest⟩ := List.nodup_cons.mp hKeys
      rw [← List.singleton_append, total_append]
      rcases List.mem_cons.mp hMem with rfl | hIn
      · have hZero : total delta (fun other => key other = key entry) rest = 0 := by
          apply total_eq_zero
          intro other hOther
          have hNe : key other ≠ key entry := fun hKey =>
            hFirst (hKey ▸ List.mem_map_of_mem hOther)
          simpa using hNe
        rw [hZero, add_zero]
        simp [total]
      · have hNe : key first ≠ key entry := fun hKey => hFirst (hKey ▸ List.mem_map_of_mem hIn)
        rw [ih hRest hIn]
        simp [total, hNe]

/-- Entries that add nothing positive add up to nothing positive. -/
theorem total_nonpos (h : ∀ entry ∈ entries, on entry → delta entry ≤ 0) :
    total delta on entries ≤ 0 := by
  induction entries using List.reverseRecOn with
  | nil => exact Int.le_refl 0
  | append_singleton earlier last ih =>
      obtain ⟨hEarlier, hLast⟩ := List.forall_mem_append.mp h
      have hSum := ih hEarlier
      rw [total_snoc]
      cases hOn : on last with
      | false => simpa using hSum
      | true =>
          have hDelta := hLast last (List.mem_singleton_self _) hOn
          rw [if_pos rfl]
          omega

theorem total_nonneg (h : ∀ entry ∈ entries, 0 ≤ delta entry) : 0 ≤ total delta on entries := by
  induction entries with
  | nil => exact Int.le_refl 0
  | cons first rest ih =>
      obtain ⟨hFirst, hRest⟩ := List.forall_mem_cons.mp h
      have hSum := ih hRest
      rw [← List.singleton_append, total_append]
      cases hOn : on first with
      | false => simpa [total, hOn] using hSum
      | true => simpa [total, hOn] using Int.add_nonneg hFirst hSum

/-- The last entry of a kind. -/
theorem exists_last {p : Entry → Prop} (h : ∃ entry ∈ entries, p entry) :
    ∃ before entry after, entries = before ++ entry :: after ∧ p entry ∧
      ∀ other ∈ after, ¬ p other := by
  induction entries using List.reverseRecOn with
  | nil => simp at h
  | append_singleton earlier last ih =>
      by_cases hLast : p last
      · exact ⟨earlier, last, [], rfl, hLast, by simp⟩
      · have hEarlier : ∃ entry ∈ earlier, p entry := by
          simpa [or_and_right, exists_or, hLast] using h
        obtain ⟨before, entry, after, rfl, hEntry, hAfter⟩ := ih hEarlier
        refine ⟨before, entry, after ++ [last], by simp, hEntry, ?_⟩
        intro other hOther
        rcases List.mem_append.mp hOther with hIn | hIn
        · exact hAfter other hIn
        · exact List.mem_singleton.mp hIn ▸ hLast

theorem exists_mem_snoc {p : Entry → Prop} :
    (∃ other ∈ entries ++ [entry], p other) ↔ (∃ other ∈ entries, p other) ∨ p entry := by
  simp [or_and_right, exists_or]

/-- What held of every entry and the entries before it. -/
def EachWritten (P : List Entry → Entry → Prop) (entries : List Entry) : Prop :=
  ∀ before entry after, entries = before ++ entry :: after → P before entry

variable {P : List Entry → Entry → Prop}

theorem eachWritten_nil : EachWritten P [] := by
  intro before entry after h
  simp at h

theorem eachWritten_snoc :
    EachWritten P (entries ++ [entry]) ↔ EachWritten P entries ∧ P entries entry := by
  constructor
  · intro h
    refine ⟨?_, h entries entry [] rfl⟩
    intro before other after hSplit
    exact h before other (after ++ [entry]) (by simp [hSplit])
  · rintro ⟨hEarlier, hLast⟩ before other after hSplit
    induction after using List.reverseRecOn with
    | nil =>
        obtain ⟨hBefore, hOther⟩ := List.append_inj' hSplit rfl
        cases hOther
        exact hBefore ▸ hLast
    | append_singleton rest last =>
        have hShift : entries ++ [entry] = (before ++ other :: rest) ++ [last] := by
          rw [hSplit, List.append_assoc, List.cons_append]
        exact hEarlier before other rest (List.append_inj' hShift rfl).1

end Journal
