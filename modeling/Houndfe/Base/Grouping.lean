import Houndfe.Base.Keyed

/-! Rows grouped by their key: each row is merged into the group of its key, and the groups stand
in the order their first rows came. -/

namespace Keyed

variable {α κ : Type*} [DecidableEq κ] {key : α → κ} {merge : α → α → α}

/-- The group after one more row; the first row makes the group. -/
def mergeInto (merge : α → α → α) (group : Option α) (row : α) : Option α :=
  some (group.elim row fun kept => merge kept row)

/-- Put a row into the group of its key. -/
def addToGroup (key : α → κ) (merge : α → α → α) (groups : List α) (row : α) : List α :=
  upsert key ((lookup key groups (key row)).elim row fun kept => merge kept row) groups

def groupRows (key : α → κ) (merge : α → α → α) (rows : List α) : List α :=
  rows.foldl (addToGroup key merge) []

theorem nodup_foldl_addToGroup (rows : List α) {groups : List α}
    (hKeys : (groups.map key).Nodup) :
    ((rows.foldl (addToGroup key merge) groups).map key).Nodup := by
  induction rows generalizing groups with
  | nil => exact hKeys
  | cons row rest ih => exact ih (nodup_upsert hKeys)

/-- What is read off the rows and merges as they do is read off the groups. -/
theorem map_groupRows {β : Type*} {keyOf : β → κ} {mergeOf : β → β → β} {view : α → β}
    (hKey : ∀ row, keyOf (view row) = key row)
    (hView : ∀ kept row, view (merge kept row) = mergeOf (view kept) (view row))
    (rows : List α) :
    (groupRows key merge rows).map view = groupRows keyOf mergeOf (rows.map view) := by
  have hLookup : ∀ (groups : List α) (k : κ),
      (lookup key groups k).map view = lookup keyOf (groups.map view) k := by
    intro groups k
    induction groups with
    | nil => rfl
    | cons first rest ih =>
        rw [List.map_cons, lookup_cons, lookup_cons, hKey, ← ih]
        split <;> rfl
  have hUpsert : ∀ (row : α) (groups : List α),
      (upsert key row groups).map view = upsert keyOf (view row) (groups.map view) := by
    intro row groups
    induction groups with
    | nil => rfl
    | cons first rest ih =>
        rw [List.map_cons, upsert, upsert, hKey, hKey, ← ih]
        split <;> rfl
  have hFold : ∀ groups : List α, (rows.foldl (addToGroup key merge) groups).map view =
      (rows.map view).foldl (addToGroup keyOf mergeOf) (groups.map view) := by
    induction rows with
    | nil => exact fun _ => rfl
    | cons row rest ih =>
        intro groups
        rw [List.foldl_cons, List.map_cons, List.foldl_cons, ih]
        congr 1
        unfold addToGroup
        rw [hUpsert, hKey, ← hLookup]
        congr 1
        cases lookup key groups (key row) with
        | none => rfl
        | some kept => exact hView kept row
  exact hFold []

theorem nodup_groupRows (rows : List α) : ((groupRows key merge rows).map key).Nodup :=
  nodup_foldl_addToGroup rows List.nodup_nil

section

variable (hMerge : ∀ kept row, key (merge kept row) = key kept)

include hMerge

theorem key_merged (groups : List α) (row : α) :
    key ((lookup key groups (key row)).elim row fun kept => merge kept row) = key row := by
  cases h : lookup key groups (key row) with
  | none => rfl
  | some kept => exact (hMerge kept row).trans (lookup_eq_some h).2

theorem lookup_addToGroup (groups : List α) (row : α) (k : κ) :
    lookup key (addToGroup key merge groups row) k =
      if key row = k then mergeInto merge (lookup key groups k) row else lookup key groups k := by
  rw [addToGroup, lookup_upsert, key_merged hMerge]
  split
  · next h => rw [h, mergeInto]
  · rfl

theorem lookup_foldl_addToGroup (rows groups : List α) (k : κ) :
    lookup key (rows.foldl (addToGroup key merge) groups) k =
      (rows.filter (key · = k)).foldl (mergeInto merge) (lookup key groups k) := by
  induction rows generalizing groups with
  | nil => rfl
  | cons row rest ih =>
      rw [List.foldl_cons, ih, lookup_addToGroup hMerge]
      by_cases hRow : key row = k
      · rw [if_pos hRow, List.filter_cons_of_pos (by simpa using hRow), List.foldl_cons]
      · rw [if_neg hRow, List.filter_cons_of_neg (by simpa using hRow)]

/-- The group of a key is what the rows of that key merge to. -/
theorem lookup_groupRows (rows : List α) (k : κ) :
    lookup key (groupRows key merge rows) k =
      (rows.filter (key · = k)).foldl (mergeInto merge) none :=
  lookup_foldl_addToGroup hMerge rows [] k

omit hMerge in
theorem exists_foldl_mergeInto (rows : List α) (kept : α) :
    ∃ group, rows.foldl (mergeInto merge) (some kept) = some group := by
  induction rows generalizing kept with
  | nil => exact ⟨kept, rfl⟩
  | cons row rest ih => exact ih (merge kept row)

theorem exists_group {rows : List α} {row : α} (hMem : row ∈ rows) :
    ∃ group, lookup key (groupRows key merge rows) (key row) = some group := by
  rw [lookup_groupRows hMerge]
  have hIn : row ∈ rows.filter (key · = key row) := List.mem_filter.mpr ⟨hMem, by simp⟩
  cases hRows : rows.filter (key · = key row) with
  | nil =>
      rw [hRows] at hIn
      cases hIn
  | cons first rest => exact exists_foldl_mergeInto rest first

/-- What a merge leaves of the first row of a group changes with a new group only. -/
theorem map_addToGroup {β : Type*} {view : α → β}
    (hKept : ∀ kept row, view (merge kept row) = view kept) (groups : List α) (row : α) :
    (addToGroup key merge groups row).map view = groups.map view ∨
      (addToGroup key merge groups row).map view = groups.map view ++ [view row] := by
  unfold addToGroup
  induction groups with
  | nil => exact .inr rfl
  | cons first rest ih =>
      rw [lookup_cons]
      by_cases hFirst : key first = key row
      · rw [if_pos hFirst, Option.elim_some, upsert, if_pos (hMerge first row).symm]
        exact .inl (congrArg (· :: rest.map view) (hKept first row))
      · rw [if_neg hFirst, upsert, key_merged hMerge, if_neg hFirst]
        rcases ih with hSame | hNew
        · exact .inl (congrArg (view first :: ·) hSame)
        · exact .inr (congrArg (view first :: ·) hNew)

theorem sublist_groupRows {β : Type*} {view : α → β}
    (hKept : ∀ kept row, view (merge kept row) = view kept) (rows : List α) :
    ((groupRows key merge rows).map view).Sublist (rows.map view) := by
  have hFold : ∀ groups : List α, ∃ added : List β,
      (rows.foldl (addToGroup key merge) groups).map view = groups.map view ++ added ∧
        added.Sublist (rows.map view) := by
    induction rows with
    | nil => exact fun groups => ⟨[], (List.append_nil _).symm, .slnil⟩
    | cons row rest ih =>
        intro groups
        obtain ⟨added, hAdded, hSublist⟩ := ih (addToGroup key merge groups row)
        rcases map_addToGroup hMerge hKept groups row with hSame | hNew
        · exact ⟨added, hSame ▸ hAdded, hSublist.cons (view row)⟩
        · refine ⟨view row :: added, ?_, hSublist.cons_cons (view row)⟩
          rw [List.foldl_cons, hAdded, hNew, List.append_assoc]
          rfl
  obtain ⟨added, hAdded, hSublist⟩ := hFold []
  exact hAdded ▸ hSublist

/-- Rows that merge in either order have the same groups in every order. -/
theorem groupRows_perm {rows rows' : List α} (hPerm : rows.Perm rows')
    (hFirst : ∀ a ∈ rows, ∀ b ∈ rows, key a = key b → merge a b = merge b a)
    (hLater : ∀ kept a b, merge (merge kept a) b = merge (merge kept b) a) :
    (groupRows key merge rows).Perm (groupRows key merge rows') := by
  apply perm_of_lookup_eq (nodup_groupRows rows) (nodup_groupRows rows')
  funext k
  rw [lookup_groupRows hMerge, lookup_groupRows hMerge]
  apply (hPerm.filter _).foldl_eq'
  intro a ha b hb group
  obtain ⟨hMemA, hKeyA⟩ := List.mem_filter.mp ha
  obtain ⟨hMemB, hKeyB⟩ := List.mem_filter.mp hb
  have hSame : key a = key b := (of_decide_eq_true hKeyA).trans (of_decide_eq_true hKeyB).symm
  cases group with
  | none => exact congrArg some (hFirst a hMemA b hMemB hSame)
  | some kept => exact congrArg some (hLater kept a b)

end

/-! ### A quantity that merging adds up -/

section

variable {f : α → Int} (hAdd : ∀ kept row, f (merge kept row) = f kept + f row)

include hAdd

/-- The group of a key holds what its rows hold. -/
theorem sum_foldl_mergeInto {rows : List α} {start : Option α} {group : α}
    (h : rows.foldl (mergeInto merge) start = some group) :
    f group = start.elim 0 f + (rows.map f).sum := by
  induction rows generalizing start with
  | nil =>
      cases h
      simp
  | cons row rest ih =>
      rw [ih h, List.map_cons, List.sum_cons]
      cases start with
      | none => simp [mergeInto]
      | some kept =>
          have hStep : f (merge kept row) = f kept + f row := hAdd kept row
          simp [mergeInto, hStep, Int.add_assoc]

section

variable (hMerge : ∀ kept row, key (merge kept row) = key kept)

include hMerge

theorem sum_addToGroup (groups : List α) (row : α) :
    ((addToGroup key merge groups row).map f).sum = (groups.map f).sum + f row := by
  unfold addToGroup
  induction groups with
  | nil => simp [upsert]
  | cons first rest ih =>
      rw [lookup_cons]
      by_cases hFirst : key first = key row
      · rw [if_pos hFirst, Option.elim_some, upsert, if_pos (hMerge first row).symm]
        simp only [List.map_cons, List.sum_cons, hAdd]
        omega
      · rw [if_neg hFirst, upsert, key_merged hMerge, if_neg hFirst, List.map_cons,
          List.sum_cons, ih, List.map_cons, List.sum_cons, Int.add_assoc]

/-- All groups together hold what all rows hold. -/
theorem sum_groupRows (rows : List α) :
    ((groupRows key merge rows).map f).sum = (rows.map f).sum := by
  have hFold : ∀ groups : List α, ((rows.foldl (addToGroup key merge) groups).map f).sum =
      (groups.map f).sum + (rows.map f).sum := by
    induction rows with
    | nil => simp
    | cons row rest ih =>
        intro groups
        rw [List.foldl_cons, ih, sum_addToGroup hAdd hMerge, List.map_cons, List.sum_cons,
          Int.add_assoc]
  have hEmpty := hFold []
  rw [List.map_nil, List.sum_nil, Int.zero_add] at hEmpty
  exact hEmpty

end

end

end Keyed
