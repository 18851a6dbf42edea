import Mathlib.Algebra.BigOperators.Group.List.Basic
import Mathlib.Algebra.Ring.Int.Defs
import Mathlib.Data.List.Induction
import Mathlib.Data.List.Pairwise
import Mathlib.Data.List.Sort

/-! Lists whose elements carry a key: the row of a key, replacing it, a pass that visits
keys one after another, sorting by the key, and the best of a list. Where the keys are
distinct the order of the rows does not matter to any of them. Dictionaries and renamed keys
follow. -/

namespace Keyed

variable {α β κ : Type*} [DecidableEq κ]

/-- The first row with this key. -/
def lookup (key : α → κ) (rows : List α) (k : κ) : Option α :=
  rows.find? fun row => key row = k

/-- Replace the first row with the same key, or add the row at the end. -/
def upsert (key : α → κ) (row : α) : List α → List α
  | [] => [row]
  | first :: rest =>
      if key first = key row then row :: rest else first :: upsert key row rest

section

variable {key : α → κ} {rows rows' : List α} {row : α} {k : κ}

@[simp] theorem lookup_nil : lookup key [] k = none := rfl

theorem lookup_cons : lookup key (row :: rows) k =
    if key row = k then some row else lookup key rows k := by
  by_cases h : key row = k <;> simp [lookup, h]

theorem lookup_eq_some (h : lookup key rows k = some row) : row ∈ rows ∧ key row = k :=
  ⟨List.mem_of_find?_eq_some h, by simpa using List.find?_some h⟩

theorem lookup_eq_none : lookup key rows k = none ↔ ∀ row ∈ rows, key row ≠ k := by
  simp [lookup]

/-- With distinct keys every row is the row of its key. -/
theorem lookup_of_mem (hKeys : (rows.map key).Nodup) (hMem : row ∈ rows) :
    lookup key rows (key row) = some row := by
  induction rows with
  | nil => cases hMem
  | cons first rest ih =>
      obtain ⟨hFirst, hRest⟩ := List.nodup_cons.mp hKeys
      rw [lookup_cons]
      rcases List.mem_cons.mp hMem with rfl | hIn
      · exact if_pos rfl
      · have hNe : key first ≠ key row := fun hEq =>
          hFirst (hEq ▸ List.mem_map_of_mem hIn)
        rw [if_neg hNe]
        exact ih hRest hIn

theorem lookup_eq_some_iff (hKeys : (rows.map key).Nodup) :
    lookup key rows k = some row ↔ row ∈ rows ∧ key row = k := by
  constructor
  · exact lookup_eq_some
  · rintro ⟨hMem, rfl⟩
    exact lookup_of_mem hKeys hMem

theorem lookup_perm (hKeys : (rows.map key).Nodup) (hPerm : rows.Perm rows') :
    lookup key rows = lookup key rows' := by
  funext k
  have hKeys' : (rows'.map key).Nodup := (hPerm.map key).nodup hKeys
  cases h : lookup key rows k with
  | some row =>
      obtain ⟨hMem, rfl⟩ := lookup_eq_some h
      rw [lookup_of_mem hKeys' (hPerm.subset hMem)]
  | none =>
      rw [eq_comm, lookup_eq_none]
      intro row hMem
      exact lookup_eq_none.mp h row (hPerm.symm.subset hMem)

/-- Lists with distinct keys and the same rows are the same up to their order. -/
theorem perm_of_lookup_eq (hKeys : (rows.map key).Nodup) (hKeys' : (rows'.map key).Nodup)
    (hSame : lookup key rows = lookup key rows') : rows.Perm rows' := by
  rw [List.perm_ext_iff_of_nodup hKeys.of_map hKeys'.of_map]
  intro row
  have hRow := congrFun hSame (key row)
  constructor
  · intro hMem
    rw [lookup_of_mem hKeys hMem] at hRow
    exact (lookup_eq_some hRow.symm).1
  · intro hMem
    rw [lookup_of_mem hKeys' hMem] at hRow
    exact (lookup_eq_some hRow).1

/-- Rewriting rows without changing their keys. -/
theorem lookup_map {f : α → α} (hKey : ∀ row, key (f row) = key row) :
    lookup key (rows.map f) k = (lookup key rows k).map f := by
  induction rows with
  | nil => rfl
  | cons first rest ih =>
      rw [List.map_cons, lookup_cons, lookup_cons, hKey, ih]
      split <;> rfl

theorem lookup_append : lookup key (rows ++ rows') k =
    (lookup key rows k).or (lookup key rows' k) := by
  simp [lookup, List.find?_append]

/-- A filter that goes by the key keeps the rows of the keys it passes. -/
theorem lookup_filter {p : κ → Bool} (h : p k = true) :
    lookup key (rows.filter fun row => p (key row)) k = lookup key rows k := by
  induction rows with
  | nil => rfl
  | cons first rest ih =>
      cases hFirst : p (key first) with
      | true => simp only [List.filter_cons, hFirst, if_true, lookup_cons, ih]
      | false =>
          have hNe : key first ≠ k := by
            rintro rfl
            rw [h] at hFirst
            cases hFirst
          simp only [List.filter_cons, hFirst, Bool.false_eq_true, if_false, lookup_cons, hNe, ih]

/-- Dropping the rows of one key loses the row of that key only. -/
theorem lookup_filter_ne {dropped : κ} : lookup key (rows.filter (key · ≠ dropped)) k =
    if k = dropped then none else lookup key rows k := by
  induction rows with
  | nil => simp
  | cons first rest ih =>
      by_cases hFirst : key first = dropped
      · rw [List.filter_cons_of_neg (by simpa using hFirst), ih, lookup_cons]
        split
        · rfl
        · next hKey => rw [if_neg fun h => hKey (h.symm.trans hFirst)]
      · rw [List.filter_cons_of_pos (by simpa using hFirst), lookup_cons, lookup_cons, ih]
        by_cases hKey : key first = k
        · rw [if_pos hKey, if_pos hKey, if_neg (hKey ▸ hFirst)]
        · rw [if_neg hKey, if_neg hKey]

/-- A row that counts nothing can be dropped from a sum. -/
theorem sum_filter_ne {f : α → Int} {dropped : κ}
    (hZero : ∀ row ∈ rows, key row = dropped → f row = 0) :
    ((rows.filter (key · ≠ dropped)).map f).sum = (rows.map f).sum := by
  induction rows with
  | nil => rfl
  | cons first rest ih =>
      obtain ⟨hFirst, hRest⟩ := List.forall_mem_cons.mp hZero
      by_cases hHere : key first = dropped
      · rw [List.filter_cons_of_neg (by simpa using hHere), ih hRest, List.map_cons,
          List.sum_cons, hFirst hHere, zero_add]
      · rw [List.filter_cons_of_pos (by simpa using hHere), List.map_cons, List.sum_cons,
          ih hRest, List.map_cons, List.sum_cons]

theorem lookup_upsert : lookup key (upsert key row rows) k =
    if key row = k then some row else lookup key rows k := by
  induction rows with
  | nil => rw [upsert, lookup_cons, lookup_nil]
  | cons first rest ih =>
      by_cases hSame : key first = key row
      · rw [upsert, if_pos hSame, lookup_cons, lookup_cons, hSame]
        split <;> rfl
      · rw [upsert, if_neg hSame, lookup_cons, lookup_cons, ih]
        by_cases hFirst : key first = k
        · rw [if_pos hFirst, if_pos hFirst, if_neg fun hRow => hSame (hFirst.trans hRow.symm)]
        · rw [if_neg hFirst, if_neg hFirst]

theorem mem_upsert {other : α} (h : other ∈ upsert key row rows) : other = row ∨ other ∈ rows := by
  induction rows with
  | nil => exact .inl (List.mem_singleton.mp h)
  | cons first rest ih =>
      by_cases hSame : key first = key row
      · rw [upsert, if_pos hSame] at h
        exact (List.mem_cons.mp h).imp id (List.mem_cons_of_mem _)
      · rw [upsert, if_neg hSame] at h
        rcases List.mem_cons.mp h with rfl | hRest
        · exact .inr List.mem_cons_self
        · exact (ih hRest).imp id (List.mem_cons_of_mem _)

theorem mem_keys_upsert :
    k ∈ (upsert key row rows).map key ↔ k = key row ∨ k ∈ rows.map key := by
  induction rows with
  | nil => simp [upsert]
  | cons first rest ih =>
      by_cases hSame : key first = key row
      · simp [upsert, hSame]
      · rw [upsert, if_neg hSame, List.map_cons, List.mem_cons, ih, List.map_cons,
          List.mem_cons]
        exact or_left_comm

theorem nodup_upsert (hKeys : (rows.map key).Nodup) :
    ((upsert key row rows).map key).Nodup := by
  induction rows with
  | nil => simp [upsert]
  | cons first rest ih =>
      obtain ⟨hFirst, hRest⟩ := List.nodup_cons.mp hKeys
      by_cases hSame : key first = key row
      · rw [upsert, if_pos hSame, List.map_cons, ← hSame]
        exact hKeys
      · rw [upsert, if_neg hSame, List.map_cons, List.nodup_cons, mem_keys_upsert]
        exact ⟨fun h => h.elim hSame hFirst, ih hRest⟩

end

/-! ### Marked rows -/

/-- The rows kept are exactly the ones that `holds` allows for the marked keys. -/
def Marked (key : α → κ) (rows : List α) (marked : κ → Prop) (holds : α → Prop) : Prop :=
  ∀ row, lookup key rows (key row) = some row ↔ marked (key row) ∧ holds row

section

variable {key : α → κ} {rows : List α} {row : α} {marked marked' : κ → Prop}
  {holds holds' : α → Prop}

/-- Writing the row of one key marks that key with the row written. -/
theorem Marked.upsert (hMarked : Marked key rows marked holds)
    (hMark : ∀ k, marked' k ↔ marked k ∨ k = key row)
    (hSelf : ∀ other, key other = key row → (holds' other ↔ other = row))
    (hOther : ∀ other, key other ≠ key row → (holds' other ↔ holds other)) :
    Marked key (upsert key row rows) marked' holds' := by
  intro other
  rw [lookup_upsert, hMark]
  by_cases hKey : key other = key row
  · rw [if_pos hKey.symm, hSelf other hKey, Option.some.injEq]
    constructor
    · rintro rfl
      exact ⟨.inr rfl, rfl⟩
    · rintro ⟨_, rfl⟩
      rfl
  · rw [if_neg (Ne.symm hKey), hMarked other, hOther other hKey]
    simp [hKey]

theorem Marked.congr (hMarked : Marked key rows marked holds)
    (hMark : ∀ k, marked' k ↔ marked k) (hHolds : ∀ row, holds' row ↔ holds row) :
    Marked key rows marked' holds' := by
  intro row
  rw [hMarked row, hMark, hHolds]

end

omit [DecidableEq κ] in
/-- Where the keys of all groups together are distinct, a key has one group. -/
theorem group_unique {keys : α → List κ} {groups : List α} (hKeys : (groups.flatMap keys).Nodup)
    {group other : α} (hGroup : group ∈ groups) (hOther : other ∈ groups) {k : κ}
    (hIn : k ∈ keys group) (hIn' : k ∈ keys other) : other = group := by
  by_contra hNe
  obtain ⟨_, hApart⟩ := List.nodup_flatMap.mp hKeys
  have hSymm : Std.Symm (Function.onFun List.Disjoint keys) :=
    ⟨fun _ _ hDisjoint _ hLeft hRight => hDisjoint hRight hLeft⟩
  exact hApart.forall hOther hGroup hNe hIn' hIn

/-- Adding to the row of one key adds to the sum. -/
theorem sum_add_at {key : α → κ} {f : α → Int} {rows : List α} {k : κ} {amount : Int}
    (hKeys : (rows.map key).Nodup) (hMem : k ∈ rows.map key) :
    (rows.map fun row => f row + if key row = k then amount else 0).sum =
      (rows.map f).sum + amount := by
  induction rows with
  | nil => cases hMem
  | cons first rest ih =>
      obtain ⟨hFirst, hRest⟩ := List.nodup_cons.mp hKeys
      rw [List.map_cons, List.map_cons, List.sum_cons, List.sum_cons]
      by_cases hHere : key first = k
      · have hSame : (rest.map fun row => f row + if key row = k then amount else 0) =
            rest.map f := by
          apply List.map_congr_left
          intro row hRow
          have hNe : key row ≠ k := fun hKey =>
            hFirst (hHere.trans hKey.symm ▸ List.mem_map_of_mem hRow)
          rw [if_neg hNe, add_zero]
        rw [hSame, if_pos hHere]
        omega
      · rw [ih hRest ((List.mem_cons.mp hMem).resolve_left (Ne.symm hHere)), if_neg hHere]
        omega

/-- Summing over the rows is summing over the keys, each with its row. -/
theorem sum_lookup {key : α → κ} {keyOf : β → κ} {f : α → Int} {rows : List α} {bs : List β}
    (hKeys : (rows.map key).Nodup) (hBs : (bs.map keyOf).Nodup)
    (hIn : ∀ row ∈ rows, key row ∈ bs.map keyOf) :
    (bs.map fun b => ((lookup key rows (keyOf b)).map f).getD 0).sum = (rows.map f).sum := by
  induction rows with
  | nil => simp
  | cons first rest ih =>
      obtain ⟨hFirst, hRest⟩ := List.nodup_cons.mp hKeys
      have hOne : ∀ b, ((lookup key (first :: rest) (keyOf b)).map f).getD 0 =
          ((lookup key rest (keyOf b)).map f).getD 0 + if keyOf b = key first then f first else 0 := by
        intro b
        rw [lookup_cons]
        by_cases hHere : key first = keyOf b
        · have hNone : lookup key rest (keyOf b) = none := by
            rw [lookup_eq_none]
            intro row hRow hKey
            exact hFirst (hHere.trans hKey.symm ▸ List.mem_map_of_mem hRow)
          simp [hHere, hNone]
        · rw [if_neg hHere, if_neg (Ne.symm hHere), add_zero]
      simp only [hOne]
      rw [sum_add_at hBs (hIn first List.mem_cons_self),
        ih hRest fun row hRow => hIn row (List.mem_cons_of_mem _ hRow), List.map_cons,
        List.sum_cons]
      omega

/-- A new key for the one group with this name. -/
theorem nodup_flatMap_insert {name : α → κ} {keys : α → List β} {groups : List α}
    (hNames : (groups.map name).Nodup) (hKeys : (groups.flatMap keys).Nodup) {n : κ} {k : β}
    (hNew : ∀ group ∈ groups, k ∉ keys group) :
    (groups.flatMap fun group => keys group ++ if name group = n then [k] else []).Nodup := by
  have hExtra : ∀ groups : List α, (groups.map name).Nodup →
      (groups.flatMap fun group => if name group = n then [k] else []).Nodup := by
    intro groups
    induction groups with
    | nil => intro _; exact List.nodup_nil
    | cons first rest ih =>
        intro hNames
        obtain ⟨hFirst, hRest⟩ := List.nodup_cons.mp hNames
        rw [List.flatMap_cons]
        by_cases hHere : name first = n
        · have hNone : (rest.flatMap fun group => if name group = n then [k] else []) = [] := by
            rw [List.flatMap_eq_nil_iff]
            intro group hGroup
            have hApart : name group ≠ n := fun hName =>
              hFirst (hHere.trans hName.symm ▸ List.mem_map_of_mem hGroup)
            exact if_neg hApart
          rw [if_pos hHere, hNone]
          exact List.nodup_singleton k
        · rw [if_neg hHere]
          exact ih hRest
  apply (List.flatMap_append_perm groups keys _).nodup_iff.mp
  refine hKeys.append (hExtra groups hNames) ?_
  intro key hOld hAdded
  obtain ⟨group, hGroup, hKey⟩ := List.mem_flatMap.mp hOld
  obtain ⟨other, _, hOther⟩ := List.mem_flatMap.mp hAdded
  split at hOther
  · cases List.mem_singleton.mp hOther
    exact hNew group hGroup hKey
  · cases hOther
/-- Rows made from rows of the same key. -/
theorem lookup_filterMap {key : α → κ} {keyOf : β → κ} {f : β → Option α}
    (hKey : ∀ b row, f b = some row → key row = keyOf b) {bs : List β}
    (hKeys : (bs.map keyOf).Nodup) (k : κ) :
    lookup key (bs.filterMap f) k = (lookup keyOf bs k).bind f := by
  induction bs with
  | nil => rfl
  | cons b rest ih =>
      obtain ⟨hFirst, hRest⟩ := List.nodup_cons.mp hKeys
      have hRestEq := ih hRest
      rw [lookup_cons]
      by_cases hHere : keyOf b = k
      · have hNone : lookup keyOf rest k = none := by
          rw [lookup_eq_none]
          intro other hMem hOther
          exact hFirst (hHere.trans hOther.symm ▸ List.mem_map_of_mem hMem)
        rw [hNone] at hRestEq
        rw [if_pos hHere]
        cases hf : f b with
        | none => rw [List.filterMap_cons_none hf, hRestEq, Option.bind_some, hf]; rfl
        | some row =>
            rw [List.filterMap_cons_some hf, lookup_cons, if_pos ((hKey b row hf).trans hHere),
              Option.bind_some, hf]
      · rw [if_neg hHere, ← hRestEq]
        cases hf : f b with
        | none => rw [List.filterMap_cons_none hf]
        | some row =>
            rw [List.filterMap_cons_some hf, lookup_cons,
              if_neg fun hRow => hHere ((hKey b row hf).symm.trans hRow)]

omit [DecidableEq κ] in
theorem nodup_filterMap {key : α → κ} {keyOf : β → κ} {f : β → Option α}
    (hKey : ∀ b row, f b = some row → key row = keyOf b) {bs : List β}
    (hKeys : (bs.map keyOf).Nodup) : ((bs.filterMap f).map key).Nodup := by
  induction bs with
  | nil => exact List.nodup_nil
  | cons b rest ih =>
      obtain ⟨hFirst, hRest⟩ := List.nodup_cons.mp hKeys
      cases hf : f b with
      | none => rw [List.filterMap_cons_none hf]; exact ih hRest
      | some row =>
          rw [List.filterMap_cons_some hf, List.map_cons, List.nodup_cons]
          refine ⟨?_, ih hRest⟩
          intro hMem
          obtain ⟨other, hOther, hSame⟩ := List.mem_map.mp hMem
          obtain ⟨c, hc, hfc⟩ := List.mem_filterMap.mp hOther
          rw [hKey b row hf, hKey c other hfc] at hSame
          exact hFirst (hSame ▸ List.mem_map_of_mem hc)

/-! ### A pass that writes only the rows of the keys it visits -/

/-- A step that only reads and writes the row of its own key. -/
def Local (key : α → κ) (keyOf : β → κ) (step : List α → β → List α)
    (rule : β → Option α → Option α) : Prop :=
  ∀ rows b k, lookup key (step rows b) k =
    if keyOf b = k then rule b (lookup key rows k) else lookup key rows k

/-- Over distinct keys each row is written by the one step that visits it. -/
theorem lookup_foldl {key : α → κ} {keyOf : β → κ} {step : List α → β → List α}
    {rule : β → Option α → Option α} (hStep : Local key keyOf step rule) {bs : List β}
    (hKeys : (bs.map keyOf).Nodup) (rows : List α) (k : κ) :
    lookup key (bs.foldl step rows) k =
      match lookup keyOf bs k with
      | some b => rule b (lookup key rows k)
      | none => lookup key rows k := by
  induction bs generalizing rows with
  | nil => rfl
  | cons b rest ih =>
      obtain ⟨hFirst, hRest⟩ := List.nodup_cons.mp hKeys
      rw [List.foldl_cons, ih hRest, hStep, lookup_cons]
      by_cases hKey : keyOf b = k
      · have hNone : lookup keyOf rest k = none := by
          rw [lookup_eq_none]
          intro other hMem hOther
          exact hFirst (hKey.trans hOther.symm ▸ List.mem_map_of_mem hMem)
        rw [if_pos hKey, if_pos hKey, hNone]
      · rw [if_neg hKey, if_neg hKey]

/-- The same pass over rows that look the same. -/
theorem lookup_foldl_congr {key : α → κ} {keyOf : β → κ} {step : List α → β → List α}
    {rule : β → Option α → Option α} (hStep : Local key keyOf step rule) (bs : List β)
    {rows rows' : List α} (hSame : lookup key rows = lookup key rows') :
    lookup key (bs.foldl step rows) = lookup key (bs.foldl step rows') := by
  induction bs generalizing rows rows' with
  | nil => exact hSame
  | cons b rest ih =>
      apply ih
      funext k
      rw [hStep, hStep, hSame]

/-! ### Sorting by the key -/

/-- Ascending by the key, rows of one key in the order they came. -/
def sortByKey {κ : Type*} [LinearOrder κ] (key : α → κ) (rows : List α) : List α :=
  rows.insertionSort fun a b => key a ≤ key b

section

variable {κ : Type*} [LinearOrder κ] {key : α → κ} {rows rows' : List α}

theorem sortByKey_perm (key : α → κ) (rows : List α) : (sortByKey key rows).Perm rows :=
  List.perm_insertionSort _ rows

theorem pairwise_sortByKey (key : α → κ) (rows : List α) :
    (sortByKey key rows).Pairwise fun a b => key a ≤ key b := by
  have hTotal : Std.Total fun a b : α => key a ≤ key b := ⟨fun a b => le_total _ _⟩
  have hTrans : IsTrans α fun a b => key a ≤ key b := ⟨fun a b c => le_trans⟩
  exact List.pairwise_insertionSort _ rows

/-- Distinct keys are sorted strictly. -/
theorem pairwise_lt_sortByKey (hKeys : (rows.map key).Nodup) :
    (sortByKey key rows).Pairwise fun a b => key a < key b := by
  have hApart : ((sortByKey key rows).map key).Nodup :=
    ((sortByKey_perm key rows).map key).nodup_iff.mpr hKeys
  have hPairs := (pairwise_sortByKey key rows).and (List.pairwise_map.mp hApart)
  exact hPairs.imp fun h => lt_of_le_of_ne h.1 h.2

/-- With distinct keys the sorted list depends on the rows only. -/
theorem sortByKey_eq_of_perm (hKeys : (rows.map key).Nodup) (hPerm : rows.Perm rows') :
    sortByKey key rows = sortByKey key rows' := by
  have hSame : (sortByKey key rows).Perm (sortByKey key rows') :=
    (sortByKey_perm key rows).trans (hPerm.trans (sortByKey_perm key rows').symm)
  apply hSame.eq_of_pairwise _ (pairwise_sortByKey key rows) (pairwise_sortByKey key rows')
  intro a b hA hB hAB hBA
  have hMemA := (sortByKey_perm key rows).subset hA
  have hMemB := hPerm.symm.subset ((sortByKey_perm key rows').subset hB)
  exact List.inj_on_of_nodup_map hKeys hMemA hMemB (le_antisymm hAB hBA)

end

/-! ### The best of a list -/

/-- The candidate, if nothing was kept yet or it beats what was kept. -/
def prefer (better : α → α → Bool) (best : Option α) (candidate : α) : Option α :=
  match best with
  | none => some candidate
  | some kept => if better candidate kept then some candidate else some kept

/-- Keep the first element that no later one beats. -/
def pickBest (better : α → α → Bool) (candidates : List α) : Option α :=
  candidates.foldl (prefer better) none

theorem prefer_eq_some {better : α → α → Bool} {best : Option α} {candidate winner : α}
    (h : prefer better best candidate = some winner) :
    winner = candidate ∨ best = some winner := by
  cases best with
  | none => exact .inl (Option.some.inj h).symm
  | some kept =>
      by_cases hBetter : better candidate kept = true
      · simp only [prefer, hBetter, if_true, Option.some.injEq] at h
        exact .inl h.symm
      · simp only [prefer, hBetter] at h
        exact .inr h

theorem pickBest_mem {better : α → α → Bool} {candidates : List α} {winner : α}
    (h : pickBest better candidates = some winner) : winner ∈ candidates := by
  have hFold : ∀ (candidates : List α) (start : Option α),
      candidates.foldl (prefer better) start = some winner →
        winner ∈ candidates ∨ start = some winner := by
    intro candidates
    induction candidates with
    | nil => exact fun _ hStart => .inr hStart
    | cons c rest ih =>
        intro start hFold
        rcases ih _ hFold with hIn | hPrefer
        · exact .inl (List.mem_cons_of_mem _ hIn)
        · rcases prefer_eq_some hPrefer with rfl | hStart
          · exact .inl (List.mem_cons_self)
          · exact .inr hStart
  rcases hFold candidates none h with hMem | hNone
  · exact hMem
  · cases hNone

end Keyed

/-! ### Dictionaries

As JavaScript keeps them: an entry stays where its key was first written. What a list of writes
leaves in one, where writes of a key agree; and keys that join texts by a separator. -/

namespace Dictionary

variable {κ α : Type*} [DecidableEq κ]

/-- `Map.get`. -/
def get (map : List (κ × α)) (k : κ) : Option α :=
  (Keyed.lookup Prod.fst map k).map Prod.snd

/-- `Map.set`. -/
def set (map : List (κ × α)) (k : κ) (value : α) : List (κ × α) :=
  Keyed.upsert Prod.fst (k, value) map

@[simp] theorem get_nil {k : κ} : get ([] : List (κ × α)) k = none := rfl

theorem get_set {map : List (κ × α)} {k k' : κ} {value : α} :
    get (set map k value) k' = if k = k' then some value else get map k' := by
  rw [get, set, Keyed.lookup_upsert]
  split <;> rfl

/-- Reading after writes that agree on every key: the entry of a key is what was written. The
reads and the writes may be those of any store where a write changes its own key. -/
theorem read_foldl_iff {σ : Type*} {read : σ → κ → Option α} {write : σ → κ × α → σ}
    (hWrite : ∀ store entry k, read (write store entry) k =
      if entry.1 = k then some entry.2 else read store k)
    {entries : List (κ × α)} (hAgree : ∀ entry ∈ entries, ∀ other ∈ entries,
      entry.1 = other.1 → entry.2 = other.2)
    {start : σ} (hStart : ∀ k, read start k = none) {k : κ} {value : α} :
    read (entries.foldl write start) k = some value ↔ (k, value) ∈ entries := by
  induction entries using List.reverseRecOn generalizing value with
  | nil => simp [hStart]
  | append_singleton entries last ih =>
      have hBefore : ∀ entry ∈ entries, ∀ other ∈ entries,
          entry.1 = other.1 → entry.2 = other.2 := by
        intro entry hEntry other hOther
        exact hAgree entry (List.mem_append_left _ hEntry) other (List.mem_append_left _ hOther)
      have hLast : last ∈ entries ++ [last] := by simp
      rw [List.foldl_append, List.foldl_cons, List.foldl_nil, hWrite, List.mem_append,
        List.mem_singleton]
      split
      · next hKey =>
          subst hKey
          constructor
          · intro h
            exact .inr (Prod.ext rfl (Option.some.inj h).symm)
          · rintro (hIn | hSame)
            · rw [hAgree _ hLast _ (List.mem_append_left _ hIn) rfl]
            · rw [← hSame]
      · next hKey =>
          rw [ih hBefore]
          constructor
          · exact .inl
          · rintro (hIn | hSame)
            · exact hIn
            · exact absurd (congrArg Prod.fst hSame).symm hKey

/-! ### Joined keys -/

/-- A text without the separator ends at its first occurrence. -/
theorem append_cons_inj {c : α} {first first' rest rest' : List α} (hFirst : c ∉ first)
    (hFirst' : c ∉ first') (h : first ++ c :: rest = first' ++ c :: rest') :
    first = first' ∧ rest = rest' := by
  induction first generalizing first' with
  | nil =>
      cases first' with
      | nil => exact ⟨rfl, (List.cons.inj h).2⟩
      | cons head tail =>
          have hHead : c = head := (List.cons.inj h).1
          exact absurd (hHead ▸ List.mem_cons_self) hFirst'
  | cons head tail ih =>
      cases first' with
      | nil =>
          have hHead : head = c := (List.cons.inj h).1
          exact absurd (hHead ▸ List.mem_cons_self) hFirst
      | cons head' tail' =>
          obtain ⟨rfl, hTail⟩ := List.cons.inj h
          obtain ⟨rfl, rfl⟩ := ih (fun hIn => hFirst (List.mem_cons_of_mem _ hIn))
            (fun hIn => hFirst' (List.mem_cons_of_mem _ hIn)) hTail
          exact ⟨rfl, rfl⟩

/-- Two texts joined by colons, the first without any. -/
theorem joined_inj {first first' rest rest' : String} (hFirst : ':' ∉ first.toList)
    (hFirst' : ':' ∉ first'.toList) (h : first ++ "::" ++ rest = first' ++ "::" ++ rest') :
    first = first' ∧ rest = rest' := by
  have hChars := congrArg String.toList h
  have hColons : ("::" : String).toList = [':', ':'] := rfl
  simp only [String.toList_append, hColons, List.append_assoc, List.cons_append,
    List.nil_append] at hChars
  obtain ⟨hSame, hRest⟩ := append_cons_inj hFirst hFirst' hChars
  exact ⟨String.toList_inj.mp hSame, String.toList_inj.mp (List.cons.inj hRest).2⟩

end Dictionary

/-! ### Renamed keys

A renaming that takes no two keys together commutes with lookups, with insertions and, where it
keeps their order, with sorting. -/

namespace Renaming

open Keyed

variable {α κ : Type*} {key : α → κ} {f : κ → κ} {g : α → α}

/-- What `g` does to a row renames its key. -/
def Renames (key : α → κ) (f : κ → κ) (g : α → α) : Prop :=
  ∀ row, key (g row) = f (key row)

theorem map_key (h : Renames key f g) (rows : List α) :
    (rows.map g).map key = (rows.map key).map f := by
  rw [List.map_map, List.map_map]
  exact List.map_congr_left fun row _ => h row

variable [DecidableEq κ]

theorem lookup_map (hInjective : f.Injective) (h : Renames key f g) (rows : List α) (k : κ) :
    lookup key (rows.map g) (f k) = (lookup key rows k).map g := by
  induction rows with
  | nil => rfl
  | cons row rest ih =>
      rw [List.map_cons, lookup_cons, lookup_cons, h row, ih]
      by_cases hHere : key row = k
      · simp [hHere]
      · have hThere : f (key row) ≠ f k := fun hEq => hHere (hInjective hEq)
        simp [hHere, hThere]

theorem upsert_map (hInjective : f.Injective) (h : Renames key f g) (row : α) (rows : List α) :
    upsert key (g row) (rows.map g) = (upsert key row rows).map g := by
  induction rows with
  | nil => rfl
  | cons first rest ih =>
      rw [List.map_cons, upsert, upsert, h first, h row, ih]
      by_cases hHere : key first = key row
      · simp [hHere]
      · have hThere : f (key first) ≠ f (key row) := fun hEq => hHere (hInjective hEq)
        simp [hHere, hThere]

theorem contains_map (hInjective : f.Injective) (keys : List κ) (k : κ) :
    (keys.map f).contains (f k) = keys.contains k := by
  rw [Bool.eq_iff_iff, List.contains_iff_mem, List.contains_iff_mem]
  exact List.mem_map_of_injective hInjective

/-- The keys of these rows compare alike before and after. -/
def KeepsOrder {κ : Type*} [LinearOrder κ] (key : α → κ) (f : κ → κ) (rows : List α) : Prop :=
  ∀ row ∈ rows, ∀ other ∈ rows, (key row ≤ key other ↔ f (key row) ≤ f (key other))

theorem sortByKey_map {κ : Type*} [LinearOrder κ] {key : α → κ} {f : κ → κ} {g : α → α}
    (h : Renames key f g) {rows : List α} (hOrder : KeepsOrder key f rows) :
    sortByKey key (rows.map g) = (sortByKey key rows).map g := by
  unfold sortByKey
  symm
  apply List.map_insertionSort
  intro row hRow other hOther
  rw [h row, h other]
  exact hOrder row hRow other hOther

/-- Two draws of as many keys, each without repetition, are renamings of each other. -/
theorem exists_perm_map_eq {keys drawn : List κ} (hKeys : keys.Nodup) (hDrawn : drawn.Nodup)
    (hLength : keys.length = drawn.length) : ∃ f : Equiv.Perm κ, keys.map f = drawn := by
  induction keys generalizing drawn with
  | nil =>
      rw [List.length_nil] at hLength
      exact ⟨Equiv.refl κ, (List.length_eq_zero_iff.mp hLength.symm).symm⟩
  | cons k rest ih =>
      cases drawn with
      | nil => cases hLength
      | cons d drawn =>
          obtain ⟨hFresh, hRest⟩ := List.nodup_cons.mp hKeys
          obtain ⟨hNew, hDrawn⟩ := List.nodup_cons.mp hDrawn
          obtain ⟨f, hf⟩ := ih hRest hDrawn (Nat.succ.inj hLength)
          refine ⟨f.trans (Equiv.swap (f k) d), ?_⟩
          -- the swap moves no key of the rest: none is drawn as `d`, and none goes where `k` does
          have hTail : ∀ other ∈ rest, Equiv.swap (f k) d (f other) = f other := by
            intro other hOther
            apply Equiv.swap_apply_of_ne_of_ne
            · intro hSame
              exact hFresh (f.injective hSame ▸ hOther)
            · intro hSame
              exact hNew (hf ▸ hSame ▸ List.mem_map_of_mem hOther)
          rw [List.map_cons]
          congr 1
          · exact Equiv.swap_apply_left _ _
          · rw [← hf]
            exact List.map_congr_left hTail

end Renaming
