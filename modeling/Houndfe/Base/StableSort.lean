import Mathlib.Data.List.Sort

/-! Stable sorting: what the order of the result says about one pair, when a map keeps the order,
and that leaving elements out before sorting or after it is the same. -/

namespace StableSort

variable {α β : Type*} {r : α → α → Prop} {s : β → β → Prop} [DecidableRel r] [DecidableRel s]

section

variable [Std.Total r] [IsTrans α r]

omit [DecidableRel r] [IsTrans α r] in
theorem pair_of_mem {a b : α} {l : List α} (hSorted : l.Pairwise r) (ha : a ∈ l) (hb : b ∈ l)
    (hNot : ¬ r a b) : [b, a].Sublist l := by
  induction l with
  | nil => cases ha
  | cons first rest ih =>
      obtain ⟨hFirst, hRest⟩ := List.pairwise_cons.mp hSorted
      rcases List.mem_cons.mp hb with rfl | hIn
      · rcases List.mem_cons.mp ha with rfl | hIn'
        · exact absurd ((Std.Total.total (r := r) a a).elim id id) hNot
        · exact (List.singleton_sublist.mpr hIn').cons_cons b
      · rcases List.mem_cons.mp ha with rfl | hIn'
        · exact absurd (hFirst b hIn) hNot
        · exact (ih hRest hIn' hIn).cons first

/-- What is not in order is turned around. -/
theorem turned {a b : α} {l : List α} (ha : a ∈ l) (hb : b ∈ l) (hNot : ¬ r a b) :
    [b, a].Sublist (l.insertionSort r) := by
  have hSorted := List.pairwise_insertionSort r l
  exact pair_of_mem hSorted ((List.mem_insertionSort r).mpr ha) ((List.mem_insertionSort r).mpr hb)
    hNot

omit [Std.Total r] in
theorem filter_orderedInsert {p : α → Bool} {a : α} {l : List α} (hSorted : l.Pairwise r) :
    (l.orderedInsert r a).filter p =
      if p a then (l.filter p).orderedInsert r a else l.filter p := by
  induction l with
  | nil => cases h : p a <;> simp [h]
  | cons first rest ih =>
      obtain ⟨hFirst, hRest⟩ := List.pairwise_cons.mp hSorted
      rw [List.orderedInsert_cons]
      split
      · next hLe =>
          -- everything that follows is above the first, so the element stays in front
          have hFront : ∀ other ∈ (first :: rest).filter p, r a other := by
            intro other hOther
            rcases List.mem_cons.mp (List.mem_of_mem_filter hOther) with rfl | hIn
            · exact hLe
            · exact IsTrans.trans _ _ _ hLe (hFirst other hIn)
          rw [List.filter_cons]
          split
          · cases hKept : (first :: rest).filter p with
            | nil => rfl
            | cons other kept =>
                rw [List.orderedInsert_cons, if_pos]
                exact hFront other (hKept ▸ List.mem_cons_self)
          · rfl
      · next hNot =>
          rw [List.filter_cons, ih hRest, List.filter_cons]
          cases hFirstKept : p first <;> cases hKept : p a <;> simp [hNot]

theorem filter_insertionSort (p : α → Bool) (l : List α) :
    (l.insertionSort r).filter p = (l.filter p).insertionSort r := by
  induction l with
  | nil => rfl
  | cons first rest ih =>
      rw [List.insertionSort_cons, filter_orderedInsert (List.pairwise_insertionSort r rest), ih,
        List.filter_cons]
      split <;> rfl

end

/-- A stable sort asks only how an element compares with the ones behind it: a map that keeps
these answers keeps the order. -/
theorem map_insertionSort {f : α → β} {l : List α}
    (hSame : l.Pairwise fun a b => r a b ↔ s (f a) (f b)) :
    (l.map f).insertionSort s = (l.insertionSort r).map f := by
  induction l with
  | nil => rfl
  | cons first rest ih =>
      obtain ⟨hFirst, hRest⟩ := List.pairwise_cons.mp hSame
      rw [List.map_cons, List.insertionSort_cons, List.insertionSort_cons, ih hRest]
      have hInsert : ∀ sorted : List α, (∀ other ∈ sorted, other ∈ rest) →
          (sorted.map f).orderedInsert s (f first) = (sorted.orderedInsert r first).map f := by
        intro sorted hIn
        induction sorted with
        | nil => rfl
        | cons other kept ih' =>
            have hOther := hFirst other (hIn other List.mem_cons_self)
            rw [List.map_cons, List.orderedInsert_cons, List.orderedInsert_cons,
              ih' fun b hb => hIn b (List.mem_cons_of_mem _ hb)]
            by_cases h : r first other
            · rw [if_pos h, if_pos (hOther.mp h), List.map_cons, List.map_cons]
            · rw [if_neg h, if_neg fun hs => h (hOther.mpr hs), List.map_cons]
      exact hInsert _ fun other hOther => (List.mem_insertionSort r).mp hOther

end StableSort
