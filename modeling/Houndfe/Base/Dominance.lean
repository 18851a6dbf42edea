import Mathlib.Data.List.Perm.Basic
import Mathlib.Data.List.Sort

/-! Fitting one list of lengths under another: some arrangement of the first lies below the second
entry by entry exactly when both do so in descending order. -/

namespace Dominance

variable {α : Type*} [LinearOrder α] {xs ys zs : List α}

/-- The entries in descending order. -/
def descending (xs : List α) : List α :=
  xs.insertionSort (· ≥ ·)

theorem descending_perm (xs : List α) : (descending xs).Perm xs :=
  List.perm_insertionSort _ xs

theorem pairwise_descending (xs : List α) : (descending xs).Pairwise (· ≥ ·) :=
  List.pairwise_insertionSort _ xs

theorem descending_eq_of_perm (hPerm : xs.Perm ys) : descending xs = descending ys :=
  ((descending_perm xs).trans (hPerm.trans (descending_perm ys).symm)).eq_of_pairwise
    (fun _ _ _ _ hGe hLe => le_antisymm hLe hGe) (pairwise_descending xs) (pairwise_descending ys)

theorem orderedInsert_of_ge {x : α} (hAll : ∀ y ∈ xs, x ≥ y) :
    xs.orderedInsert (· ≥ ·) x = x :: xs := by
  cases xs with
  | nil => rfl
  | cons y rest => exact List.orderedInsert_cons_of_le _ _ (hAll y List.mem_cons_self)

/-- Inserting a smaller entry below keeps the order below. -/
theorem forall₂_orderedInsert {x y : α} (hLe : x ≤ y) (hEach : List.Forall₂ (· ≤ ·) xs ys)
    (hXs : xs.Pairwise (· ≥ ·)) (hYs : ys.Pairwise (· ≥ ·)) :
    List.Forall₂ (· ≤ ·) (xs.orderedInsert (· ≥ ·) x) (ys.orderedInsert (· ≥ ·) y) := by
  induction hEach generalizing x y with
  | nil => exact .cons hLe .nil
  | @cons a b as bs hFirst hRest ih =>
      obtain ⟨hA, hAs⟩ := List.pairwise_cons.mp hXs
      obtain ⟨hB, hBs⟩ := List.pairwise_cons.mp hYs
      rw [List.orderedInsert_cons, List.orderedInsert_cons]
      split
      · next hX =>
          split
          · exact .cons hLe (.cons hFirst hRest)
          · next hY =>
              have hLess : y < b := not_le.mp hY
              rw [← orderedInsert_of_ge hA]
              exact .cons (hLe.trans hLess.le) (ih (le_trans hX hLe) hAs hBs)
      · next hX =>
          have hLess : x < a := not_le.mp hX
          split
          · next hY =>
              rw [← orderedInsert_of_ge hB]
              exact .cons (hFirst.trans hY) (ih (hLess.le.trans hFirst) hAs hBs)
          · exact .cons hFirst (ih hLe hAs hBs)

theorem forall₂_descending (hEach : List.Forall₂ (· ≤ ·) xs ys) :
    List.Forall₂ (· ≤ ·) (descending xs) (descending ys) := by
  induction hEach with
  | nil => exact .nil
  | cons hFirst _ ih =>
      exact forall₂_orderedInsert hFirst ih (pairwise_descending _) (pairwise_descending _)

/-- Descending order decides whether some arrangement fits. -/
theorem forall₂_descending_iff : List.Forall₂ (· ≤ ·) (descending xs) (descending ys) ↔
    ∃ arranged, arranged.Perm xs ∧ List.Forall₂ (· ≤ ·) arranged ys := by
  constructor
  · intro hSorted
    have hBelow : Relation.Comp (List.Forall₂ (· ≤ ·)) List.Perm (descending xs) ys :=
      ⟨_, hSorted, descending_perm ys⟩
    rw [List.forall₂_comp_perm_eq_perm_comp_forall₂] at hBelow
    obtain ⟨arranged, hPerm, hEach⟩ := hBelow
    exact ⟨arranged, hPerm.symm.trans (descending_perm xs), hEach⟩
  · rintro ⟨arranged, hPerm, hEach⟩
    rw [← descending_eq_of_perm hPerm]
    exact forall₂_descending hEach

end Dominance
