import Houndfe.Base.Keyed
import Mathlib.Data.Prod.Lex
import Mathlib.Order.WithBot

/-! Folds that keep the first by rank. When no two candidates share a rank, the one that is
kept does not depend on the order in which they come. -/

namespace Ranking

variable {α β ρ : Type*} [LinearOrder ρ]

/-- The candidate, if it comes before what was kept. -/
def keep (rank : β → ρ) (kept candidate : β) : β :=
  if rank candidate < rank kept then candidate else kept

/-- Two candidates of different ranks may come in either order. -/
theorem keep_right_comm {rank : β → ρ} {x y : β} (hApart : rank x ≠ rank y) (z : β) :
    keep rank (keep rank z x) y = keep rank (keep rank z y) x := by
  unfold keep
  rcases lt_or_gt_of_ne hApart with hFirst | hSecond
  · by_cases hX : rank x < rank z
    · by_cases hY : rank y < rank z
      · simp [hX, hY, hFirst, hFirst.le]
      · simp [hX, hY, hFirst.le]
    · have hY : ¬ rank y < rank z := fun hY => hX (hFirst.trans hY)
      simp [hX, hY]
  · by_cases hY : rank y < rank z
    · by_cases hX : rank x < rank z
      · simp [hX, hY, hSecond, hSecond.le]
      · simp [hX, hY, hSecond.le]
    · have hX : ¬ rank x < rank z := fun hX => hY (hSecond.trans hX)
      simp [hX, hY]

theorem keep_le_kept (rank : β → ρ) (kept candidate : β) :
    rank (keep rank kept candidate) ≤ rank kept := by
  unfold keep
  split
  · next hLess => exact hLess.le
  · exact le_refl _

theorem keep_le_candidate (rank : β → ρ) (kept candidate : β) :
    rank (keep rank kept candidate) ≤ rank candidate := by
  unfold keep
  split
  · exact le_refl _
  · next hNot => exact not_lt.mp hNot

/-- Keep what one element offers, if it offers a candidate. -/
def keepOffer (rank : β → ρ) (offer : α → Option β) (kept : β) (a : α) : β :=
  match offer a with
  | none => kept
  | some candidate => keep rank kept candidate

/-- No two elements offer candidates of one rank. -/
def Apart (rank : β → ρ) (offer : α → Option β) (xs : List α) : Prop :=
  ∀ x ∈ xs, ∀ y ∈ xs, x ≠ y → ∀ b, offer x = some b → ∀ c, offer y = some c → rank b ≠ rank c

theorem foldl_keepOffer_perm {rank : β → ρ} {offer : α → Option β} {xs ys : List α}
    (hPerm : xs.Perm ys) (hApart : Apart rank offer xs) (start : β) :
    xs.foldl (keepOffer rank offer) start = ys.foldl (keepOffer rank offer) start := by
  apply hPerm.foldl_eq'
  intro x hX y hY z
  by_cases hSame : x = y
  · rw [hSame]
  unfold keepOffer
  cases hOfferX : offer x with
  | none => rfl
  | some b =>
      cases hOfferY : offer y with
      | none => rfl
      | some c => exact keep_right_comm (hApart x hX y hY hSame b hOfferX c hOfferY) z

/-- What is kept comes no later than what was kept before, and than every offer. -/
theorem foldl_keepOffer_le (rank : β → ρ) (offer : α → Option β) (xs : List α) (start : β) :
    rank (xs.foldl (keepOffer rank offer) start) ≤ rank start ∧
      ∀ x ∈ xs, ∀ b, offer x = some b → rank (xs.foldl (keepOffer rank offer) start) ≤ rank b := by
  induction xs generalizing start with
  | nil => simp
  | cons x rest ih =>
      obtain ⟨hStart, hRest⟩ := ih (keepOffer rank offer start x)
      rw [List.foldl_cons]
      constructor
      · refine hStart.trans ?_
        unfold keepOffer
        cases offer x with
        | none => exact le_refl _
        | some candidate => exact keep_le_kept rank start candidate
      · intro y hMem b hOffer
        rcases List.mem_cons.mp hMem with rfl | hIn
        · refine hStart.trans ?_
          simp only [keepOffer, hOffer]
          exact keep_le_candidate rank start b
        · exact hRest y hIn b hOffer

/-- What is kept was kept before, or some element offers it. -/
theorem foldl_keepOffer_mem (rank : β → ρ) (offer : α → Option β) (xs : List α) (start : β) :
    xs.foldl (keepOffer rank offer) start = start ∨
      ∃ x ∈ xs, offer x = some (xs.foldl (keepOffer rank offer) start) := by
  induction xs generalizing start with
  | nil => exact Or.inl rfl
  | cons x rest ih =>
      rw [List.foldl_cons]
      rcases ih (keepOffer rank offer start x) with hSame | ⟨y, hMem, hOffer⟩
      · rw [hSame]
        cases hOffer : offer x with
        | none => simp [keepOffer, hOffer]
        | some candidate =>
            simp only [keepOffer, hOffer, keep]
            split
            · exact Or.inr ⟨x, List.mem_cons_self, hOffer⟩
            · exact Or.inl rfl
      · exact Or.inr ⟨y, List.mem_cons_of_mem _ hMem, hOffer⟩

/-- Nothing comes after everything else. -/
def rankOf (rank : α → ρ) : Option α → WithTop ρ
  | none => ⊤
  | some a => rank a

/-- Where `better` compares ranks, the fold that prefers the better keeps by rank. -/
theorem prefer_eq_keepOffer {rank : α → ρ} {better : α → α → Bool}
    (hBetter : ∀ a b, better a b = decide (rank a < rank b)) :
    Keyed.prefer better = keepOffer (rankOf rank) fun a => some (some a) := by
  funext kept a
  cases kept with
  | none => simp [Keyed.prefer, keepOffer, keep, rankOf]
  | some best => simp [Keyed.prefer, keepOffer, keep, rankOf, hBetter]

/-- The best of a list comes no later than any of its elements. -/
theorem rankOf_pickBest_le (rank : α → ρ) {better : α → α → Bool}
    (hBetter : ∀ a b, better a b = decide (rank a < rank b)) {xs : List α} {x : α} (hMem : x ∈ xs) :
    rankOf rank (Keyed.pickBest better xs) ≤ rank x := by
  rw [Keyed.pickBest, prefer_eq_keepOffer hBetter]
  exact (foldl_keepOffer_le (rankOf rank) (fun a => some (some a)) xs none).2 x hMem (some x) rfl

theorem pickBest_le (rank : α → ρ) {better : α → α → Bool}
    (hBetter : ∀ a b, better a b = decide (rank a < rank b)) {xs : List α} {best x : α}
    (hBest : Keyed.pickBest better xs = some best) (hMem : x ∈ xs) : rank best ≤ rank x := by
  have hLeast := rankOf_pickBest_le rank hBetter hMem
  rw [hBest] at hLeast
  exact WithTop.coe_le_coe.mp hLeast

/-- A list with an element has a best one. -/
theorem pickBest_ne_none (rank : α → ρ) {better : α → α → Bool}
    (hBetter : ∀ a b, better a b = decide (rank a < rank b)) {xs : List α} {x : α} (hMem : x ∈ xs) :
    Keyed.pickBest better xs ≠ none := by
  intro hNone
  have hLeast := rankOf_pickBest_le rank hBetter hMem
  rw [hNone] at hLeast
  exact WithTop.coe_ne_top (top_le_iff.mp hLeast)

/-- The best of a list, where `better` compares ranks, is the best of every permutation. -/
theorem pickBest_perm (rank : α → ρ) {better : α → α → Bool}
    (hBetter : ∀ a b, better a b = decide (rank a < rank b)) {xs ys : List α}
    (hPerm : xs.Perm ys) (hApart : ∀ x ∈ xs, ∀ y ∈ xs, x ≠ y → rank x ≠ rank y) :
    Keyed.pickBest better xs = Keyed.pickBest better ys := by
  have hRanks : Apart (rankOf rank) (fun a => some (some a)) xs := by
    intro x hX y hY hNe b hB c hC
    cases hB
    cases hC
    simpa [rankOf] using hApart x hX y hY hNe
  unfold Keyed.pickBest
  rw [prefer_eq_keepOffer hBetter]
  exact foldl_keepOffer_perm hPerm hRanks none

end Ranking
