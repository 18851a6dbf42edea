import Mathlib.Algebra.Order.BigOperators.Group.List
import Mathlib.Data.List.Sort
import Mathlib.Tactic.LinearCombination
import Mathlib.Tactic.Linarith

/-! An amount split in proportion to weights by largest remainders: each weight gets its part
rounded down, and the units that are left go one by one to the largest remainders. -/

namespace Apportionment

/-- The part of one weight, and what rounding it down cut off. -/
structure Share where
  index : Nat
  cents : Int
  remainder : Int
  deriving DecidableEq, Repr

def shareOf (amount total : Int) (weight : Int) (index : Nat) : Share :=
  ⟨index, (amount * weight).tdiv total, (amount * weight).tmod total⟩

def shares (amount : Int) (weights : List Int) : List Share :=
  weights.zipIdx.map fun entry => shareOf amount weights.sum entry.1 entry.2

/-- The larger remainder comes first, and of equal ones the lower index. -/
def before (a b : Share) : Prop :=
  if a.remainder = b.remainder then a.index ≤ b.index else b.remainder < a.remainder

instance : DecidableRel before :=
  fun a b => inferInstanceAs (Decidable (if a.remainder = b.remainder then a.index ≤ b.index
    else b.remainder < a.remainder))

/-- One unit to each share until none remains. -/
def handOut : Int → List Share → List Share
  | _, [] => []
  | remaining, share :: rest =>
      if 0 < remaining then { share with cents := share.cents + 1 } :: handOut (remaining - 1) rest
      else share :: handOut remaining rest

def apportion (amount : Int) (weights : List Int) : List Share :=
  handOut (amount - ((shares amount weights).map Share.cents).sum)
    ((shares amount weights).insertionSort before)

theorem sum_handOut {remaining : Int} {queue : List Share} (hNonneg : 0 ≤ remaining)
    (hFits : remaining ≤ queue.length) :
    ((handOut remaining queue).map Share.cents).sum = (queue.map Share.cents).sum + remaining := by
  induction queue generalizing remaining with
  | nil =>
      rw [List.length_nil] at hFits
      simp only [handOut, List.map_nil, List.sum_nil]
      omega
  | cons share rest ih =>
      rw [List.length_cons] at hFits
      unfold handOut
      split
      · have hRest := @ih (remaining - 1) (by omega) (by push_cast at hFits; omega)
        simp only [List.map_cons, List.sum_cons, hRest]
        omega
      · have hRest := @ih remaining hNonneg (by omega)
        simp only [List.map_cons, List.sum_cons, hRest]
        omega

theorem map_index_handOut (remaining : Int) (queue : List Share) :
    (handOut remaining queue).map Share.index = queue.map Share.index := by
  induction queue generalizing remaining with
  | nil => rfl
  | cons share rest ih =>
      unfold handOut
      split
      · exact congrArg (share.index :: ·) (ih _)
      · exact congrArg (share.index :: ·) (ih _)

theorem shares_indices (amount : Int) (weights : List Int) :
    (shares amount weights).map Share.index = List.range weights.length := by
  unfold shares
  rw [List.map_map]
  show weights.zipIdx.map Prod.snd = _
  rw [List.zipIdx_map_snd, List.range_eq_range']

/-- The shares are handed to the places of the weights. -/
theorem index_lt_of_apportion {amount : Int} {weights : List Int} {share : Share}
    (h : share ∈ apportion amount weights) : share.index < weights.length := by
  have hIndex : share.index ∈ (apportion amount weights).map Share.index := List.mem_map_of_mem h
  unfold apportion at hIndex
  rw [map_index_handOut, ((List.perm_insertionSort _ _).map Share.index).mem_iff,
    shares_indices] at hIndex
  exact List.mem_range.mp hIndex

/-- Rounded parts and remainders make up the amount as often as the weights the total. -/
theorem sum_shareOf (amount total : Int) (entries : List (Int × Nat)) :
    total * ((entries.map fun entry => shareOf amount total entry.1 entry.2).map
        Share.cents).sum +
      ((entries.map fun entry => shareOf amount total entry.1 entry.2).map Share.remainder).sum =
        amount * (entries.map Prod.fst).sum := by
  induction entries with
  | nil => simp
  | cons entry rest ih =>
      have hEntry : total * (amount * entry.1).tdiv total + (amount * entry.1).tmod total =
          amount * entry.1 := Int.mul_tdiv_add_tmod _ _
      simp only [List.map_cons, List.sum_cons, shareOf]
      simp only [shareOf] at ih
      linear_combination hEntry + ih

/-- What remains after rounding down is less than one unit for each share. -/
theorem remaining_bounds {amount : Int} {weights : List Int} (hAmount : 0 ≤ amount)
    (hWeights : ∀ weight ∈ weights, 0 ≤ weight) (hTotal : 0 < weights.sum) :
    0 ≤ amount - ((shares amount weights).map Share.cents).sum ∧
      amount - ((shares amount weights).map Share.cents).sum ≤ weights.length := by
  have hSum := sum_shareOf amount weights.sum weights.zipIdx
  rw [List.zipIdx_map_fst] at hSum
  change weights.sum * ((shares amount weights).map Share.cents).sum +
    ((shares amount weights).map Share.remainder).sum = _ at hSum
  have hLength : ((shares amount weights).map Share.remainder).length = weights.length := by
    simp [shares]
  have hRemainders : ∀ r ∈ (shares amount weights).map Share.remainder,
      0 ≤ r ∧ r ≤ weights.sum := by
    intro r hr
    obtain ⟨share, hShare, rfl⟩ := List.mem_map.mp hr
    obtain ⟨entry, hEntry, rfl⟩ := List.mem_map.mp hShare
    have hWeight : 0 ≤ entry.1 := hWeights entry.1 (List.fst_mem_of_mem_zipIdx hEntry)
    have hProduct : 0 ≤ amount * entry.1 := Int.mul_nonneg hAmount hWeight
    exact ⟨Int.tmod_nonneg _ hProduct, (Int.tmod_lt_of_pos _ hTotal).le⟩
  have hLower : 0 ≤ ((shares amount weights).map Share.remainder).sum :=
    List.sum_nonneg fun r hr => (hRemainders r hr).1
  have hUpper := List.sum_le_card_nsmul ((shares amount weights).map Share.remainder)
    weights.sum fun r hr => (hRemainders r hr).2
  rw [hLength, nsmul_eq_mul] at hUpper
  constructor
  · by_contra hNeg
    have hLess := mul_lt_mul_of_pos_left (not_le.mp hNeg) hTotal
    nlinarith only [hSum, hLower, hLess]
  · by_contra hMore
    have hLess := mul_lt_mul_of_pos_left (not_le.mp hMore) hTotal
    nlinarith only [hSum, hUpper, hLess]

/-- The whole amount is handed out, and nothing more. -/
theorem sum_apportion {amount : Int} {weights : List Int} (hAmount : 0 ≤ amount)
    (hWeights : ∀ weight ∈ weights, 0 ≤ weight) (hTotal : 0 < weights.sum) :
    ((apportion amount weights).map Share.cents).sum = amount := by
  obtain ⟨hNonneg, hFits⟩ := remaining_bounds hAmount hWeights hTotal
  have hPerm := List.perm_insertionSort before (shares amount weights)
  have hLength : ((shares amount weights).insertionSort before).length = weights.length := by
    rw [hPerm.length_eq]
    simp [shares]
  unfold apportion
  rw [sum_handOut hNonneg (hLength ▸ hFits), (hPerm.map Share.cents).sum_eq]
  omega

/-! ### No share is more than its weight -/

instance : Std.Total before where
  total a b := by
    unfold before
    split_ifs <;> omega

instance : IsTrans Share before where
  trans a b c hFirst hSecond := by
    unfold before at *
    split_ifs at * <;> omega

/-- A unit that is handed out goes to a part that was rounded down: the largest remainders come
first, and they make up the units that are left. -/
theorem mem_handOut {total remaining : Int} {queue : List Share} (hTotal : 0 < total)
    (hSorted : queue.Pairwise before)
    (hRemainders : ∀ share ∈ queue, 0 ≤ share.remainder ∧ share.remainder < total)
    (hLeft : total * remaining ≤ (queue.map Share.remainder).sum) {share : Share}
    (hShare : share ∈ handOut remaining queue) :
    share ∈ queue ∨ ∃ part ∈ queue, 0 < part.remainder ∧
      share = { part with cents := part.cents + 1 } := by
  induction queue generalizing remaining with
  | nil => cases hShare
  | cons first rest ih =>
      obtain ⟨hFirst, hRest⟩ := List.pairwise_cons.mp hSorted
      obtain ⟨⟨hNonneg, hBelow⟩, hOthers⟩ := List.forall_mem_cons.mp hRemainders
      rw [List.map_cons, List.sum_cons] at hLeft
      unfold handOut at hShare
      split at hShare
      · next hSome =>
          have hUnits : 0 < total * remaining := Int.mul_pos hTotal hSome
          -- if the first had no remainder, none would have one
          have hPositive : 0 < first.remainder := by
            by_contra hNone
            have hZero : (rest.map Share.remainder).sum = 0 := by
              apply List.sum_eq_zero
              intro r hr
              obtain ⟨other, hOther, rfl⟩ := List.mem_map.mp hr
              have hBefore := hFirst other hOther
              have hOtherNonneg := (hOthers other hOther).1
              unfold before at hBefore
              split_ifs at hBefore <;> omega
            omega
          rcases List.mem_cons.mp hShare with rfl | hShare
          · exact .inr ⟨first, List.mem_cons_self, hPositive, rfl⟩
          · have hLess : total * (remaining - 1) ≤ (rest.map Share.remainder).sum := by
              rw [Int.mul_sub, Int.mul_one]
              omega
            rcases ih hRest hOthers hLess hShare with hIn | ⟨part, hPart, hRounded, rfl⟩
            · exact .inl (List.mem_cons_of_mem _ hIn)
            · exact .inr ⟨part, List.mem_cons_of_mem _ hPart, hRounded, rfl⟩
      · next hNone =>
          rcases List.mem_cons.mp hShare with rfl | hShare
          · exact .inl List.mem_cons_self
          · have hSum : 0 ≤ (rest.map Share.remainder).sum := by
              apply List.sum_nonneg
              intro r hr
              obtain ⟨other, hOther, rfl⟩ := List.mem_map.mp hr
              exact (hOthers other hOther).1
            have hUnits : total * remaining ≤ 0 :=
              Int.mul_nonpos_of_nonneg_of_nonpos hTotal.le (by omega)
            rcases ih hRest hOthers (by omega) hShare with hIn | ⟨part, hPart, hRounded, rfl⟩
            · exact .inl (List.mem_cons_of_mem _ hIn)
            · exact .inr ⟨part, List.mem_cons_of_mem _ hPart, hRounded, rfl⟩

/-- Of an amount that is at most the total, no share is negative or more than its weight. -/
theorem cents_bounds {amount : Int} {weights : List Int} (hAmount : 0 ≤ amount)
    (hMost : amount ≤ weights.sum) (hWeights : ∀ weight ∈ weights, 0 ≤ weight)
    (hTotal : 0 < weights.sum) {share : Share} (hShare : share ∈ apportion amount weights) :
    0 ≤ share.cents ∧ ∃ weight, weights[share.index]? = some weight ∧ share.cents ≤ weight := by
  have hPerm := List.perm_insertionSort before (shares amount weights)
  -- the part of a weight, before any unit is handed out
  have hPart : ∀ part ∈ shares amount weights, ∃ weight, weights[part.index]? = some weight ∧
      0 ≤ part.cents ∧ 0 ≤ part.remainder ∧ part.remainder < weights.sum ∧
      weights.sum * part.cents + part.remainder ≤ weights.sum * weight := by
    intro part hIn
    obtain ⟨⟨weight, index⟩, hEntry, rfl⟩ := List.mem_map.mp hIn
    have hWeight : 0 ≤ weight := hWeights weight (List.fst_mem_of_mem_zipIdx hEntry)
    have hProduct : 0 ≤ amount * weight := Int.mul_nonneg hAmount hWeight
    refine ⟨weight, List.mk_mem_zipIdx_iff_getElem?.mp hEntry,
      Int.tdiv_nonneg hProduct hTotal.le, Int.tmod_nonneg _ hProduct,
      Int.tmod_lt_of_pos _ hTotal, ?_⟩
    show weights.sum * (amount * weight).tdiv weights.sum + (amount * weight).tmod weights.sum ≤ _
    rw [Int.mul_tdiv_add_tmod]
    exact Int.mul_le_mul_of_nonneg_right hMost hWeight
  have hLeft : weights.sum * (amount - ((shares amount weights).map Share.cents).sum) ≤
      (((shares amount weights).insertionSort before).map Share.remainder).sum := by
    have hSum := sum_shareOf amount weights.sum weights.zipIdx
    rw [List.zipIdx_map_fst] at hSum
    change weights.sum * ((shares amount weights).map Share.cents).sum +
      ((shares amount weights).map Share.remainder).sum = _ at hSum
    rw [(hPerm.map Share.remainder).sum_eq, Int.mul_sub, Int.mul_comm weights.sum amount]
    omega
  have hSorted := List.pairwise_insertionSort before (shares amount weights)
  rcases mem_handOut hTotal hSorted
    (fun part hIn => by
      obtain ⟨_, _, _, hNonneg, hBelow, _⟩ := hPart part (hPerm.mem_iff.mp hIn)
      exact ⟨hNonneg, hBelow⟩) hLeft hShare with hIn | ⟨part, hIn, hRounded, rfl⟩
  · obtain ⟨weight, hWeight, hCents, hNonneg, _, hFits⟩ := hPart share (hPerm.mem_iff.mp hIn)
    refine ⟨hCents, weight, hWeight, ?_⟩
    by_contra hMore
    have hLess := mul_lt_mul_of_pos_left (not_le.mp hMore) hTotal
    omega
  · obtain ⟨weight, hWeight, hCents, _, _, hFits⟩ := hPart part (hPerm.mem_iff.mp hIn)
    refine ⟨by dsimp only; omega, weight, hWeight, ?_⟩
    dsimp only
    by_contra hMore
    have hSame : weight ≤ part.cents := by omega
    have hLess := Int.mul_le_mul_of_nonneg_left hSame hTotal.le
    omega

/-- What is handed to one place is at most its weight. -/
theorem sum_at_le {amount : Int} {weights : List Int} (hAmount : 0 ≤ amount)
    (hMost : amount ≤ weights.sum) (hWeights : ∀ weight ∈ weights, 0 ≤ weight)
    (hTotal : 0 < weights.sum) {index : Nat} {weight : Int} (hAt : weights[index]? = some weight) :
    (((apportion amount weights).filter fun share => share.index = index).map Share.cents).sum ≤
      weight := by
  have hIndices : ((apportion amount weights).map Share.index).Nodup := by
    unfold apportion
    rw [map_index_handOut, ((List.perm_insertionSort _ _).map Share.index).nodup_iff,
      shares_indices]
    exact List.nodup_range
  cases hHere : (apportion amount weights).filter fun share => share.index = index with
  | nil => exact hWeights weight (List.mem_of_getElem? hAt)
  | cons share rest =>
      have hMem : ∀ other ∈ share :: rest, other ∈ apportion amount weights ∧
          other.index = index := by
        intro other hOther
        rw [← hHere, List.mem_filter, decide_eq_true_eq] at hOther
        exact hOther
      obtain ⟨hShare, hIndex⟩ := hMem share List.mem_cons_self
      have hAlone : rest = [] := by
        cases rest with
        | nil => rfl
        | cons other rest =>
            have hNodup : ((share :: other :: rest).map Share.index).Nodup :=
              hHere ▸ (List.filter_sublist.map Share.index).nodup hIndices
            have hFresh := (List.nodup_cons.mp hNodup).1
            have hOther := (hMem other (by simp)).2
            exact absurd (by simp [hIndex, hOther]) hFresh
      obtain ⟨_, weight', hWeight', hFits⟩ := cents_bounds hAmount hMost hWeights hTotal hShare
      rw [hIndex, hAt, Option.some.injEq] at hWeight'
      rw [hAlone, hWeight']
      simpa using hFits

end Apportionment
