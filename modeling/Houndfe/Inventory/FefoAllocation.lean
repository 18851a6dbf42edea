import Houndfe.Inventory.Availability

/-! What the FEFO split promises for any lots: it covers the request out of buckets that hold it,
the earlier ones first. -/

namespace Houndfe.Inventory

/-! ### The promise -/

/-- The unexpired lots that hold anything. -/
def sellableLots (today : String) (lots : List LotStockState) : List LotStockState :=
  lots.filter fun lot => 0 < lot.quantity && !isLotExpired lot.expirationDate today

/-- The units of the sellable lots together with the untracked ones. -/
def coverableUnits (today : String) (lots : List LotStockState) (untracked : Int) : Int :=
  ((sellableLots today lots).map (·.quantity)).sum + untracked

/-- Everything that a lot holds. -/
def exhausted (lot : LotStockState) : LotStockState × Int :=
  (lot, lot.quantity)

/-- What is taken of each lot and of the untracked units: every bucket once and within what it
holds, no expired lot, and nothing while an earlier bucket is not exhausted. -/
structure DrawnInOrder (lots : List LotStockState) (untracked : Int) (today : String)
    (allocations : List FefoAllocation) (taken : List (LotStockState × Int)) (rest : Int) :
    Prop where
  split : allocations = (taken.map fun entry => ⟨some entry.1.id, entry.2⟩) ++
    if 0 < rest then [⟨none, rest⟩] else []
  once : (taken.map Prod.fst).Subperm lots
  within : ∀ entry ∈ taken, 0 < entry.2 ∧ entry.2 ≤ entry.1.quantity
  covered : rest ≤ untracked
  fresh : ∀ entry ∈ taken, isLotExpired entry.1.expirationDate today = false
  earlierFirst : ∀ entry ∈ taken,
    (((sellableLots today lots).filter fun lot =>
      lot.expirationDate < entry.1.expirationDate).map exhausted).Subperm taken
  lotsFirst : 0 < rest → ((sellableLots today lots).map exhausted).Subperm taken

/-- The allocations of a request. -/
structure IsFefoSplit (lots : List LotStockState) (untracked : Int) (today : String)
    (quantity : Rat) (allocations : List FefoAllocation) : Prop where
  total : (((allocations.map (·.quantity)).sum : Int) : Rat) = quantity
  drawn : ∃ taken rest, DrawnInOrder lots untracked today allocations taken rest

/-! ### Taking from lots in order -/

section

variable {lots : List LotStockState} {remaining : Int}

/-- Taking stops in a lot only when nothing remains: whatever comes before another lot is
exhausted. -/
theorem takeFromLots_exhausts (hPositive : ∀ lot ∈ lots, 0 < lot.quantity)
    (hRemaining : 0 ≤ remaining) :
    ∃ taken : List (LotStockState × Int),
      (takeFromLots remaining lots).1 = (taken.map fun entry => ⟨some entry.1.id, entry.2⟩) ∧
      (taken.map Prod.fst) <+: lots ∧
      (∀ entry ∈ taken, 0 < entry.2 ∧ entry.2 ≤ entry.1.quantity) ∧
      (taken.Pairwise fun entry _ => entry.2 = entry.1.quantity) ∧
      (taken.map Prod.snd).sum + (takeFromLots remaining lots).2 = remaining ∧
      (0 < (takeFromLots remaining lots).2 → taken = lots.map exhausted) ∧
      (remaining = 0 → taken = []) := by
  induction lots generalizing remaining with
  | nil => exact ⟨[], rfl, List.prefix_rfl, by simp, .nil, by simp [takeFromLots], by simp, by simp⟩
  | cons lot rest ih =>
      obtain ⟨hLot, hRest⟩ := List.forall_mem_cons.mp hPositive
      unfold takeFromLots
      by_cases hZero : remaining = 0
      · rw [if_pos hZero]
        exact ⟨[], rfl, List.nil_prefix, by simp, .nil, by simp [hZero], by simp, by simp⟩
      · have hLater : 0 ≤ remaining - min lot.quantity remaining := by omega
        obtain ⟨taken, hSame, hPrefix, hWithin, hFull, hSum, hAll, hNone⟩ := ih hRest hLater
        rw [if_neg hZero]
        refine ⟨(lot, min lot.quantity remaining) :: taken, ?_, ?_, ?_, ?_, ?_, ?_, ?_⟩
        · simp only [hSame, List.map_cons]
        · exact List.cons_prefix_cons.mpr ⟨rfl, hPrefix⟩
        · rw [List.forall_mem_cons]
          exact ⟨⟨by omega, min_le_left _ _⟩, hWithin⟩
        · rw [List.pairwise_cons]
          refine ⟨fun entry hEntry => ?_, hFull⟩
          -- a later lot was taken from, so something remained after this one
          have hSome : remaining - min lot.quantity remaining ≠ 0 := by
            intro hDone
            rw [hNone hDone] at hEntry
            cases hEntry
          exact min_eq_left (by omega)
        · rw [List.map_cons, List.sum_cons]
          show _ + _ + (takeFromLots (remaining - min lot.quantity remaining) rest).2 = remaining
          omega
        · intro (hLeft : 0 < (takeFromLots (remaining - min lot.quantity remaining) rest).2)
          have hRestAll := hAll hLeft
          have hSome : remaining - min lot.quantity remaining ≠ 0 := by
            intro hDone
            have hTaken := hNone hDone
            rw [hTaken] at hSum
            simp only [List.map_nil, List.sum_nil] at hSum
            omega
          have hWhole : min lot.quantity remaining = lot.quantity := min_eq_left (by omega)
          rw [hRestAll, hWhole]
          rfl
        · intro hDone
          exact absurd hDone hZero

/-- In an ordered list, the lots that expire before one taken from are exhausted. -/
theorem earlier_exhausted {taken : List (LotStockState × Int)} {entry : LotStockState × Int}
    (hPrefix : taken.map Prod.fst <+: lots)
    (hSorted : lots.Pairwise fun a b => a.expirationDate ≤ b.expirationDate)
    (hFull : taken.Pairwise fun entry _ => entry.2 = entry.1.quantity) (hEntry : entry ∈ taken) :
    ((lots.filter fun lot => lot.expirationDate < entry.1.expirationDate).map
      exhausted).Sublist taken := by
  obtain ⟨before, after, rfl⟩ := List.append_of_mem hEntry
  obtain ⟨beyond, rfl⟩ := hPrefix
  rw [List.map_append, List.map_cons, List.append_assoc, List.cons_append] at hSorted ⊢
  obtain ⟨_, hBehind, _⟩ := List.pairwise_append.mp hSorted
  have hLater := (List.pairwise_cons.mp hBehind).1
  have hRest : (entry.1 :: (after.map Prod.fst ++ beyond)).filter
      (fun lot => lot.expirationDate < entry.1.expirationDate) = [] := by
    rw [List.filter_eq_nil_iff]
    intro lot hLot
    rcases List.mem_cons.mp hLot with rfl | hIn
    · simp
    · rw [decide_eq_true_eq, not_lt]
      exact hLater lot hIn
  have hBefore : (before.map Prod.fst).map exhausted = before := by
    rw [List.map_map]
    conv_rhs => rw [← List.map_id before]
    apply List.map_congr_left
    intro first hFirst
    have hQuantity := (List.pairwise_append.mp hFull).2.2 first hFirst entry List.mem_cons_self
    rw [Function.comp_apply, exhausted, ← hQuantity]
    rfl
  rw [List.filter_append, hRest, List.append_nil]
  have hSub := (List.filter_sublist (p := fun lot : LotStockState =>
    decide (lot.expirationDate < entry.1.expirationDate)) (l := before.map Prod.fst)).map exhausted
  rw [hBefore] at hSub
  exact hSub.trans (List.sublist_append_left _ _)

end

/-! ### The split -/

section

variable {lots : List LotStockState} {untracked : Int} {today : String}

theorem fefoOrder_perm (today : String) (lots : List LotStockState) :
    (fefoOrder today lots).Perm (sellableLots today lots) :=
  Keyed.sortByKey_perm _ _

theorem sum_fefoOrder_sellable :
    ((fefoOrder today lots).map (·.quantity)).sum + untracked =
      coverableUnits today lots untracked := by
  rw [((fefoOrder_perm today lots).map (·.quantity)).sum_eq, coverableUnits]

theorem fefoOrder_sorted (today : String) (lots : List LotStockState) :
    (fefoOrder today lots).Pairwise fun a b => a.expirationDate ≤ b.expirationDate := by
  refine (Keyed.pairwise_sortByKey _ _).imp fun {a b} hKey => ?_
  rcases Prod.Lex.le_iff.mp hKey with hLt | ⟨hSame, _⟩
  · exact le_of_lt hLt
  · exact le_of_eq hSame

/-- What was taken in FEFO order, with a rest that the untracked units cover. -/
theorem exists_drawn {remaining : Int} (hRemaining : 0 ≤ remaining)
    (hCovered : (takeFromLots remaining (fefoOrder today lots)).2 ≤ untracked) :
    ∃ taken, DrawnInOrder lots untracked today
        ((takeFromLots remaining (fefoOrder today lots)).1 ++
          if 0 < (takeFromLots remaining (fefoOrder today lots)).2 then
            [⟨none, (takeFromLots remaining (fefoOrder today lots)).2⟩] else [])
        taken (takeFromLots remaining (fefoOrder today lots)).2 ∧
      (taken.map Prod.snd).sum + (takeFromLots remaining (fefoOrder today lots)).2 =
        remaining := by
  have hPositive : ∀ lot ∈ fefoOrder today lots, 0 < lot.quantity :=
    fun lot hLot => (mem_fefoOrder.mp hLot).2.1
  obtain ⟨taken, hSame, hPrefix, hWithin, hFull, hSum, hAll, _⟩ :=
    takeFromLots_exhausts hPositive hRemaining
  have hPerm := fefoOrder_perm today lots
  refine ⟨taken, ⟨by rw [hSame], ?_, hWithin, hCovered, ?_, ?_, ?_⟩, hSum⟩
  · exact (hPrefix.sublist.subperm.trans hPerm.subperm).trans List.filter_sublist.subperm
  · intro entry hEntry
    exact (mem_fefoOrder.mp (hPrefix.subset (List.mem_map_of_mem hEntry))).2.2
  · intro entry hEntry
    have hEarlier := earlier_exhausted hPrefix (fefoOrder_sorted today lots) hFull hEntry
    exact ((hPerm.symm.filter _).map exhausted).subperm.trans hEarlier.subperm
  · intro hRest
    rw [hAll hRest]
    exact (hPerm.symm.map exhausted).subperm

/-- A whole request is refused exactly when the unexpired lots and the untracked units hold less,
and is split in order otherwise; any other request is refused as malformed. -/
theorem allocateFefo_spec (productId : Option String) (quantity : Rat) (untracked : Int)
    (lots : List LotStockState) (today : String) (hUntracked : 0 ≤ untracked) :
    if quantity.isInt ∧ 0 < quantity then
      ((∃ error, allocateFefo productId quantity untracked lots today = .error error) ↔
        (coverableUnits today lots untracked : Rat) < quantity) ∧
      ∀ allocations, allocateFefo productId quantity untracked lots today = .ok allocations →
        IsFefoSplit lots untracked today quantity allocations
    else allocateFefo productId quantity untracked lots today =
      .error (.rangeError "FEFO quantity must be a positive integer") := by
  split
  · next hWhole =>
      obtain ⟨hInt, hPositive⟩ := hWhole
      have hNum := (Rat.num_pos.mpr hPositive).le
      have hLots : ∀ lot ∈ fefoOrder today lots, 0 < lot.quantity :=
        fun lot hLot => (mem_fefoOrder.mp hLot).2.1
      have hLeft := takeFromLots_left hLots hNum
      have hUnits := @sum_fefoOrder_sellable lots untracked today
      have hShort : (coverableUnits today lots untracked : Rat) < quantity ↔
          coverableUnits today lots untracked < quantity.num := by
        rw [← not_le, intCast_le_iff hInt, not_le]
      rw [allocateFefo_whole hInt hPositive, hShort]
      dsimp only
      constructor
      · split
        · split
          · simp only [Except.error.injEq, exists_eq', true_iff]
            omega
          · simp only [reduceCtorEq, exists_false, false_iff]
            omega
        · simp only [reduceCtorEq, exists_false, false_iff]
          omega
      · intro allocations hOk
        have hDrawn : (takeFromLots quantity.num (fefoOrder today lots)).2 ≤ untracked ∧
            allocations = (takeFromLots quantity.num (fefoOrder today lots)).1 ++
              if 0 < (takeFromLots quantity.num (fefoOrder today lots)).2 then
                [⟨none, (takeFromLots quantity.num (fefoOrder today lots)).2⟩] else [] := by
          split at hOk
          · next hRest =>
              split at hOk <;> cases hOk
              next hEnough => exact ⟨by omega, by rw [if_pos hRest]⟩
          · next hRest =>
              cases hOk
              exact ⟨by omega, by rw [if_neg hRest, List.append_nil]⟩
        obtain ⟨hCovered, rfl⟩ := hDrawn
        obtain ⟨taken, hTaken, hSum⟩ := exists_drawn hNum hCovered
        refine ⟨?_, taken, _, hTaken⟩
        rw [hTaken.split, List.map_append, List.sum_append, List.map_map]
        have hRest : ((if 0 < (takeFromLots quantity.num (fefoOrder today lots)).2 then
            [(⟨none, (takeFromLots quantity.num (fefoOrder today lots)).2⟩ : FefoAllocation)]
              else []).map (·.quantity)).sum =
            (takeFromLots quantity.num (fefoOrder today lots)).2 := by
          split
          · simp
          · rw [List.map_nil, List.sum_nil]
            omega
        rw [hRest]
        exact (congrArg _ hSum).trans (num_of_isInt hInt)
  · next hWhole => exact allocateFefo_not_whole hWhole

theorem allocateFefo_spec_split :
    IsFefoSplit [⟨"b", "B", 10, 1, 1796083200000⟩, ⟨"a", "A", 5, 1, 1794268800000⟩] 0 "2026-11-04"
      12 [⟨some "a", 5⟩, ⟨some "b", 7⟩] := by
  have hSpec := allocateFefo_spec none 12 0
    [⟨"b", "B", 10, 1, 1796083200000⟩, ⟨"a", "A", 5, 1, 1794268800000⟩] "2026-11-04" (by decide)
  rw [if_pos (by decide +kernel)] at hSpec
  exact hSpec.2 _ (by decide +kernel)

/-- A request of nothing fails although nothing is missing. -/
theorem fefo_refuses_zero :
    ¬ ((∃ error, allocateFefo none 0 5 [] "2026-11-04" = .error error) ↔
      (coverableUnits "2026-11-04" [] 5 : Rat) < 0) := by
  intro h
  have hShort := h.mp ⟨_, rfl⟩
  exact absurd hShort (by decide +kernel)

end

end Houndfe.Inventory
