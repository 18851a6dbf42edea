import Houndfe.Inventory.StockConfiguration

/-! The availability check of a sale line against its charge. Both leave out expired lots; they
part where a product tracks no stock: the check never asks for it, the charge of a variant
line does. -/

namespace Houndfe.Inventory

open Transition StockJournalWriter

/-! ### The check -/

def sumExpiredLotQuantity (lots : List LotStockState) (today : String) : Int :=
  ((lots.filter fun lot => isLotExpired lot.expirationDate today).map (·.quantity)).sum

/-- Units in lots that are past their date. -/
def expiredLotQuantity (today : String) (product : ProductStockState) : Int :=
  sumExpiredLotQuantity (product.lots.filter (0 < ·.quantity)) today

/-- `currentStock` is absent for a product that tracks no stock. -/
structure StockLevel where
  available : Bool
  currentStock : Option Int
  deriving DecidableEq, Repr

def checkStockAvailability (today : String) (tables : StockTables) (productId : String)
    (variantId : Option String) (requestedQuantity : Rat) : Except DomainError StockLevel :=
  match tables.findProduct productId with
  | none => .error (entityNotFoundError "Product" productId)
  | some product =>
      if !product.useStock then .ok ⟨true, none⟩
      else
        match variantId.filter (· ≠ ""), product.hasVariants with
        | some variantId, true =>
            let variant := Keyed.lookup VariantStockState.id product.variants variantId
            let currentStock : Int := (variant.map (·.quantity)).getD 0
            .ok ⟨requestedQuantity ≤ currentStock, some currentStock⟩
        | _, _ =>
            let currentStock : Int :=
              max (product.quantity - expiredLotQuantity today product.toProductStockState) 0
            .ok ⟨requestedQuantity ≤ currentStock, some currentStock⟩

/-! ### The FEFO split -/

section

variable {lots : List LotStockState} {remaining : Int}

/-- What is left when the lots are through. -/
theorem takeFromLots_left (hPositive : ∀ lot ∈ lots, 0 < lot.quantity) (hRemaining : 0 ≤ remaining) :
    (takeFromLots remaining lots).2 = max (remaining - (lots.map (·.quantity)).sum) 0 := by
  induction lots generalizing remaining with
  | nil => simp [takeFromLots, hRemaining]
  | cons lot rest ih =>
      obtain ⟨hLot, hRest⟩ := List.forall_mem_cons.mp hPositive
      have hSum : 0 ≤ (rest.map (·.quantity)).sum := by
        apply List.sum_nonneg
        intro quantity hQuantity
        obtain ⟨other, hOther, rfl⟩ := List.mem_map.mp hQuantity
        exact (hRest other hOther).le
      unfold takeFromLots
      split
      · next hZero =>
          rw [List.map_cons, List.sum_cons]
          omega
      · have hLater : 0 ≤ remaining - min lot.quantity remaining := by omega
        simp only [ih hRest hLater, List.map_cons, List.sum_cons]
        omega

/-- Each lot is taken from at most once, in order, and not for more than it holds. -/
theorem takeFromLots_takes (hPositive : ∀ lot ∈ lots, 0 < lot.quantity)
    (hRemaining : 0 ≤ remaining) :
    ∃ taken : List (LotStockState × Int), (taken.map Prod.fst).Sublist lots ∧
      (∀ entry ∈ taken, 0 < entry.2 ∧ entry.2 ≤ entry.1.quantity) ∧
      (takeFromLots remaining lots).1 = taken.map fun entry => ⟨some entry.1.id, entry.2⟩ := by
  induction lots generalizing remaining with
  | nil => exact ⟨[], .slnil, by simp, rfl⟩
  | cons lot rest ih =>
      obtain ⟨hLot, hRest⟩ := List.forall_mem_cons.mp hPositive
      unfold takeFromLots
      split
      · exact ⟨[], List.nil_sublist _, by simp, rfl⟩
      · have hLater : 0 ≤ remaining - min lot.quantity remaining := by omega
        obtain ⟨taken, hSublist, hTaken, hSame⟩ := ih hRest hLater
        refine ⟨(lot, min lot.quantity remaining) :: taken, hSublist.cons_cons lot, ?_, ?_⟩
        · rw [List.forall_mem_cons]
          exact ⟨⟨by omega, min_le_left _ _⟩, hTaken⟩
        · simp only [hSame, List.map_cons]

end

/-- The units that can be sold on a day: all but those in expired lots. -/
def sellableUnits (today : String) (product : ProductStockState) : Int :=
  product.untracked +
    ((product.lots.filter fun lot => !isLotExpired lot.expirationDate today).map
      (·.quantity)).sum

section

variable {product : ProductStockState} {today : String}

theorem sum_positive_lots {lots : List LotStockState} (hNonneg : ∀ lot ∈ lots, 0 ≤ lot.quantity)
    (p : LotStockState → Bool) :
    ((lots.filter fun lot => 0 < lot.quantity && p lot).map (·.quantity)).sum =
      ((lots.filter p).map (·.quantity)).sum := by
  induction lots with
  | nil => rfl
  | cons lot rest ih =>
      obtain ⟨hLot, hRest⟩ := List.forall_mem_cons.mp hNonneg
      have hSum := ih hRest
      rcases hLot.eq_or_lt with hZero | hPositive
      · cases hP : p lot <;> simp [← hZero, hP, hSum]
      · cases hP : p lot <;> simp [hPositive, hP, hSum]

/-- What the check shows is what can be sold. -/
theorem sellableUnits_eq (today : String) (hNonneg : ∀ lot ∈ product.lots, 0 ≤ lot.quantity) :
    product.quantity - expiredLotQuantity today product = sellableUnits today product := by
  have hExpired : expiredLotQuantity today product =
      ((product.lots.filter fun lot => isLotExpired lot.expirationDate today).map
        (·.quantity)).sum := by
    rw [← sum_positive_lots hNonneg, expiredLotQuantity, sumExpiredLotQuantity, List.filter_filter]
    simp only [Bool.and_comm]
  have hSplit := List.sum_map_filter_add_sum_map_filter_not
    (fun lot : LotStockState => isLotExpired lot.expirationDate today = true) (·.quantity)
    product.lots
  simp only [Bool.decide_eq_true, Bool.not_eq_true, Bool.decide_eq_false] at hSplit
  unfold sellableUnits ProductStockState.untracked
  rw [hExpired]
  omega

theorem sellableUnits_nonneg (today : String)
    (hNonneg : ∀ lot ∈ product.lots, 0 ≤ lot.quantity) (hCovered : 0 ≤ product.untracked) : 0 ≤ sellableUnits today product := by
  apply Int.add_nonneg hCovered
  apply List.sum_nonneg
  intro quantity hQuantity
  obtain ⟨lot, hLot, rfl⟩ := List.mem_map.mp hQuantity
  exact hNonneg lot (List.mem_of_mem_filter hLot)

/-- What a split gives: units of lots, each taken from once, and the rest from the untracked
portion. -/
structure FefoSplit (product : ProductStockState) (allocations : List FefoAllocation)
    (taken : List (LotStockState × Int)) (rest : Int) : Prop where
  split : allocations = (taken.map fun entry => ⟨some entry.1.id, entry.2⟩) ++
    if 0 < rest then [⟨none, rest⟩] else []
  lots : ((taken.map Prod.fst).map (·.id)).Nodup
  mem : ∀ entry ∈ taken, entry.1 ∈ product.lots
  enough : ∀ entry ∈ taken, 0 < entry.2 ∧ entry.2 ≤ entry.1.quantity
  covered : rest ≤ product.untracked

theorem num_of_isInt {q : Rat} (h : q.isInt = true) : (q.num : Rat) = q := by
  have hDen : q.den = 1 := by simpa [Rat.isInt] using h
  exact Rat.coe_int_num_of_den_eq_one hDen

/-- The lots that a sale on this day takes from, in FEFO order. -/
def fefoOrder (today : String) (lots : List LotStockState) : List LotStockState :=
  Keyed.sortByKey (fun lot => toLex (lot.expirationDate, lot.id))
    (lots.filter fun lot => 0 < lot.quantity && !isLotExpired lot.expirationDate today)

theorem mem_fefoOrder {lots : List LotStockState} {lot : LotStockState} :
    lot ∈ fefoOrder today lots ↔
      lot ∈ lots ∧ 0 < lot.quantity ∧ isLotExpired lot.expirationDate today = false := by
  rw [fefoOrder, (Keyed.sortByKey_perm _ _).mem_iff]
  simp

theorem sum_fefoOrder (hNonneg : ∀ lot ∈ product.lots, 0 ≤ lot.quantity) :
    product.untracked + ((fefoOrder today product.lots).map (·.quantity)).sum =
      sellableUnits today product := by
  have hPerm := (Keyed.sortByKey_perm (fun lot : LotStockState =>
    toLex (lot.expirationDate, lot.id)) (product.lots.filter fun lot =>
      0 < lot.quantity && !isLotExpired lot.expirationDate today)).map (·.quantity)
  rw [fefoOrder, hPerm.sum_eq, sum_positive_lots hNonneg, sellableUnits]

/-- The split of a whole quantity: from the lots first, the rest from the untracked portion. -/
theorem allocateFefo_whole {lots : List LotStockState} {untracked : Int}
    {productId : Option String} {quantity : Rat} (hWhole : quantity.isInt = true)
    (hPositive : 0 < quantity) :
    allocateFefo productId quantity untracked lots today =
      (let taken := takeFromLots quantity.num (fefoOrder today lots)
      if taken.2 > 0 then
        if untracked < taken.2 then
          .error (.insufficientStock "PRODUCT" (productId.getD "sellable")
            (((fefoOrder today lots).map (·.quantity)).sum + max untracked 0) quantity.num)
        else .ok (taken.1 ++ [⟨none, taken.2⟩])
      else .ok taken.1) := by
  unfold allocateFefo
  rw [if_neg (by simp [hWhole, hPositive])]
  rfl

theorem allocateFefo_not_whole {lots : List LotStockState} {untracked : Int}
    {productId : Option String} {quantity : Rat}
    (h : ¬ (quantity.isInt = true ∧ 0 < quantity)) :
    allocateFefo productId quantity untracked lots today =
      .error (.rangeError "FEFO quantity must be a positive integer") := by
  unfold allocateFefo
  rw [if_pos]
  simp only [Bool.or_eq_true, Bool.not_eq_true', decide_eq_true_eq]
  by_contra hBad
  push Not at hBad
  exact h ⟨by simpa using hBad.1, hBad.2⟩

theorem intCast_le_iff {q : Rat} (hWhole : q.isInt = true) {n : Int} : q ≤ n ↔ q.num ≤ n := by
  rw [← Rat.intCast_le_intCast, num_of_isInt hWhole]

/-- The split of a line succeeds for whole quantities up to what can be sold. -/
theorem allocateFefo_eq_ok (productId : Option String)
    (hNonneg : ∀ lot ∈ product.lots, 0 ≤ lot.quantity)
    (hCovered : 0 ≤ product.untracked) {quantity : Rat} :
    (∃ allocations, allocateFefo productId quantity product.untracked product.lots today =
        .ok allocations) ↔
      quantity.isInt = true ∧ 0 < quantity ∧ quantity ≤ sellableUnits today product := by
  by_cases hWhole : quantity.isInt = true ∧ 0 < quantity
  · obtain ⟨hInt, hPositive⟩ := hWhole
    have hNum := Rat.num_pos.mpr hPositive
    have hLots : ∀ lot ∈ fefoOrder today product.lots, 0 < lot.quantity :=
      fun lot hLot => (mem_fefoOrder.mp hLot).2.1
    have hLeft := takeFromLots_left hLots hNum.le
    have hSum := @sum_fefoOrder _ today hNonneg
    simp only [allocateFefo_whole hInt hPositive, hInt, hPositive, true_and,
      intCast_le_iff hInt, hLeft]
    split
    · split
      · simp only [reduceCtorEq, exists_false, false_iff]
        omega
      · simp only [Except.ok.injEq, exists_eq', true_iff]
        omega
    · simp only [Except.ok.injEq, exists_eq', true_iff]
      omega
  · rw [allocateFefo_not_whole hWhole]
    simp only [reduceCtorEq, exists_false, false_iff]
    rintro ⟨hInt, hPositive, -⟩
    exact hWhole ⟨hInt, hPositive⟩

theorem nodup_fefoOrder {lots : List LotStockState} (hKeys : (lots.map (·.id)).Nodup) :
    ((fefoOrder today lots).map (·.id)).Nodup := by
  have hPerm := (Keyed.sortByKey_perm (fun lot : LotStockState =>
    toLex (lot.expirationDate, lot.id)) (lots.filter fun lot =>
      0 < lot.quantity && !isLotExpired lot.expirationDate today)).map (·.id)
  exact hPerm.nodup_iff.mpr (hKeys.sublist (List.filter_sublist.map _))

/-- A successful split takes from distinct lots, and the rest from the untracked portion. -/
theorem allocateFefo_split (hKeys : (product.lots.map (·.id)).Nodup)
    (hCovered : 0 ≤ product.untracked) {productId : Option String}
    {quantity : Rat} {allocations : List FefoAllocation}
    (h : allocateFefo productId quantity product.untracked product.lots today =
      .ok allocations) : ∃ taken rest, FefoSplit product allocations taken rest := by
  by_cases hWhole : quantity.isInt = true ∧ 0 < quantity
  · obtain ⟨hInt, hPositive⟩ := hWhole
    have hNum := Rat.num_pos.mpr hPositive
    have hLots : ∀ lot ∈ fefoOrder today product.lots, 0 < lot.quantity :=
      fun lot hLot => (mem_fefoOrder.mp hLot).2.1
    obtain ⟨taken, hSublist, hTaken, hSame⟩ := takeFromLots_takes hLots hNum.le
    have hOnce : ((taken.map Prod.fst).map (·.id)).Nodup :=
      (nodup_fefoOrder hKeys).sublist (hSublist.map _)
    have hMem : ∀ entry ∈ taken, entry.1 ∈ product.lots := by
      intro entry hEntry
      have hIn := hSublist.subset (List.mem_map_of_mem hEntry)
      exact (mem_fefoOrder.mp hIn).1
    rw [allocateFefo_whole hInt hPositive] at h
    dsimp only at h
    split at h
    · next hRest =>
        split at h
        · cases h
        · next hEnough =>
            cases h
            refine ⟨taken, (takeFromLots quantity.num (fefoOrder today product.lots)).2, ?_,
              hOnce, hMem, hTaken, by omega⟩
            rw [hSame, if_pos hRest]
    · cases h
      exact ⟨taken, 0, by simp [hSame], hOnce, hMem, hTaken, hCovered⟩
  · rw [allocateFefo_not_whole hWhole] at h
    cases h

end

/-! ### Taking units -/

/-- A change that takes units of one bucket of a product, no more than it holds. -/
structure StockChange.Takes (change : StockChange) (product : ProductStockState) : Prop where
  owner : change.bucket.productId = product.id
  whole : change.delta.isInt = true
  nonzero : change.delta ≠ 0
  anyVersion : change.expectedVersion = none
  accepts : product.Accepts change.bucket
  enough : ∀ held, product.balance change.bucket = some held → 0 ≤ held + change.delta.num

section

variable {plan next : StockPlan} {product : ProductStockState} {change : StockChange}

theorem WellStocked.lot_le_quantity {products : List ProductStockState}
    (hStock : WellStocked products) (hMem : product ∈ products) {lot : LotStockState}
    (hLot : lot ∈ product.lots) : lot.quantity ≤ product.quantity := by
  have hCovered := hStock.covered product hMem
  have hSum : lot.quantity ≤ (product.lots.map (·.quantity)).sum := by
    apply List.single_le_sum
    · intro quantity hQuantity
      obtain ⟨other, hOther, rfl⟩ := List.mem_map.mp hQuantity
      exact hStock.lots product hMem other hOther
    · exact List.mem_map_of_mem hLot
  unfold ProductStockState.untracked at hCovered
  omega

theorem apply_taking (hStock : WellStocked plan.products) (hMem : product ∈ plan.products)
    (hTakes : change.Takes product) : ∃ next, plan.apply change = .ok next := by
  have hFound : plan.findProduct product.id = some product :=
    Keyed.lookup_of_mem hStock.productIds hMem
  have hVersion : ∀ current, change.versionConflict current = false := by
    intro current
    simp [StockChange.versionConflict, hTakes.anyVersion]
  have hOwner := hTakes.owner
  have hAccepts := hTakes.accepts
  have hEnough := hTakes.enough
  unfold StockPlan.apply
  rw [if_neg (by simp [hTakes.whole, hTakes.nonzero])]
  cases hBucket : change.bucket with
  | productUntracked productId =>
      rw [hBucket] at hOwner hAccepts hEnough
      cases hOwner
      exact ⟨_, StockPlan.applyUntracked_eq_ok.mpr
        ⟨product, hFound, hAccepts.1, .inr ⟨hAccepts.2, hVersion _, hEnough _ rfl, rfl⟩⟩⟩
  | lot productId lotId =>
      rw [hBucket] at hOwner hAccepts hEnough
      cases hOwner
      obtain ⟨lot, hLot, rfl⟩ := List.mem_map.mp hAccepts.2
      have hLookup := Keyed.lookup_of_mem (hStock.lotKeys hMem) hLot
      have hHeld : product.balance (.lot product.id lot.id) = some lot.quantity := by
        rw [ProductStockState.balance, hLookup]
        rfl
      have hLotEnough := hEnough _ hHeld
      have hTotal := hStock.lot_le_quantity hMem hLot
      exact ⟨_, StockPlan.applyLot_eq_ok.mpr ⟨product, lot, hFound, hLookup, hAccepts.1,
        hVersion _, hLotEnough, by omega, rfl⟩⟩
  | variant productId variantId =>
      rw [hBucket] at hOwner hAccepts hEnough
      cases hOwner
      obtain ⟨variant, hVariant, rfl⟩ := List.mem_map.mp hAccepts
      have hLookup := Keyed.lookup_of_mem (hStock.variantKeys hMem) hVariant
      have hHeld : product.balance (.variant product.id variant.id) = some variant.quantity := by
        rw [ProductStockState.balance, hLookup]
        rfl
      exact ⟨_, StockPlan.applyVariant_eq_ok.mpr ⟨product, variant, hFound, hLookup, hVersion _,
        hEnough _ hHeld, rfl⟩⟩

/-- A movement of another bucket leaves the change as it is. -/
theorem StockChange.Takes.receive (hTakes : change.Takes product) {movement : PlannedMovement}
    (hKeys : (product.lots.map (·.id)).Nodup) (hLands : product.Lands movement)
    (hOther : movement.bucket ≠ change.bucket) : change.Takes (product.receive movement) where
  owner := hTakes.owner
  whole := hTakes.whole
  nonzero := hTakes.nonzero
  anyVersion := hTakes.anyVersion
  accepts := by
    have hSame : product.receive movement = product.plus [movement] := by
      rw [← List.nil_append [movement], ProductStockState.plus_snoc, ProductStockState.plus_nil]
    rw [hSame, ProductStockState.accepts_plus]
    exact hTakes.accepts
  enough := by
    intro held hHeld
    rw [ProductStockState.balance_receive hTakes.owner hKeys hLands, if_neg hOther] at hHeld
    exact hTakes.enough held (by simpa using hHeld)

/-- Changes that take from distinct buckets of a product all go through. -/
theorem applyEach_taking (hStock : WellStocked plan.products) (hMem : product ∈ plan.products)
    {changes : List StockChange} (hDistinct : (changes.map (·.bucket)).Nodup)
    (hTakes : ∀ change ∈ changes, change.Takes product) :
    ∃ next, plan.applyEach changes = (next, none) := by
  induction changes generalizing plan product with
  | nil => exact ⟨plan, rfl⟩
  | cons change rest ih =>
      obtain ⟨hChange, hRest⟩ := List.forall_mem_cons.mp hTakes
      rw [List.map_cons, List.nodup_cons] at hDistinct
      obtain ⟨middle, hApply⟩ := apply_taking hStock hMem hChange
      rcases StockPlan.apply_eq_ok hStock hApply with
        ⟨-, rfl⟩ | ⟨-, owner, movement, hBucket, -, hEmits⟩
      · obtain ⟨next, hLoop⟩ := ih hStock hMem hDistinct.2 hRest
        exact ⟨next, applyEach_cons.mpr ⟨_, hApply, hLoop⟩⟩
      · have hIn : product.receive movement ∈ middle.products := by
          rw [hEmits.products]
          exact List.mem_map_of_mem hMem
        have hLater : ∀ other ∈ rest, other.Takes (product.receive movement) := by
          intro other hOther
          apply (hRest other hOther).receive (hStock.lotKeys hMem)
            (hEmits.lands_of_mem hStock hMem)
          rw [hBucket]
          intro hSame
          exact hDistinct.1 (hSame ▸ List.mem_map_of_mem hOther)
        obtain ⟨next, hLoop⟩ := ih (hEmits.wellStocked hStock) hIn hDistinct.2 hLater
        exact ⟨next, applyEach_cons.mpr ⟨middle, hApply, hLoop⟩⟩

theorem num_neg_intCast (quantity : Int) : (-(quantity : Rat)).num = -quantity := by
  rw [Rat.neg_num, Rat.num_intCast]

/-- What a FEFO split allocates can be taken: its buckets are distinct, and each holds its
share. -/
theorem FefoSplit.takes (hStock : WellStocked plan.products) (hMem : product ∈ plan.products)
    (hVariants : product.hasVariants = false) (hTracked : product.useStock = true)
    (hIds : ∀ lot ∈ product.lots, lot.id ≠ "") {allocations : List FefoAllocation}
    {taken : List (LotStockState × Int)} {rest : Int}
    (hSplit : FefoSplit product allocations taken rest) :
    ((allocations.map (StockPlan.allocationChange product.id)).map (·.bucket)).Nodup ∧
      ∀ change ∈ allocations.map (StockPlan.allocationChange product.id),
        change.Takes product := by
  have hLot : ∀ entry ∈ taken, StockPlan.allocationChange product.id ⟨some entry.1.id, entry.2⟩ =
      { bucket := .lot product.id entry.1.id, delta := -entry.2 } := by
    intro entry hEntry
    simp [StockPlan.allocationChange, Option.filter, hIds _ (hSplit.mem entry hEntry)]
  have hRest : StockPlan.allocationChange product.id ⟨none, rest⟩ =
      { bucket := .productUntracked product.id, delta := -rest } := rfl
  have hChanges : allocations.map (StockPlan.allocationChange product.id) =
      (taken.map fun entry =>
        ({ bucket := .lot product.id entry.1.id, delta := -entry.2 } : StockChange)) ++
      if 0 < rest then [{ bucket := .productUntracked product.id, delta := -rest }] else [] := by
    rw [hSplit.split, List.map_append, List.map_map]
    congr 1
    · apply List.map_congr_left
      intro entry hEntry
      exact hLot entry hEntry
    · split
      · rw [List.map_singleton, hRest]
      · rfl
  rw [hChanges]
  constructor
  · rw [List.map_append, List.map_map]
    apply List.Nodup.append
    · have hInjective : Function.Injective fun lotId => StockBucketRef.lot product.id lotId :=
        fun _ _ h => (StockBucketRef.lot.inj h).2
      have hNodup := hSplit.lots.map hInjective
      simpa only [List.map_map, Function.comp_def] using hNodup
    · split <;> simp
    · split <;> simp [List.disjoint_left]
  · intro change hChange
    rcases List.mem_append.mp hChange with hTaken | hUntracked
    · obtain ⟨entry, hEntry, rfl⟩ := List.mem_map.mp hTaken
      obtain ⟨hPositive, hEnough⟩ := hSplit.enough entry hEntry
      have hIn := hSplit.mem entry hEntry
      refine ⟨rfl, by simp [Rat.isInt], by simpa using hPositive.ne', rfl,
        ⟨hVariants, List.mem_map_of_mem hIn⟩, ?_⟩
      intro held hHeld
      have hLookup := Keyed.lookup_of_mem (hStock.lotKeys hMem) hIn
      rw [ProductStockState.balance, hLookup] at hHeld
      have hSame : entry.1.quantity = held := Option.some.inj hHeld
      rw [num_neg_intCast]
      omega
    · split at hUntracked
      · next hPositive =>
          cases List.mem_singleton.mp hUntracked
          refine ⟨rfl, by simp [Rat.isInt], by simpa using hPositive.ne', rfl,
            ⟨hVariants, hTracked⟩, ?_⟩
          intro held hHeld
          cases hHeld
          have hCovered := hSplit.covered
          rw [num_neg_intCast]
          omega
      · cases hUntracked

end

/-! ### The check against the charge -/

/-- A line of a product with one of its variants, or of a product without variants. -/
def ValidPair (product : ProductStockState) (variantId : Option String) : Prop :=
  match variantId.filter (· ≠ "") with
  | some variantId => product.hasVariants = true ∧ variantId ∈ product.variants.map (·.id)
  | none => product.hasVariants = false

/-- The units that a line of this product can take on a day. -/
def ProductStockState.onOffer (today : String) (product : ProductStockState)
    (variantId : Option String) : Int :=
  match variantId.filter (· ≠ "") with
  | some variantId =>
      ((Keyed.lookup VariantStockState.id product.variants variantId).map (·.quantity)).getD 0
  | none => sellableUnits today product

/-- What the journal takes for a line: whole units, and some of them. -/
def Chargeable (variantId : Option String) (quantity : Rat) : Prop :=
  quantity.isInt = true ∧
    if (variantId.filter (· ≠ "")).isSome then quantity ≠ 0 else 0 < quantity

/-- The check lets a line through exactly when the charge of it succeeds; that of a product
without stock tracking always passes both, and writes nothing. -/
def ChecksAgree (today : String) (tables : StockTables) (product : ProductStockState)
    (variantId : Option String) (quantity : Rat) : Prop :=
  let plan := lockAndPlan tables [product.id] today
  let available := ∃ level, checkStockAvailability today tables product.id variantId quantity =
    .ok level ∧ level.available = true
  (available ↔ ∃ next, plan.charge ⟨product.id, variantId, quantity⟩ = (next, none)) ∧
    (product.useStock = false →
      available ∧ plan.charge ⟨product.id, variantId, quantity⟩ = (plan, none))

section

variable {tables : StockTables} {today : String} {product : ProductRow}
  {variantId : Option String} {quantity : Rat}

theorem findProduct_row (hStock : WellStocked tables.stock) (hMem : product ∈ tables.products) :
    tables.findProduct product.id = some product := by
  apply Keyed.lookup_of_mem _ hMem
  simpa [StockTables.stock, Function.comp_def] using hStock.productIds

/-- The check lets through what is on offer, and anything where no stock is tracked. -/
theorem available_iff (hStock : WellStocked tables.stock) (hMem : product ∈ tables.products)
    (hPair : ValidPair product.toProductStockState variantId) :
    (∃ level, checkStockAvailability today tables product.id variantId quantity = .ok level ∧
        level.available = true) ↔
      product.useStock = false ∨
        quantity ≤ product.toProductStockState.onOffer today variantId := by
  have hIn : product.toProductStockState ∈ tables.stock := List.mem_map_of_mem hMem
  have hNonneg := hStock.lots _ hIn
  unfold checkStockAvailability
  rw [findProduct_row hStock hMem]
  cases hTracked : product.useStock with
  | false => simp [hTracked]
  | true =>
      unfold ValidPair at hPair
      unfold ProductStockState.onOffer
      cases hVariant : variantId.filter (· ≠ "") with
      | some id =>
          rw [hVariant] at hPair
          simp [hTracked, hPair.1]
      | none =>
          have hOffer := sellableUnits_nonneg today hNonneg (hStock.covered _ hIn)
          have hShown := sellableUnits_eq today hNonneg
          have hMax : max (product.quantity - expiredLotQuantity today
              product.toProductStockState) 0 =
                sellableUnits today product.toProductStockState := by omega
          simp [hTracked, hMax]

theorem mem_loaded (today : String) (hMem : product ∈ tables.products) :
    product.toProductStockState ∈ (lockAndPlan tables [product.id] today).products :=
  List.mem_filter.mpr ⟨List.mem_map_of_mem hMem, by simp⟩

theorem findProduct_line (today : String) (hStock : WellStocked tables.stock)
    (hMem : product ∈ tables.products) :
    (lockAndPlan tables [product.id] today).findProduct product.id =
      some product.toProductStockState :=
  Keyed.lookup_of_mem (wellStocked_loaded today hStock _).productIds (mem_loaded today hMem)

theorem charge_variant {plan : StockPlan} {productId id : String}
    (hVariant : variantId.filter (· ≠ "") = some id) :
    plan.charge ⟨productId, variantId, quantity⟩ =
      plan.applyEach [{ bucket := .variant productId id, delta := -quantity }] := by
  unfold StockPlan.charge
  rw [hVariant]

/-- A variant line goes through when whole units are asked for and the variant has them. -/
theorem charge_variant_iff (hStock : WellStocked tables.stock) (hMem : product ∈ tables.products)
    {id : String} (hVariant : variantId.filter (· ≠ "") = some id)
    (hPair : ValidPair product.toProductStockState variantId) :
    (∃ next, (lockAndPlan tables [product.id] today).charge ⟨product.id, variantId, quantity⟩ =
        (next, none)) ↔
      Chargeable variantId quantity ∧
        quantity ≤ product.toProductStockState.onOffer today variantId := by
  have hLoaded := wellStocked_loaded today hStock [product.id]
  have hIn := mem_loaded today hMem
  have hFound := findProduct_line today hStock hMem
  unfold ValidPair at hPair
  rw [hVariant] at hPair
  obtain ⟨variant, hHas, rfl⟩ := List.mem_map.mp hPair.2
  have hLookup : Keyed.lookup VariantStockState.id product.variants variant.id = some variant :=
    Keyed.lookup_of_mem (hLoaded.variantKeys hIn) hHas
  have hNum : (-quantity).num = -quantity.num := Rat.neg_num quantity
  unfold Chargeable ProductStockState.onOffer
  rw [charge_variant hVariant, hVariant]
  simp only [hLookup, Option.isSome_some, if_true, Option.map_some, Option.getD_some]
  constructor
  · rintro ⟨next, h⟩
    obtain ⟨middle, hApply, -⟩ := applyEach_cons.mp h
    unfold StockPlan.apply at hApply
    split at hApply
    · cases hApply
    · next hWhole =>
        obtain ⟨hInt, hNonzero⟩ : quantity.isInt = true ∧ quantity ≠ 0 := by
          simpa [Rat.isInt] using hWhole
        obtain ⟨found, row, hSame, hRow, -, hEnough, -⟩ :=
          StockPlan.applyVariant_eq_ok.mp hApply
        cases hFound.symm.trans hSame
        cases hLookup.symm.trans hRow
        rw [hNum] at hEnough
        exact ⟨⟨hInt, hNonzero⟩, (intCast_le_iff hInt).mpr (by omega)⟩
  · rintro ⟨⟨hInt, hNonzero⟩, hOffer⟩
    rw [intCast_le_iff hInt] at hOffer
    apply applyEach_taking hLoaded hIn (by simp)
    rw [List.forall_mem_singleton]
    refine ⟨rfl, by simpa [Rat.isInt] using hInt, neg_ne_zero.mpr hNonzero, rfl, hPair.2, ?_⟩
    intro held hHeld
    rw [ProductStockState.balance, hLookup] at hHeld
    have hSame : variant.quantity = held := Option.some.inj hHeld
    rw [hNum]
    omega

/-- A line without variant goes through when whole units are asked for and the lots that are
not past their date have them together with the untracked portion. -/
theorem charge_product_iff (hStock : WellStocked tables.stock) (hMem : product ∈ tables.products)
    (hVariant : variantId.filter (· ≠ "") = none)
    (hIds : ∀ lot ∈ product.lots, lot.id ≠ "") (hTracked : product.useStock = true)
    (hPair : ValidPair product.toProductStockState variantId) :
    (∃ next, (lockAndPlan tables [product.id] today).charge ⟨product.id, variantId, quantity⟩ =
        (next, none)) ↔
      Chargeable variantId quantity ∧
        quantity ≤ product.toProductStockState.onOffer today variantId := by
  have hLoaded := wellStocked_loaded today hStock [product.id]
  have hIn := mem_loaded today hMem
  have hFound := findProduct_line today hStock hMem
  have hLots := hLoaded.lots _ hIn
  have hCovered := hLoaded.covered _ hIn
  unfold ValidPair at hPair
  rw [hVariant] at hPair
  have hToday : (lockAndPlan tables [product.id] today).today = today := rfl
  unfold StockPlan.charge Chargeable ProductStockState.onOffer
  simp only [hVariant, hFound, hTracked, hToday, Option.isSome_none, Bool.false_eq_true, if_false,
    Bool.not_true, and_assoc]
  rw [← allocateFefo_eq_ok (some product.id) hLots hCovered]
  cases hAllocate : allocateFefo (some product.id) quantity product.untracked product.lots today with
  | error e => simp
  | ok allocations =>
      obtain ⟨taken, rest, hSplit⟩ :=
        allocateFefo_split (hLoaded.lotKeys hIn) hCovered hAllocate
      obtain ⟨hDistinct, hTakes⟩ := hSplit.takes hLoaded hIn hPair hTracked hIds
      simp only [Except.ok.injEq, exists_eq', iff_true]
      exact applyEach_taking hLoaded hIn hDistinct hTakes

/-- No movement is written for a line of a product without variants that tracks no stock. -/
theorem charge_untracked (today : String) (quantity : Rat) (hStock : WellStocked tables.stock)
    (hMem : product ∈ tables.products) (hVariant : variantId.filter (· ≠ "") = none)
    (hTracked : product.useStock = false) :
    (lockAndPlan tables [product.id] today).charge ⟨product.id, variantId, quantity⟩ =
      (lockAndPlan tables [product.id] today, none) := by
  unfold StockPlan.charge
  rw [hVariant]
  simp [findProduct_line today hStock hMem, hTracked]

/-- A variant line that goes through leaves a movement. -/
theorem charge_variant_writes (hStock : WellStocked tables.stock) {id : String}
    (hVariant : variantId.filter (· ≠ "") = some id) :
    (lockAndPlan tables [product.id] today).charge ⟨product.id, variantId, quantity⟩ ≠
      (lockAndPlan tables [product.id] today, none) := by
  intro h
  rw [charge_variant hVariant] at h
  obtain ⟨emitted, hMovements, hEntries⟩ :=
    applyEach_eq_ok (wellStocked_loaded today hStock [product.id]) h
  have hNone : emitted = [] := by simpa using hMovements
  rw [hNone] at hEntries
  simp [StockPlan.drops] at hEntries

end

/-- On any stock, a line passes the check and the charge alike when its product tracks stock
and it asks for whole units or for more than is on offer, and when its product tracks none and
has no variants. Lot ids are generated, so that none is empty. -/
theorem checks_agree_iff {tables : StockTables} (hStock : WellStocked tables.stock)
    {product : ProductRow} (hMem : product ∈ tables.products)
    (hIds : ∀ lot ∈ product.lots, lot.id ≠ "") {variantId : Option String}
    (hPair : ValidPair product.toProductStockState variantId) (today : String) (quantity : Rat) :
    ChecksAgree today tables product.toProductStockState variantId quantity ↔
      if product.useStock then
        product.toProductStockState.onOffer today variantId < quantity ∨
          Chargeable variantId quantity
      else variantId.filter (· ≠ "") = none := by
  unfold ChecksAgree
  dsimp only
  rw [available_iff hStock hMem hPair]
  cases hTracked : product.useStock with
  | true =>
      have hCharge : (∃ next, (lockAndPlan tables [product.id] today).charge
          ⟨product.id, variantId, quantity⟩ = (next, none)) ↔
            Chargeable variantId quantity ∧
              quantity ≤ product.toProductStockState.onOffer today variantId := by
        cases hVariant : variantId.filter (· ≠ "") with
        | some id => exact charge_variant_iff hStock hMem hVariant hPair
        | none => exact charge_product_iff hStock hMem hVariant hIds hTracked hPair
      rw [hCharge, ← not_le]
      simp only [Bool.true_eq_false, false_or, false_implies, and_true, if_true]
      tauto
  | false =>
      simp only [true_or, true_iff, true_and, true_implies, Bool.false_eq_true, if_false]
      cases hVariant : variantId.filter (· ≠ "") with
      | some id =>
          simp only [reduceCtorEq, iff_false, not_and]
          exact fun _ => charge_variant_writes hStock hVariant
      | none =>
          have hCharge := charge_untracked today quantity hStock hMem hVariant hTracked
          simp only [iff_true]
          exact ⟨⟨_, hCharge⟩, hCharge⟩

/-- Two of the five units of a lot are asked for. -/
theorem checks_agree_on_lot :
    ∃ product ∈ ((trackedRequests.take 1).foldl serve emptyTables).products,
      ChecksAgree "2026-01-02" ((trackedRequests.take 1).foldl serve emptyTables)
        product.toProductStockState none 2 := by
  have run : Runs StockStep emptyTables (trackedRequests.take 1)
      ((trackedRequests.take 1).foldl serve emptyTables) := (Runs.zero _).succ ⟨trivial, rfl⟩
  have hRow : ∃ product ∈ ((trackedRequests.take 1).foldl serve emptyTables).products,
      product.useStock = true ∧ product.hasVariants = false ∧
        ∀ lot ∈ product.lots, lot.id ≠ "" := by
    decide
  obtain ⟨product, hMem, hTracked, hVariants, hIds⟩ := hRow
  have hPair : ValidPair product.toProductStockState none := hVariants
  refine ⟨product, hMem, (checks_agree_iff (configured_of_runs run).sound.rows_wellStocked hMem
    hIds hPair "2026-01-02" 2).mpr ?_⟩
  rw [if_pos hTracked]
  exact .inr ⟨rfl, by decide⟩

/-- A product without stock tracking gets a variant that holds nothing. -/
def emptyVariant : List (String × StockCommand) :=
  [("2026-01-01", .create "product" (newProduct false false [])),
   ("2026-01-01", .addVariant "product" "variant" (newSize 0))]

/-- Its line passes the check and is then refused by the charge. -/
theorem untracked_variant_is_refused : ∃ requests tables, ∃ product ∈ tables.products,
    Runs StockStep emptyTables requests tables ∧ product.useStock = false ∧
      ValidPair product.toProductStockState (some "variant") ∧
      checkStockAvailability "2026-01-02" tables product.id (some "variant") 1 =
        .ok ⟨true, none⟩ ∧
      ((lockAndPlan tables [product.id] "2026-01-02").charge
        ⟨product.id, some "variant", 1⟩).2 = some (.insufficientStock "VARIANT" "variant" 0 1) ∧
      ¬ ChecksAgree "2026-01-02" tables product.toProductStockState (some "variant") 1 := by
  have run : Runs StockStep emptyTables emptyVariant (emptyVariant.foldl serve emptyTables) :=
    ((Runs.zero _).succ ⟨trivial, rfl⟩).succ ⟨trivial, rfl⟩
  have hRow : ∃ product ∈ (emptyVariant.foldl serve emptyTables).products,
      product.useStock = false ∧
      (product.hasVariants = true ∧ "variant" ∈ product.variants.map (·.id)) ∧
      checkStockAvailability "2026-01-02" (emptyVariant.foldl serve emptyTables) product.id
        (some "variant") 1 = .ok ⟨true, none⟩ ∧
      ((lockAndPlan (emptyVariant.foldl serve emptyTables) [product.id] "2026-01-02").charge
        ⟨product.id, some "variant", 1⟩).2 = some (.insufficientStock "VARIANT" "variant" 0 1) := by
    decide
  obtain ⟨product, hMem, hUntracked, hPair, hCheck, hCharge⟩ := hRow
  refine ⟨emptyVariant, _, product, hMem, run, hUntracked, hPair, hCheck, hCharge, ?_⟩
  intro hAgree
  obtain ⟨next, hOk⟩ := hAgree.1.mp ⟨_, hCheck, rfl⟩
  rw [hOk] at hCharge
  cases hCharge

end Houndfe.Inventory
