import Houndfe.Inventory.StockWrites

/-! Sound stock: stock that agrees with its journal, where parents of variants and untracked
portions that nothing tracks are empty. It survives journal writes and the edits of rows
that product operations make. -/

namespace Houndfe.Inventory

/-- What the stock holds in a bucket; nothing when it has no such bucket. -/
def heldIn (stock : List ProductStockState) (bucket : StockBucketRef) : Int :=
  match Keyed.lookup ProductStockState.id stock bucket.productId with
  | some product => (product.balance bucket).getD 0
  | none => 0

/-- Stock that agrees with its journal. -/
structure Sound (stock : List ProductStockState) (journal : List PlannedMovement) : Prop where
  stocked : WellStocked stock
  parentEmpty : ∀ product ∈ stock, product.hasVariants = true →
    product.quantity = 0 ∧ ∀ lot ∈ product.lots, lot.quantity = 0
  untrackedEmpty : ∀ product ∈ stock, product.useStock = false → product.untracked = 0
  journaled : ∀ bucket, moved bucket journal = heldIn stock bucket

/-- No bucket of the product holds a unit. -/
def ProductStockState.IsEmpty (product : ProductStockState) : Prop :=
  product.quantity = 0 ∧ (∀ lot ∈ product.lots, lot.quantity = 0) ∧
    ∀ variant ∈ product.variants, variant.quantity = 0

/-- Products that track no stock hold none. -/
def Idle (stock : List ProductStockState) : Prop :=
  ∀ product ∈ stock, product.useStock = false → product.IsEmpty

/-- Only a product marked as one with variants has them. -/
def Flagged (stock : List ProductStockState) : Prop :=
  ∀ product ∈ stock, product.variants ≠ [] → product.hasVariants = true

section

variable {stock : List ProductStockState} {journal movements : List PlannedMovement}
  {product : ProductStockState} {bucket : StockBucketRef}

theorem heldIn_of_mem (hStock : WellStocked stock) (hMem : product ∈ stock)
    (hOwn : bucket.productId = product.id) :
    heldIn stock bucket = (product.balance bucket).getD 0 := by
  rw [heldIn, hOwn, Keyed.lookup_of_mem hStock.productIds hMem]

theorem heldIn_of_absent (h : ∀ product ∈ stock, product.id ≠ bucket.productId) :
    heldIn stock bucket = 0 := by
  rw [heldIn, Keyed.lookup_eq_none.mpr h]

/-! ### Journal writes -/

/-- Movements that stock accepts: of buckets that its products have and may move. -/
structure Accepted (stock : List ProductStockState) (movements : List PlannedMovement) : Prop where
  accepts : ∀ product ∈ stock, ∀ movement ∈ movements,
    movement.bucket.productId = product.id → product.Accepts movement.bucket
  owned : ∀ movement ∈ movements, ∃ product ∈ stock, movement.bucket.productId = product.id

theorem Accepted.lands (h : Accepted stock movements) (hMem : product ∈ stock) :
    ∀ movement ∈ movements, product.Lands movement :=
  fun movement hMovement =>
    ProductStockState.lands_of_accepts (h.accepts product hMem movement hMovement)

theorem Accepted.moved_of_not_accepts (h : Accepted stock movements) (hMem : product ∈ stock)
    (hOwn : bucket.productId = product.id) (hNot : ¬ product.Accepts bucket) :
    moved bucket movements = 0 := by
  apply moved_eq_zero
  intro movement hMovement hBucket
  cases hBucket
  exact hNot (h.accepts product hMem movement hMovement hOwn)

theorem heldIn_plus (hStock : WellStocked stock) (h : Accepted stock movements) :
    heldIn (stock.map (·.plus movements)) bucket =
      heldIn stock bucket + moved bucket movements := by
  have hLookup : Keyed.lookup ProductStockState.id (stock.map (·.plus movements))
      bucket.productId = (Keyed.lookup ProductStockState.id stock bucket.productId).map
        (·.plus movements) := Keyed.lookup_map fun _ => rfl
  unfold heldIn
  rw [hLookup]
  cases hFound : Keyed.lookup ProductStockState.id stock bucket.productId with
  | none =>
      have hNone : moved bucket movements = 0 := by
        apply moved_eq_zero
        intro movement hMovement hBucket
        obtain ⟨product, hMem, hOwner⟩ := h.owned movement hMovement
        exact Keyed.lookup_eq_none.mp hFound product hMem (hBucket ▸ hOwner.symm)
      simp [hNone]
  | some product =>
      obtain ⟨hMem, hId⟩ := Keyed.lookup_eq_some hFound
      simp only [Option.map_some]
      rw [ProductStockState.balance_plus hId.symm (hStock.lotKeys hMem) (h.lands hMem)]
      cases hBalance : product.balance bucket with
      | some quantity => rfl
      | none =>
          have hNot : ¬ product.Accepts bucket := by
            intro hAccepts
            have hSome := ProductStockState.isSome_balance_of_accepts hAccepts
            rw [hBalance] at hSome
            cases hSome
          simp [h.moved_of_not_accepts hMem hId.symm hNot]

/-- Movements of a product's own stock are none while it has variants. -/
theorem Accepted.productMoved_eq_zero (h : Accepted stock movements) (hMem : product ∈ stock)
    (hVariants : product.hasVariants = true) : productMoved product.id movements = 0 := by
  apply Journal.total_eq_zero
  intro movement hMovement
  by_contra hCounts
  rw [Bool.not_eq_false] at hCounts
  have hAccepts := h.accepts product hMem movement hMovement
  unfold PlannedMovement.countsFor at hCounts
  cases hBucket : movement.bucket with
  | productUntracked owner =>
      rw [hBucket] at hCounts hAccepts
      have hNot := (hAccepts (by simpa using hCounts)).1
      rw [hVariants] at hNot
      cases hNot
  | lot owner lotId =>
      rw [hBucket] at hCounts hAccepts
      have hNot := (hAccepts (by simpa using hCounts)).1
      rw [hVariants] at hNot
      cases hNot
  | variant owner variantId =>
      rw [hBucket] at hCounts
      cases hCounts

theorem Sound.write (hSound : Sound stock journal) (h : Accepted stock movements)
    (hStocked : WellStocked (stock.map (·.plus movements))) :
    Sound (stock.map (·.plus movements)) (journal ++ movements) := by
  refine ⟨hStocked, ?_, ?_, ?_⟩
  · rw [List.forall_mem_map]
    intro product hMem hVariants
    have hTrue : product.hasVariants = true := hVariants
    obtain ⟨hQuantity, hLots⟩ := hSound.parentEmpty product hMem hTrue
    constructor
    · show product.quantity + productMoved product.id movements = 0
      rw [hQuantity, h.productMoved_eq_zero hMem hTrue, add_zero]
    · intro after hAfter
      obtain ⟨lot, hLot, rfl⟩ := List.mem_map.mp hAfter
      have hNot : ¬ product.Accepts (.lot product.id lot.id) := by
        intro hAccepts
        rw [hAccepts.1] at hTrue
        cases hTrue
      show lot.quantity + moved _ movements = 0
      rw [hLots lot hLot, h.moved_of_not_accepts hMem rfl hNot, add_zero]
  · rw [List.forall_mem_map]
    intro product hMem hUntracked
    have hFalse : product.useStock = false := hUntracked
    have hNot : ¬ product.Accepts (.productUntracked product.id) := by
      intro hAccepts
      rw [hAccepts.2] at hFalse
      cases hFalse
    rw [ProductStockState.untracked_plus (hSound.stocked.lotKeys hMem) (h.lands hMem),
      hSound.untrackedEmpty product hMem hFalse, h.moved_of_not_accepts hMem rfl hNot, add_zero]
  · intro bucket
    rw [heldIn_plus hSound.stocked h, ← hSound.journaled bucket]
    exact Journal.total_append journal movements

/-- Untracked products stay empty when no movement puts units on them. -/
theorem Idle.write (hIdle : Idle stock) (hStocked : WellStocked (stock.map (·.plus movements)))
    (hPuts : ∀ movement ∈ movements, movement.delta < 0 ∨ ∀ product ∈ stock,
      product.id = movement.bucket.productId → product.useStock = true) :
    Idle (stock.map (·.plus movements)) := by
  rw [Idle, List.forall_mem_map]
  intro product hMem hUntracked
  have hFalse : product.useStock = false := hUntracked
  obtain ⟨hQuantity, hLots, hVariants⟩ := hIdle product hMem hFalse
  have hIn : product.plus movements ∈ stock.map (·.plus movements) := List.mem_map_of_mem hMem
  have hTakes : ∀ on : PlannedMovement → Bool,
      (∀ movement, on movement → movement.bucket.productId = product.id) →
        Journal.total PlannedMovement.delta on movements ≤ 0 := by
    intro on hOn
    apply Journal.total_nonpos
    intro movement hMovement hSelected
    rcases hPuts movement hMovement with hTakes | hTracked
    · exact Int.le_of_lt hTakes
    · rw [hTracked product hMem (hOn movement hSelected).symm] at hFalse
      cases hFalse
  refine ⟨?_, ?_, ?_⟩
  · have hNonneg := hStocked.quantity_nonneg hIn
    have hMoved := hTakes (·.countsFor product.id) (by
      intro movement hCounts
      unfold PlannedMovement.countsFor at hCounts
      cases hBucket : movement.bucket <;> simp_all)
    show product.quantity + productMoved product.id movements = 0
    have hAfter : 0 ≤ product.quantity + productMoved product.id movements := hNonneg
    unfold productMoved at hAfter ⊢
    omega
  · intro after hAfter
    have hNonneg := hStocked.lots _ hIn after hAfter
    obtain ⟨lot, hLot, rfl⟩ := List.mem_map.mp hAfter
    have hMoved := hTakes (fun movement => movement.bucket = .lot product.id lot.id) (by
      intro movement hBucket
      rw [of_decide_eq_true hBucket]
      rfl)
    have hBefore := hLots lot hLot
    unfold moved at hNonneg ⊢
    dsimp only at hNonneg ⊢
    omega
  · intro after hAfter
    have hNonneg := hStocked.variants _ hIn after hAfter
    obtain ⟨variant, hVariant, rfl⟩ := List.mem_map.mp hAfter
    have hMoved := hTakes (fun movement => movement.bucket = .variant product.id variant.id) (by
      intro movement hBucket
      rw [of_decide_eq_true hBucket]
      rfl)
    have hBefore := hVariants variant hVariant
    unfold moved at hNonneg ⊢
    dsimp only at hNonneg ⊢
    omega

theorem Flagged.write (hFlagged : Flagged stock) : Flagged (stock.map (·.plus movements)) := by
  rw [Flagged, List.forall_mem_map]
  intro product hMem hVariants
  apply hFlagged product hMem
  intro hNone
  exact hVariants (by simp [ProductStockState.plus, hNone])

/-! ### Edits of one product -/

/-- The stock with the product of this id edited. -/
def editAt (id : String) (edit : ProductStockState → ProductStockState)
    (stock : List ProductStockState) : List ProductStockState :=
  stock.map fun product => if product.id = id then edit product else product

variable {id : String} {edit : ProductStockState → ProductStockState}

theorem forall_mem_editAt {P : ProductStockState → Prop} :
    (∀ product ∈ editAt id edit stock, P product) ↔
      ∀ product ∈ stock, (product.id = id → P (edit product)) ∧ (product.id ≠ id → P product) := by
  rw [editAt, List.forall_mem_map]
  constructor
  · intro h product hMem
    have hProduct := h product hMem
    constructor
    · intro hId
      rwa [if_pos hId] at hProduct
    · intro hId
      rwa [if_neg hId] at hProduct
  · intro h product hMem
    by_cases hId : product.id = id
    · rw [if_pos hId]
      exact (h product hMem).1 hId
    · rw [if_neg hId]
      exact (h product hMem).2 hId

/-- An edit that keeps the ids of the tables apart and no bucket negative. -/
structure KeepsStock (stock : List ProductStockState) (id : String)
    (edit : ProductStockState → ProductStockState) : Prop where
  sameId : ∀ product, (edit product).id = product.id
  lotIds : ((editAt id edit stock).flatMap fun product => product.lots.map (·.id)).Nodup
  variantIds : ((editAt id edit stock).flatMap fun product => product.variants.map (·.id)).Nodup
  held : ∀ product ∈ stock, product.id = id → ∀ bucket, bucket.productId = id →
    ((edit product).balance bucket).getD 0 = (product.balance bucket).getD 0

theorem productIds_editAt (hSameId : ∀ product, (edit product).id = product.id) :
    (editAt id edit stock).map (·.id) = stock.map (·.id) := by
  rw [editAt, List.map_map]
  apply List.map_congr_left
  intro product _
  rw [Function.comp_apply]
  split
  · exact hSameId product
  · rfl

/-- A bucket held is a non-negative one. -/
theorem WellStocked.getD_balance_nonneg (hStock : WellStocked stock) (hMem : product ∈ stock)
    (bucket : StockBucketRef) : 0 ≤ (product.balance bucket).getD 0 := by
  cases bucket with
  | productUntracked owner => exact hStock.covered product hMem
  | lot owner lotId =>
      cases hBalance : product.balance (.lot owner lotId) with
      | none => exact Int.le_refl 0
      | some quantity =>
          obtain ⟨lot, hLot, _, rfl⟩ := ProductStockState.balance_lot hBalance
          exact hStock.lots product hMem lot hLot
  | variant owner variantId =>
      cases hBalance : product.balance (.variant owner variantId) with
      | none => exact Int.le_refl 0
      | some quantity =>
          obtain ⟨variant, hVariant, _, rfl⟩ := ProductStockState.balance_variant hBalance
          exact hStock.variants product hMem variant hVariant

theorem KeepsStock.wellStocked (h : KeepsStock stock id edit) (hStock : WellStocked stock) :
    WellStocked (editAt id edit stock) := by
  have hNonneg : ∀ product ∈ stock, product.id = id → ∀ bucket, bucket.productId = id →
      0 ≤ ((edit product).balance bucket).getD 0 := by
    intro product hMem hId bucket hOwn
    rw [h.held product hMem hId bucket hOwn]
    exact hStock.getD_balance_nonneg hMem bucket
  have hGroups := List.nodup_flatMap.mp h.lotIds
  have hVariantGroups := List.nodup_flatMap.mp h.variantIds
  have hIds : ((editAt id edit stock).map (·.id)).Nodup := by
    rw [productIds_editAt h.sameId]
    exact hStock.productIds
  refine ⟨hIds, h.lotIds, h.variantIds, ?_, ?_, ?_⟩
  · rw [forall_mem_editAt]
    intro product hMem
    refine ⟨?_, fun _ => hStock.lots product hMem⟩
    intro hId lot hLot
    have hIn : edit product ∈ editAt id edit stock :=
      List.mem_map.mpr ⟨product, hMem, if_pos hId⟩
    have hBalance := hNonneg product hMem hId (.lot id lot.id) rfl
    rwa [ProductStockState.balance,
      Keyed.lookup_of_mem (hGroups.1 _ hIn) hLot] at hBalance
  · rw [forall_mem_editAt]
    intro product hMem
    refine ⟨?_, fun _ => hStock.variants product hMem⟩
    intro hId variant hVariant
    have hIn : edit product ∈ editAt id edit stock :=
      List.mem_map.mpr ⟨product, hMem, if_pos hId⟩
    have hBalance := hNonneg product hMem hId (.variant id variant.id) rfl
    rwa [ProductStockState.balance,
      Keyed.lookup_of_mem (hVariantGroups.1 _ hIn) hVariant] at hBalance
  · rw [forall_mem_editAt]
    intro product hMem
    exact ⟨fun hId => hNonneg product hMem hId (.productUntracked id) rfl,
      fun _ => hStock.covered product hMem⟩

/-- An edit that leaves every bucket as it was keeps stock sound, as long as the product it
edits keeps the rules on its flags. -/
theorem Sound.edited (hSound : Sound stock journal) (h : KeepsStock stock id edit)
    (hParent : ∀ product ∈ stock, product.id = id → (edit product).hasVariants = true →
      (edit product).quantity = 0 ∧ ∀ lot ∈ (edit product).lots, lot.quantity = 0)
    (hUntracked : ∀ product ∈ stock, product.id = id → (edit product).useStock = false →
      product.untracked = 0) : Sound (editAt id edit stock) journal := by
  have hStocked := h.wellStocked hSound.stocked
  refine ⟨hStocked, ?_, ?_, ?_⟩
  · rw [forall_mem_editAt]
    exact fun product hMem => ⟨hParent product hMem, fun _ => hSound.parentEmpty product hMem⟩
  · rw [forall_mem_editAt]
    intro product hMem
    refine ⟨?_, fun _ => hSound.untrackedEmpty product hMem⟩
    intro hId hFalse
    have hHeld := h.held product hMem hId (.productUntracked id) rfl
    have hZero := hUntracked product hMem hId hFalse
    simpa [ProductStockState.balance, hZero] using hHeld
  · intro bucket
    rw [hSound.journaled bucket]
    by_cases hFound : ∃ product ∈ stock, product.id = bucket.productId
    · obtain ⟨product, hMem, hId⟩ := hFound
      rw [heldIn_of_mem hSound.stocked hMem hId.symm]
      by_cases hHere : product.id = id
      · have hIn : edit product ∈ editAt id edit stock :=
          List.mem_map.mpr ⟨product, hMem, if_pos hHere⟩
        rw [heldIn_of_mem hStocked hIn ((h.sameId product).trans hId).symm,
          h.held product hMem hHere bucket (hId.symm.trans hHere)]
      · have hIn : product ∈ editAt id edit stock :=
          List.mem_map.mpr ⟨product, hMem, if_neg hHere⟩
        rw [heldIn_of_mem hStocked hIn hId.symm]
    · push Not at hFound
      rw [heldIn_of_absent hFound, heldIn_of_absent]
      rw [forall_mem_editAt]
      intro product hMem
      have hNe := hFound product hMem
      exact ⟨fun _ => by rwa [h.sameId product], fun _ => hNe⟩

end

end Houndfe.Inventory
