import Houndfe.Inventory.StockPlan
import Mathlib.Algebra.Order.BigOperators.Group.List

/-! Stock buckets as accounts: what a bucket holds, what its movements add up to, and a
product after the movements it received. -/

namespace Houndfe.Inventory

/-- The bucket a movement row belongs to. -/
def PlannedMovement.bucket (movement : PlannedMovement) : StockBucketRef :=
  match movement.bucketKind, movement.variantId, movement.lotId with
  | .variant, some variantId, _ => .variant movement.productId variantId
  | .lot, _, some lotId => .lot movement.productId lotId
  | _, _, _ => .productUntracked movement.productId

/-- Lots and the untracked portion make up `Product.quantity`; variants do not. -/
def PlannedMovement.countsFor (movement : PlannedMovement) (productId : String) : Bool :=
  match movement.bucket with
  | .productUntracked owner => owner = productId
  | .lot owner _ => owner = productId
  | .variant _ _ => false

/-- The movements of a product's lots. -/
def PlannedMovement.isLotOf (movement : PlannedMovement) (productId : String) : Bool :=
  match movement.bucket with
  | .lot owner _ => owner = productId
  | _ => false

/-- The movements of a product's variants. -/
def PlannedMovement.isVariantOf (movement : PlannedMovement) (productId : String) : Bool :=
  match movement.bucket with
  | .variant owner _ => owner = productId
  | _ => false

theorem PlannedMovement.isLotOf_iff {movement : PlannedMovement} {productId : String} :
    movement.isLotOf productId ↔ ∃ lotId, movement.bucket = .lot productId lotId := by
  unfold isLotOf
  cases movement.bucket <;> simp

theorem PlannedMovement.isVariantOf_iff {movement : PlannedMovement} {productId : String} :
    movement.isVariantOf productId ↔
      ∃ variantId, movement.bucket = .variant productId variantId := by
  unfold isVariantOf
  cases movement.bucket <;> simp

/-- What the movements of one bucket add up to. -/
def moved (bucket : StockBucketRef) (movements : List PlannedMovement) : Int :=
  Journal.total PlannedMovement.delta (fun movement => movement.bucket = bucket) movements

/-- What the movements of a product's own stock add up to. -/
def productMoved (productId : String) (movements : List PlannedMovement) : Int :=
  Journal.total PlannedMovement.delta (·.countsFor productId) movements

/-- What the movements shown in the product total add up to. -/
def ProductStockState.shownMoved (product : ProductStockState)
    (movements : List PlannedMovement) : Int :=
  if product.hasVariants then
    Journal.total PlannedMovement.delta (·.isVariantOf product.id) movements
  else productMoved product.id movements

/-- The product after these movements, bucket by bucket. -/
def ProductStockState.plus (product : ProductStockState) (movements : List PlannedMovement) :
    ProductStockState :=
  { product with
    quantity := product.quantity + productMoved product.id movements
    lots := product.lots.map fun lot =>
      { lot with quantity := lot.quantity + moved (.lot product.id lot.id) movements }
    variants := product.variants.map fun variant =>
      { variant with
        quantity := variant.quantity + moved (.variant product.id variant.id) movements } }

/-- What the bucket holds; `none` when the product has no such bucket. -/
def ProductStockState.balance (product : ProductStockState) : StockBucketRef → Option Int
  | .productUntracked _ => some product.untracked
  | .lot _ lotId => (Keyed.lookup LotStockState.id product.lots lotId).map (·.quantity)
  | .variant _ variantId =>
      (Keyed.lookup VariantStockState.id product.variants variantId).map (·.quantity)

/-! ### One movement more -/

def LotStockState.receive (productId : String) (movement : PlannedMovement)
    (lot : LotStockState) : LotStockState :=
  { lot with quantity := lot.quantity +
      if movement.bucket = .lot productId lot.id then movement.delta else 0 }

def VariantStockState.receive (productId : String) (movement : PlannedMovement)
    (variant : VariantStockState) : VariantStockState :=
  { variant with quantity := variant.quantity +
      if movement.bucket = .variant productId variant.id then movement.delta else 0 }

/-- The product after one movement. -/
def ProductStockState.receive (product : ProductStockState) (movement : PlannedMovement) :
    ProductStockState :=
  { product with
    quantity := product.quantity + if movement.countsFor product.id then movement.delta else 0
    lots := product.lots.map (LotStockState.receive product.id movement)
    variants := product.variants.map (VariantStockState.receive product.id movement) }

/-- A movement of this product is one of a bucket that the product has. -/
def ProductStockState.Lands (product : ProductStockState) (movement : PlannedMovement) : Prop :=
  movement.bucket.productId = product.id → (product.balance movement.bucket).isSome

/-- The buckets of a product that a change can move: its untracked portion while it tracks
stock without variants, its lots while it has no variants, and its variants. -/
def ProductStockState.Accepts (product : ProductStockState) : StockBucketRef → Prop
  | .productUntracked _ => product.hasVariants = false ∧ product.useStock = true
  | .lot _ lotId => product.hasVariants = false ∧ lotId ∈ product.lots.map (·.id)
  | .variant _ variantId => variantId ∈ product.variants.map (·.id)

/-- The buckets that `has` finds: unlike a change, it does not ask a lot for the flags of
its product. -/
def ProductStockState.Has (product : ProductStockState) : StockBucketRef → Prop
  | .productUntracked _ => product.hasVariants = false
  | .lot _ lotId => lotId ∈ product.lots.map (·.id)
  | .variant _ variantId => variantId ∈ product.variants.map (·.id)

theorem StockPlan.has_iff {plan : StockPlan} {bucket : StockBucketRef} : plan.has bucket ↔
    ∃ product, plan.findProduct bucket.productId = some product ∧ product.Has bucket := by
  cases bucket with
  | productUntracked productId =>
      rw [StockPlan.has]
      cases hFound : plan.findProduct productId <;> simp [hFound, ProductStockState.Has]
  | lot productId lotId =>
      rw [StockPlan.has]
      cases hFound : plan.findProduct productId <;> simp [hFound, ProductStockState.Has]
  | variant productId variantId =>
      rw [StockPlan.has]
      cases hFound : plan.findProduct productId <;> simp [hFound, ProductStockState.Has]

section

variable {product : ProductStockState} {movement : PlannedMovement}
  {movements : List PlannedMovement}

theorem ProductStockState.isSome_balance_of_accepts {bucket : StockBucketRef}
    (h : product.Accepts bucket) : (product.balance bucket).isSome := by
  cases bucket with
  | productUntracked owner => rfl
  | lot owner lotId =>
      obtain ⟨lot, hMem, rfl⟩ := List.mem_map.mp h.2
      simpa [balance, Keyed.lookup] using ⟨lot, hMem, rfl⟩
  | variant owner variantId =>
      obtain ⟨variant, hMem, rfl⟩ := List.mem_map.mp h
      simpa [balance, Keyed.lookup] using ⟨variant, hMem, rfl⟩

theorem ProductStockState.lands_of_accepts
    (h : movement.bucket.productId = product.id → product.Accepts movement.bucket) :
    product.Lands movement :=
  fun hOwn => isSome_balance_of_accepts (h hOwn)

theorem moved_snoc {bucket : StockBucketRef} : moved bucket (movements ++ [movement]) =
    moved bucket movements + if movement.bucket = bucket then movement.delta else 0 := by
  rw [moved, Journal.total_snoc]
  simp only [moved, decide_eq_true_eq]

theorem productMoved_snoc {productId : String} : productMoved productId (movements ++ [movement]) =
    productMoved productId movements +
      if movement.countsFor productId then movement.delta else 0 :=
  Journal.total_snoc

@[simp] theorem ProductStockState.plus_nil : product.plus [] = product := by
  simp [ProductStockState.plus, productMoved, moved]

theorem ProductStockState.plus_snoc :
    product.plus (movements ++ [movement]) = (product.plus movements).receive movement := by
  simp only [ProductStockState.plus, ProductStockState.receive, LotStockState.receive,
    VariantStockState.receive, productMoved_snoc, moved_snoc, List.map_map, Function.comp_def,
    add_assoc]
  rfl

theorem ProductStockState.receive_of_ne (hNe : movement.bucket.productId ≠ product.id) :
    product.receive movement = product := by
  have hCounts : movement.countsFor product.id = false := by
    unfold PlannedMovement.countsFor
    cases hBucket : movement.bucket with
    | productUntracked owner => simpa [hBucket] using hNe
    | lot owner lotId => simpa [hBucket] using hNe
    | variant owner variantId => rfl
  have hLot : ∀ lotId, movement.bucket ≠ .lot product.id lotId := by
    intro lotId hBucket
    exact hNe (by rw [hBucket]; rfl)
  have hVariant : ∀ variantId, movement.bucket ≠ .variant product.id variantId := by
    intro variantId hBucket
    exact hNe (by rw [hBucket]; rfl)
  have hLots : LotStockState.receive product.id movement = fun lot => lot := by
    funext lot
    simp [LotStockState.receive, hLot]
  have hVariants : VariantStockState.receive product.id movement = fun variant => variant := by
    funext variant
    simp [VariantStockState.receive, hVariant]
  simp [ProductStockState.receive, hCounts, hLots, hVariants]

/-- A movement of one row's bucket adds to the sum of the rows. -/
theorem sum_rows_receive {α : Type} {rows : List α} {id : α → String} {quantity : α → Int}
    {bucketOf : String → StockBucketRef} (hBucketOf : Function.Injective bucketOf)
    (hKeys : (rows.map id).Nodup)
    (hHas : ∀ key, movement.bucket = bucketOf key → key ∈ rows.map id) {isOf : Bool}
    (hIsOf : isOf ↔ ∃ key, movement.bucket = bucketOf key) :
    (rows.map fun row => quantity row +
        if movement.bucket = bucketOf (id row) then movement.delta else 0).sum =
      (rows.map quantity).sum + if isOf then movement.delta else 0 := by
  by_cases hOf : isOf = true
  · obtain ⟨key, hKey⟩ := hIsOf.mp hOf
    rw [if_pos hOf, ← Keyed.sum_add_at hKeys (hHas key hKey), hKey]
    simp only [hBucketOf.eq_iff, eq_comm]
  · have hNone : ∀ key, movement.bucket ≠ bucketOf key :=
      fun key hKey => hOf (hIsOf.mpr ⟨key, hKey⟩)
    simp [hOf, hNone]

theorem ProductStockState.has_of_lands (hLands : product.Lands movement) {bucket : StockBucketRef}
    (hBucket : movement.bucket = bucket) (hOwn : bucket.productId = product.id) :
    ∃ quantity, product.balance bucket = some quantity := by
  cases hBucket
  exact Option.isSome_iff_exists.mp (hLands hOwn)

theorem ProductStockState.balance_lot {lotId owner : String} {quantity : Int} (h : product.balance (.lot owner lotId) = some quantity) :
    ∃ lot ∈ product.lots, lot.id = lotId ∧ lot.quantity = quantity := by
  obtain ⟨lot, hLot, rfl⟩ := Option.map_eq_some_iff.mp h
  obtain ⟨hMem, hId⟩ := Keyed.lookup_eq_some hLot
  exact ⟨lot, hMem, hId, rfl⟩

theorem ProductStockState.balance_variant {variantId owner : String} {quantity : Int} (h : product.balance (.variant owner variantId) = some quantity) :
    ∃ variant ∈ product.variants, variant.id = variantId ∧ variant.quantity = quantity := by
  obtain ⟨variant, hVariant, rfl⟩ := Option.map_eq_some_iff.mp h
  obtain ⟨hMem, hId⟩ := Keyed.lookup_eq_some hVariant
  exact ⟨variant, hMem, hId, rfl⟩

theorem ProductStockState.sum_lots_receive (hKeys : (product.lots.map (·.id)).Nodup)
    (hLands : product.Lands movement) :
    ((product.receive movement).lots.map (·.quantity)).sum =
      (product.lots.map (·.quantity)).sum +
        if movement.isLotOf product.id then movement.delta else 0 := by
  rw [receive, List.map_map]
  apply sum_rows_receive (fun _ _ h => (StockBucketRef.lot.inj h).2) hKeys _
    PlannedMovement.isLotOf_iff
  intro lotId hBucket
  obtain ⟨quantity, hBalance⟩ := has_of_lands hLands hBucket rfl
  obtain ⟨lot, hMem, rfl, _⟩ := balance_lot hBalance
  exact List.mem_map_of_mem hMem

theorem ProductStockState.sum_variants_receive (hKeys : (product.variants.map (·.id)).Nodup)
    (hLands : product.Lands movement) :
    ((product.receive movement).variants.map (·.quantity)).sum =
      (product.variants.map (·.quantity)).sum +
        if movement.isVariantOf product.id then movement.delta else 0 := by
  rw [receive, List.map_map]
  apply sum_rows_receive (fun _ _ h => (StockBucketRef.variant.inj h).2) hKeys _
    PlannedMovement.isVariantOf_iff
  intro variantId hBucket
  obtain ⟨quantity, hBalance⟩ := has_of_lands hLands hBucket rfl
  obtain ⟨variant, hMem, rfl, _⟩ := balance_variant hBalance
  exact List.mem_map_of_mem hMem

/-- A lot movement leaves the untracked portion alone: it adds to the total and to a lot. -/
theorem ProductStockState.untracked_receive (hKeys : (product.lots.map (·.id)).Nodup)
    (hLands : product.Lands movement) :
    (product.receive movement).untracked = product.untracked +
      if movement.bucket = .productUntracked product.id then movement.delta else 0 := by
  rw [untracked, sum_lots_receive hKeys hLands, untracked, receive]
  unfold PlannedMovement.countsFor PlannedMovement.isLotOf
  cases movement.bucket with
  | productUntracked owner =>
      simp
      omega
  | lot owner lotId => simp
  | variant owner variantId => simp

theorem ProductStockState.balance_receive {bucket : StockBucketRef}
    (hOwn : bucket.productId = product.id) (hKeys : (product.lots.map (·.id)).Nodup)
    (hLands : product.Lands movement) :
    (product.receive movement).balance bucket = (product.balance bucket).map
      (· + if movement.bucket = bucket then movement.delta else 0) := by
  cases bucket with
  | productUntracked owner =>
      cases hOwn
      rw [balance, untracked_receive hKeys hLands]
      rfl
  | lot owner lotId =>
      cases hOwn
      simp only [balance, receive]
      rw [Keyed.lookup_map (f := LotStockState.receive product.id movement) fun _ => rfl]
      cases hLot : Keyed.lookup LotStockState.id product.lots lotId with
      | none => rfl
      | some lot =>
          obtain ⟨_, rfl⟩ := Keyed.lookup_eq_some hLot
          rfl
  | variant owner variantId =>
      cases hOwn
      simp only [balance, receive]
      rw [Keyed.lookup_map (f := VariantStockState.receive product.id movement) fun _ => rfl]
      cases hVariant : Keyed.lookup VariantStockState.id product.variants variantId with
      | none => rfl
      | some variant =>
          obtain ⟨_, rfl⟩ := Keyed.lookup_eq_some hVariant
          rfl

theorem ProductStockState.productBalance_receive (hKeys : (product.variants.map (·.id)).Nodup)
    (hLands : product.Lands movement) :
    (product.receive movement).productBalance = product.productBalance +
      if (if product.hasVariants then movement.isVariantOf product.id
        else movement.countsFor product.id) then movement.delta else 0 := by
  unfold productBalance
  rw [sum_variants_receive hKeys hLands]
  cases hVariants : product.hasVariants with
  | true => simp [receive, hVariants]
  | false => simp [receive, hVariants]

@[simp] theorem ProductStockState.id_receive : (product.receive movement).id = product.id := rfl

@[simp] theorem ProductStockState.lotIds_receive :
    (product.receive movement).lots.map (·.id) = product.lots.map (·.id) := by
  simp [receive, LotStockState.receive, Function.comp_def]

@[simp] theorem ProductStockState.variantIds_receive :
    (product.receive movement).variants.map (·.id) = product.variants.map (·.id) := by
  simp [receive, VariantStockState.receive, Function.comp_def]

/-! ### All movements so far -/

@[simp] theorem ProductStockState.id_plus : (product.plus movements).id = product.id := rfl

@[simp] theorem ProductStockState.lotIds_plus :
    (product.plus movements).lots.map (·.id) = product.lots.map (·.id) := by
  simp [plus]

@[simp] theorem ProductStockState.variantIds_plus :
    (product.plus movements).variants.map (·.id) = product.variants.map (·.id) := by
  simp [plus]

theorem ProductStockState.accepts_plus {bucket : StockBucketRef} :
    (product.plus movements).Accepts bucket ↔ product.Accepts bucket := by
  cases bucket with
  | productUntracked owner => rfl
  | lot owner lotId =>
      unfold Accepts
      rw [lotIds_plus]
      rfl
  | variant owner variantId =>
      unfold Accepts
      rw [variantIds_plus]

theorem ProductStockState.isSome_balance_plus (bucket : StockBucketRef) :
    ((product.plus movements).balance bucket).isSome = (product.balance bucket).isSome := by
  cases bucket with
  | productUntracked owner => rfl
  | lot owner lotId =>
      rw [balance, balance, Option.isSome_map, Option.isSome_map]
      simp [plus, Keyed.lookup, Function.comp_def]
  | variant owner variantId =>
      rw [balance, balance, Option.isSome_map, Option.isSome_map]
      simp [plus, Keyed.lookup, Function.comp_def]

theorem ProductStockState.lands_plus (movements : List PlannedMovement)
    (hLands : product.Lands movement) :
    (product.plus movements).Lands movement := by
  intro hOwn
  rw [isSome_balance_plus]
  exact hLands hOwn

/-- A bucket holds what it held and what its movements add up to. -/
theorem ProductStockState.balance_plus {bucket : StockBucketRef}
    (hOwn : bucket.productId = product.id) (hKeys : (product.lots.map (·.id)).Nodup)
    (hLands : ∀ movement ∈ movements, product.Lands movement) :
    (product.plus movements).balance bucket =
      (product.balance bucket).map (· + moved bucket movements) := by
  induction movements using List.reverseRecOn with
  | nil => simp [moved]
  | append_singleton earlier last ih =>
      obtain ⟨hEarlier, hLast⟩ := List.forall_mem_append.mp hLands
      have hLastLands := lands_plus earlier (hLast last (List.mem_singleton_self _))
      have hSame : bucket.productId = (product.plus earlier).id := hOwn
      rw [plus_snoc, balance_receive hSame (by simpa using hKeys) hLastLands, ih hEarlier,
        Option.map_map, moved_snoc]
      simp only [Function.comp_def, add_assoc]

theorem ProductStockState.untracked_plus (hKeys : (product.lots.map (·.id)).Nodup)
    (hLands : ∀ movement ∈ movements, product.Lands movement) :
    (product.plus movements).untracked =
      product.untracked + moved (.productUntracked product.id) movements := by
  have hBalance : (product.plus movements).balance (.productUntracked product.id) = _ :=
    balance_plus rfl hKeys hLands
  exact Option.some.inj hBalance

theorem ProductStockState.productBalance_plus (hKeys : (product.variants.map (·.id)).Nodup)
    (hLands : ∀ movement ∈ movements, product.Lands movement) :
    (product.plus movements).productBalance =
      product.productBalance + product.shownMoved movements := by
  induction movements using List.reverseRecOn with
  | nil => simp [shownMoved, productMoved]
  | append_singleton earlier last ih =>
      obtain ⟨hEarlier, hLast⟩ := List.forall_mem_append.mp hLands
      have hLastLands := lands_plus earlier (hLast last (List.mem_singleton_self _))
      rw [plus_snoc, productBalance_receive (by simpa using hKeys) hLastLands, ih hEarlier]
      unfold shownMoved
      cases hVariants : product.hasVariants with
      | true => simp [plus, hVariants, Journal.total_snoc, add_assoc]
      | false => simp [plus, hVariants, productMoved_snoc, add_assoc]

end

end Houndfe.Inventory
