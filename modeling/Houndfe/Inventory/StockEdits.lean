import Houndfe.Inventory.ProductsService
import Houndfe.Inventory.StockSoundness

/-! The edits that product operations make beside the journal: flags that are switched, empty
rows that are added, and empty rows that are deleted. None of them moves a unit. -/

namespace Houndfe.Inventory

section

variable {stock : List ProductStockState} {product : ProductStockState} {id : String}
  {edit : ProductStockState → ProductStockState}

theorem flatMap_editAt {keys : ProductStockState → List String} :
    (editAt id edit stock).flatMap keys =
      stock.flatMap fun product => if product.id = id then keys (edit product) else keys product := by
  rw [editAt, List.flatMap_map]
  congr 1
  funext product
  split <;> rfl

theorem flatMap_editAt_same {keys : ProductStockState → List String}
    (h : ∀ product, keys (edit product) = keys product) :
    (editAt id edit stock).flatMap keys = stock.flatMap keys := by
  rw [flatMap_editAt]
  congr 1
  funext product
  rw [h, ite_self]

theorem keepsStock_of_same (hStock : WellStocked stock)
    (hSameId : ∀ product, (edit product).id = product.id)
    (hLots : ∀ product, (edit product).lots.map (·.id) = product.lots.map (·.id))
    (hVariants : ∀ product, (edit product).variants.map (·.id) = product.variants.map (·.id))
    (hHeld : ∀ product ∈ stock, product.id = id → ∀ bucket, bucket.productId = id →
      ((edit product).balance bucket).getD 0 = (product.balance bucket).getD 0) :
    KeepsStock stock id edit where
  sameId := hSameId
  lotIds := by
    rw [flatMap_editAt_same hLots]
    exact hStock.lotIds
  variantIds := by
    rw [flatMap_editAt_same hVariants]
    exact hStock.variantIds
  held := hHeld

/-! ### Flags -/

def ProductStockState.withFlags (product : ProductStockState) (useStock hasVariants : Bool) :
    ProductStockState :=
  { product with useStock := useStock, hasVariants := hasVariants }

theorem keepsStock_withFlags (hStock : WellStocked stock) (useStock hasVariants : Bool) :
    KeepsStock stock id (·.withFlags useStock hasVariants) := by
  refine keepsStock_of_same hStock (fun _ => rfl) (fun _ => rfl) (fun _ => rfl) ?_
  intro product _ _ bucket _
  cases bucket <;> rfl

/-- A product that has given up its own stock, marked as one with variants. -/
def ProductStockState.asParent (product : ProductStockState) : ProductStockState :=
  { product with hasVariants := true, quantity := 0 }

theorem keepsStock_asParent (hStock : WellStocked stock)
    (hEmpty : ∀ product ∈ stock, product.id = id → product.quantity = 0) :
    KeepsStock stock id (·.asParent) := by
  refine keepsStock_of_same hStock (fun _ => rfl) (fun _ => rfl) (fun _ => rfl) ?_
  intro product hMem hId bucket _
  have hSame : product.asParent = product.withFlags product.useStock true := by
    have hQuantity := hEmpty product hMem hId
    unfold ProductStockState.asParent ProductStockState.withFlags
    rw [hQuantity]
  rw [hSame]
  cases bucket <;> rfl

/-! ### Rows added -/

def ProductStockState.addLot (product : ProductStockState) (lot : LotStockState) :
    ProductStockState :=
  { product with lots := product.lots ++ [lot] }

def ProductStockState.addVariant (product : ProductStockState) (variant : VariantStockState) :
    ProductStockState :=
  { product with variants := product.variants ++ [variant] }

/-- A row that is added empty holds what a row that is not there holds. -/
theorem getD_lookup_snoc {α : Type} {key : α → String} {quantity : α → Int} {rows : List α}
    {row : α} (hZero : quantity row = 0) (k : String) :
    ((Keyed.lookup key (rows ++ [row]) k).map quantity).getD 0 =
      ((Keyed.lookup key rows k).map quantity).getD 0 := by
  rw [Keyed.lookup_append]
  cases hFound : Keyed.lookup key rows k with
  | some found => rfl
  | none =>
      rw [Keyed.lookup_cons, Keyed.lookup_nil]
      by_cases hKey : key row = k
      · simp [hKey, hZero]
      · simp [hKey]

theorem keepsStock_addLot (hStock : WellStocked stock) {lot : LotStockState}
    (hZero : lot.quantity = 0)
    (hNew : ∀ product ∈ stock, lot.id ∉ product.lots.map (·.id)) :
    KeepsStock stock id (·.addLot lot) where
  sameId := fun _ => rfl
  lotIds := by
    have hKeys := Keyed.nodup_flatMap_insert (n := id) hStock.productIds hStock.lotIds hNew
    rw [flatMap_editAt]
    convert hKeys using 2
    funext product
    split <;> simp [ProductStockState.addLot]
  variantIds := by
    simpa [flatMap_editAt, ProductStockState.addLot] using hStock.variantIds
  held := by
    intro product _ _ bucket _
    cases bucket with
    | productUntracked owner =>
        simp [ProductStockState.balance, ProductStockState.untracked, ProductStockState.addLot,
          hZero]
    | lot owner lotId => exact getD_lookup_snoc hZero lotId
    | variant owner variantId => rfl

theorem keepsStock_addVariant (hStock : WellStocked stock) {variant : VariantStockState}
    (hZero : variant.quantity = 0)
    (hNew : ∀ product ∈ stock, variant.id ∉ product.variants.map (·.id)) :
    KeepsStock stock id (·.addVariant variant) where
  sameId := fun _ => rfl
  lotIds := by
    simpa [flatMap_editAt, ProductStockState.addVariant] using hStock.lotIds
  variantIds := by
    have hKeys := Keyed.nodup_flatMap_insert (n := id) hStock.productIds hStock.variantIds hNew
    rw [flatMap_editAt]
    convert hKeys using 2
    funext product
    split <;> simp [ProductStockState.addVariant]
  held := by
    intro product _ _ bucket _
    cases bucket with
    | productUntracked owner => rfl
    | lot owner lotId => rfl
    | variant owner variantId => exact getD_lookup_snoc hZero variantId

/-! ### Rows deleted -/

def ProductStockState.dropLot (product : ProductStockState) (lotId : String) :
    ProductStockState :=
  { product with lots := product.lots.filter (·.id ≠ lotId) }

/-- The product that loses its last variant has none any more. -/
def ProductStockState.dropVariant (product : ProductStockState) (variantId : String) :
    ProductStockState :=
  let remaining := product.variants.filter (·.id ≠ variantId)
  { product with
    variants := remaining
    hasVariants := if remaining = [] then false else product.hasVariants }

/-- A row that is deleted empty holds what a row that is not there holds. -/
theorem getD_lookup_dropped {α : Type} {key : α → String} {quantity : α → Int} {rows : List α}
    {dropped : String} (hZero : ∀ row ∈ rows, key row = dropped → quantity row = 0) (k : String) :
    ((Keyed.lookup key (rows.filter (key · ≠ dropped)) k).map quantity).getD 0 =
      ((Keyed.lookup key rows k).map quantity).getD 0 := by
  rw [Keyed.lookup_filter_ne]
  by_cases hKey : k = dropped
  · rw [if_pos hKey]
    cases hFound : Keyed.lookup key rows k with
    | none => rfl
    | some row =>
        obtain ⟨hMem, hRow⟩ := Keyed.lookup_eq_some hFound
        simp [hZero row hMem (hRow.trans hKey)]
  · rw [if_neg hKey]

theorem keepsStock_dropLot (hStock : WellStocked stock) {lotId : String}
    (hZero : ∀ product ∈ stock, product.id = id → ∀ lot ∈ product.lots, lot.id = lotId →
      lot.quantity = 0) :
    KeepsStock stock id (·.dropLot lotId) where
  sameId := fun _ => rfl
  lotIds := by
    refine List.Nodup.sublist ?_ hStock.lotIds
    rw [flatMap_editAt]
    apply List.Sublist.flatMap_right
    intro product _
    split
    · exact List.filter_sublist.map _
    · exact List.Sublist.refl _
  variantIds := by
    simpa [flatMap_editAt, ProductStockState.dropLot] using hStock.variantIds
  held := by
    intro product hMem hId bucket _
    have hRows := hZero product hMem hId
    cases bucket with
    | productUntracked owner =>
        have hSum := Keyed.sum_filter_ne (f := LotStockState.quantity) hRows
        show product.quantity - _ = product.quantity - _
        rw [← hSum]
        rfl
    | lot owner other => exact getD_lookup_dropped hRows other
    | variant owner variantId => rfl

theorem keepsStock_dropVariant (hStock : WellStocked stock) {variantId : String}
    (hZero : ∀ product ∈ stock, product.id = id → ∀ variant ∈ product.variants,
      variant.id = variantId → variant.quantity = 0) :
    KeepsStock stock id (·.dropVariant variantId) where
  sameId := fun _ => rfl
  lotIds := by
    simpa [flatMap_editAt, ProductStockState.dropVariant] using hStock.lotIds
  variantIds := by
    refine List.Nodup.sublist ?_ hStock.variantIds
    rw [flatMap_editAt]
    apply List.Sublist.flatMap_right
    intro product _
    split
    · exact List.filter_sublist.map _
    · exact List.Sublist.refl _
  held := by
    intro product hMem hId bucket _
    cases bucket with
    | productUntracked owner => rfl
    | lot owner lotId => rfl
    | variant owner other => exact getD_lookup_dropped (hZero product hMem hId) other

/-! ### Whole products -/

theorem ProductStockState.IsEmpty.untracked (h : product.IsEmpty) : product.untracked = 0 := by
  have hSum : (product.lots.map (·.quantity)).sum = 0 := by
    apply List.sum_eq_zero
    simpa using h.2.1
  rw [ProductStockState.untracked, h.1, hSum, sub_zero]

theorem ProductStockState.IsEmpty.balance (h : product.IsEmpty) (bucket : StockBucketRef) :
    (product.balance bucket).getD 0 = 0 := by
  cases bucket with
  | productUntracked owner => exact h.untracked
  | lot owner lotId =>
      cases hBalance : product.balance (.lot owner lotId) with
      | none => rfl
      | some quantity =>
          obtain ⟨lot, hLot, _, rfl⟩ := ProductStockState.balance_lot hBalance
          exact h.2.1 lot hLot
  | variant owner variantId =>
      cases hBalance : product.balance (.variant owner variantId) with
      | none => rfl
      | some quantity =>
          obtain ⟨variant, hVariant, _, rfl⟩ := ProductStockState.balance_variant hBalance
          exact h.2.2 variant hVariant

variable {journal : List PlannedMovement}

/-- The ids of a product that are to be new in the tables. -/
structure Fresh (stock : List ProductStockState) (product : ProductStockState) : Prop where
  id : ∀ other ∈ stock, other.id ≠ product.id
  lotIds : (product.lots.map (·.id)).Nodup
  variantIds : (product.variants.map (·.id)).Nodup
  lots : ∀ other ∈ stock, ∀ lot ∈ product.lots, lot.id ∉ other.lots.map (·.id)
  variants : ∀ other ∈ stock, ∀ variant ∈ product.variants,
    variant.id ∉ other.variants.map (·.id)

/-- An empty product with new ids keeps stock sound. -/
theorem Sound.added (hSound : Sound stock journal) (hFresh : Fresh stock product)
    (hEmpty : product.IsEmpty) : Sound (stock ++ [product]) journal := by
  have hStock := hSound.stocked
  refine ⟨⟨?_, ?_, ?_, ?_, ?_, ?_⟩, ?_, ?_, ?_⟩
  · rw [List.map_append, List.map_singleton]
    refine hStock.productIds.append (List.nodup_singleton _) ?_
    rw [List.disjoint_singleton]
    intro hMem
    obtain ⟨other, hOther, hId⟩ := List.mem_map.mp hMem
    exact hFresh.id other hOther hId
  · rw [List.flatMap_append, List.flatMap_singleton]
    refine hStock.lotIds.append hFresh.lotIds ?_
    intro lotId hOld hNew
    obtain ⟨other, hOther, hIn⟩ := List.mem_flatMap.mp hOld
    obtain ⟨lot, hLot, rfl⟩ := List.mem_map.mp hNew
    exact hFresh.lots other hOther lot hLot hIn
  · rw [List.flatMap_append, List.flatMap_singleton]
    refine hStock.variantIds.append hFresh.variantIds ?_
    intro variantId hOld hNew
    obtain ⟨other, hOther, hIn⟩ := List.mem_flatMap.mp hOld
    obtain ⟨variant, hVariant, rfl⟩ := List.mem_map.mp hNew
    exact hFresh.variants other hOther variant hVariant hIn
  · rw [List.forall_mem_append, List.forall_mem_singleton]
    exact ⟨hStock.lots, fun lot hLot => (hEmpty.2.1 lot hLot).ge⟩
  · rw [List.forall_mem_append, List.forall_mem_singleton]
    exact ⟨hStock.variants, fun variant hVariant => (hEmpty.2.2 variant hVariant).ge⟩
  · rw [List.forall_mem_append, List.forall_mem_singleton]
    exact ⟨hStock.covered, hEmpty.untracked.ge⟩
  · rw [List.forall_mem_append, List.forall_mem_singleton]
    exact ⟨hSound.parentEmpty, fun _ => ⟨hEmpty.1, hEmpty.2.1⟩⟩
  · rw [List.forall_mem_append, List.forall_mem_singleton]
    exact ⟨hSound.untrackedEmpty, fun _ => hEmpty.untracked⟩
  · intro bucket
    rw [hSound.journaled bucket]
    unfold heldIn
    rw [Keyed.lookup_append]
    cases hFound : Keyed.lookup ProductStockState.id stock bucket.productId with
    | some found => rfl
    | none =>
        rw [Keyed.lookup_cons, Keyed.lookup_nil]
        by_cases hId : product.id = bucket.productId
        · simp [hId, hEmpty.balance]
        · simp [hId]

theorem Sound.deleted (hSound : Sound stock journal)
    (hEmpty : ∀ product ∈ stock, product.id = id → product.IsEmpty) :
    Sound (stock.filter (·.id ≠ id)) journal := by
  refine ⟨wellStocked_filter hSound.stocked, ?_, ?_, ?_⟩
  · exact fun product hMem => hSound.parentEmpty product (List.mem_of_mem_filter hMem)
  · exact fun product hMem => hSound.untrackedEmpty product (List.mem_of_mem_filter hMem)
  · intro bucket
    rw [hSound.journaled bucket]
    unfold heldIn
    rw [Keyed.lookup_filter_ne]
    by_cases hId : bucket.productId = id
    · rw [if_pos hId]
      cases hFound : Keyed.lookup ProductStockState.id stock bucket.productId with
      | none => rfl
      | some product =>
          obtain ⟨hMem, hProduct⟩ := Keyed.lookup_eq_some hFound
          exact (hEmpty product hMem (hProduct.trans hId)).balance bucket
    · rw [if_neg hId]

theorem Idle.edited (hIdle : Idle stock)
    (hEdit : ∀ product ∈ stock, product.id = id → (edit product).useStock = false →
      (edit product).IsEmpty) : Idle (editAt id edit stock) := by
  rw [Idle, forall_mem_editAt]
  exact fun product hMem => ⟨hEdit product hMem, fun _ => hIdle product hMem⟩

theorem Flagged.edited (hFlagged : Flagged stock)
    (hEdit : ∀ product ∈ stock, product.id = id → (edit product).variants ≠ [] →
      (edit product).hasVariants = true) : Flagged (editAt id edit stock) := by
  rw [Flagged, forall_mem_editAt]
  exact fun product hMem => ⟨hEdit product hMem, fun _ => hFlagged product hMem⟩

end

end Houndfe.Inventory
