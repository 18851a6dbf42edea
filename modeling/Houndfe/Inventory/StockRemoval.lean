import Houndfe.Inventory.StockEdits

/-! Journal writes on sound tables, and the one that removes all stock a product holds. -/

namespace Houndfe.Inventory

/-- The rows of the journal as the movements they record. -/
def StockTables.journal (tables : StockTables) : List PlannedMovement :=
  tables.movements.map (·.toPlannedMovement)

section

variable {tables after : StockTables} {movements : List PlannedMovement}
  {product : ProductStockState} {today : String}

theorem StockTables.mem_bare :
    product ∈ tables.bare ↔ ∃ row ∈ tables.products, row.toProductStockState.unversioned = product := by
  simp [StockTables.bare, StockTables.stock]

theorem Sound.rows_wellStocked (hSound : Sound tables.bare tables.journal) : WellStocked tables.stock :=
  wellStocked_unversioned.mp hSound.stocked

/-! ### Writes -/

theorem Written.accepted (h : Written tables after movements) :
    Accepted tables.bare movements :=
  ⟨h.accepts, h.owned⟩

theorem Written.sound (h : Written tables after movements)
    (hSound : Sound tables.bare tables.journal) : Sound after.bare after.journal := by
  have hStocked := h.wellStocked
  rw [h.bare] at hStocked
  rw [h.bare, StockTables.journal, h.journal]
  exact hSound.write h.accepted hStocked

theorem Written.flagged (h : Written tables after movements) (hFlagged : Flagged tables.bare) :
    Flagged after.bare := by
  rw [h.bare]
  exact hFlagged.write

theorem Written.idle (h : Written tables after movements)
    (hPuts : PutsOnTracked tables movements) (hIdle : Idle tables.bare) : Idle after.bare := by
  have hStocked := h.wellStocked
  rw [h.bare] at hStocked ⊢
  apply hIdle.write hStocked
  intro movement hMovement
  refine (hPuts movement hMovement).imp id ?_
  intro hTracked product hMem hId
  obtain ⟨row, hRow, rfl⟩ := StockTables.mem_bare.mp hMem
  exact hTracked row.toProductStockState (List.mem_map_of_mem hRow) hId

theorem Written.refl (hStock : WellStocked tables.bare) : Written tables tables [] where
  bare := by simp
  journal := by simp
  accepts := by simp
  owned := by simp
  wellStocked := hStock

/-! ### Removing all stock of a product -/

/-- The movements of a bucket add up to what was asked of it. -/
theorem moved_eq_entries (bucket : StockBucketRef) :
    moved bucket movements =
      Journal.total Prod.snd (fun entry => entry.1 = bucket) (movements.map (·.entry)) := by
  rw [Journal.total_map]
  rfl

/-- Taking what the stocked rows of a table hold takes what each row holds. -/
theorem total_stocked_rows {α : Type} {key : α → String} {quantity : α → Int}
    {bucketOf : String → StockBucketRef} (hBucketOf : Function.Injective bucketOf)
    {rows : List α} (hKeys : (rows.map key).Nodup) {row : α} (hMem : row ∈ rows)
    (hNonneg : 0 ≤ quantity row) :
    Journal.total Prod.snd (fun entry => entry.1 = bucketOf (key row))
      ((Keyed.sortByKey key (rows.filter (0 < quantity ·))).map fun row =>
        (bucketOf (key row), -quantity row)) = -quantity row := by
  have hPerm := Keyed.sortByKey_perm key (rows.filter (0 < quantity ·))
  have hSorted : ((Keyed.sortByKey key (rows.filter (0 < quantity ·))).map key).Nodup :=
    (hPerm.map key).nodup_iff.mpr (hKeys.sublist (List.filter_sublist.map _))
  rw [Journal.total_map]
  simp only [hBucketOf.eq_iff]
  by_cases hPositive : 0 < quantity row
  · have hIn : row ∈ Keyed.sortByKey key (rows.filter (0 < quantity ·)) :=
      hPerm.mem_iff.mpr (List.mem_filter.mpr ⟨hMem, by simpa using hPositive⟩)
    exact Journal.total_of_key hSorted hIn
  · have hZero : quantity row = 0 := by omega
    rw [hZero, neg_zero]
    apply Journal.total_eq_zero
    intro other hOther
    obtain ⟨hRow, hStocked⟩ := List.mem_filter.mp (hPerm.mem_iff.mp hOther)
    have hNe : key other ≠ key row := by
      intro hKey
      cases List.inj_on_of_nodup_map hKeys hRow hMem hKey
      exact hPositive (by simpa using hStocked)
    simpa using hNe

theorem sum_stocked_rows {α : Type} {quantity : α → Int} {rows : List α}
    (hNonneg : ∀ row ∈ rows, 0 ≤ quantity row) :
    ((rows.filter (0 < quantity ·)).map quantity).sum = (rows.map quantity).sum := by
  induction rows with
  | nil => rfl
  | cons first rest ih =>
      obtain ⟨hFirst, hRest⟩ := List.forall_mem_cons.mp hNonneg
      by_cases hPositive : 0 < quantity first
      · simp [hPositive, ih hRest]
      · have hZero : quantity first = 0 := by omega
        simp [hZero, ih hRest]

variable {row : ProductRow}

theorem untracked_of_stocked (hNonneg : ∀ lot ∈ row.lots, 0 ≤ lot.quantity) :
    row.quantity - ((Keyed.sortByKey LotStockState.id
      (row.lots.filter (0 < ·.quantity))).map (·.quantity)).sum = row.untracked := by
  rw [((Keyed.sortByKey_perm _ _).map _).sum_eq, sum_stocked_rows hNonneg]
  rfl

theorem removal_entries (hNonneg : ∀ lot ∈ row.lots, 0 ≤ lot.quantity) :
    (removalChanges row).map (·.entry) =
      (if row.hasVariants then [] else
        ((Keyed.sortByKey LotStockState.id (row.lots.filter (0 < ·.quantity))).map fun lot =>
          (StockBucketRef.lot row.id lot.id, -lot.quantity)) ++
        if 0 < row.untracked then [(.productUntracked row.id, -row.untracked)] else []) ++
      (Keyed.sortByKey VariantStockState.id (row.variants.filter (0 < ·.quantity))).map
        fun variant => (.variant row.id variant.id, -variant.quantity) := by
  unfold removalChanges
  dsimp only
  rw [untracked_of_stocked hNonneg]
  cases row.hasVariants with
  | true => simp [StockChange.entry, Function.comp_def]
  | false =>
      by_cases hUntracked : 0 < row.untracked
      · simp [StockChange.entry, Function.comp_def, hUntracked]
      · simp [StockChange.entry, Function.comp_def, hUntracked]

theorem ProductStockState.isEmpty_unversioned : product.unversioned.IsEmpty ↔ product.IsEmpty := by
  simp [IsEmpty, unversioned]

/-- A product whose movements take all that its buckets hold is left empty. -/
theorem ProductStockState.isEmpty_plus (hKeys : (product.lots.map (·.id)).Nodup)
    (hLands : ∀ movement ∈ movements, product.Lands movement)
    (hUntracked : moved (.productUntracked product.id) movements = -product.untracked)
    (hLots : ∀ lot ∈ product.lots, moved (.lot product.id lot.id) movements = -lot.quantity)
    (hVariants : ∀ variant ∈ product.variants,
      moved (.variant product.id variant.id) movements = -variant.quantity) :
    (product.plus movements).IsEmpty := by
  have hNoLots : ∀ lot ∈ (product.plus movements).lots, lot.quantity = 0 := by
    intro after hAfter
    obtain ⟨lot, hLot, rfl⟩ := List.mem_map.mp hAfter
    show lot.quantity + moved _ movements = 0
    rw [hLots lot hLot, add_neg_cancel]
  refine ⟨?_, hNoLots, ?_⟩
  · have hOwn := untracked_plus hKeys hLands
    have hSum : ((product.plus movements).lots.map (·.quantity)).sum = 0 := by
      apply List.sum_eq_zero
      simpa using hNoLots
    unfold untracked at hOwn hUntracked
    rw [hSum] at hOwn
    omega
  · intro after hAfter
    obtain ⟨variant, hVariant, rfl⟩ := List.mem_map.mp hAfter
    show variant.quantity + moved _ movements = 0
    rw [hVariants variant hVariant, add_neg_cancel]

/-- The movements that remove a product's stock leave it empty. -/
theorem removal_empties (hStock : WellStocked tables.stock) (hRow : row ∈ tables.products)
    (hParent : row.hasVariants = true → row.quantity = 0 ∧ ∀ lot ∈ row.lots, lot.quantity = 0)
    (hLands : ∀ movement ∈ movements, row.Lands movement)
    (hEntries : movements.map (·.entry) = (removalChanges row).map (·.entry)) :
    (row.toProductStockState.plus movements).IsEmpty := by
  have hMem : row.toProductStockState ∈ tables.stock := List.mem_map_of_mem hRow
  have hLotsNonneg := hStock.lots _ hMem
  have hVariantsNonneg := hStock.variants _ hMem
  have hCovered := hStock.covered _ hMem
  have hMoved : ∀ bucket, moved bucket movements = Journal.total Prod.snd
      (fun entry => entry.1 = bucket) ((removalChanges row).map (·.entry)) := by
    intro bucket
    rw [moved_eq_entries, hEntries]
  simp only [removal_entries hLotsNonneg, Journal.total_append] at hMoved
  have hNotVariant : ∀ bucket, (∀ variantId, bucket ≠ .variant row.id variantId) →
      Journal.total Prod.snd (fun entry => entry.1 = bucket)
        ((Keyed.sortByKey VariantStockState.id (row.variants.filter (0 < ·.quantity))).map
          fun variant => (StockBucketRef.variant row.id variant.id, -variant.quantity)) = 0 := by
    intro bucket hBucket
    apply Journal.total_eq_zero
    rw [List.forall_mem_map]
    intro variant _
    simpa using (hBucket variant.id).symm
  apply ProductStockState.isEmpty_plus (hStock.lotKeys hMem) hLands
  · rw [hMoved, hNotVariant _ (by simp)]
    cases hVariants : row.hasVariants with
    | true =>
        obtain ⟨hQuantity, hLots⟩ := hParent hVariants
        have hZero : row.untracked = 0 := by
          have hSum : (row.lots.map (·.quantity)).sum = 0 := by
            apply List.sum_eq_zero
            simpa using hLots
          rw [ProductStockState.untracked, hQuantity, hSum, sub_zero]
        simp [hZero]
    | false =>
        have hNotLot : Journal.total Prod.snd
            (fun entry => entry.1 = StockBucketRef.productUntracked row.id)
            ((Keyed.sortByKey LotStockState.id (row.lots.filter (0 < ·.quantity))).map
              fun lot => (StockBucketRef.lot row.id lot.id, -lot.quantity)) = 0 := by
          apply Journal.total_eq_zero
          rw [List.forall_mem_map]
          simp
        rw [if_neg (by simp), Journal.total_append, hNotLot]
        by_cases hUntracked : 0 < row.untracked
        · simp [hUntracked, Journal.total]
        · have hZero : row.untracked = 0 := by omega
          simp [hZero]
  · intro lot hLot
    rw [hMoved, hNotVariant _ (by simp)]
    cases hVariants : row.hasVariants with
    | true =>
        have hZero := (hParent hVariants).2 lot hLot
        simp [hZero]
    | false =>
        have hNotUntracked : Journal.total Prod.snd
            (fun entry => entry.1 = StockBucketRef.lot row.id lot.id)
            (if 0 < row.untracked then [(.productUntracked row.id, -row.untracked)] else []) =
              0 := by
          split <;> simp [Journal.total]
        rw [if_neg (by simp), Journal.total_append, hNotUntracked,
          total_stocked_rows (fun _ _ h => (StockBucketRef.lot.inj h).2) (hStock.lotKeys hMem) hLot
            (hLotsNonneg lot hLot)]
        simp
  · intro variant hVariant
    have hOwn : Journal.total Prod.snd
        (fun entry => entry.1 = StockBucketRef.variant row.id variant.id)
        (if row.hasVariants then [] else
          ((Keyed.sortByKey LotStockState.id (row.lots.filter (0 < ·.quantity))).map fun lot =>
            (StockBucketRef.lot row.id lot.id, -lot.quantity)) ++
          if 0 < row.untracked then [(.productUntracked row.id, -row.untracked)] else []) = 0 := by
      apply Journal.total_eq_zero
      intro entry hEntry
      split at hEntry
      · cases hEntry
      · rcases List.mem_append.mp hEntry with hLot | hUntracked
        · obtain ⟨lot, _, rfl⟩ := List.mem_map.mp hLot
          simp
        · split at hUntracked
          · cases List.mem_singleton.mp hUntracked
            simp
          · cases hUntracked
    rw [hMoved, hOwn, zero_add,
      total_stocked_rows (fun _ _ h => (StockBucketRef.variant.inj h).2)
        (hStock.variantKeys hMem) hVariant (hVariantsNonneg variant hVariant)]

theorem journaled_eq_ok {result : Except StockError StockTables} :
    journaled result = .ok after ↔ result = .ok after := by
  cases result <;> simp [journaled, Except.mapError]

/-- A removal writes what it is asked to take and does not drop. -/
theorem written_removal (hSound : Sound tables.bare tables.journal) {productId : String}
    {changes : List StockChange} (h : removal today productId changes tables = .ok after) :
    ∃ movements plan, Written tables after movements ∧
      (∀ movement ∈ movements, movement.delta < 0) ∧
      plan.products = tables.stock.filter (fun product =>
        ((changes.filter (·.delta < 0)).map (·.bucket.productId)).contains product.id) ∧
      movements.map (·.entry) =
        ((changes.filter (·.delta < 0)).filter (!StockPlan.drops plan ·)).map (·.entry) := by
  unfold removal at h
  split at h
  · next hNone =>
      cases h
      exact ⟨[], StockPlan.create _ today, Written.refl hSound.stocked, by simp, rfl,
        by simp [hNone]⟩
  · next removable hRemovable =>
      obtain ⟨movements, hWritten, hEntries⟩ :=
        written_apply hSound.rows_wellStocked (journaled_eq_ok.mp h)
      refine ⟨movements, _, hWritten, ?_, rfl, hEntries⟩
      intro movement hMovement
      obtain ⟨change, hChange, hSame⟩ := exists_change_of_entries hEntries hMovement
      have hTaken := (List.mem_filter.mp (List.mem_of_mem_filter hChange)).2
      have hDelta : change.delta.num = movement.delta := (Prod.mk.inj hSame).2
      rw [← hDelta]
      exact Rat.num_neg.mpr (by simpa using hTaken)

theorem removalChanges_negative {change : StockChange} (h : change ∈ removalChanges row) :
    change.delta < 0 := by
  unfold removalChanges at h
  dsimp only at h
  rcases List.mem_append.mp h with hOwn | hVariant
  · split at hOwn
    · cases hOwn
    · rcases List.mem_append.mp hOwn with hLot | hUntracked
      · obtain ⟨lot, hIn, rfl⟩ := List.mem_map.mp hLot
        have hStocked := (List.mem_filter.mp ((Keyed.sortByKey_perm _ _).mem_iff.mp hIn)).2
        have hPositive : 0 < lot.quantity := by simpa using hStocked
        exact neg_lt_zero.mpr (by exact_mod_cast hPositive)
      · split at hUntracked
        · next hPositive =>
            cases List.mem_singleton.mp hUntracked
            exact neg_lt_zero.mpr (by exact_mod_cast hPositive)
        · cases hUntracked
  · obtain ⟨variant, hIn, rfl⟩ := List.mem_map.mp hVariant
    have hStocked := (List.mem_filter.mp ((Keyed.sortByKey_perm _ _).mem_iff.mp hIn)).2
    have hPositive : 0 < variant.quantity := by simpa using hStocked
    exact neg_lt_zero.mpr (by exact_mod_cast hPositive)

/-- A change of the untracked portion is among them only if the product has one. -/
theorem untracked_of_removalChanges (hNonneg : ∀ lot ∈ row.lots, 0 ≤ lot.quantity)
    {change : StockChange} (h : change ∈ removalChanges row) {owner : String}
    (hBucket : change.bucket = .productUntracked owner) : owner = row.id ∧ 0 < row.untracked := by
  have hEntry := List.mem_map_of_mem (f := (·.entry)) h
  rw [removal_entries hNonneg] at hEntry
  have hFst : change.entry.1 = .productUntracked owner := hBucket
  rcases List.mem_append.mp hEntry with hOwn | hVariant
  · split at hOwn
    · cases hOwn
    · rcases List.mem_append.mp hOwn with hLot | hUntracked
      · obtain ⟨lot, _, hSame⟩ := List.mem_map.mp hLot
        rw [← hSame] at hFst
        cases hFst
      · split at hUntracked
        · next hPositive =>
            rw [List.mem_singleton.mp hUntracked] at hFst
            cases hFst
            exact ⟨rfl, hPositive⟩
        · cases hUntracked
  · obtain ⟨variant, _, hSame⟩ := List.mem_map.mp hVariant
    rw [← hSame] at hFst
    cases hFst

/-- After the removal of its stock a product is empty. -/
theorem written_removeProductStock (hSound : Sound tables.bare tables.journal)
    {productId : String} (h : removeProductStock today productId tables = .ok after) :
    ∃ movements, Written tables after movements ∧
      (∀ movement ∈ movements, movement.delta < 0) ∧
      ∀ product ∈ after.bare, product.id = productId → product.IsEmpty := by
  have hStock := hSound.rows_wellStocked
  unfold removeProductStock at h
  split at h
  · next hNone =>
      cases h
      refine ⟨[], Written.refl hSound.stocked, by simp, ?_⟩
      intro product hMem hId
      obtain ⟨row, hRow, rfl⟩ := StockTables.mem_bare.mp hMem
      exact absurd hId (Keyed.lookup_eq_none.mp hNone row hRow)
  · next row hFound =>
      obtain ⟨hRow, hId⟩ := Keyed.lookup_eq_some hFound
      have hMem : row.toProductStockState ∈ tables.stock := List.mem_map_of_mem hRow
      have hBare : row.toProductStockState.unversioned ∈ tables.bare := List.mem_map_of_mem hMem
      obtain ⟨movements, plan, hWritten, hTakes, hProducts, hEntries⟩ := written_removal hSound h
      have hAll : (removalChanges row).filter (·.delta < 0) = removalChanges row :=
        List.filter_eq_self.mpr fun change hChange => by
          simpa using removalChanges_negative hChange
      have hNoDrops : ∀ change ∈ removalChanges row, (!plan.drops change) = true := by
        intro change hChange
        unfold StockPlan.drops
        split
        · next owner hBucket =>
            obtain ⟨rfl, hPositive⟩ :=
              untracked_of_removalChanges (hStock.lots _ hMem) hChange hBucket
            have hTracked : row.useStock = true := by
              by_contra hUntracked
              rw [Bool.not_eq_true] at hUntracked
              have hZero := hSound.untrackedEmpty _ hBare hUntracked
              rw [ProductStockState.untracked_unversioned] at hZero
              omega
            cases hPlanned : plan.findProduct row.id with
            | none => rfl
            | some planned =>
                obtain ⟨hIn, hPlannedId⟩ := StockPlan.findProduct_mem hPlanned
                rw [hProducts] at hIn
                cases hStock.eq_of_id hMem (List.mem_of_mem_filter hIn) hPlannedId
                simp [hTracked]
        · rfl
      rw [hAll, List.filter_eq_self.mpr hNoDrops] at hEntries
      refine ⟨movements, hWritten, hTakes, ?_⟩
      intro product hProduct hProductId
      rw [hWritten.bare] at hProduct
      obtain ⟨before, hBefore, rfl⟩ := List.mem_map.mp hProduct
      cases hSound.stocked.eq_of_id hBare hBefore (hProductId.trans hId.symm)
      rw [← ProductStockState.unversioned_plus, ProductStockState.isEmpty_unversioned]
      have hParent := hSound.parentEmpty _ hBare
      simp only [ProductStockState.unversioned, List.forall_mem_map] at hParent
      apply removal_empties hStock hRow hParent _ hEntries
      intro movement hMovement
      apply ProductStockState.lands_of_accepts
      intro hOwn
      rw [← ProductStockState.accepts_unversioned]
      exact hWritten.accepts _ hBare movement hMovement hOwn

end

end Houndfe.Inventory
