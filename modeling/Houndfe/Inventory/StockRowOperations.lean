import Houndfe.Inventory.StockOperations

/-! The operations that add and delete rows (products, variants and lots) and the adjustments
keep the tables configured. -/

namespace Houndfe.Inventory

section

variable {tables middle after : StockTables} {movements : List PlannedMovement}
  {id today productId variantId lotId : String} {row : ProductRow}

/-- The product of this id tracks stock, if it is there. -/
def Tracked (id : String) (tables : StockTables) : Prop :=
  ∀ product ∈ tables.bare, product.id = id → product.useStock = true

theorem SameRows.tracked (h : SameRows tables after) (hTracked : Tracked id tables) :
    Tracked id after := by
  intro product hMem hId
  obtain ⟨before, hBefore, hSame, hUse, _⟩ := h product hMem
  rw [← hUse]
  exact hTracked before hBefore (hSame.trans hId)

theorem tracked_iff : Tracked id tables ↔
    ∀ product ∈ tables.stock, product.id = id → product.useStock = true := by
  unfold Tracked StockTables.bare
  rw [List.forall_mem_map]
  rfl

/-- Initial stock goes to the buckets that are to get some. -/
theorem recordInitial_keeps (hTables : Configured tables) {changes : List StockChange}
    (h : recordInitial today productId changes tables = .ok after) :
    Keeps tables after
      (∀ change ∈ changes, 0 < change.delta → Tracked change.bucket.productId tables) := by
  unfold recordInitial at h
  split at h
  · cases h
    exact Keeps.refl hTables
  · next initial hInitial =>
      obtain ⟨movements, hWritten, hEntries⟩ :=
        written_apply hTables.sound.rows_wellStocked (journaled_eq_ok.mp h)
      apply (hWritten.keeps hTables).mono
      intro hTracked movement hMovement
      right
      obtain ⟨change, hChange, hSame⟩ := exists_change_of_entries hEntries hMovement
      obtain ⟨hIn, hPositive⟩ := List.mem_filter.mp (List.mem_of_mem_filter hChange)
      have hBucket : change.bucket = movement.bucket := (Prod.mk.inj hSame).1
      rw [← hBucket]
      exact tracked_iff.mp (hTracked change hIn (by simpa using hPositive))

/-! ### Products -/

theorem remove_keeps (hTables : Configured tables) (h : remove today id tables = .ok after) :
    Keeps tables after True := by
  unfold remove at h
  split at h
  · cases h
  · obtain ⟨emptied, hRemoved, h⟩ := bind_eq_ok.mp h
    cases pure_eq_ok.mp h
    have hRemoved : removeProductStock today id tables = .ok emptied := hRemoved
    obtain ⟨hTaken, hEmpty⟩ := removeProductStock_takes hTables.sound hRemoved
    have hEmptied := hTaken.keeps hTables
    have hBare : StockTables.bare
        { emptied with products := emptied.products.filter (·.id ≠ id) } =
          emptied.bare.filter (·.id ≠ id) := by
      simp only [StockTables.bare, StockTables.stock, List.filter_map]
      rfl
    refine ⟨⟨?_, ?_⟩, ?_⟩
    · rw [hBare]
      exact hEmptied.configured.sound.deleted hEmpty
    · rw [hBare]
      exact fun product hMem => hEmptied.configured.flagged product (List.mem_of_mem_filter hMem)
    · intro _ hIdle
      rw [hBare]
      exact fun product hMem => hEmptied.idle trivial hIdle product (List.mem_of_mem_filter hMem)

/-- Inline variants are stored empty, under the ids that the request brings. -/
theorem inlineVariants_eq_ok {index : Nat} {entries : List (String × CreateVariantDto)}
    {variants : List VariantStockState} (h : inlineVariants index entries = .ok variants) :
    variants.map (·.id) = entries.map Prod.fst ∧ ∀ variant ∈ variants, variant.quantity = 0 := by
  induction entries generalizing index variants with
  | nil =>
      cases h
      simp
  | cons entry rest ih =>
      obtain ⟨id, dto⟩ := entry
      unfold inlineVariants at h
      split at h
      · cases h
      · next name hName =>
          cases hRest : inlineVariants (index + 1) rest with
          | error e => simp [hRest, Except.map] at h
          | ok later =>
              rw [hRest] at h
              cases h
              obtain ⟨hIds, hZero⟩ := ih hRest
              simp [newVariant, hIds]
              exact hZero

theorem Product.useStock_of_quantity {product : Product}
    (h : 0 < product.normalizeStockConfiguration.quantity) : product.useStock = true := by
  unfold normalizeStockConfiguration at h
  cases hUse : product.useStock with
  | true => rfl
  | false => simp [hUse] at h

/-- A product that is created with stock of its own tracks it. -/
theorem Product.create_eq_ok {dto : CreateProductDto} {product : Product}
    (h : Product.create productId dto = .ok product) :
    product.id = productId ∧ product.hasVariants = dto.hasVariants.getD false ∧
      (product.useStock ↔ dto.type ≠ some .service ∧ dto.useStock ≠ some false) ∧
      (0 < product.quantity → product.useStock = true) := by
  unfold Product.create at h
  dsimp only at h
  generalize (if dto.type = some .service ∨ dto.useLotsAndExpirations = some true then (0 : Rat)
    else dto.quantity.getD 0) = quantity at h
  split at h
  · cases h
  · cases h
    refine ⟨by simp, by simp, ?_, ?_⟩
    · rw [Product.useStock_normalized]
      cases dto.useStock with
      | none => simp
      | some useStock => simp
    · intro hPositive
      rw [Product.useStock_normalized]
      exact Product.useStock_of_quantity hPositive

theorem checkCreate_eq_ok {dto : CreateProductDto} {variants : List VariantStockState}
    (h : checkCreate dto = .ok variants) :
    (dto.variants ≠ [] → dto.hasVariants.getD false = true) ∧
      inlineVariants 0 dto.variants = .ok variants := by
  obtain ⟨_, hVariants, h⟩ := bind_eq_ok.mp h
  replace h := past h
  obtain ⟨rows, hRows, h⟩ := bind_eq_ok.mp h
  have hRefused := throwIf_eq_ok.mp hVariants
  refine ⟨?_, ?_⟩
  · intro hSome
    by_contra hNot
    exact hRefused ⟨hSome, by simpa using hNot⟩
  · split at h
    · cases h
    · cases h
      exact hRows

/-- The ids that a created product brings are new to the tables. -/
theorem fresh_of_freshIds {dto : CreateProductDto} (h : freshIds productId dto tables = true)
    (hId : row.id = productId)
    (hLots : row.lots.map (·.id) = dto.lots.map Prod.fst)
    (hVariants : row.variants.map (·.id) = dto.variants.map Prod.fst) :
    Fresh tables.bare row.toProductStockState.unversioned := by
  have hLotIds : row.toProductStockState.unversioned.lots.map (·.id) = dto.lots.map Prod.fst := by
    rw [← hLots]
    simp [ProductStockState.unversioned, Function.comp_def]
  have hVariantIds : row.toProductStockState.unversioned.variants.map (·.id) =
      dto.variants.map Prod.fst := by
    rw [← hVariants]
    simp [ProductStockState.unversioned, Function.comp_def]
  simp only [freshIds, Bool.and_eq_true, decide_eq_true_eq, Option.isNone_iff_eq_none,
    List.all_eq_true] at h
  obtain ⟨⟨⟨⟨hProduct, hVariantKeys⟩, hLotKeys⟩, hNewVariants⟩, hNewLots⟩ := h
  refine ⟨?_, hLotIds ▸ hLotKeys, hVariantIds ▸ hVariantKeys, ?_, ?_⟩
  · intro other hOther
    obtain ⟨stored, hStored, rfl⟩ := StockTables.mem_bare.mp hOther
    have hNe := Keyed.lookup_eq_none.mp hProduct stored hStored
    exact fun hSame => hNe (hSame.trans hId)
  · intro other hOther lot hLot hIn
    obtain ⟨stored, hStored, rfl⟩ := StockTables.mem_bare.mp hOther
    have hEntry := List.mem_map_of_mem (f := (·.id)) hLot
    rw [hLotIds] at hEntry
    obtain ⟨entry, hEntry, hKey⟩ := List.mem_map.mp hEntry
    have hNew := hNewLots entry hEntry
    simp only [ProductStockState.unversioned, List.map_map, List.mem_map] at hIn
    obtain ⟨held, hHeld, hSame⟩ := hIn
    simp only [StockTables.hasLot, Bool.not_eq_true', List.any_eq_false, decide_eq_true_eq,
      List.any_eq_true, not_exists, not_and] at hNew
    exact hNew stored hStored held hHeld (hSame.trans hKey.symm)
  · intro other hOther variant hVariant hIn
    obtain ⟨stored, hStored, rfl⟩ := StockTables.mem_bare.mp hOther
    have hEntry := List.mem_map_of_mem (f := (·.id)) hVariant
    rw [hVariantIds] at hEntry
    obtain ⟨entry, hEntry, hKey⟩ := List.mem_map.mp hEntry
    have hNew := hNewVariants entry hEntry
    simp only [ProductStockState.unversioned, List.map_map, List.mem_map] at hIn
    obtain ⟨held, hHeld, hSame⟩ := hIn
    simp only [StockTables.hasVariant, Bool.not_eq_true', List.any_eq_false, decide_eq_true_eq,
      List.any_eq_true, not_exists, not_and] at hNew
    exact hNew stored hStored held hHeld (hSame.trans hKey.symm)

theorem added_keeps (hTables : Configured tables)
    (hFresh : Fresh tables.bare row.toProductStockState.unversioned)
    (hEmpty : row.toProductStockState.IsEmpty)
    (hFlag : row.variants ≠ [] → row.hasVariants = true) :
    Keeps tables { tables with products := tables.products ++ [row] } True := by
  have hBare : StockTables.bare { tables with products := tables.products ++ [row] } =
      tables.bare ++ [row.toProductStockState.unversioned] := by
    simp [StockTables.bare, StockTables.stock]
  have hNone := ProductStockState.isEmpty_unversioned.mpr hEmpty
  refine ⟨⟨?_, ?_⟩, ?_⟩
  · rw [hBare]
    exact hTables.sound.added hFresh hNone
  · rw [hBare, Flagged, List.forall_mem_append, List.forall_mem_singleton]
    refine ⟨hTables.flagged, ?_⟩
    intro hSome
    apply hFlag
    simpa [ProductStockState.unversioned] using hSome
  · intro _ hIdle
    rw [hBare, Idle, List.forall_mem_append, List.forall_mem_singleton]
    exact ⟨hIdle, fun _ => hNone⟩

/-- A request brings stock only to a product that tracks it. -/
def CreateProductDto.BringsTracked (dto : CreateProductDto) : Prop :=
  dto.type ≠ some .service ∧ dto.useStock ≠ some false ∨
    (∀ entry ∈ dto.variants, entry.2.quantity.getD 0 ≤ 0) ∧
      ∀ entry ∈ dto.lots, entry.2.quantity.getD 0 ≤ 0

theorem create_keeps (hTables : Configured tables) {dto : CreateProductDto}
    (h : create today productId dto tables = .ok after) :
    Keeps tables after dto.BringsTracked := by
  unfold create at h
  split at h
  · cases h
  · cases h
  · next variants product hCheck hCreate =>
      split at h
      · next hFreshIds =>
          obtain ⟨hId, hHas, hUse, hOwn⟩ := Product.create_eq_ok hCreate
          obtain ⟨hFlag, hInline⟩ := checkCreate_eq_ok hCheck
          obtain ⟨hVariantIds, hVariantsZero⟩ := inlineVariants_eq_ok hInline
          let row : ProductRow := {
            id := productId
            name := dto.name
            quantity := 0
            stockVersion := 0
            useStock := product.useStock
            hasVariants := product.hasVariants
            lots := dto.lots.map fun entry => newLot entry.1 entry.2
            variants := variants
            type := product.type
            useLotsAndExpirations := product.useLotsAndExpirations }
          have hLotIds : row.lots.map (·.id) = dto.lots.map Prod.fst := by
            simp [row, newLot, Function.comp_def]
          have hFresh := fresh_of_freshIds hFreshIds rfl hLotIds hVariantIds
          have hLotsZero : ∀ lot ∈ row.lots, lot.quantity = 0 := by
            intro lot hLot
            obtain ⟨entry, _, rfl⟩ := List.mem_map.mp hLot
            rfl
          have hEmpty : row.toProductStockState.IsEmpty := ⟨rfl, hLotsZero, hVariantsZero⟩
          have hMarked : row.variants ≠ [] → row.hasVariants = true := by
            intro hSome
            show product.hasVariants = true
            rw [hHas]
            apply hFlag
            intro hNone
            apply hSome
            have hNoIds : variants.map (·.id) = [] := by rw [hVariantIds, hNone, List.map_nil]
            exact List.map_eq_nil_iff.mp hNoIds
          have hAdded := added_keeps hTables hFresh hEmpty hMarked
          apply (hAdded.trans (recordInitial_keeps hAdded.configured h)).mono
          intro hBrings
          refine ⟨trivial, ?_⟩
          intro change hChange hPositive
          have hOwner : change.bucket.productId = productId ∧ product.useStock = true := by
            unfold initialChanges at hChange
            rcases List.mem_append.mp hChange with hEarlier | hLot
            · rcases List.mem_append.mp hEarlier with hUntracked | hVariant
              · split at hUntracked
                · next hQuantity =>
                    cases List.mem_singleton.mp hUntracked
                    exact ⟨hId, hOwn hQuantity⟩
                · cases hUntracked
              · obtain ⟨entry, hEntry, rfl⟩ := List.mem_map.mp hVariant
                refine ⟨hId, ?_⟩
                rcases hBrings with hTracks | ⟨hNoVariants, _⟩
                · exact hUse.mpr hTracks
                · exact absurd hPositive
                    (not_lt.mpr (hNoVariants entry (List.mem_of_mem_filter hEntry)))
            · obtain ⟨entry, hEntry, rfl⟩ := List.mem_map.mp hLot
              refine ⟨hId, ?_⟩
              rcases hBrings with hTracks | ⟨_, hNoLots⟩
              · exact hUse.mpr hTracks
              · exact absurd hPositive (not_lt.mpr (hNoLots entry (List.mem_of_mem_filter hEntry)))
          rw [hOwner.1]
          intro stored hStored hStoredId
          obtain ⟨other, hOther, rfl⟩ := StockTables.mem_bare.mp hStored
          rcases List.mem_append.mp hOther with hOld | hNew
          · exact absurd hStoredId
              (hFresh.id _ (StockTables.mem_bare.mpr ⟨other, hOld, rfl⟩))
          · cases List.mem_singleton.mp hNew
            exact hOwner.2
      · cases h

/-! ### Variants -/

/-- The only product that may have variants without being marked is this one. -/
def FlaggedBut (id : String) (tables : StockTables) : Prop :=
  ∀ product ∈ tables.bare, product.id ≠ id → product.variants ≠ [] → product.hasVariants = true

theorem SameRows.flaggedBut (h : SameRows tables after) (hFlagged : FlaggedBut id tables) :
    FlaggedBut id after := by
  intro product hMem hId hSome
  obtain ⟨before, hBefore, hSame, _, hHas, hNone⟩ := h product hMem
  rw [← hHas]
  exact hFlagged before hBefore (hSame ▸ hId) (hNone.not.mpr hSome)

theorem bare_firstVariant : (tables.updateProduct id fun row =>
      { row with hasVariants := true, useLotsAndExpirations := false, quantity := 0 }).bare =
    editAt id (·.asParent) tables.bare := by
  apply bare_updateProduct
  intro row _ _
  rfl

/-- The product that a first variant is added to gives up its stock and is marked. -/
theorem firstVariant_keeps (hSound : Sound tables.bare tables.journal)
    (hFlagged : FlaggedBut id tables) (h : firstVariant today id tables = .ok after) :
    Keeps tables after True ∧ (Tracked id tables → Tracked id after) := by
  obtain ⟨emptied, hRemoved, h⟩ := bind_eq_ok.mp h
  cases pure_eq_ok.mp h
  have hRemoved : removeProductStock today id tables = .ok emptied := hRemoved
  obtain ⟨hTaken, hEmpty⟩ := removeProductStock_takes hSound hRemoved
  have hEmptied := hTaken.sound hSound
  refine ⟨⟨⟨?_, ?_⟩, ?_⟩, ?_⟩
  · rw [bare_firstVariant]
    apply hEmptied.edited
    · exact keepsStock_asParent hEmptied.stocked fun product hMem hId => (hEmpty product hMem hId).1
    · exact fun product hMem hId _ => ⟨rfl, (hEmpty product hMem hId).2.1⟩
    · exact fun product hMem hId _ => (hEmpty product hMem hId).untracked
  · rw [bare_firstVariant, Flagged, forall_mem_editAt]
    intro product hMem
    refine ⟨fun _ _ => rfl, ?_⟩
    exact fun hId => hTaken.sameRows.flaggedBut hFlagged product hMem hId
  · intro _ hIdle
    rw [bare_firstVariant]
    apply (hTaken.idle hIdle).edited
    intro product hMem hId _
    obtain ⟨_, hLots, hVariants⟩ := hEmpty product hMem hId
    exact ⟨rfl, hLots, hVariants⟩
  · intro hTracked
    rw [Tracked, bare_firstVariant, forall_mem_editAt]
    intro product hMem
    have hBefore := hTaken.sameRows.tracked hTracked product hMem
    exact ⟨fun _ hId => hBefore hId, fun _ hId => hBefore hId⟩

theorem bare_addVariant {name : String} : (tables.updateProduct id fun row =>
      { row with variants := row.variants ++ [newVariant variantId name] }).bare =
    editAt id (·.addVariant (newVariant variantId name)) tables.bare := by
  apply bare_updateProduct
  intro row _ _
  simp [ProductStockState.unversioned, ProductStockState.addVariant, newVariant]

theorem isEmpty_addVariant {product : ProductStockState} {name : String}
    (h : product.IsEmpty) : (product.addVariant (newVariant variantId name)).IsEmpty := by
  refine ⟨h.1, h.2.1, ?_⟩
  rw [ProductStockState.addVariant, List.forall_mem_append, List.forall_mem_singleton]
  exact ⟨h.2.2, rfl⟩

/-- A variant row that no table has yet is added empty. -/
theorem variantAdded_keeps (id name : String) (hTables : Configured tables)
    (hNew : tables.hasVariant variantId = false) :
    ∃ inserted, (tables.updateProduct id fun row =>
        { row with variants := row.variants ++ [newVariant variantId name] }) = inserted ∧
      Sound inserted.bare inserted.journal ∧ FlaggedBut id inserted ∧
      (Idle tables.bare → Idle inserted.bare) ∧ (Tracked id tables → Tracked id inserted) ∧
      ((∀ product ∈ tables.bare, product.id = id → product.hasVariants = true) →
        Flagged inserted.bare) := by
  have hIds : ∀ product ∈ tables.bare,
      (newVariant variantId name).id ∉ product.variants.map (·.id) := by
    intro product hMem hIn
    obtain ⟨row, hRow, rfl⟩ := StockTables.mem_bare.mp hMem
    simp only [ProductStockState.unversioned, List.map_map, List.mem_map] at hIn
    obtain ⟨held, hHeld, hSame⟩ := hIn
    simp only [StockTables.hasVariant, List.any_eq_false, decide_eq_true_eq, List.any_eq_true,
      not_exists, not_and] at hNew
    exact hNew row hRow held hHeld hSame
  refine ⟨_, rfl, ?_, ?_, ?_, ?_, ?_⟩
  · rw [bare_addVariant]
    apply hTables.sound.edited (keepsStock_addVariant hTables.sound.stocked rfl hIds)
    · exact fun product hMem _ => hTables.sound.parentEmpty product hMem
    · exact fun product hMem _ => hTables.sound.untrackedEmpty product hMem
  · rw [FlaggedBut, bare_addVariant, forall_mem_editAt]
    intro product hMem
    exact ⟨fun hId hNot => absurd hId hNot, fun _ _ => hTables.flagged product hMem⟩
  · intro hIdle
    rw [bare_addVariant]
    apply hIdle.edited
    exact fun product hMem _ hUse => isEmpty_addVariant (hIdle product hMem hUse)
  · intro hTracked
    rw [Tracked, bare_addVariant, forall_mem_editAt]
    exact fun product hMem => ⟨fun _ => hTracked product hMem, fun _ => hTracked product hMem⟩
  · intro hParent
    rw [bare_addVariant]
    apply hTables.flagged.edited
    exact fun product hMem hId _ => hParent product hMem hId

theorem addVariant_keeps (hTables : Configured tables) {dto : CreateVariantDto}
    (h : addVariant today productId variantId dto tables = .ok after) :
    Keeps tables after (0 < dto.quantity.getD 0 → Tracked productId tables) := by
  unfold addVariant at h
  split at h
  · cases h
  · next row hFound =>
      split at h
      · cases h
      · next name hName =>
          split at h
          · cases h
          · next hNew =>
              obtain ⟨inserted, hInserted, hSound, hFlagged, hIdle, hTracked, hMarked⟩ :=
                variantAdded_keeps productId name hTables (by simpa using hNew)
              dsimp only at h
              rw [hInserted] at h
              have hKept : ∃ converted, Keeps inserted converted True ∧
                  (Tracked productId inserted → Tracked productId converted) ∧
                  recordInitial today productId [{
                    bucket := .variant productId variantId
                    delta := dto.quantity.getD 0 }] converted = .ok after := by
                split at h
                · next hHas =>
                    have hFlag := hMarked fun product hMem hId => by
                      cases bare_of_found hTables.sound hFound hMem hId
                      exact hHas
                    exact ⟨inserted, Keeps.refl ⟨hSound, hFlag⟩, fun hBefore => hBefore, h⟩
                · obtain ⟨converted, hConverted, h⟩ := bind_eq_ok.mp h
                  obtain ⟨hKept, hStill⟩ := firstVariant_keeps hSound hFlagged hConverted
                  exact ⟨converted, hKept, hStill, h⟩
              obtain ⟨converted, hConverted, hStillTracked, h⟩ := hKept
              have hInitial := recordInitial_keeps hConverted.configured h
              refine ⟨hInitial.configured, ?_⟩
              intro hTracks hStart
              apply hInitial.idle _ (hConverted.idle trivial (hIdle hStart))
              intro change hChange hPositive
              cases List.mem_singleton.mp hChange
              exact hStillTracked (hTracked (hTracks hPositive))

/-- After the removal of its stock a variant is empty. -/
theorem removeVariantStock_takes (hSound : Sound tables.bare tables.journal)
    (h : removeVariantStock today productId variantId tables = .ok after) :
    Takes tables after ∧ ∀ product ∈ after.bare, product.id = productId →
      ∀ variant ∈ product.variants, variant.id = variantId → variant.quantity = 0 := by
  unfold removeVariantStock at h
  split at h
  · next hNone =>
      cases h
      refine ⟨Takes.refl hSound, ?_⟩
      intro product hMem hId
      obtain ⟨row, hRow, rfl⟩ := StockTables.mem_bare.mp hMem
      exact absurd hId (Keyed.lookup_eq_none.mp hNone row hRow)
  · next row hFound =>
      split at h
      · next hNone =>
          cases h
          refine ⟨Takes.refl hSound, ?_⟩
          intro product hMem hId variant hVariant hVariantId
          have hNonneg := hSound.stocked.variants product hMem variant hVariant
          cases bare_of_found hSound hFound hMem hId
          obtain ⟨stored, hStored, rfl⟩ := List.mem_map.mp hVariant
          have hEmpty : ¬ 0 < stored.quantity := fun hPositive =>
            Keyed.lookup_eq_none.mp hNone stored
              (List.mem_filter.mpr ⟨hStored, by simpa using hPositive⟩) hVariantId
          dsimp only at hNonneg ⊢
          omega
      · next stored hStocked =>
          obtain ⟨hIn, rfl⟩ := Keyed.lookup_eq_some hStocked
          obtain ⟨hStored, hPositive⟩ := List.mem_filter.mp hIn
          have hPositive : 0 < stored.quantity := by simpa using hPositive
          obtain ⟨movements, plan, hWritten, hTakes, _, hEntries⟩ := written_removal hSound h
          refine ⟨⟨movements, hWritten, hTakes⟩, ?_⟩
          have hDelta : (-(stored.quantity : Rat)) < 0 :=
            neg_lt_zero.mpr (by exact_mod_cast hPositive)
          have hOne : movements.map (·.entry) =
              [(.variant productId stored.id, -stored.quantity)] := by
            rw [hEntries]
            simp [hDelta, StockPlan.drops, StockChange.entry]
          intro product hMem hId variant hVariant hVariantId
          rw [hWritten.bare] at hMem
          obtain ⟨before, hBefore, rfl⟩ := List.mem_map.mp hMem
          cases bare_of_found hSound hFound hBefore hId
          obtain ⟨held, hHeld, rfl⟩ := List.mem_map.mp hVariant
          obtain ⟨other, hOther, rfl⟩ := List.mem_map.mp hHeld
          have hKeys := hSound.rows_wellStocked.variantKeys
            (List.mem_map_of_mem (Keyed.lookup_eq_some hFound).1)
          cases List.inj_on_of_nodup_map hKeys hOther hStored hVariantId
          have hOwner : row.id = productId := (Keyed.lookup_eq_some hFound).2
          show stored.quantity + moved (.variant row.id stored.id) movements = 0
          rw [moved_eq_entries, hOne, hOwner]
          simp [Journal.total]

theorem bare_deleteVariant : (deleteVariant id variantId tables).bare =
    editAt id (·.dropVariant variantId) tables.bare := by
  apply bare_updateProduct
  intro row _ _
  simp only [ProductStockState.unversioned, ProductStockState.dropVariant, List.filter_map,
    List.map_eq_nil_iff]
  rfl

theorem removeVariant_keeps (hTables : Configured tables)
    (h : removeVariant today productId variantId tables = .ok after) :
    Keeps tables after True := by
  unfold removeVariant at h
  split at h
  · cases h
  · split at h
    · obtain ⟨emptied, hRemoved, h⟩ := bind_eq_ok.mp h
      cases pure_eq_ok.mp h
      have hRemoved : removeVariantStock today productId variantId tables = .ok emptied := hRemoved
      obtain ⟨hTaken, hEmpty⟩ := removeVariantStock_takes hTables.sound hRemoved
      have hEmptied := hTaken.keeps hTables
      have hSound := hEmptied.configured.sound
      refine ⟨⟨?_, ?_⟩, ?_⟩
      · rw [bare_deleteVariant]
        apply hSound.edited (keepsStock_dropVariant hSound.stocked hEmpty)
        · intro product hMem _ hHas
          apply hSound.parentEmpty product hMem
          by_contra hNot
          simp [ProductStockState.dropVariant, hNot] at hHas
        · exact fun product hMem _ => hSound.untrackedEmpty product hMem
      · rw [bare_deleteVariant]
        apply hEmptied.configured.flagged.edited
        intro product hMem _ hSome
        have hHad : product.hasVariants = true := by
          apply hEmptied.configured.flagged product hMem
          intro hNone
          exact hSome (by simp [ProductStockState.dropVariant, hNone])
        show (if product.variants.filter (·.id ≠ variantId) = [] then false
          else product.hasVariants) = true
        have hRemaining : product.variants.filter (·.id ≠ variantId) ≠ [] := hSome
        rw [if_neg hRemaining, hHad]
      · intro _ hIdle
        rw [bare_deleteVariant]
        apply (hEmptied.idle trivial hIdle).edited
        intro product hMem _ hUse
        obtain ⟨hQuantity, hLots, hVariants⟩ := hEmptied.idle trivial hIdle product hMem hUse
        exact ⟨hQuantity, hLots, fun variant hVariant =>
          hVariants variant (List.mem_of_mem_filter hVariant)⟩
    · cases h

/-! ### Lots -/

/-- An edit of lots that puts nothing on an empty product. -/
theorem keeps_of_lots {change : ProductRow → ProductRow} {edit : ProductStockState → ProductStockState}
    (hTables : Configured tables)
    (hBare : (tables.updateProduct id change).bare = editAt id edit tables.bare)
    (hStock : KeepsStock tables.bare id edit)
    (hRest : ∀ product, edit product = { product with lots := (edit product).lots })
    (hLots : ∀ product, (∀ lot ∈ product.lots, lot.quantity = 0) →
      ∀ lot ∈ (edit product).lots, lot.quantity = 0) :
    Keeps tables (tables.updateProduct id change) True := by
  have hSound := hTables.sound
  refine ⟨⟨?_, ?_⟩, ?_⟩
  · rw [hBare]
    apply hSound.edited hStock
    · intro product hMem _ hHas
      rw [hRest] at hHas ⊢
      obtain ⟨hQuantity, hZero⟩ := hSound.parentEmpty product hMem hHas
      exact ⟨hQuantity, hLots product hZero⟩
    · intro product hMem _ hUse
      rw [hRest] at hUse
      exact hSound.untrackedEmpty product hMem hUse
  · rw [hBare]
    apply hTables.flagged.edited
    intro product hMem _ hSome
    rw [hRest] at hSome ⊢
    exact hTables.flagged product hMem hSome
  · intro _ hIdle
    rw [hBare]
    apply hIdle.edited
    intro product hMem _ hUse
    rw [hRest] at hUse ⊢
    obtain ⟨hQuantity, hZero, hVariants⟩ := hIdle product hMem hUse
    exact ⟨hQuantity, hLots product hZero, hVariants⟩

theorem bare_addLot {dto : CreateLotDto} : (tables.updateProduct id fun row =>
      { row with lots := row.lots ++ [newLot lotId dto] }).bare =
    editAt id (·.addLot (newLot lotId dto)) tables.bare := by
  apply bare_updateProduct
  intro row _ _
  simp [ProductStockState.unversioned, ProductStockState.addLot, newLot]

/-- A product that may get a lot tracks stock and has no variants. -/
theorem flags_of_lotRefusal {lotNumber : String}
    (h : lotRefusal (Product.fromPersistence row) row lotNumber = none) :
    row.useStock = true ∧ row.hasVariants = false := by
  unfold lotRefusal at h
  split at h
  · cases h
  · split at h
    · cases h
    · next hLots =>
        unfold Product.fromPersistence Product.normalizeStockConfiguration at hLots
        cases hUse : row.useStock with
        | false => simp [hUse] at hLots
        | true =>
            cases hHas : row.hasVariants with
            | true => simp [hUse, hHas] at hLots
            | false => exact ⟨rfl, rfl⟩

theorem addLot_keeps (hTables : Configured tables) {dto : CreateLotDto}
    (h : addLot today productId lotId dto tables = .ok after) : Keeps tables after True := by
  have hSound := hTables.sound
  unfold addLot at h
  split at h
  · cases h
  · next row hFound =>
      split at h
      · cases h
      · next hAllowed =>
          split at h
          · cases h
          · next hNew =>
              obtain ⟨hUse, hHas⟩ := flags_of_lotRefusal hAllowed
              have hIds : ∀ product ∈ tables.bare,
                  (newLot lotId dto).id ∉ product.lots.map (·.id) := by
                intro product hMem hIn
                obtain ⟨stored, hStored, rfl⟩ := StockTables.mem_bare.mp hMem
                simp only [ProductStockState.unversioned, List.map_map, List.mem_map] at hIn
                obtain ⟨held, hHeld, hSame⟩ := hIn
                simp only [StockTables.hasLot, List.any_eq_true, decide_eq_true_eq, not_exists,
                  not_and] at hNew
                exact hNew stored hStored held hHeld hSame
              have hFlags : ∀ product ∈ tables.bare, product.id = productId →
                  product.useStock = true ∧ product.hasVariants = false := by
                intro product hMem hId
                cases bare_of_found hSound hFound hMem hId
                exact ⟨hUse, hHas⟩
              have hInserted : Keeps tables (tables.updateProduct productId fun row =>
                  { row with lots := row.lots ++ [newLot lotId dto] }) True := by
                refine keeps_of_lots hTables bare_addLot
                  (keepsStock_addLot hSound.stocked rfl hIds) (fun _ => rfl) ?_
                intro product hZero lot hLot
                rcases List.mem_append.mp hLot with hOld | hNew
                · exact hZero lot hOld
                · rw [List.mem_singleton.mp hNew]
                  rfl
              apply (hInserted.trans (recordInitial_keeps hInserted.configured h)).mono
              intro _
              refine ⟨trivial, ?_⟩
              intro change hChange _
              cases List.mem_singleton.mp hChange
              rw [StockBucketRef.productId_lot, Tracked, bare_addLot, forall_mem_editAt]
              intro product hMem
              have hOn := fun hId => (hFlags product hMem hId).1
              exact ⟨fun _ => hOn, fun _ => hOn⟩

def ProductStockState.redateLot (product : ProductStockState) (lotId : String)
    (expirationDate : Int) : ProductStockState :=
  { product with
    lots := product.lots.map fun lot =>
      if lot.id = lotId then { lot with expirationDate := expirationDate } else lot }

theorem bare_updateLot {expirationDate : Int} : (tables.updateProduct id fun row =>
      { row with
        lots := row.lots.map fun lot =>
          if lot.id = lotId then { lot with expirationDate := expirationDate } else lot }).bare =
    editAt id (·.redateLot lotId expirationDate) tables.bare := by
  apply bare_updateProduct
  intro row _ _
  simp only [ProductStockState.unversioned, ProductStockState.redateLot, List.map_map]
  congr 1
  apply List.map_congr_left
  intro lot _
  simp only [Function.comp_apply]
  split <;> rfl

theorem map_redateLot {α : Type} (product : ProductStockState) (expirationDate : Int)
    {f : LotStockState → α}
    (hSame : ∀ lot : LotStockState, f { lot with expirationDate := expirationDate } = f lot) :
    (product.redateLot lotId expirationDate).lots.map f = product.lots.map f := by
  simp only [ProductStockState.redateLot, List.map_map]
  apply List.map_congr_left
  intro lot _
  simp only [Function.comp_apply]
  split
  · exact hSame lot
  · rfl

theorem keepsStock_redateLot {stock : List ProductStockState} (hStock : WellStocked stock)
    (expirationDate : Int) : KeepsStock stock id (·.redateLot lotId expirationDate) := by
  refine keepsStock_of_same hStock (fun _ => rfl)
    (fun product => map_redateLot product expirationDate fun _ => rfl) (fun _ => rfl) ?_
  intro product _ _ bucket _
  cases bucket with
  | productUntracked owner =>
      have hSame : (product.redateLot lotId expirationDate).lots.map (·.quantity) =
          product.lots.map (·.quantity) := map_redateLot product expirationDate fun _ => rfl
      show product.quantity - _ = product.quantity - _
      rw [hSame]
  | lot owner other =>
      simp only [ProductStockState.balance, ProductStockState.redateLot]
      rw [Keyed.lookup_map]
      · cases Keyed.lookup LotStockState.id product.lots other with
        | none => rfl
        | some lot =>
            simp only [Option.map_some]
            split <;> rfl
      · intro lot
        split <;> rfl
  | variant owner variantId => rfl

theorem updateLot_keeps (hTables : Configured tables) {expirationDate : Int}
    (h : updateLot productId lotId expirationDate tables = .ok after) :
    Keeps tables after True := by
  have hSound := hTables.sound
  unfold updateLot at h
  split at h
  · cases h
  · split at h
    · cases h
      refine keeps_of_lots hTables bare_updateLot
        (keepsStock_redateLot hSound.stocked expirationDate) (fun _ => rfl) ?_
      intro product hZero lot hLot
      obtain ⟨before, hBefore, rfl⟩ := List.mem_map.mp hLot
      split
      · exact hZero before hBefore
      · exact hZero before hBefore
    · cases h

theorem bare_removeLot : (tables.updateProduct id fun row =>
      { row with lots := row.lots.filter (·.id ≠ lotId) }).bare =
    editAt id (·.dropLot lotId) tables.bare := by
  apply bare_updateProduct
  intro row _ _
  simp only [ProductStockState.unversioned, ProductStockState.dropLot, List.filter_map]
  rfl

theorem removeLot_keeps (hTables : Configured tables)
    (h : removeLot productId lotId tables = .ok after) : Keeps tables after True := by
  have hSound := hTables.sound
  unfold removeLot at h
  split at h
  · cases h
  · next row hFound =>
      split at h
      · cases h
      · next lot hLot =>
          split at h
          · cases h
          · next hStocked =>
              cases h
              have hZero : ∀ product ∈ tables.bare, product.id = productId →
                  ∀ other ∈ product.lots, other.id = lotId → other.quantity = 0 := by
                intro product hMem hId other hOther hOtherId
                have hNonneg := hSound.stocked.lots product hMem other hOther
                cases bare_of_found hSound hFound hMem hId
                obtain ⟨stored, hStored, rfl⟩ := List.mem_map.mp hOther
                obtain ⟨hIn, hLotId⟩ := Keyed.lookup_eq_some hLot
                have hKeys := hSound.rows_wellStocked.lotKeys
                  (List.mem_map_of_mem (Keyed.lookup_eq_some hFound).1)
                cases List.inj_on_of_nodup_map hKeys hStored hIn (hOtherId.trans hLotId.symm)
                dsimp only at hNonneg ⊢
                omega
              exact keeps_of_lots hTables bare_removeLot
                (keepsStock_dropLot hSound.stocked hZero) (fun _ => rfl)
                fun _ hEmpty other hOther => hEmpty other (List.mem_of_mem_filter hOther)

/-! ### Adjustments -/

/-- An adjustment moves a bucket of a product that tracks stock. -/
theorem adjust_keeps (hTables : Configured tables) {groupId : String} {input : AdjustmentInput}
    (h : adjust today groupId input tables = .ok after) : Keeps tables after True := by
  unfold adjust at h
  split at h
  · cases h
  · next row hFound =>
      split at h
      · cases h
      · next hTracked =>
          split at h
          · cases h
          · obtain ⟨movements, hWritten, hEntries⟩ :=
              written_apply hTables.sound.rows_wellStocked (journaled_eq_ok.mp h)
            apply (hWritten.keeps hTables).mono
            intro _ movement hMovement
            right
            obtain ⟨change, hChange, hSame⟩ := exists_change_of_entries hEntries hMovement
            cases List.mem_singleton.mp (List.mem_of_mem_filter hChange)
            have hBucket : input.target = movement.bucket := (Prod.mk.inj hSame).1
            rw [← hBucket]
            have hOn : Tracked input.target.productId tables := by
              intro product hMem hId
              cases bare_of_found hTables.sound hFound hMem hId
              show row.useStock = true
              simp only [Bool.or_eq_true, Bool.not_eq_true', decide_eq_true_eq, not_or] at hTracked
              simpa using hTracked.1
            exact tracked_iff.mp hOn

end

end Houndfe.Inventory
