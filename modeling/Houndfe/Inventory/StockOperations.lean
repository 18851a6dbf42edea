import Houndfe.Inventory.StockRemoval
import Mathlib.Algebra.Order.Group.Int

/-! Each product operation keeps the tables configured: it is made of journal writes and of
edits that move no unit. -/

namespace Houndfe.Inventory

/-- Tables with sound stock, whose variants stand under products marked as having them. -/
structure Configured (tables : StockTables) : Prop where
  sound : Sound tables.bare tables.journal
  flagged : Flagged tables.bare

/-- Configured tables after an operation, with untracked products still empty where the
operation kept a condition. -/
structure Keeps (tables after : StockTables) (condition : Prop) : Prop where
  configured : Configured after
  idle : condition → Idle tables.bare → Idle after.bare

section

variable {tables middle after : StockTables} {movements : List PlannedMovement}
  {condition condition' : Prop} {id today : String}

theorem Keeps.refl (h : Configured tables) : Keeps tables tables condition :=
  ⟨h, fun _ hIdle => hIdle⟩

theorem Keeps.trans (first : Keeps tables middle condition)
    (second : Keeps middle after condition') : Keeps tables after (condition ∧ condition') :=
  ⟨second.configured, fun hBoth hIdle => second.idle hBoth.2 (first.idle hBoth.1 hIdle)⟩

theorem Keeps.mono (h : Keeps tables after condition) (hImp : condition' → condition) :
    Keeps tables after condition' :=
  ⟨h.configured, fun hCondition => h.idle (hImp hCondition)⟩

theorem Written.keeps (h : Written tables after movements) (hTables : Configured tables) :
    Keeps tables after (PutsOnTracked tables movements) :=
  ⟨⟨h.sound hTables.sound, h.flagged hTables.flagged⟩, h.idle⟩

/-! ### Taking units out -/

/-- Units may have been taken out of the tables, and nothing else. -/
def Takes (tables after : StockTables) : Prop :=
  ∃ movements, Written tables after movements ∧ ∀ movement ∈ movements, movement.delta < 0

/-- The product of this id holds nothing. -/
def Emptied (id : String) (tables : StockTables) : Prop :=
  ∀ product ∈ tables.bare, product.id = id → product.IsEmpty

theorem Takes.refl (hSound : Sound tables.bare tables.journal) : Takes tables tables :=
  ⟨[], Written.refl hSound.stocked, by simp⟩

theorem Takes.sound (h : Takes tables after) (hSound : Sound tables.bare tables.journal) :
    Sound after.bare after.journal := by
  obtain ⟨movements, hWritten, _⟩ := h
  exact hWritten.sound hSound

theorem Takes.idle (h : Takes tables after) (hIdle : Idle tables.bare) : Idle after.bare := by
  obtain ⟨movements, hWritten, hTakes⟩ := h
  exact hWritten.idle (fun movement hMovement => .inl (hTakes movement hMovement)) hIdle

theorem Takes.keeps (h : Takes tables after) (hTables : Configured tables) :
    Keeps tables after True := by
  obtain ⟨movements, hWritten, hTakes⟩ := h
  exact (hWritten.keeps hTables).mono fun _ movement hMovement => .inl (hTakes movement hMovement)

/-- Each row of `after` was one of `tables`, with the flags it has and variants if it has
some. -/
def SameRows (tables after : StockTables) : Prop :=
  ∀ product ∈ after.bare, ∃ before ∈ tables.bare, before.id = product.id ∧
    before.useStock = product.useStock ∧ before.hasVariants = product.hasVariants ∧
    (before.variants = [] ↔ product.variants = [])

theorem SameRows.trans (first : SameRows tables middle) (second : SameRows middle after) :
    SameRows tables after := by
  intro product hMem
  obtain ⟨between, hBetween, hId, hUse, hHas, hNone⟩ := second product hMem
  obtain ⟨before, hBefore, hId', hUse', hHas', hNone'⟩ := first between hBetween
  exact ⟨before, hBefore, hId'.trans hId, hUse'.trans hUse, hHas'.trans hHas, hNone'.trans hNone⟩

theorem Written.sameRows (h : Written tables after movements) : SameRows tables after := by
  intro product hMem
  rw [h.bare] at hMem
  obtain ⟨before, hBefore, rfl⟩ := List.mem_map.mp hMem
  exact ⟨before, hBefore, rfl, rfl, rfl, by simp [ProductStockState.plus]⟩

theorem Takes.sameRows (h : Takes tables after) : SameRows tables after := by
  obtain ⟨movements, hWritten, _⟩ := h
  exact hWritten.sameRows

theorem removeProductStock_takes (hSound : Sound tables.bare tables.journal)
    (h : removeProductStock today id tables = .ok after) :
    Takes tables after ∧ Emptied id after := by
  obtain ⟨movements, hWritten, hTakes, hEmpty⟩ := written_removeProductStock hSound h
  exact ⟨⟨movements, hWritten, hTakes⟩, hEmpty⟩

/-! ### Editing a product -/

variable {change : ProductRow → ProductRow} {edit : ProductStockState → ProductStockState}
  {row : ProductRow}

theorem bare_updateProduct (h : ∀ row ∈ tables.products, row.id = id →
      (change row).toProductStockState.unversioned = edit row.toProductStockState.unversioned) :
    (tables.updateProduct id change).bare = editAt id edit tables.bare := by
  simp only [StockTables.bare, StockTables.stock, StockTables.updateProduct, editAt, List.map_map]
  apply List.map_congr_left
  intro row hRow
  by_cases hId : row.id = id
  · have hBare : row.toProductStockState.unversioned.id = id := hId
    simp only [Function.comp_apply, if_pos hId, if_pos hBare]
    exact h row hRow hId
  · have hBare : row.toProductStockState.unversioned.id ≠ id := hId
    simp only [Function.comp_apply, if_neg hId, if_neg hBare]

/-- The product that an operation found is the only one of its id. -/
theorem bare_of_found (hSound : Sound tables.bare tables.journal)
    (hFound : tables.findProduct id = some row) {product : ProductStockState}
    (hMem : product ∈ tables.bare) (hId : product.id = id) :
    product = row.toProductStockState.unversioned := by
  obtain ⟨hRow, hRowId⟩ := Keyed.lookup_eq_some hFound
  have hBare : row.toProductStockState.unversioned ∈ tables.bare :=
    StockTables.mem_bare.mpr ⟨row, hRow, rfl⟩
  exact hSound.stocked.eq_of_id hBare hMem (hId.trans hRowId.symm)

theorem bare_found (hFound : tables.findProduct id = some row) :
    row.toProductStockState.unversioned ∈ tables.bare ∧ row.id = id := by
  obtain ⟨hRow, hRowId⟩ := Keyed.lookup_eq_some hFound
  exact ⟨StockTables.mem_bare.mpr ⟨row, hRow, rfl⟩, hRowId⟩

/-! ### Updating -/

variable {dto : UpdateProductDto} {product result : Product}

/-- A product that becomes a service gives up all its stock; no other change of type takes
any. -/
theorem changeType_eq_ok (hSound : Sound tables.bare tables.journal)
    (h : changeType today dto product row tables = .ok (result, after)) :
    Takes tables after ∧ result.id = product.id ∧ result.hasVariants = product.hasVariants ∧
      (Emptied product.id after ∨ after = tables ∧
        ¬ (product.type = .product ∧ dto.type = some .service) ∧
        (result.useStock = false → product.useStock = false ∨ dto.useStock = some false)) := by
  unfold changeType at h
  split at h
  · split at h
    · obtain ⟨emptied, hRemoved, h⟩ := bind_eq_ok.mp h
      cases pure_eq_ok.mp h
      have hRemoved : removeProductStock today product.id tables = .ok after := hRemoved
      obtain ⟨hTakes, hEmpty⟩ := removeProductStock_takes hSound hRemoved
      exact ⟨hTakes, rfl, rfl, .inl hEmpty⟩
    · cases h
  · next hType hDto =>
      cases h
      refine ⟨Takes.refl hSound, rfl, rfl, .inr ⟨rfl, by simp [hType], ?_⟩⟩
      intro hResult
      cases hUse : dto.useStock with
      | none => simp [hUse] at hResult
      | some useStock => simp_all
  · next hNot _ =>
      cases h
      refine ⟨Takes.refl hSound, rfl, rfl, .inr ⟨rfl, ?_, fun hResult => .inl hResult⟩⟩
      rintro ⟨hType, hDto⟩
      exact hNot hType hDto

/-- Turning variants on takes the product's stock first. -/
theorem changeHasVariants_eq_ok (hSound : Sound tables.bare tables.journal)
    (h : changeHasVariants today dto product tables = .ok (result, after)) :
    Takes tables after ∧ result = { product with hasVariants := result.hasVariants } ∧
      result.hasVariants = dto.hasVariants.getD product.hasVariants ∧
      (Emptied product.id after ∨ after = tables ∧
        (result.hasVariants = true → product.hasVariants = true)) := by
  unfold changeHasVariants at h
  split at h
  · next hNone =>
      cases h
      exact ⟨Takes.refl hSound, rfl, by simp [hNone], .inr ⟨rfl, fun hOn => hOn⟩⟩
  · next hasVariants hSome =>
      split at h
      · next hTurnedOn =>
          obtain ⟨emptied, hRemoved, h⟩ := bind_eq_ok.mp h
          cases pure_eq_ok.mp h
          have hRemoved : removeProductStock today product.id tables = .ok after := hRemoved
          obtain ⟨hTakes, hEmpty⟩ := removeProductStock_takes hSound hRemoved
          have hOn : hasVariants = true := (Bool.and_eq_true _ _ ▸ hTurnedOn).1
          exact ⟨hTakes, rfl, by simp [hSome, hOn], .inl hEmpty⟩
      · next hNot =>
          cases h
          refine ⟨Takes.refl hSound, rfl, by simp [hSome], .inr ⟨rfl, ?_⟩⟩
          intro hOn
          simpa [show hasVariants = true from hOn] using hNot

section

variable (product : Product)

@[simp] theorem Product.id_normalized : product.normalizeStockConfiguration.id = product.id := by
  unfold normalizeStockConfiguration
  split <;> [rfl; split <;> rfl]

@[simp] theorem Product.type_normalized :
    product.normalizeStockConfiguration.type = product.type := by
  unfold normalizeStockConfiguration
  split <;> [rfl; split <;> rfl]

@[simp] theorem Product.useStock_normalized :
    product.normalizeStockConfiguration.useStock = product.useStock := by
  unfold normalizeStockConfiguration
  split <;> [rfl; split <;> rfl]

@[simp] theorem Product.hasVariants_normalized :
    product.normalizeStockConfiguration.hasVariants = product.hasVariants := by
  unfold normalizeStockConfiguration
  split <;> [rfl; split <;> rfl]

end

/-- What the guard lets through when tracking is switched off holds nothing. -/
theorem isEmpty_of_untrackable (hStock : WellStocked tables.stock) (hRow : row ∈ tables.products)
    (hParent : row.hasVariants = true → row.quantity = 0) (hTracked : row.useStock = true)
    (hOff : dto.useStock = some false)
    (hType : ¬ (row.type = .product ∧ dto.type = some .service))
    (hGuard : untrackBlocked dto (Product.fromPersistence row) row = false) :
    row.toProductStockState.IsEmpty := by
  have hMem : row.toProductStockState ∈ tables.stock := List.mem_map_of_mem hRow
  have hQuantity : (Product.fromPersistence row).quantity = (row.quantity : Rat) := by
    unfold Product.fromPersistence Product.normalizeStockConfiguration
    cases hVariants : row.hasVariants with
    | true => simp [hTracked, hParent hVariants]
    | false => simp [hTracked]
  have hVariantsNonneg := hStock.variants _ hMem
  have hLotsNonneg := hStock.lots _ hMem
  have hSum : 0 ≤ (row.variants.map (·.quantity)).sum := by
    apply List.sum_nonneg
    simpa using hVariantsNonneg
  have hUnits : row.quantity + (row.variants.map (·.quantity)).sum ≤ 0 := by
    have hNot : ¬ 0 < unitsToUntrack (Product.fromPersistence row) row := by
      intro hSome
      have hBlocked : untrackBlocked dto (Product.fromPersistence row) row = true := by
        unfold untrackBlocked
        rw [hOff]
        simpa [Product.fromPersistence, hTracked, ← not_and_or, hType] using hSome
      rw [hGuard] at hBlocked
      cases hBlocked
    rw [unitsToUntrack, hQuantity] at hNot
    exact_mod_cast not_lt.mp hNot
  have hTotal := hStock.quantity_nonneg hMem
  have hCovered := hStock.covered _ hMem
  have hLotSum : 0 ≤ (row.lots.map (·.quantity)).sum := by
    apply List.sum_nonneg
    simpa using hLotsNonneg
  unfold ProductStockState.untracked at hCovered
  refine ⟨by omega, ?_, ?_⟩
  · intro lot hLot
    have hZero : (row.lots.map (·.quantity)).sum = 0 := by omega
    exact List.all_zero_of_le_zero_le_of_sum_eq_zero (by simpa using hLotsNonneg) hZero
      (List.mem_map_of_mem hLot)
  · intro variant hVariant
    have hZero : (row.variants.map (·.quantity)).sum = 0 := by omega
    exact List.all_zero_of_le_zero_le_of_sum_eq_zero (by simpa using hVariantsNonneg) hZero
      (List.mem_map_of_mem hVariant)

theorem bare_save {product : Product} : (save product tables).bare =
    editAt product.id (·.withFlags product.useStock product.hasVariants) tables.bare := by
  apply bare_updateProduct
  intro row _ _
  rfl

/-- Saving the flags of a product keeps tables configured when a product that gets variants
or stops tracking stock is empty. -/
theorem save_keeps {product : Product} (hTables : Configured tables)
    (hOn : product.hasVariants = true → ∀ before ∈ tables.bare, before.id = product.id →
      before.hasVariants = true ∨ before.IsEmpty)
    (hOff : product.useStock = false → ∀ before ∈ tables.bare, before.id = product.id →
      before.useStock = false ∨ before.IsEmpty)
    (hVariants : product.hasVariants = false → ∀ before ∈ tables.bare, before.id = product.id →
      before.variants = []) :
    Keeps tables (save product tables) True := by
  have hSound := hTables.sound
  refine ⟨⟨?_, ?_⟩, ?_⟩
  · rw [bare_save]
    apply hSound.edited (keepsStock_withFlags hSound.stocked _ _)
    · intro before hMem hId hHas
      rcases hOn hHas before hMem hId with hHad | hEmpty
      · exact hSound.parentEmpty before hMem hHad
      · exact ⟨hEmpty.1, hEmpty.2.1⟩
    · intro before hMem hId hUse
      rcases hOff hUse before hMem hId with hNot | hEmpty
      · exact hSound.untrackedEmpty before hMem hNot
      · exact hEmpty.untracked
  · rw [bare_save]
    apply hTables.flagged.edited
    intro before hMem hId hSome
    by_contra hHas
    rw [Bool.not_eq_true] at hHas
    exact hSome (hVariants hHas before hMem hId)
  · intro _ hIdle
    rw [bare_save]
    apply hIdle.edited
    intro before hMem hId hUse
    rcases hOff hUse before hMem hId with hNot | hEmpty
    · exact hIdle before hMem hNot
    · exact hEmpty

theorem update_keeps (hTables : Configured tables) (h : update today id dto tables = .ok after) :
    Keeps tables after True := by
  unfold update at h
  split at h
  · cases h
  · split at h
    · cases h
    · next row hFound =>
        dsimp only at h
        split at h
        · cases h
        · next hGuard =>
            obtain ⟨⟨retyped, middle⟩, hType, h⟩ := bind_eq_ok.mp h
            obtain ⟨⟨toggled, last⟩, hToggle, h⟩ := bind_eq_ok.mp h
            dsimp only at h
            split at h
            · cases h
            · next hKept =>
                cases pure_eq_ok.mp h
                obtain ⟨hRow, hRowId⟩ := Keyed.lookup_eq_some hFound
                have hStored : (Product.fromPersistence row).useStock = row.useStock ∧
                    (Product.fromPersistence row).hasVariants = row.hasVariants ∧
                    (Product.fromPersistence row).type = row.type ∧
                    (Product.fromPersistence row).id = id := by
                  simp [Product.fromPersistence, hRowId]
                obtain ⟨hUse, hHas, hRowType, hId⟩ := hStored
                obtain ⟨hTaken, hTypeId, hTypeVariants, hTyped⟩ :=
                  changeType_eq_ok hTables.sound hType
                have hMiddle := hTaken.keeps hTables
                obtain ⟨hTaken', hToggled, hFlag, hEmptied⟩ :=
                  changeHasVariants_eq_ok hMiddle.configured.sound hToggle
                have hLast := hTaken'.keeps hMiddle.configured
                have hRows := hTaken.sameRows.trans hTaken'.sameRows
                rw [hId] at hTypeId
                have hSaved : toggled.normalizeStockConfiguration.id = id := by
                  rw [Product.id_normalized, hToggled]
                  exact hTypeId
                have hBefore : ∀ product ∈ last.bare, product.id = id →
                    product.useStock = row.useStock ∧ product.hasVariants = row.hasVariants ∧
                      (row.variants = [] → product.variants = []) := by
                  intro product hMem hProduct
                  obtain ⟨before, hIn, hSame, hUse, hHas, hNone⟩ := hRows product hMem
                  cases bare_of_found hTables.sound hFound hIn (hSame.trans hProduct)
                  refine ⟨hUse.symm, hHas.symm, ?_⟩
                  intro hRowNone
                  rw [← hNone]
                  simp [ProductStockState.unversioned, hRowNone]
                apply ((hMiddle.trans hLast).trans (save_keeps hLast.configured ?_ ?_ ?_)).mono
                · simp
                · intro hNow product hMem hProduct
                  rw [hSaved] at hProduct
                  rcases hEmptied with hEmpty | ⟨_, hOn⟩
                  · exact .inr (hEmpty product hMem (hProduct.trans hTypeId.symm))
                  · left
                    rw [(hBefore product hMem hProduct).2.1, ← hHas, ← hTypeVariants]
                    exact hOn (by simpa using hNow)
                · intro hNow product hMem hProduct
                  rw [hSaved] at hProduct
                  rcases hEmptied with hEmpty | ⟨rfl, _⟩
                  · exact .inr (hEmpty product hMem (hProduct.trans hTypeId.symm))
                  · rcases hTyped with hEmpty | ⟨rfl, hNot, hFalse⟩
                    · rw [hId] at hEmpty
                      exact .inr (hEmpty product hMem hProduct)
                    · cases hTracked : row.useStock with
                      | false => exact .inl ((hBefore product hMem hProduct).1.trans hTracked)
                      | true =>
                          have hOff : dto.useStock = some false := by
                            have hResult : dto.useStock.getD retyped.useStock = false := by
                              rw [Product.useStock_normalized, hToggled] at hNow
                              exact hNow
                            cases hDto : dto.useStock with
                            | some useStock => rw [hDto] at hResult; exact congrArg some hResult
                            | none =>
                                rw [hDto] at hResult
                                rcases hFalse hResult with hWas | hOff
                                · rw [hUse, hTracked] at hWas
                                  cases hWas
                                · rw [hDto] at hOff
                                  cases hOff
                          cases bare_of_found hTables.sound hFound hMem hProduct
                          rw [hRowType] at hNot
                          right
                          rw [ProductStockState.isEmpty_unversioned]
                          apply isEmpty_of_untrackable hTables.sound.rows_wellStocked hRow _ hTracked
                            hOff hNot (by simpa using hGuard)
                          intro hParent
                          exact (hTables.sound.parentEmpty _ hMem hParent).1
                · intro hNow product hMem hProduct
                  rw [hSaved] at hProduct
                  apply (hBefore product hMem hProduct).2.2
                  rw [Product.hasVariants_normalized, hFlag] at hNow
                  cases hDto : dto.hasVariants with
                  | some hasVariants =>
                      rw [hDto] at hNow
                      have hOff : hasVariants = false := hNow
                      rw [hDto, hOff] at hKept
                      simpa using hKept
                  | none =>
                      rw [hDto] at hNow
                      have hOff : row.hasVariants = false := by
                        rw [← hHas, ← hTypeVariants]
                        exact hNow
                      by_contra hSome
                      have hBare := (bare_found hFound).1
                      have hMarked := hTables.flagged _ hBare (by
                        simpa [ProductStockState.unversioned] using hSome)
                      rw [show row.toProductStockState.unversioned.hasVariants = row.hasVariants
                        from rfl, hOff] at hMarked
                      cases hMarked

end

end Houndfe.Inventory
