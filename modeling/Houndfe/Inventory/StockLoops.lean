import Houndfe.Inventory.StockConservation
import Houndfe.Inventory.StockJournal
import Houndfe.Shared.DomainError
import Mathlib.Algebra.Order.Ring.Unbundled.Rat

/-! Loops of changes over a stock plan: which movements they emit, and when a loop of positive
changes succeeds. -/

namespace Houndfe.Inventory

section

variable {plan next : StockPlan} {product : ProductStockState} {movement : PlannedMovement}

/-! ### What a change does not touch -/

/-- Found products keep their flags and the ids of their lots and variants. -/
theorem Emits.findProduct (h : Emits plan next product movement) (id : String) :
    next.findProduct id = (plan.findProduct id).map (·.receive movement) := by
  unfold StockPlan.findProduct
  rw [h.products]
  exact Keyed.lookup_map fun _ => rfl

theorem Emits.drops (h : Emits plan next product movement) : next.drops = plan.drops := by
  funext change
  unfold StockPlan.drops
  split
  · rw [h.findProduct, Option.map_map]
    rfl
  · rfl

theorem Emits.has (h : Emits plan next product movement) : next.has = plan.has := by
  funext bucket
  unfold StockPlan.has
  cases bucket with
  | productUntracked productId =>
      simp only [h.findProduct]
      cases plan.findProduct productId <;> rfl
  | lot productId lotId =>
      simp only [h.findProduct]
      cases plan.findProduct productId with
      | none => rfl
      | some product =>
          simp only [Option.map_some, ProductStockState.receive, List.any_map]
          rfl
  | variant productId variantId =>
      simp only [h.findProduct]
      cases plan.findProduct productId with
      | none => rfl
      | some product =>
          simp only [Option.map_some, ProductStockState.receive, List.any_map]
          rfl

theorem Emits.tracksStock (h : Emits plan next product movement) :
    StockJournalWriter.tracksStock next = StockJournalWriter.tracksStock plan := by
  funext productId
  unfold StockJournalWriter.tracksStock
  rw [h.findProduct, Option.map_map]
  rfl

/-! ### The movements of a loop -/

/-- The bucket and the amount that a change asks for. -/
def StockChange.entry (change : StockChange) : StockBucketRef × Int :=
  (change.bucket, change.delta.num)

def PlannedMovement.entry (movement : PlannedMovement) : StockBucketRef × Int :=
  (movement.bucket, movement.delta)

/-- A loop that ends emits one movement for each change that is not dropped, in order. -/
theorem applyEach_eq_ok (hStock : WellStocked plan.products) {changes : List StockChange}
    (h : plan.applyEach changes = (next, none)) :
    ∃ emitted, next.movements = plan.movements ++ emitted ∧
      emitted.map (·.entry) = (changes.filter (!plan.drops ·)).map (·.entry) := by
  induction changes generalizing plan with
  | nil =>
      cases h
      exact ⟨[], (List.append_nil _).symm, rfl⟩
  | cons change rest ih =>
      unfold StockPlan.applyEach at h
      cases hApply : plan.apply change with
      | error e => simp [hApply] at h
      | ok middle =>
          simp only [hApply] at h
          rcases StockPlan.apply_eq_ok hStock hApply with
            ⟨hDrops, rfl⟩ | ⟨hDrops, product, movement, hBucket, hDelta, hEmits⟩
          · obtain ⟨emitted, hMovements, hEntries⟩ := ih hStock h
            exact ⟨emitted, hMovements, by simpa [hDrops] using hEntries⟩
          · obtain ⟨emitted, hMovements, hEntries⟩ := ih (hEmits.wellStocked hStock) h
            refine ⟨movement :: emitted, ?_, ?_⟩
            · rw [hMovements, hEmits.movements, List.append_assoc, List.singleton_append]
            · have hEntry : movement.entry = change.entry := Prod.ext hBucket hDelta
              rw [hEmits.drops] at hEntries
              simp [hDrops, hEntry, hEntries]

theorem applyEach_cons {change : StockChange} {rest : List StockChange} :
    plan.applyEach (change :: rest) = (next, none) ↔
      ∃ middle, plan.apply change = .ok middle ∧ middle.applyEach rest = (next, none) := by
  rw [StockPlan.applyEach]
  cases plan.apply change <;> simp

theorem exists_change_of_entries {movements : List PlannedMovement} {changes : List StockChange}
    (h : movements.map (·.entry) = changes.map (·.entry)) {movement : PlannedMovement}
    (hMem : movement ∈ movements) : ∃ change ∈ changes, change.entry = movement.entry :=
  List.mem_map.mp (h ▸ List.mem_map_of_mem hMem)

theorem mem_of_applyEach (hStock : WellStocked plan.products) {changes : List StockChange}
    (h : plan.applyEach changes = (next, none)) :
    ∀ movement ∈ next.movements, movement ∈ plan.movements ∨
      ∃ change ∈ changes, movement.entry = change.entry := by
  obtain ⟨emitted, hMovements, hEntries⟩ := applyEach_eq_ok hStock h
  intro movement hMem
  rw [hMovements, List.mem_append] at hMem
  refine hMem.imp id ?_
  intro hEmitted
  obtain ⟨change, hChange, hSame⟩ := exists_change_of_entries hEntries hEmitted
  exact ⟨change, List.mem_of_mem_filter hChange, hSame.symm⟩

theorem applyEach_keeps (hStock : WellStocked plan.products) {changes : List StockChange}
    (h : plan.applyEach changes = (next, none)) :
    WellStocked next.products ∧
      StockJournalWriter.tracksStock next = StockJournalWriter.tracksStock plan := by
  induction changes generalizing plan with
  | nil =>
      cases h
      exact ⟨hStock, rfl⟩
  | cons change rest ih =>
      obtain ⟨middle, hApply, hRest⟩ := applyEach_cons.mp h
      rcases StockPlan.apply_eq_ok hStock hApply with
        ⟨_, rfl⟩ | ⟨_, product, movement, _, _, hEmits⟩
      · exact ih hStock hRest
      · rw [← hEmits.tracksStock]
        exact ih (hEmits.wellStocked hStock) hRest

/-! ### Charging -/

/-- A movement that takes units out, or one of a product that tracks stock. -/
def TakesOrTracked (plan : StockPlan) (movement : PlannedMovement) : Prop :=
  movement.delta < 0 ∨ StockJournalWriter.tracksStock plan movement.bucket.productId = true

/-- A sale line of positive quantity only takes units out of products that track none. -/
theorem charge_movements (hStock : WellStocked plan.products) {item : StockChargeItem}
    (hQuantity : 0 < item.quantity) (h : plan.charge item = (next, none)) :
    (WellStocked next.products ∧
      StockJournalWriter.tracksStock next = StockJournalWriter.tracksStock plan) ∧
    ∀ movement ∈ next.movements, movement ∈ plan.movements ∨ TakesOrTracked plan movement := by
  unfold StockPlan.charge at h
  split at h
  · refine ⟨applyEach_keeps hStock h, ?_⟩
    intro movement hMovement
    refine (mem_of_applyEach hStock h movement hMovement).imp id ?_
    rintro ⟨change, hChange, hEntry⟩
    cases List.mem_singleton.mp hChange
    have hDelta : movement.delta = (-item.quantity).num := (Prod.mk.inj hEntry).2
    have hPositive := Rat.num_pos.mpr hQuantity
    rw [Rat.neg_num] at hDelta
    exact .inl (by omega)
  · split at h
    · simp at h
    · next product hFound =>
        cases hTracked : product.useStock with
        | false =>
            simp only [hTracked, Bool.not_false, if_true, Prod.mk.injEq, and_true] at h
            cases h
            exact ⟨⟨hStock, rfl⟩, fun movement hMovement => .inl hMovement⟩
        | true =>
            simp only [hTracked, Bool.not_true, Bool.false_eq_true, if_false] at h
            split at h
            · simp at h
            · refine ⟨applyEach_keeps hStock h, ?_⟩
              intro movement hMovement
              refine (mem_of_applyEach hStock h movement hMovement).imp id ?_
              rintro ⟨change, hChange, hEntry⟩
              obtain ⟨allocation, _, rfl⟩ := List.mem_map.mp hChange
              have hBucket : movement.bucket =
                  (StockPlan.allocationChange item.productId allocation).bucket :=
                (Prod.mk.inj hEntry).1
              have hProduct : movement.bucket.productId = item.productId := by
                rw [hBucket]
                unfold StockPlan.allocationChange
                split <;> rfl
              exact .inr (by simp [StockJournalWriter.tracksStock, hProduct, hFound, hTracked])

theorem chargeEach_movements (hStock : WellStocked plan.products) {items : List StockChargeItem}
    (hQuantity : ∀ item ∈ items, 0 < item.quantity)
    (h : StockJournalWriter.chargeEach plan items = (next, none)) :
    ∀ movement ∈ next.movements, movement ∈ plan.movements ∨ TakesOrTracked plan movement := by
  induction items generalizing plan with
  | nil =>
      cases h
      exact fun movement hMovement => .inl hMovement
  | cons item rest ih =>
      obtain ⟨hItem, hRest⟩ := List.forall_mem_cons.mp hQuantity
      unfold StockJournalWriter.chargeEach at h
      split at h
      · next middle hCharge =>
          obtain ⟨⟨hMiddle, hSame⟩, hFirst⟩ := charge_movements hStock hItem hCharge
          intro movement hMovement
          rcases ih hMiddle hRest h movement hMovement with hEarlier | hLater
          · exact hFirst movement hEarlier
          · unfold TakesOrTracked at hLater
            rw [hSame] at hLater
            exact .inr hLater
      · simp at h

theorem chargeEach_invariant {Inv : StockPlan → Prop} (hApply : ∀ plan next change, Inv plan →
      StockPlan.apply plan change = .ok next → Inv next)
    (hPlan : Inv plan) (items : List StockChargeItem) :
    Inv (StockJournalWriter.chargeEach plan items).1 := by
  induction items generalizing plan with
  | nil => exact hPlan
  | cons item rest ih =>
      have hNext := StockPlan.charge_invariant hApply hPlan item
      unfold StockJournalWriter.chargeEach
      split
      · next middle hCharge =>
          rw [hCharge] at hNext
          exact ih hNext
      · next middle e hCharge =>
          rw [hCharge] at hNext
          exact hNext

theorem Conserved.chargeEach {initial : List ProductStockState} (hPlan : Conserved initial plan)
    (hStart : WellStocked initial) (items : List StockChargeItem) :
    Conserved initial (StockJournalWriter.chargeEach plan items).1 :=
  chargeEach_invariant (fun _ _ _ h hApply => h.apply hStart hApply) hPlan items

/-! ### Restoring -/

/-- What is kept is decided once: no change alters the answer. -/
theorem restoreEach_eq_ok {keep : StockPlan → StockChange → Bool}
    (hKeep : ∀ plan next product movement, Emits plan next product movement →
      keep next = keep plan)
    (hStock : WellStocked plan.products) {skipped : Nat} {changes : List StockChange} :
    (∃ count, StockJournalWriter.restoreEach keep plan skipped changes = .ok (next, count)) ↔
      plan.applyEach (changes.filter (keep plan)) = (next, none) := by
  induction changes generalizing plan skipped with
  | nil => simp [StockJournalWriter.restoreEach, StockPlan.applyEach]
  | cons change rest ih =>
      unfold StockJournalWriter.restoreEach
      cases hKept : keep plan change with
      | false =>
          simp only [hKept, Bool.false_eq_true, if_false, not_false_eq_true,
            List.filter_cons_of_neg]
          exact ih hStock
      | true =>
          simp only [if_true, hKept, List.filter_cons_of_pos, applyEach_cons]
          constructor
          · rintro ⟨count, h⟩
            obtain ⟨middle, hApply, hRest⟩ := bind_eq_ok.mp h
            refine ⟨middle, hApply, ?_⟩
            rcases StockPlan.apply_eq_ok hStock hApply with
              ⟨_, rfl⟩ | ⟨_, product, movement, _, _, hEmits⟩
            · exact (ih hStock).mp ⟨count, hRest⟩
            · rw [← hKeep _ _ _ _ hEmits]
              exact (ih (hEmits.wellStocked hStock)).mp ⟨count, hRest⟩
          · rintro ⟨middle, hApply, hRest⟩
            rcases StockPlan.apply_eq_ok hStock hApply with
              ⟨_, rfl⟩ | ⟨_, product, movement, _, _, hEmits⟩
            · obtain ⟨count, hCount⟩ := (ih hStock).mpr hRest
              exact ⟨count, bind_eq_ok.mpr ⟨middle, hApply, hCount⟩⟩
            · rw [← hKeep _ _ _ _ hEmits] at hRest
              obtain ⟨count, hCount⟩ := (ih (hEmits.wellStocked hStock)).mpr hRest
              exact ⟨count, bind_eq_ok.mpr ⟨middle, hApply, hCount⟩⟩

end

end Houndfe.Inventory
