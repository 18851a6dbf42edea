import Houndfe.Inventory.StockConfiguration

/-! When the reversal of a sale succeeds. The buckets it skips are chosen by `has`, which
does not ask a lot for the flags of its product as a change does: a lot that outlives the
conversion of its product to variants is found and then refused. Past that, what is given back
has to fit its columns. -/

namespace Houndfe.Inventory

open Transition StockJournalWriter

/-! ### Giving units back -/

/-- The bucket is a lot of a product that has variants. -/
def StockPlan.strands (plan : StockPlan) : StockBucketRef → Bool
  | .lot productId _ => (plan.findProduct productId).any (·.hasVariants)
  | _ => false

/-- A change that puts whole units back, whatever the version of its bucket. -/
structure StockChange.Restores (change : StockChange) : Prop where
  whole : change.delta.isInt = true
  positive : 0 < change.delta.num
  anyVersion : change.expectedVersion = none
  skips : change.skipIfNotStocked = true

section

variable {plan next : StockPlan} {product : ProductStockState} {movement : PlannedMovement}

theorem Emits.strands (h : Emits plan next product movement) : next.strands = plan.strands := by
  funext bucket
  cases bucket with
  | productUntracked productId => rfl
  | lot productId lotId =>
      simp only [StockPlan.strands, h.findProduct]
      cases plan.findProduct productId <;> rfl
  | variant productId variantId => rfl

/-- A bucket that exists takes units back, unless it is stranded. -/
theorem apply_restoring (hStock : WellStocked plan.products) {change : StockChange}
    (hChange : change.Restores) (hHas : plan.has change.bucket = true) :
    (∃ next, plan.apply change = .ok next) ↔ plan.strands change.bucket = false := by
  obtain ⟨product, hFound, hHas⟩ := StockPlan.has_iff.mp hHas
  obtain ⟨hMem, -⟩ := StockPlan.findProduct_mem hFound
  have hPositive := hChange.positive
  have hNonzero : change.delta ≠ 0 := by
    intro hZero
    rw [hZero] at hPositive
    exact Int.lt_irrefl 0 hPositive
  have hVersion : ∀ current, change.versionConflict current = false := by
    intro current
    simp [StockChange.versionConflict, hChange.anyVersion]
  unfold StockPlan.apply
  rw [if_neg (by simp [hChange.whole, hNonzero])]
  cases hBucket : change.bucket with
  | productUntracked productId =>
      rw [hBucket] at hFound hHas
      have hCovered := hStock.covered product hMem
      simp only [StockPlan.strands, iff_true, StockPlan.applyUntracked_eq_ok]
      cases hTracked : product.useStock with
      | false => exact ⟨plan, product, hFound, hHas, .inl ⟨hTracked, hChange.skips, rfl⟩⟩
      | true => exact ⟨_, product, hFound, hHas,
          .inr ⟨hTracked, hVersion _, by omega, rfl⟩⟩
  | lot productId lotId =>
      rw [hBucket] at hFound hHas
      obtain ⟨lot, hLot, rfl⟩ := List.mem_map.mp hHas
      have hLookup := Keyed.lookup_of_mem (hStock.lotKeys hMem) hLot
      have hEnough := hStock.lots product hMem lot hLot
      have hTotal := hStock.quantity_nonneg hMem
      have hFound : plan.findProduct productId = some product := hFound
      simp only [StockPlan.strands, StockPlan.applyLot_eq_ok, hFound, Option.any_some]
      constructor
      · rintro ⟨next, other, row, hSame, -, hVariants, -⟩
        cases hSame
        exact hVariants
      · intro hVariants
        exact ⟨_, product, lot, rfl, hLookup, hVariants, hVersion _, by omega, by omega, rfl⟩
  | variant productId variantId =>
      rw [hBucket] at hFound hHas
      obtain ⟨variant, hVariant, rfl⟩ := List.mem_map.mp hHas
      have hLookup := Keyed.lookup_of_mem (hStock.variantKeys hMem) hVariant
      have hEnough := hStock.variants product hMem variant hVariant
      simp only [StockPlan.strands, iff_true, StockPlan.applyVariant_eq_ok]
      exact ⟨_, product, variant, hFound, hLookup, hVersion _, by omega, rfl⟩

/-- A loop that gives units back to buckets that exist ends when none of them is stranded. -/
theorem applyEach_restoring (hStock : WellStocked plan.products) {changes : List StockChange}
    (hChanges : ∀ change ∈ changes, change.Restores ∧ plan.has change.bucket = true) :
    (∃ next, plan.applyEach changes = (next, none)) ↔
      ∀ change ∈ changes, plan.strands change.bucket = false := by
  induction changes generalizing plan with
  | nil => simp [StockPlan.applyEach]
  | cons change rest ih =>
      obtain ⟨⟨hChange, hHas⟩, hRest⟩ := List.forall_mem_cons.mp hChanges
      have hFirst := apply_restoring hStock hChange hHas
      simp only [applyEach_cons, List.forall_mem_cons]
      have hLater : ∀ middle, plan.apply change = .ok middle →
          ((∃ next, middle.applyEach rest = (next, none)) ↔
            ∀ change ∈ rest, plan.strands change.bucket = false) := by
        intro middle hApply
        rcases StockPlan.apply_eq_ok hStock hApply with
          ⟨-, rfl⟩ | ⟨-, product, movement, -, -, hEmits⟩
        · exact ih hStock hRest
        · rw [← hEmits.strands]
          apply ih (hEmits.wellStocked hStock)
          rw [hEmits.has]
          exact hRest
      constructor
      · rintro ⟨next, middle, hApply, hLoop⟩
        exact ⟨hFirst.mp ⟨middle, hApply⟩, (hLater middle hApply).mp ⟨next, hLoop⟩⟩
      · rintro ⟨hOpen, hOthers⟩
        obtain ⟨middle, hApply⟩ := hFirst.mpr hOpen
        obtain ⟨next, hLoop⟩ := (hLater middle hApply).mpr hOthers
        exact ⟨next, middle, hApply, hLoop⟩

/-! ### The columns -/

/-- The quantities to persist stand in the movement rows as well. -/
structure Mirrored (plan : StockPlan) : Prop where
  products : ∀ touched ∈ plan.touchedProducts, ∃ movement ∈ plan.movements,
    touched.quantity = movement.productBalanceAfter
  lots : ∀ touched ∈ plan.touchedLots, ∃ movement ∈ plan.movements,
    touched.2 = movement.balanceAfter
  variants : ∀ touched ∈ plan.touchedVariants, ∃ movement ∈ plan.movements,
    touched.2 = movement.balanceAfter

theorem Emits.mirrored (h : Emits plan next product movement) (hPlan : Mirrored plan) :
    Mirrored next := by
  have hAccepts := h.accepts
  have hNew : movement ∈ next.movements := by simp [h.movements]
  have hKept : ∀ {P : PlannedMovement → Prop}, (∃ row ∈ plan.movements, P row) →
      ∃ row ∈ next.movements, P row := by
    rintro P ⟨row, hRow, hP⟩
    exact ⟨row, by simp [h.movements, hRow], hP⟩
  constructor
  · intro touched hTouched
    rw [h.touchedProducts] at hTouched
    cases hBucket : movement.bucket with
    | productUntracked productId =>
        rw [hBucket] at hTouched hAccepts
        rcases Keyed.mem_upsert hTouched with rfl | hOld
        · refine ⟨movement, hNew, ?_⟩
          rw [h.productBalance]
          exact (if_neg (by simp [ProductStockState.receive, hAccepts.1])).symm
        · exact hKept (hPlan.products touched hOld)
    | lot productId lotId =>
        rw [hBucket] at hTouched hAccepts
        rcases Keyed.mem_upsert hTouched with rfl | hOld
        · refine ⟨movement, hNew, ?_⟩
          rw [h.productBalance]
          exact (if_neg (by simp [ProductStockState.receive, hAccepts.1])).symm
        · exact hKept (hPlan.products touched hOld)
    | variant productId variantId =>
        rw [hBucket] at hTouched
        exact hKept (hPlan.products touched hTouched)
  · intro touched hTouched
    rw [h.touchedLots] at hTouched
    cases hBucket : movement.bucket with
    | lot productId lotId =>
        rw [hBucket] at hTouched
        rcases Keyed.mem_upsert hTouched with rfl | hOld
        · exact ⟨movement, hNew, rfl⟩
        · exact hKept (hPlan.lots touched hOld)
    | productUntracked productId =>
        rw [hBucket] at hTouched
        exact hKept (hPlan.lots touched hTouched)
    | variant productId variantId =>
        rw [hBucket] at hTouched
        exact hKept (hPlan.lots touched hTouched)
  · intro touched hTouched
    rw [h.touchedVariants] at hTouched
    cases hBucket : movement.bucket with
    | variant productId variantId =>
        rw [hBucket] at hTouched
        rcases Keyed.mem_upsert hTouched with rfl | hOld
        · exact ⟨movement, hNew, rfl⟩
        · exact hKept (hPlan.variants touched hOld)
    | productUntracked productId =>
        rw [hBucket] at hTouched
        exact hKept (hPlan.variants touched hTouched)
    | lot productId lotId =>
        rw [hBucket] at hTouched
        exact hKept (hPlan.variants touched hTouched)

theorem mirrored_of_applyEach (hStock : WellStocked plan.products) (hPlan : Mirrored plan)
    {changes : List StockChange} (h : plan.applyEach changes = (next, none)) : Mirrored next := by
  induction changes generalizing plan with
  | nil =>
      cases h
      exact hPlan
  | cons change rest ih =>
      obtain ⟨middle, hApply, hRest⟩ := applyEach_cons.mp h
      rcases StockPlan.apply_eq_ok hStock hApply with
        ⟨-, rfl⟩ | ⟨-, product, movement, -, -, hEmits⟩
      · exact ih hStock hPlan hRest
      · exact ih (hEmits.wellStocked hStock) (hEmits.mirrored hPlan) hRest

/-- Only the movement rows decide whether the columns hold what is written. -/
theorem fitsColumns_iff (hPlan : Mirrored plan) : fitsColumns plan = true ↔
    ∀ movement ∈ plan.movements, fitsColumn movement.delta = true ∧
      fitsColumn movement.balanceAfter = true ∧ fitsColumn movement.productBalanceAfter = true := by
  simp only [fitsColumns, Bool.and_eq_true, List.all_eq_true, and_assoc]
  constructor
  · rintro ⟨-, -, -, hRows⟩
    exact hRows
  · intro hRows
    refine ⟨?_, ?_, ?_, hRows⟩
    · intro touched hTouched
      obtain ⟨movement, hMem, hSame⟩ := hPlan.products touched hTouched
      rw [hSame]
      exact (hRows movement hMem).2.2
    · intro touched hTouched
      obtain ⟨movement, hMem, hSame⟩ := hPlan.lots touched hTouched
      rw [hSame]
      exact (hRows movement hMem).2.1
    · intro touched hTouched
      obtain ⟨movement, hMem, hSame⟩ := hPlan.variants touched hTouched
      rw [hSame]
      exact (hRows movement hMem).2.1

/-- The buckets that count for the total that a product shows. -/
def ProductStockState.shows (product : ProductStockState) : StockBucketRef → Bool
  | .productUntracked owner => !product.hasVariants && owner = product.id
  | .lot owner _ => !product.hasVariants && owner = product.id
  | .variant owner _ => product.hasVariants && owner = product.id

theorem ProductStockState.shownMoved_eq_entries (movements : List PlannedMovement) :
    product.shownMoved movements =
      Journal.total Prod.snd (fun entry => product.shows entry.1) (movements.map (·.entry)) := by
  rw [Journal.total_map]
  unfold shownMoved productMoved
  cases hVariants : product.hasVariants with
  | true =>
      rw [if_pos rfl]
      congr 1
      funext movement
      unfold PlannedMovement.isVariantOf shows PlannedMovement.entry
      cases movement.bucket <;> simp [hVariants]
  | false =>
      rw [if_neg Bool.false_ne_true]
      congr 1
      funext movement
      unfold PlannedMovement.countsFor shows PlannedMovement.entry
      cases movement.bucket <;> simp [hVariants]

/-- The columns hold what these units leave in the buckets of the product and in its total. -/
def ProductStockState.HasRoomFor (product : ProductStockState)
    (units : List (StockBucketRef × Int)) : Prop :=
  ∀ given ∈ units, given.1.productId = product.id →
    (∀ held ∈ product.balance given.1,
      held + Journal.total Prod.snd (fun other => other.1 = given.1) units ≤ maxPostgresInt) ∧
    product.productBalance + Journal.total Prod.snd (fun other => product.shows other.1) units ≤
      maxPostgresInt

theorem WellStocked.productBalance_nonneg {products : List ProductStockState}
    (hStock : WellStocked products) (hMem : product ∈ products) : 0 ≤ product.productBalance := by
  unfold ProductStockState.productBalance
  split
  · apply List.sum_nonneg
    intro quantity hQuantity
    obtain ⟨variant, hVariant, rfl⟩ := List.mem_map.mp hQuantity
    exact hStock.variants product hMem variant hVariant
  · exact hStock.quantity_nonneg hMem

/-- The balances of a row, from what its bucket and its product held at first. -/
theorem Conserved.row_balances {initial : List ProductStockState} (hPlan : Conserved initial plan)
    (hStart : WellStocked initial) {before after : List PlannedMovement}
    (hSplit : plan.movements = before ++ movement :: after) (hMem : product ∈ initial)
    (hOwner : movement.bucket.productId = product.id) :
    ∃ held, product.balance movement.bucket = some held ∧ 0 ≤ held ∧
      movement.balanceAfter = held + moved movement.bucket (before ++ [movement]) ∧
      movement.productBalanceAfter =
        product.productBalance + product.shownMoved (before ++ [movement]) := by
  obtain ⟨other, hOther, hSame, hBalance, hTotal⟩ := hPlan.balances before movement after hSplit
  cases hStart.eq_of_id hMem hOther (hSame.symm.trans hOwner)
  have hNonneg := hStart.getD_balance_nonneg hMem movement.bucket
  cases hHeld : product.balance movement.bucket with
  | none => simp [hHeld] at hBalance
  | some held =>
      rw [hHeld] at hBalance hNonneg
      exact ⟨held, rfl, hNonneg, (Option.some.inj hBalance).symm, hTotal⟩

theorem ProductStockState.shownMoved_eq (movements : List PlannedMovement) :
    product.shownMoved movements = Journal.total PlannedMovement.delta
      (fun movement => product.shows movement.bucket) movements := by
  rw [shownMoved_eq_entries, Journal.total_map]
  rfl

theorem ProductStockState.productId_of_shows {bucket : StockBucketRef}
    (h : product.shows bucket = true) : bucket.productId = product.id := by
  cases bucket <;> simp_all [shows]

/-- Where nothing is taken out, the columns hold every row if they hold what the last row of
each bucket and of each product leaves. -/
theorem rows_fit_iff {initial : List ProductStockState} (hPlan : Conserved initial plan)
    (hStart : WellStocked initial) (hPositive : ∀ movement ∈ plan.movements, 0 < movement.delta) :
    (∀ movement ∈ plan.movements, fitsColumn movement.delta = true ∧
      fitsColumn movement.balanceAfter = true ∧ fitsColumn movement.productBalanceAfter = true) ↔
    ∀ product ∈ initial, product.HasRoomFor (plan.movements.map (·.entry)) := by
  constructor
  · intro hRows product hMem entry hEntry hOwner
    obtain ⟨movement, hMovement, rfl⟩ := List.mem_map.mp hEntry
    rw [← moved_eq_entries, ← ProductStockState.shownMoved_eq_entries]
    constructor
    · intro held hHeld
      obtain ⟨before, last, after, hSplit, hBucket, hAfter⟩ :=
        Journal.exists_last (p := fun row : PlannedMovement => row.bucket = movement.bucket)
          ⟨movement, hMovement, rfl⟩
      obtain ⟨other, hOther, -, hBalance, -⟩ :=
        hPlan.row_balances hStart hSplit hMem (hBucket ▸ hOwner)
      have hFits := (hRows last (by simp [hSplit])).2.1
      have hSame : other = held := by
        rw [hBucket] at hOther
        exact Option.some.inj (hOther.symm.trans hHeld)
      have hLast : moved movement.bucket plan.movements =
          moved last.bucket (before ++ [last]) := by
        rw [hSplit, hBucket]
        exact Journal.total_split fun row hRow => decide_eq_false (hAfter row hRow)
      show held + moved movement.bucket plan.movements ≤ _
      unfold fitsColumn at hFits
      rw [hLast, ← hSame, ← hBalance]
      simp_all
    · obtain ⟨before, last, after, hSplit, hOwn, hAfter⟩ :=
        Journal.exists_last (p := fun row : PlannedMovement => row.bucket.productId = product.id)
          ⟨movement, hMovement, hOwner⟩
      obtain ⟨-, -, -, -, hTotal⟩ := hPlan.row_balances hStart hSplit hMem hOwn
      have hFits := (hRows last (by simp [hSplit])).2.2
      have hLast : product.shownMoved plan.movements = product.shownMoved (before ++ [last]) := by
        rw [hSplit, ProductStockState.shownMoved_eq, ProductStockState.shownMoved_eq]
        apply Journal.total_split
        intro row hRow
        by_contra hShows
        exact hAfter row hRow
          (ProductStockState.productId_of_shows (Bool.not_eq_false _ ▸ hShows))
      unfold fitsColumn at hFits
      rw [hLast, ← hTotal]
      simp_all
  · intro hRoom movement hMovement
    obtain ⟨before, after, hSplit⟩ := List.append_of_mem hMovement
    obtain ⟨product, hMem, hOwner⟩ := hPlan.product_of_movement hMovement
    obtain ⟨held, hHeld, hNonneg, hBalance, hTotal⟩ :=
      hPlan.row_balances hStart hSplit hMem hOwner
    obtain ⟨hBucketRoom, hTotalRoom⟩ :=
      hRoom product hMem movement.entry (List.mem_map_of_mem hMovement) hOwner
    have hBucketRoom : held + moved movement.bucket plan.movements ≤ maxPostgresInt := by
      rw [moved_eq_entries]
      exact hBucketRoom held hHeld
    rw [← ProductStockState.shownMoved_eq_entries] at hTotalRoom
    have hProduct := hStart.productBalance_nonneg hMem
    have hDelta := hPositive movement hMovement
    have hBefore : ∀ on : PlannedMovement → Bool,
        0 ≤ Journal.total PlannedMovement.delta on before := fun on =>
      Journal.total_nonneg fun row hRow => (hPositive row (by simp [hSplit, hRow])).le
    have hAfter : ∀ on : PlannedMovement → Bool,
        0 ≤ Journal.total PlannedMovement.delta on after := fun on =>
      Journal.total_nonneg fun row hRow => (hPositive row (by simp [hSplit, hRow])).le
    have hAll : plan.movements = (before ++ [movement]) ++ after := by simp [hSplit]
    have hBucketBefore : 0 ≤ moved movement.bucket before := hBefore _
    have hBucketAfter : moved movement.bucket plan.movements =
        moved movement.bucket (before ++ [movement]) + moved movement.bucket after := by
      rw [hAll]
      exact Journal.total_append _ _
    have hBucketLater : 0 ≤ moved movement.bucket after := hAfter _
    have hShown : 0 ≤ product.shownMoved (before ++ [movement]) ∧
        product.shownMoved (before ++ [movement]) ≤ product.shownMoved plan.movements := by
      rw [hAll]
      simp only [ProductStockState.shownMoved_eq]
      constructor
      · apply Journal.total_nonneg
        intro row hRow
        exact (hPositive row (hAll ▸ List.mem_append_left after hRow)).le
      · rw [Journal.total_append (before ++ [movement]) after]
        exact Int.le_add_of_nonneg_right (hAfter _)
    rw [moved_snoc, if_pos rfl] at hBalance hBucketAfter
    simp only [fitsColumn, Bool.and_eq_true, decide_eq_true_eq]
    unfold maxPostgresInt at hBucketRoom hTotalRoom ⊢
    omega

end

/-! ### The reversal of a sale -/

/-- What the sale gives back: each unit to its bucket while that exists, and to the untracked
portion once its lot is gone. Nothing goes to the untracked portion of a product that tracks
no stock. -/
def givenBack (tables : StockTables) (consumed : List StockMovementRow) :
    List (StockBucketRef × Int) :=
  let plan := StockPlan.create tables.stock ""
  let movements := consumed.map (·.toPlannedMovement)
  ((mapSaleReversal movements (existingLots plan movements)).filter fun change =>
    plan.has change.bucket && !plan.drops change).map (·.entry)

/-- The sale took units from a lot that is still there while its product has variants now. -/
def LeftInLot (tables : StockTables) (consumed : List StockMovementRow) : Prop :=
  ∃ row ∈ consumed, row.delta < 0 ∧ ∃ product ∈ tables.stock, product.id = row.productId ∧
    product.hasVariants = true ∧ ∃ lot ∈ product.lots, lot.id ≠ "" ∧
      row.bucket = .lot row.productId lot.id

section

variable {tables : StockTables} {today : String} {consumed : List StockMovementRow}
  {movement : PlannedMovement} {existing productIds : List String}

theorem reversalBucket_eq_lot {productId lotId : String} :
    reversalBucket existing movement = .lot productId lotId ↔
      movement.bucket = .lot productId lotId ∧ lotId ≠ "" ∧ lotId ∈ existing := by
  unfold reversalBucket PlannedMovement.bucket
  cases movement.bucketKind with
  | productUntracked => simp
  | variant =>
      cases movement.variantId with
      | none => simp
      | some variantId => by_cases hEmpty : variantId = "" <;> simp [hEmpty, Option.filter]
  | lot =>
      cases movement.lotId with
      | none => simp
      | some id =>
          by_cases hEmpty : id = ""
          · simp only [hEmpty, Option.filter]
            simp
            rintro - rfl
            simp
          · by_cases hExists : id ∈ existing
            · simp [Option.filter, hEmpty, hExists]
              rintro - rfl
              exact ⟨hEmpty, hExists⟩
            · simp [Option.filter, hEmpty, hExists]
              rintro - rfl -
              exact hExists

theorem findProduct_loaded {id : String} (h : id ∈ productIds) :
    (lockAndPlan tables productIds today).findProduct id =
      (StockPlan.create tables.stock "").findProduct id :=
  Keyed.lookup_filter (p := productIds.contains) (by simpa using h)

/-- On the products that it loads a plan answers as one of the whole stock would. -/
theorem has_eq_of_loaded {bucket : StockBucketRef} (h : bucket.productId ∈ productIds) :
    (lockAndPlan tables productIds today).has bucket =
      (StockPlan.create tables.stock "").has bucket := by
  rw [Bool.eq_iff_iff, StockPlan.has_iff, StockPlan.has_iff, findProduct_loaded h]

theorem drops_eq_of_loaded {change : StockChange} (h : change.bucket.productId ∈ productIds) :
    (lockAndPlan tables productIds today).drops change =
      (StockPlan.create tables.stock "").drops change := by
  unfold StockPlan.drops
  cases hBucket : change.bucket with
  | productUntracked productId =>
      rw [hBucket] at h
      have hFound : (lockAndPlan tables productIds today).findProduct productId = _ :=
        findProduct_loaded h
      simp only [hFound]
  | lot productId lotId => rfl
  | variant productId variantId => rfl

theorem existingLots_loaded (movements : List PlannedMovement) :
    existingLots (lockAndPlan tables (movements.map (·.productId)) today) movements =
      existingLots (StockPlan.create tables.stock "") movements := by
  unfold existingLots
  apply List.filterMap_congr
  intro movement hMovement
  have hLoaded := List.mem_map_of_mem (f := PlannedMovement.productId) hMovement
  cases movement.lotId.filter (· ≠ "") with
  | none => rfl
  | some lotId =>
      have hHas : (lockAndPlan tables (movements.map (·.productId)) today).has
          (.lot movement.productId lotId) = _ := has_eq_of_loaded hLoaded
      simp only [hHas]

theorem mem_mapSaleReversal {movements : List PlannedMovement} {change : StockChange} :
    change ∈ mapSaleReversal movements existing ↔ ∃ movement ∈ movements, movement.delta < 0 ∧
      change = { bucket := reversalBucket existing movement, delta := -movement.delta } := by
  simp [mapSaleReversal, and_assoc, eq_comm]

theorem mem_existingLots {plan : StockPlan} {movements : List PlannedMovement} {lotId : String}
    (hMovement : movement ∈ movements) (hBucket : movement.bucket = .lot movement.productId lotId)
    (hId : lotId ≠ "") (hHas : plan.has (.lot movement.productId lotId) = true) :
    lotId ∈ existingLots plan movements := by
  unfold existingLots
  rw [List.mem_filterMap]
  refine ⟨movement, hMovement, ?_⟩
  have hLot : movement.lotId = some lotId := by
    unfold PlannedMovement.bucket at hBucket
    split at hBucket <;> simp_all
  simp [hLot, Option.filter, hId, hHas]

/-- The changes that the reversal applies: those of buckets that exist. -/
def keptChanges (plan : StockPlan) (movements : List PlannedMovement) : List StockChange :=
  ((mapSaleReversal movements (existingLots plan movements)).map fun change =>
    { change with skipIfNotStocked := true }).filter fun change => plan.has change.bucket

theorem mem_keptChanges {plan : StockPlan} {movements : List PlannedMovement}
    {change : StockChange} : change ∈ keptChanges plan movements ↔ ∃ movement ∈ movements,
      movement.delta < 0 ∧
      change = { bucket := reversalBucket (existingLots plan movements) movement,
                 delta := -movement.delta, skipIfNotStocked := true } ∧
      plan.has change.bucket = true := by
  simp only [keptChanges, List.mem_filter, List.mem_map, mem_mapSaleReversal]
  constructor
  · rintro ⟨⟨kept, ⟨movement, hMovement, hDelta, rfl⟩, rfl⟩, hHas⟩
    exact ⟨movement, hMovement, hDelta, rfl, hHas⟩
  · rintro ⟨movement, hMovement, hDelta, rfl, hHas⟩
    exact ⟨⟨_, ⟨movement, hMovement, hDelta, rfl⟩, rfl⟩, hHas⟩

theorem keptChanges_restore {plan : StockPlan} {movements : List PlannedMovement} :
    ∀ change ∈ keptChanges plan movements,
      change.Restores ∧ plan.has change.bucket = true := by
  intro change hChange
  obtain ⟨movement, -, hDelta, rfl, hHas⟩ := mem_keptChanges.mp hChange
  have hNum : (-(movement.delta : Rat)).num = -movement.delta := by
    rw [Rat.neg_num, Rat.num_intCast]
  refine ⟨⟨?_, ?_, rfl, rfl⟩, hHas⟩
  · simp [Rat.isInt]
  · rw [hNum]
    omega

/-- The plan of a reversal, over the products of the consumed movements. -/
def reversalPlan (today : String) (tables : StockTables) (consumed : List StockMovementRow) :
    StockPlan :=
  lockAndPlan tables ((consumed.map (·.toPlannedMovement)).map (·.productId)) today

section

variable {movement : PlannedMovement}

theorem loaded_of_consumed {row : StockMovementRow} (hRow : row ∈ consumed)
    (existing : List String) : (reversalBucket existing row.toPlannedMovement).productId ∈
      (consumed.map (·.toPlannedMovement)).map (·.productId) := by
  rw [productId_reversalBucket, List.map_map]
  exact List.mem_map.mpr ⟨row, hRow, rfl⟩

/-- What the loop leaves is what the sale gives back. -/
theorem keptChanges_entries (today : String) (consumed : List StockMovementRow) :
    ((keptChanges (reversalPlan today tables consumed)
        (consumed.map (·.toPlannedMovement))).filter
          (!(reversalPlan today tables consumed).drops ·)).map (·.entry) =
      givenBack tables consumed := by
  unfold keptChanges givenBack reversalPlan
  rw [existingLots_loaded, List.filter_map, List.filter_map, List.map_map, List.filter_filter]
  congr 1
  apply List.filter_congr
  intro change hChange
  obtain ⟨movement, hMovement, -, rfl⟩ := mem_mapSaleReversal.mp hChange
  obtain ⟨row, hRow, rfl⟩ := List.mem_map.mp hMovement
  have hLoaded := loaded_of_consumed hRow
    (existingLots (StockPlan.create tables.stock "") (consumed.map (·.toPlannedMovement)))
  have hHas : (lockAndPlan tables _ today).has _ = _ := has_eq_of_loaded hLoaded
  have hDrops : (lockAndPlan tables _ today).drops
      { bucket := reversalBucket (existingLots (StockPlan.create tables.stock "")
          (consumed.map (·.toPlannedMovement))) row.toPlannedMovement,
        delta := -row.delta } = _ := drops_eq_of_loaded hLoaded
  rw [← hHas, ← hDrops, Bool.and_comm]
  rfl

/-- A kept change is stranded when a lot that the sale took from is left behind. -/
theorem leftInLot_iff (hStock : WellStocked tables.stock) (today : String) :
    LeftInLot tables consumed ↔ ∃ change ∈ keptChanges (reversalPlan today tables consumed)
      (consumed.map (·.toPlannedMovement)),
        (reversalPlan today tables consumed).strands change.bucket = true := by
  have hLoaded : ∀ row ∈ consumed, (reversalPlan today tables consumed).findProduct row.productId =
      (StockPlan.create tables.stock "").findProduct row.productId := by
    intro row hRow
    apply findProduct_loaded
    rw [List.map_map]
    exact List.mem_map.mpr ⟨row, hRow, rfl⟩
  constructor
  · rintro ⟨row, hRow, hDelta, product, hMem, hId, hVariants, lot, hLot, hLotId, hBucket⟩
    have hFound : (reversalPlan today tables consumed).findProduct row.productId = some product :=
      (hLoaded row hRow).trans (hId ▸ Keyed.lookup_of_mem hStock.productIds hMem)
    have hHas : (reversalPlan today tables consumed).has (.lot row.productId lot.id) = true :=
      StockPlan.has_iff.mpr ⟨product, hFound, List.mem_map_of_mem hLot⟩
    have hIn : row.toPlannedMovement ∈ consumed.map (·.toPlannedMovement) :=
      List.mem_map_of_mem hRow
    have hBack := reversalBucket_eq_lot.mpr ⟨hBucket, hLotId,
      mem_existingLots hIn hBucket hLotId hHas⟩
    refine ⟨_, mem_keptChanges.mpr ⟨_, hIn, hDelta, rfl, ?_⟩, ?_⟩
    · rw [hBack, hHas]
    · rw [hBack]
      simp [StockPlan.strands, hFound, hVariants]
  · rintro ⟨change, hChange, hStrands⟩
    obtain ⟨movement, hMovement, hDelta, rfl, hHas⟩ := mem_keptChanges.mp hChange
    obtain ⟨row, hRow, rfl⟩ := List.mem_map.mp hMovement
    cases hBack : reversalBucket (existingLots (reversalPlan today tables consumed)
        (consumed.map (·.toPlannedMovement))) row.toPlannedMovement with
    | productUntracked productId => simp [hBack, StockPlan.strands] at hStrands
    | variant productId variantId => simp [hBack, StockPlan.strands] at hStrands
    | lot productId lotId =>
        have hOwner : productId = row.productId := by
          rw [← productId_reversalBucket, hBack]
          rfl
        cases hOwner
        rw [hBack] at hHas hStrands
        obtain ⟨product, hFound, hLot⟩ := StockPlan.has_iff.mp hHas
        obtain ⟨lot, hMem, rfl⟩ := List.mem_map.mp hLot
        obtain ⟨hBucket, hLotId, -⟩ := reversalBucket_eq_lot.mp hBack
        have hFound : (reversalPlan today tables consumed).findProduct row.productId =
          some product := hFound
        obtain ⟨hIn, hId⟩ := StockPlan.findProduct_mem ((hLoaded row hRow).symm.trans hFound)
        refine ⟨row, hRow, hDelta, product, hIn, hId, ?_, lot, hMem, hLotId, hBucket⟩
        simpa [StockPlan.strands, hFound] using hStrands

/-- The loop ends in a plan whose rows the columns hold when there is room for what is given
back. -/
theorem fitsColumns_restored (hStock : WellStocked tables.stock) {next : StockPlan}
    (hLoop : (reversalPlan today tables consumed).applyEach
      (keptChanges (reversalPlan today tables consumed) (consumed.map (·.toPlannedMovement))) =
        (next, none)) :
    fitsColumns next = true ↔
      ∀ product ∈ tables.stock, product.HasRoomFor (givenBack tables consumed) := by
  have hLoaded : WellStocked (reversalPlan today tables consumed).products :=
    wellStocked_loaded today hStock _
  have hStart : Conserved (reversalPlan today tables consumed).products
    (reversalPlan today tables consumed) := conserved_create hLoaded today
  have hPlan := hStart.applyEach hLoaded
    (keptChanges (reversalPlan today tables consumed) (consumed.map (·.toPlannedMovement)))
  rw [hLoop] at hPlan
  have hMirrored : Mirrored next := by
    apply mirrored_of_applyEach hLoaded _ hLoop
    constructor <;> simp [reversalPlan, lockAndPlan, StockPlan.create]
  obtain ⟨emitted, hMovements, hEntries⟩ := applyEach_eq_ok hLoaded hLoop
  have hEmitted : next.movements = emitted := hMovements
  rw [keptChanges_entries] at hEntries
  have hPositive : ∀ movement ∈ next.movements, 0 < movement.delta := by
    intro movement hMovement
    rcases mem_of_applyEach hLoaded hLoop movement hMovement with hOld | ⟨change, hChange, hEntry⟩
    · cases hOld
    · have hDelta : movement.delta = change.delta.num := (Prod.mk.inj hEntry).2
      rw [hDelta]
      exact (keptChanges_restore change hChange).1.positive
  rw [fitsColumns_iff hMirrored, rows_fit_iff hPlan hLoaded hPositive, hEmitted, hEntries]
  constructor
  · intro hRoom product hMem given hGiven hOwner
    -- a unit goes to a product that the plan loaded
    have hIn : product ∈ (reversalPlan today tables consumed).products := by
      rw [← keptChanges_entries today consumed] at hGiven
      obtain ⟨change, hChange, rfl⟩ := List.mem_map.mp hGiven
      obtain ⟨movement, hMovement, -, rfl, -⟩ := mem_keptChanges.mp (List.mem_of_mem_filter hChange)
      obtain ⟨row, hRow, rfl⟩ := List.mem_map.mp hMovement
      have hId := loaded_of_consumed hRow (existingLots (reversalPlan today tables consumed)
        (consumed.map (·.toPlannedMovement)))
      exact List.mem_filter.mpr ⟨hMem, List.contains_iff_mem.mpr (hOwner ▸ hId)⟩
    exact hRoom product hIn given hGiven hOwner
  · intro hRoom product hMem
    exact hRoom product (List.mem_of_mem_filter hMem)

/-- A reversal that still has something to restore succeeds when no lot is left behind in a
product with variants and the columns hold what is given back. -/
theorem reverseSale_ok_iff (hStock : WellStocked tables.stock) {activatedAt : Option Int}
    {sale : SaleToReverse} (hTook : consumed ≠ []) :
    (∃ result, reverseSale today activatedAt sale consumed tables = .ok result) ↔
      rowsOfSale tables sale.saleId .saleCancellation ≠ [] ∨
        ¬ LeftInLot tables consumed ∧
          ∀ product ∈ tables.stock, product.HasRoomFor (givenBack tables consumed) := by
  have hLoaded : WellStocked (reversalPlan today tables consumed).products :=
    wellStocked_loaded today hStock _
  have hKeep : ∀ plan next product movement, Emits plan next product movement →
      (fun change : StockChange => next.has change.bucket) =
        fun change : StockChange => plan.has change.bucket := by
    intro plan next product movement hEmits
    rw [hEmits.has]
  let plan := reversalPlan today tables consumed
  let movements := consumed.map (·.toPlannedMovement)
  have hLoop : ∀ next, (∃ count, restoreEach (fun plan change => plan.has change.bucket) plan 0
      ((mapSaleReversal movements (existingLots plan movements)).map fun change =>
        { change with skipIfNotStocked := true }) = .ok (next, count)) ↔
      plan.applyEach (keptChanges plan movements) = (next, none) :=
    fun next => restoreEach_eq_ok hKeep hLoaded
  have hOpen : (∃ next, plan.applyEach (keptChanges plan movements) = (next, none)) ↔ _ :=
    applyEach_restoring hLoaded keptChanges_restore
  unfold reverseSale
  dsimp only
  rw [if_neg (by simpa using hTook)]
  by_cases hReversed : rowsOfSale tables sale.saleId .saleCancellation = []
  · rw [if_neg (not_not.mpr hReversed), leftInLot_iff hStock today]
    simp only [hReversed, ne_eq, not_true_eq_false, false_or, not_exists, not_and,
      Bool.not_eq_true]
    constructor
    · rintro ⟨result, h⟩
      obtain ⟨⟨next, count⟩, hRestore, h⟩ := bind_eq_ok.mp h
      obtain ⟨after, hPersist, -⟩ := bind_eq_ok.mp h
      have hEnd := (hLoop next).mp ⟨count, hRestore⟩
      exact ⟨hOpen.mp ⟨next, hEnd⟩,
        (fitsColumns_restored hStock hEnd).mp (persist_eq_ok.mp hPersist).1⟩
    · rintro ⟨hNone, hRoom⟩
      obtain ⟨next, hEnd⟩ := hOpen.mpr hNone
      obtain ⟨count, hRestore⟩ := (hLoop next).mpr hEnd
      have hPersist : persist next (cancellation sale.saleId) tables = .ok _ :=
        persist_eq_ok.mpr ⟨(fitsColumns_restored hStock hEnd).mpr hRoom, rfl⟩
      exact ⟨_, bind_eq_ok.mpr ⟨_, hRestore, bind_eq_ok.mpr ⟨_, hPersist, rfl⟩⟩⟩
  · rw [if_pos hReversed]
    exact ⟨fun _ => .inl hReversed, fun _ => ⟨_, rfl⟩⟩

/-- The journal was live when the sale was confirmed. -/
def Journaled (sale : SaleToReverse) (activatedAt : Option Int) : Prop :=
  ∀ confirmedAt ∈ sale.confirmedAt, ∃ activation ∈ activatedAt, activation ≤ confirmedAt

/-- A journaled sale that consumed nothing is left as it is. -/
theorem reverseLegacySale_of_journaled {activatedAt : Option Int} {sale : SaleToReverse}
    (hLive : Journaled sale activatedAt) :
    reverseLegacySale today activatedAt sale tables = .ok (.nothingToRestore, tables) := by
  unfold reverseLegacySale
  dsimp only
  split
  · rfl
  · rfl
  · next confirmedAt hConfirmed _ =>
      obtain ⟨activation, hActivated, hLater⟩ := hLive confirmedAt hConfirmed
      rw [Option.mem_def] at hActivated
      rw [hActivated]
      exact if_pos hLater

end

end

/-! ### In every run -/

/-- In every state that operations reach, a journaled sale can be reversed exactly when it is
reversed already, or it left no units in a lot of a product that has variants now and the
columns hold what it gives back. -/
theorem sale_reversal_succeeds_iff {tables : StockTables} {requests : List (String × StockCommand)}
    (run : Runs StockStep emptyTables requests tables) (today : String)
    {activatedAt : Option Int} {sale : SaleToReverse} {consumed : List StockMovementRow}
    (hConsumed : consumed.Perm (rowsOfSale tables sale.saleId .sale))
    (hLive : Journaled sale activatedAt) :
    (∃ result, reverseSale today activatedAt sale consumed tables = .ok result) ↔
      rowsOfSale tables sale.saleId .saleCancellation ≠ [] ∨
        ¬ LeftInLot tables consumed ∧
          ∀ product ∈ tables.stock, product.HasRoomFor (givenBack tables consumed) := by
  have hStock := (configured_of_runs run).sound.rows_wellStocked
  cases consumed with
  | nil =>
      have hOk : reverseSale today activatedAt sale [] tables = .ok (.nothingToRestore, tables) :=
        reverseLegacySale_of_journaled hLive
      have hNone : ¬ LeftInLot tables [] := by simp [LeftInLot]
      have hRoom : ∀ product ∈ tables.stock, product.HasRoomFor (givenBack tables []) := by
        simp [ProductStockState.HasRoomFor, givenBack, mapSaleReversal]
      exact ⟨fun _ => .inr ⟨hNone, hRoom⟩, fun _ => ⟨_, hOk⟩⟩
  | cons row rest => exact reverseSale_ok_iff hStock (List.cons_ne_nil row rest)

/-- Before the first variant the two units go back to their lot. -/
theorem sale_reversal_succeeds_before_variant :
    ∃ result, reverseSale "2026-01-03" (some 0) ⟨"sale", [], some 1⟩
      (rowsOfSale ((trackedRequests.take 2).foldl serve emptyTables) "sale" .sale)
      ((trackedRequests.take 2).foldl serve emptyTables) = .ok result := by
  have hSold : ∀ item ∈ [(⟨"product", none, 2⟩ : StockChargeItem)], 0 < item.quantity := by
    decide
  have run : Runs StockStep emptyTables (trackedRequests.take 2)
      ((trackedRequests.take 2).foldl serve emptyTables) :=
    ((Runs.zero _).succ ⟨trivial, rfl⟩).succ ⟨hSold, rfl⟩
  have hLive : Journaled ⟨"sale", [], some 1⟩ (some 0) := by
    simp [Journaled]
  apply (sale_reversal_succeeds_iff run "2026-01-03" (.refl _) hLive).mpr
  refine .inr ⟨?_, ?_⟩
  · unfold LeftInLot
    decide
  · unfold ProductStockState.HasRoomFor
    decide

/-- After it the lot is found and then refused: the sale cannot be canceled. -/
theorem sale_reversal_fails_after_variant :
    ∃ requests tables, Runs StockStep emptyTables requests tables ∧
      reverseSale "2026-01-04" (some 0) ⟨"sale", [], some 1⟩ (rowsOfSale tables "sale" .sale)
        tables = .error (.stockBucketNotFound "LOT" "lot") := by
  have hSold : ∀ item ∈ [(⟨"product", none, 2⟩ : StockChargeItem)], 0 < item.quantity := by
    decide
  refine ⟨trackedRequests, trackedRequests.foldl serve emptyTables, ?_, rfl⟩
  exact (((Runs.zero _).succ ⟨trivial, rfl⟩).succ ⟨hSold, rfl⟩).succ ⟨trivial, rfl⟩

end Houndfe.Inventory
