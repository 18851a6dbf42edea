import Houndfe.Base.Transition
import Houndfe.Inventory.StockRowOperations

/-! Stock over whole runs: any sequence of product operations, journal charges, adjustments
and sale reversals. Failed operations roll back. What holds of every state is that stock agrees
with its journal and that parents of variants are empty; that untracked products hold nothing
takes a condition on three of the operations. -/

namespace Houndfe.Inventory

open Transition StockJournalWriter

inductive StockCommand where
  | create (productId : String) (dto : CreateProductDto)
  | update (id : String) (dto : UpdateProductDto)
  | remove (id : String)
  | addVariant (productId variantId : String) (dto : CreateVariantDto)
  | removeVariant (productId variantId : String)
  | addLot (productId lotId : String) (dto : CreateLotDto)
  | updateLot (productId lotId : String) (expirationDate : Int)
  | removeLot (productId lotId : String)
  | adjust (groupId : String) (input : AdjustmentInput)
  | charge (items : List StockChargeItem) (saleId : String)
  | reverseSale (activatedAt : Option Int) (sale : SaleToReverse)
      (consumed : List StockMovementRow)

namespace StockCommand

def perform (today : String) (tables : StockTables) : StockCommand → Outcome
  | .create productId dto => Inventory.create today productId dto tables
  | .update id dto => Inventory.update today id dto tables
  | .remove id => Inventory.remove today id tables
  | .addVariant productId variantId dto =>
      Inventory.addVariant today productId variantId dto tables
  | .removeVariant productId variantId => Inventory.removeVariant today productId variantId tables
  | .addLot productId lotId dto => Inventory.addLot today productId lotId dto tables
  | .updateLot productId lotId expirationDate =>
      Inventory.updateLot productId lotId expirationDate tables
  | .removeLot productId lotId => Inventory.removeLot productId lotId tables
  | .adjust groupId input => Inventory.adjust today groupId input tables
  | .charge items saleId => journaled (StockJournalWriter.charge today items saleId tables)
  | .reverseSale activatedAt sale consumed => journaled
      ((StockJournalWriter.reverseSale today activatedAt sale consumed tables).map Prod.snd)

/-- Sale lines have positive quantities, and a reversal reads the `SALE` rows of its sale in
some order. -/
def Served (tables : StockTables) : StockCommand → Prop
  | .charge items _ => ∀ item ∈ items, 0 < item.quantity
  | .reverseSale _ sale consumed =>
      consumed.Perm (rowsOfSale tables sale.saleId .sale)
  | _ => True

/-- No stock is put on a product that tracks none: not with its creation, not with a new
variant, and not with the reversal of a sale. -/
def PutsTracked (tables : StockTables) : StockCommand → Prop
  | .create _ dto => dto.BringsTracked
  | .addVariant productId _ dto => 0 < dto.quantity.getD 0 → Tracked productId tables
  | .reverseSale _ _ consumed => RestoresTracked tables consumed
  | _ => True

end StockCommand

/-- A command on its business day, in a transaction that rolls back when it throws. -/
def serve (tables : StockTables) (request : String × StockCommand) : StockTables :=
  match request.2.perform request.1 tables with
  | .ok after => after
  | .error _ => tables

def StockStep (tables : StockTables) (request : String × StockCommand) (after : StockTables) :
    Prop :=
  request.2.Served tables ∧ serve tables request = after

def emptyTables : StockTables := ⟨[], []⟩

section

variable {tables after : StockTables} {request : String × StockCommand}

theorem configured_empty : Configured emptyTables := by
  refine ⟨⟨⟨?_, ?_, ?_, ?_, ?_, ?_⟩, ?_, ?_, ?_⟩, ?_⟩ <;>
    simp [emptyTables, StockTables.bare, StockTables.stock, StockTables.journal, Flagged, moved,
      heldIn]

theorem charge_keeps (hTables : Configured tables) {today saleId : String}
    {items : List StockChargeItem} (hQuantity : ∀ item ∈ items, 0 < item.quantity)
    (h : StockJournalWriter.charge today items saleId tables = .ok after) :
    Keeps tables after True := by
  obtain ⟨movements, hWritten, hPuts⟩ :=
    written_charge hTables.sound.rows_wellStocked hQuantity h
  exact (hWritten.keeps hTables).mono fun _ => hPuts

theorem reverseSale_keeps (hTables : Configured tables) {today : String}
    {activatedAt : Option Int} {sale : SaleToReverse} {consumed : List StockMovementRow}
    {outcome : SaleReversalOutcome}
    (h : StockJournalWriter.reverseSale today activatedAt sale consumed tables =
      .ok (outcome, after)) :
    Keeps tables after (RestoresTracked tables consumed) := by
  rcases written_reverseSale hTables.sound.rows_wellStocked h with
    rfl | ⟨movements, hWritten, hPuts⟩
  · exact Keeps.refl hTables
  · exact (hWritten.keeps hTables).mono hPuts

/-- One case for each command. -/
theorem perform_keeps (hTables : Configured tables) {today : String} {command : StockCommand}
    (hServed : command.Served tables) (h : command.perform today tables = .ok after) :
    Keeps tables after (command.PutsTracked tables) := by
  cases command with
  | create productId dto => exact create_keeps hTables h
  | update id dto => exact update_keeps hTables h
  | remove id => exact remove_keeps hTables h
  | addVariant productId variantId dto => exact addVariant_keeps hTables h
  | removeVariant productId variantId => exact removeVariant_keeps hTables h
  | addLot productId lotId dto => exact addLot_keeps hTables h
  | updateLot productId lotId expirationDate => exact updateLot_keeps hTables h
  | removeLot productId lotId => exact removeLot_keeps hTables h
  | adjust groupId input => exact adjust_keeps hTables h
  | charge items saleId => exact charge_keeps hTables hServed (journaled_eq_ok.mp h)
  | reverseSale activatedAt sale consumed =>
      have hOk := journaled_eq_ok.mp h
      cases hReverse : StockJournalWriter.reverseSale today activatedAt sale consumed tables with
      | error e => simp [hReverse, Except.map] at hOk
      | ok result =>
          rw [hReverse] at hOk
          cases hOk
          exact reverseSale_keeps hTables hReverse

theorem serve_keeps (hTables : Configured tables) (hStep : StockStep tables request after) :
    Keeps tables after (request.2.PutsTracked tables) := by
  obtain ⟨hServed, rfl⟩ := hStep
  unfold serve
  cases hPerform : request.2.perform request.1 tables with
  | error e => exact Keeps.refl hTables
  | ok done => exact perform_keeps hTables hServed hPerform

variable {requests : List (String × StockCommand)}

theorem configured_of_runs (run : Runs StockStep emptyTables requests tables) :
    Configured tables :=
  run.invariant (fun _ _ _ hTables hStep => (serve_keeps hTables hStep).configured)
    configured_empty

theorem idle_of_runs (run : Runs (Guarded StockStep fun tables request =>
      request.2.PutsTracked tables) emptyTables requests tables) :
    Configured tables ∧ Idle tables.bare := by
  have hStep : ∀ before request after, Configured before ∧ Idle before.bare →
      Guarded StockStep (fun tables request => request.2.PutsTracked tables) before request
        after → Configured after ∧ Idle after.bare := by
    rintro before request after ⟨hTables, hIdle⟩ ⟨hStep, hPuts⟩
    have hKept := serve_keeps hTables hStep
    exact ⟨hKept.configured, hKept.idle hPuts hIdle⟩
  apply run.invariant hStep
  exact ⟨configured_empty, by simp [Idle, emptyTables, StockTables.bare, StockTables.stock]⟩

end

/-! ### The rules of the stock configuration -/

/-- The rules that stock, its flags and its journal are to keep. -/
structure StockConfiguration (tables : StockTables) : Prop where
  covered : ∀ product ∈ tables.stock, 0 ≤ (product.lots.map (·.quantity)).sum ∧
    (product.lots.map (·.quantity)).sum ≤ product.quantity
  variants : ∀ product ∈ tables.stock, ∀ variant ∈ product.variants, 0 ≤ variant.quantity
  parents : ∀ product ∈ tables.stock, product.hasVariants = true →
    product.quantity = 0 ∧ ∀ lot ∈ product.lots, lot.quantity = 0
  untracked : ∀ product ∈ tables.stock, product.useStock = false →
    product.untracked = 0 ∧ (∀ lot ∈ product.lots, lot.quantity = 0) ∧
      ∀ variant ∈ product.variants, variant.quantity = 0
  journaled : ∀ bucket, heldIn tables.stock bucket = moved bucket tables.journal

section

variable {tables : StockTables}

theorem ProductStockState.balance_unversioned (product : ProductStockState)
    (bucket : StockBucketRef) : product.unversioned.balance bucket = product.balance bucket := by
  cases bucket with
  | productUntracked owner => exact congrArg some product.untracked_unversioned
  | lot owner lotId =>
      have hLookup : Keyed.lookup LotStockState.id product.unversioned.lots lotId =
          (Keyed.lookup LotStockState.id product.lots lotId).map
            fun lot => { lot with stockVersion := 0 } := Keyed.lookup_map fun _ => rfl
      rw [balance, balance, hLookup, Option.map_map]
      rfl
  | variant owner variantId =>
      have hLookup : Keyed.lookup VariantStockState.id product.unversioned.variants variantId =
          (Keyed.lookup VariantStockState.id product.variants variantId).map
            fun variant => { variant with stockVersion := 0 } := Keyed.lookup_map fun _ => rfl
      rw [balance, balance, hLookup, Option.map_map]
      rfl

theorem heldIn_bare (bucket : StockBucketRef) :
    heldIn tables.bare bucket = heldIn tables.stock bucket := by
  have hLookup : Keyed.lookup ProductStockState.id tables.bare bucket.productId =
      (Keyed.lookup ProductStockState.id tables.stock bucket.productId).map (·.unversioned) :=
    Keyed.lookup_map fun _ => rfl
  unfold heldIn
  rw [hLookup]
  cases Keyed.lookup ProductStockState.id tables.stock bucket.productId with
  | none => rfl
  | some product => exact congrArg (·.getD 0) (product.balance_unversioned bucket)

/-- In every run whose operations put stock only on products that track it, stock and its
configuration keep all their rules in every state. -/
theorem stock_configuration_holds {requests : List (String × StockCommand)}
    (run : Runs (Guarded StockStep fun tables request => request.2.PutsTracked tables)
      emptyTables requests tables) : StockConfiguration tables := by
  obtain ⟨hTables, hIdle⟩ := idle_of_runs run
  have hStock := hTables.sound.rows_wellStocked
  have hBare : ∀ product ∈ tables.stock, product.unversioned ∈ tables.bare :=
    fun product hMem => List.mem_map_of_mem hMem
  refine ⟨?_, hStock.variants, ?_, ?_, ?_⟩
  · intro product hMem
    have hCovered := hStock.covered product hMem
    refine ⟨?_, by unfold ProductStockState.untracked at hCovered; omega⟩
    apply List.sum_nonneg
    simpa using hStock.lots product hMem
  · intro product hMem hParent
    have hEmpty := hTables.sound.parentEmpty _ (hBare product hMem) hParent
    simpa [ProductStockState.unversioned] using hEmpty
  · intro product hMem hUntracked
    have hEmpty := ProductStockState.isEmpty_unversioned.mp
      (hIdle _ (hBare product hMem) hUntracked)
    exact ⟨hEmpty.untracked, hEmpty.2⟩
  · intro bucket
    rw [← heldIn_bare, hTables.sound.journaled bucket]

end

/-! ### Runs of a few operations -/

def newProduct (useStock useLots : Bool) (lots : List (String × CreateLotDto)) :
    CreateProductDto where
  name := "Product"
  type := none
  useStock := some useStock
  useLotsAndExpirations := some useLots
  quantity := none
  hasVariants := none
  variants := []
  lots := lots

def newSize (quantity : Rat) : CreateVariantDto where
  name := some "Size M"
  option := none
  value := none
  quantity := some quantity

/-- A lot of five units, two of them sold, and a first variant that takes over. -/
def trackedRequests : List (String × StockCommand) :=
  [("2026-01-01", .create "product" (newProduct true true [("lot", ⟨"L-1", some 5, 1893456000000⟩)])),
   ("2026-01-02", .charge [⟨"product", none, 2⟩] "sale"),
   ("2026-01-03", .addVariant "product" "variant" (newSize 3))]

theorem stock_configuration_holds_of_three :
    StockConfiguration (trackedRequests.foldl serve emptyTables) := by
  have hCreate : (newProduct true true
      [("lot", ⟨"L-1", some 5, 1893456000000⟩)]).BringsTracked := by
    unfold CreateProductDto.BringsTracked
    decide
  have hSold : ∀ item ∈ [(⟨"product", none, 2⟩ : StockChargeItem)], 0 < item.quantity := by
    decide
  have hTracked : Tracked "product" ((trackedRequests.take 2).foldl serve emptyTables) := by
    unfold Tracked
    decide
  have hAdmits : Admits (fun tables (request : String × StockCommand) =>
      request.2.Served tables ∧ request.2.PutsTracked tables) serve emptyTables trackedRequests :=
    ⟨⟨trivial, hCreate⟩, ⟨hSold, trivial⟩, ⟨trivial, fun _ => hTracked⟩, trivial⟩
  exact stock_configuration_holds (runs_foldl
    (fun tables request hAdmitted => ⟨⟨hAdmitted.1, rfl⟩, hAdmitted.2⟩) hAdmits)

/-- A product without stock tracking that gets a variant with units. -/
def untrackedVariant : List (String × StockCommand) :=
  [("2026-01-01", .create "product" (newProduct false false [])),
   ("2026-01-01", .addVariant "product" "variant" (newSize 5))]

theorem untracked_product_gets_units : ∃ requests tables,
    Runs StockStep emptyTables requests tables ∧ ¬ StockConfiguration tables := by
  refine ⟨untrackedVariant, untrackedVariant.foldl serve emptyTables, ?_, ?_⟩
  · exact ((Runs.zero _).succ ⟨trivial, rfl⟩).succ ⟨trivial, rfl⟩
  · intro hRules
    have hHeld : ∃ product ∈ (untrackedVariant.foldl serve emptyTables).stock,
        product.useStock = false ∧ ∃ variant ∈ product.variants, variant.quantity = 5 := by
      decide
    obtain ⟨product, hMem, hUntracked, variant, hVariant, hFive⟩ := hHeld
    have hZero := (hRules.untracked product hMem hUntracked).2.2 variant hVariant
    omega

end Houndfe.Inventory
