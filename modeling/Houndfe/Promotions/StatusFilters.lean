import Houndfe.Promotions.StoredRules
import Mathlib.Data.String.Basic

/-! The lists of promotions by status. The stored status is written with the promotion and not when
time passes; a filter reads it together with the dates. -/

namespace Houndfe.Promotions

open Transactions Transition

structure PromotionFindAllQuery where
  page : Nat
  limit : Nat
  type : Option PromotionType
  status : Option PromotionStatus
  method : Option PromotionMethod
  customerScope : Option CustomerScope
  botEligible : Bool
  search : Option String

/-- The condition that `findAll` adds for a status. -/
def statusWhere (status : PromotionStatus) (now : Int) (row : PromotionRow) : Bool :=
  match status with
  | .ended => row.status = .ended || row.promotion.endDate.any (· < now)
  | .scheduled => row.promotion.startDate.any (now < ·) && row.status ≠ .ended
  | .active => row.status ≠ .ended && row.promotion.startDate.all (· ≤ now) &&
      row.promotion.endDate.all (now ≤ ·)

/-- The other conditions; `contains` is that of the database, insensitive to case. -/
def PromotionFindAllQuery.base (query : PromotionFindAllQuery) (contains : String → String → Bool)
    (row : PromotionRow) : Bool :=
  query.type.all (row.promotion.type = ·) && query.method.all (row.promotion.method = ·) &&
    query.customerScope.all (row.promotion.customerScope = ·) &&
      (!query.botEligible || row.promotion.botEligible) &&
        query.search.all (contains row.promotion.title)

/-- The page of the rows as `arrange` orders them, and how many rows there are. -/
def PromotionFindAllQuery.cut (query : PromotionFindAllQuery)
    (arrange : List PromotionRow → List PromotionRow) (rows : List PromotionRow) :
    List Promotion × Nat :=
  ((((arrange rows).drop ((query.page - 1) * query.limit)).take query.limit).map (·.promotion),
    rows.length)

def findAll (contains : String → String → Bool) (arrange : List PromotionRow → List PromotionRow)
    (tenantId : String) (query : PromotionFindAllQuery) (now : Int) (tables : Tables) :
    List Promotion × Nat :=
  query.cut arrange (tables.promotions.rows.filter fun row => row.tenantId = tenantId &&
    query.base contains row && query.status.all (statusWhere · now row))

def activeAutomaticPromotionCap : Nat := 1000

/-- The snapshot for the quotes of the bot, and whether it is complete. -/
def findActiveAutomaticSnapshot (tenantId : String) (now : Int) (tables : Tables) :
    List Promotion × Bool :=
  let rows := (Keyed.sortByKey (·.promotion.id) (tables.promotions.rows.filter fun row =>
    row.tenantId = tenantId && row.promotion.method = .automatic && row.promotion.botEligible &&
      !row.promotion.manuallyEnded && row.promotion.startDate.all (· ≤ now) &&
        row.promotion.endDate.all (now ≤ ·))).take (activeAutomaticPromotionCap + 1)
  ((rows.take activeAutomaticPromotionCap).map (·.promotion),
    rows.length ≤ activeAutomaticPromotionCap)

/-! ### Rows in step with their promotions -/

/-- What keeps the stored status of a row from misleading a filter at `now`. -/
structure InStep (now : Int) (row : PromotionRow) : Prop where
  manual : row.promotion.manuallyEnded = true → row.status = .ended
  stale : row.status = .ended → row.promotion.getEffectiveStatus now = .ended
  dates : row.promotion.manuallyEnded = false →
    validateDateRange row.promotion.startDate row.promotion.endDate = .ok ()

def AllInStep (now : Int) (tables : Tables) : Prop :=
  ∀ id row, tables.promotions.find id = some row → InStep now row

section

variable {zoneOffset : ZoneOffset} {now reading : Int} {row stored : PromotionRow}
  {promo : Promotion} {tenantId id : String} {tables after own : Tables} {outcome : Outcome}
  {status : PromotionStatus}

theorem validateDateRange_eq_ok {startDate endDate : Option Int} :
    validateDateRange startDate endDate = .ok () ↔
      ∀ start ∈ startDate, ∀ finish ∈ endDate, start ≤ finish := by
  rw [validateDateRange, throwIf_eq_ok]
  simp only [not_exists, not_and, Int.not_lt]

/-- The filters select what is displayed. -/
theorem InStep.statusWhere_iff (h : InStep now row) :
    statusWhere status now row = true ↔ row.promotion.getEffectiveStatus now = status := by
  obtain ⟨hManual, hStale, hDates⟩ := h
  rw [validateDateRange_eq_ok] at hDates
  unfold Promotion.getEffectiveStatus at hStale ⊢
  cases hEnded : row.promotion.manuallyEnded <;> cases hStart : row.promotion.startDate <;>
    cases hFinish : row.promotion.endDate <;> cases status <;>
      simp [statusWhere, hEnded, hStart, hFinish] at hManual hStale hDates ⊢ <;> grind

/-- The snapshot looks at the dates and at the flag of the operator alone. -/
theorem active_eq : (!promo.manuallyEnded && promo.startDate.all (· ≤ now) &&
    promo.endDate.all (now ≤ ·)) = decide (promo.getEffectiveStatus now = .active) := by
  unfold Promotion.getEffectiveStatus
  cases promo.manuallyEnded with
  | true => simp
  | false =>
      cases promo.startDate <;> cases promo.endDate <;> simp
      grind

theorem ended_later (hEnded : promo.getEffectiveStatus reading = .ended) (hLater : reading ≤ now) :
    promo.getEffectiveStatus now = .ended := by
  unfold Promotion.getEffectiveStatus at hEnded ⊢
  cases hManual : promo.manuallyEnded <;> cases hStart : promo.startDate <;>
    cases hFinish : promo.endDate <;> simp [hManual, hStart, hFinish] at hEnded ⊢ <;> grind

/-- A row that is saved with its effective status. -/
theorem inStep_of_status (hStatus : row.status = row.promotion.getEffectiveStatus reading)
    (hLater : reading ≤ now)
    (hDates : validateDateRange row.promotion.startDate row.promotion.endDate = .ok ()) :
    InStep now row where
  manual hManual := by simp [hStatus, Promotion.getEffectiveStatus, hManual]
  stale hEnded := ended_later (hStatus ▸ hEnded) hLater
  dates _ := hDates

/-! ### What the requests keep -/

theorem AllInStep.saved (h : AllInStep now tables) (hRow : InStep now row)
    (hSaved : tables.saved row = .ok after) : AllInStep now after := by
  intro other found hFound
  unfold Tables.saved at hSaved
  split at hSaved
  · obtain ⟨stored, hOverwrites⟩ := overwrite_eq_ok hSaved
    rw [hOverwrites.find] at hFound
    split at hFound
    · cases hFound
      exact ⟨hRow.manual, hRow.stale, hRow.dates⟩
    · exact h other found hFound
  · rw [(insert_eq_ok hSaved).find] at hFound
    split at hFound
    · cases hFound
      exact hRow
    · exact h other found hFound

theorem AllInStep.written {write : StatusWrite} (h : AllInStep now tables)
    (hStored : tables.findPromotion tenantId id = some stored)
    (hRow : InStep now stored → InStep now (stored.withStatus write))
    (hWrite : updateStatus tenantId id write tables = .ok after) : AllInStep now after := by
  intro other found hFound
  rw [find_updateStatus hWrite] at hFound
  have hFind := (findPromotion_eq_some.mp hStored).1
  split at hFound
  · next hSame =>
      rw [hSame, hFind, Option.map_some, Option.some.injEq] at hFound
      rw [← hFound]
      exact hRow (h id stored hFind)
  · exact h other found hFound

/-- A promotion that an end has left with an end date before its start date is activated only after
that end date. -/
def Promotion.ActivatedLater (promo : Promotion) (reading : Int) : Prop :=
  ∀ start ∈ promo.startDate, ∀ finish ∈ promo.endDate, finish < start → finish < reading

instance (promo : Promotion) (reading : Int) : Decidable (promo.ActivatedLater reading) := by
  unfold Promotion.ActivatedLater
  infer_instance

theorem inStep_end {write : StatusWrite}
    (hWrite : endWrite reading row.promotion = some write) : InStep now (row.withStatus write) := by
  cases hWrite
  constructor
  · intro _
    rfl
  · intro _
    simp [PromotionRow.withStatus, Promotion.getEffectiveStatus]
  · intro hOpen
    simp [PromotionRow.withStatus] at hOpen

theorem inStep_activate (h : InStep now row) {write : StatusWrite} (hLater : reading ≤ now)
    (hAfter : row.promotion.manuallyEnded = true → row.promotion.ActivatedLater reading)
    (hWrite : activateWrite reading row.promotion = some write) :
    InStep now (row.withStatus write) ∧ (row.withStatus write).promotion.manuallyEnded = false := by
  have hDates := h.dates
  simp only [validateDateRange_eq_ok] at hDates
  unfold activateWrite Promotion.activate at hWrite
  simp only at hWrite
  split at hWrite
  · split at hWrite
    · cases hWrite
      refine ⟨inStep_of_status rfl hLater ?_, rfl⟩
      rw [validateDateRange_eq_ok]
      rintro start _ finish ⟨⟩
    · next hOpen =>
        cases hWrite
        refine ⟨inStep_of_status rfl hLater ?_, rfl⟩
        rw [validateDateRange_eq_ok]
        intro start hStart finish hFinish
        simp only [PromotionRow.withStatus, Option.mem_def] at hStart hFinish
        rw [hFinish, Option.any_some, decide_eq_true_eq] at hOpen
        cases hManual : row.promotion.manuallyEnded with
        | false => exact hDates hManual start hStart finish hFinish
        | true =>
            by_contra hBefore
            exact hOpen (hAfter hManual start hStart finish hFinish (by omega))
  · cases hWrite

/-- Ids whose turns come one after another. -/
theorem AllInStep.turns {write : Int → Promotion → Option StatusWrite} {clock : Nat → Int}
    {ids : List String} {turn : Nat} (P : Nat → PromotionRow → Prop)
    (hEach : ∀ row columns turn, InStep now row → clock turn ≤ now → P turn row →
      write (clock turn) row.promotion = some columns → InStep now (row.withStatus columns) ∧
        ∀ later, P later (row.withStatus columns))
    (h : AllInStep now own) (hIds : ∀ id ∈ ids, ∀ row ∈ own.findPromotion tenantId id,
      ∀ later, turn ≤ later → later < turn + ids.length → clock later ≤ now ∧ P later row)
    (turns : Turns tenantId write clock ids turn own after) : AllInStep now after := by
  induction turns with
  | done => exact h
  | @skip id rest turn own last row found write_eq later ih =>
      apply ih h
      intro other hOther row' hRow' turn' hFrom hTo
      exact hIds other (List.mem_cons_of_mem _ hOther) row' hRow' turn' (by omega)
        (by rw [List.length_cons]; omega)
  | @write id rest turn own next last row columns found write_eq written later ih =>
      have hNow := hIds id List.mem_cons_self row found turn le_rfl (by simp)
      have hRow := h id row (findPromotion_eq_some.mp found).1
      obtain ⟨hStep, hLater⟩ := hEach row columns turn hRow hNow.1 hNow.2 write_eq
      apply ih (h.written found (fun _ => hStep) written)
      intro other hOther row' hRow' turn' hFrom hTo
      have hTurn : turn' < turn + (id :: rest).length := by
        rw [List.length_cons]
        omega
      by_cases hSame : other = id
      · rw [hSame, Option.mem_def, findPromotion_eq_some, find_updateStatus written, if_pos rfl,
          (findPromotion_eq_some.mp found).1, Option.map_some, Option.some.injEq] at hRow'
        rw [← hRow'.1]
        exact ⟨(hIds id List.mem_cons_self row found turn' (by omega) hTurn).1, hLater turn'⟩
      · rw [findPromotion_updateStatus hSame written] at hRow'
        exact hIds other (List.mem_cons_of_mem _ hOther) row' hRow' turn' (by omega) hTurn

theorem AllInStep.ends {clock : Nat → Int} {ids : List String} (h : AllInStep now tables)
    (hClock : ∀ turn < ids.length, clock turn ≤ now)
    (turns : Turns tenantId endWrite clock ids 0 tables after) : AllInStep now after := by
  apply h.turns (fun _ _ => True) _ _ turns
  · exact fun row columns turn hRow _ _ hWrite => ⟨inStep_end hWrite, fun _ => trivial⟩
  · exact fun id _ row _ turn _ hTurn => ⟨hClock turn (by omega), trivial⟩

theorem AllInStep.activations {clock : Nat → Int} {ids : List String} (h : AllInStep now tables)
    (hClock : ∀ turn < ids.length, clock turn ≤ now)
    (hAfter : ∀ id ∈ ids, ∀ row ∈ tables.findPromotion tenantId id, ∀ turn < ids.length,
      row.promotion.ActivatedLater (clock turn))
    (turns : Turns tenantId activateWrite clock ids 0 tables after) : AllInStep now after := by
  apply h.turns (fun turn row => row.promotion.manuallyEnded = true →
    row.promotion.ActivatedLater (clock turn)) _ _ turns
  · intro row columns turn hRow hLater hManual hWrite
    obtain ⟨hStep, hOpen⟩ := inStep_activate hRow hLater hManual hWrite
    refine ⟨hStep, fun _ hEnded => ?_⟩
    rw [hOpen] at hEnded
    cases hEnded
  · exact fun id hId row hRow turn _ hTurn =>
      ⟨hClock turn (by omega), fun _ => hAfter id hId row hRow turn (by omega)⟩

/-- When the service reads the clock for a request. -/
def Request.readings : Request → List Int
  | .create _ _ _ now | .update _ _ _ now | .endPromotion _ _ now | .activatePromotion _ _ now =>
      [now]
  | .batchEnd _ ids clock | .batchActivate _ ids clock => (List.range ids.length).map clock
  | .claimExpiryAlert _ | .editTargets _ _ | .tick _ => []

/-- What an activation finds of promotions that were ended before they started. -/
def ActivatesLater (tables : Tables) : Request → Prop
  | .activatePromotion tenantId id now =>
      ∀ row ∈ tables.findPromotion tenantId id, row.promotion.ActivatedLater now
  | .batchActivate tenantId ids clock => ∀ id ∈ ids, ∀ row ∈ tables.findPromotion tenantId id,
      ∀ turn < ids.length, row.promotion.ActivatedLater (clock turn)
  | _ => True

/-- The step lemma. -/
theorem AllInStep.serve {request : Request} (h : AllInStep now tables)
    (hReadings : ∀ reading ∈ request.readings, reading ≤ now) (hAfter : ActivatesLater tables request)
    (hServe : Transactions.serve (request.body zoneOffset) tables = .ok (after, outcome)) :
    AllInStep now after := by
  have hServes := Service.serves_of_serve (promotionService_keeps zoneOffset request) trivial hServe
  have hSame : after.promotions = tables.promotions → AllInStep now after := by
    intro hPromotions
    unfold AllInStep
    rwa [hPromotions]
  cases request with
  | create tenantId id dto reading =>
      obtain ⟨row, hCreates, hSaved, hStatus⟩ := create_eq_ok hServe
      exact h.saved (inStep_of_status hStatus (hReadings reading List.mem_cons_self)
        hCreates.params.dates) hSaved
  | update tenantId id dto reading =>
      obtain ⟨stored, row, hUpdates, hSaved, hStatus⟩ := update_eq_ok hServe
      exact h.saved (inStep_of_status hStatus (hReadings reading List.mem_cons_self)
        hUpdates.params.dates) hSaved
  | endPromotion tenantId id reading =>
      exact h.ends (fun _ _ => hReadings reading List.mem_cons_self) (turns_of_changeStatus hServe)
  | batchEnd tenantId ids clock =>
      exact h.ends (by simpa [Request.readings] using hReadings) (turns_of_changeEach hServe)
  | activatePromotion tenantId id reading =>
      apply h.activations (fun _ _ => hReadings reading List.mem_cons_self) _
        (turns_of_changeStatus hServe)
      intro other hOther row hRow _ _
      rw [List.mem_singleton.mp hOther] at hRow
      exact hAfter row hRow
  | batchActivate tenantId ids clock =>
      exact h.activations (by simpa [Request.readings] using hReadings) hAfter
        (turns_of_changeEach hServe)
  | claimExpiryAlert claim =>
      cases hServes with
      | claimed due gate => exact hSame seed_promotions
      | alreadyAlerted due gate => exact hSame seed_promotions
      | notEligible => exact h
      | ended asked | activated asked | elapsed asked => exact asked.elim
  | editTargets tenantId targetIds =>
      cases hServes with
      | elapsed asked promotions => exact hSame promotions
      | ended asked | activated asked => exact asked.elim
  | tick ms =>
      cases hServes with
      | elapsed asked promotions => exact hSame promotions
      | ended asked | activated asked => exact asked.elim

/-- The run lemma. -/
theorem AllInStep.requests {start : Tables} {requests : List Request} (h : AllInStep now start)
    (hAdmits : Admits ActivatesLater (handle zoneOffset) start requests)
    (hReadings : ∀ request ∈ requests, ∀ reading ∈ request.readings, reading ≤ now) :
    AllInStep now (requests.foldl (handle zoneOffset) start) := by
  induction requests generalizing start with
  | nil => exact h
  | cons request rest ih =>
      obtain ⟨hAfter, hRest⟩ := hAdmits
      have hRests : ∀ request ∈ rest, ∀ reading ∈ request.readings, reading ≤ now :=
        fun other hMem => hReadings other (List.mem_cons_of_mem _ hMem)
      refine ih ?_ hRest hRests
      unfold handle
      cases hServe : Transactions.serve (request.body zoneOffset) start with
      | ok served => exact h.serve (hReadings request List.mem_cons_self) hAfter hServe
      | error error => exact h

end

/-- A filter by status gives the promotions that are displayed with it, and the snapshot of the bot
its own promotions that are in force. -/
theorem status_filters (zoneOffset : ZoneOffset) (contains : String → String → Bool)
    (arrange : List PromotionRow → List PromotionRow) (start : Tables) (requests : List Request)
    (now : Int) (hEmpty : start.promotions.rows = [])
    (hAdmits : Admits ActivatesLater (handle zoneOffset) start requests)
    (hReadings : ∀ request ∈ requests, ∀ reading ∈ request.readings, reading ≤ now) :
    (∀ tenantId query status, query.status = some status →
      findAll contains arrange tenantId query now (requests.foldl (handle zoneOffset) start) =
        query.cut arrange ((requests.foldl (handle zoneOffset) start).promotions.rows.filter
          fun row => row.tenantId = tenantId && query.base contains row &&
            row.promotion.getEffectiveStatus now = status)) ∧
    (∀ row ∈ (requests.foldl (handle zoneOffset) start).promotions.rows, ∃ status,
      statusWhere status now row = true ∧
        ∀ other, statusWhere other now row = true → other = status) ∧
    ∀ tenantId eligible, eligible = Keyed.sortByKey (·.promotion.id)
      ((requests.foldl (handle zoneOffset) start).promotions.rows.filter fun row =>
        row.tenantId = tenantId && row.promotion.method = .automatic && row.promotion.botEligible &&
          row.promotion.getEffectiveStatus now = .active) →
      findActiveAutomaticSnapshot tenantId now (requests.foldl (handle zoneOffset) start) =
        ((eligible.take activeAutomaticPromotionCap).map (·.promotion),
          decide (eligible.length ≤ activeAutomaticPromotionCap)) := by
  have hStart : AllInStep now start := by
    intro id row hRow
    have hMem := (Keyed.Rows.find_eq_some_iff.mp hRow).1
    rw [hEmpty] at hMem
    cases hMem
  have hAll := hStart.requests hAdmits hReadings
  generalize requests.foldl (handle zoneOffset) start = tables at hAll ⊢
  have hWhere : ∀ row ∈ tables.promotions.rows, ∀ status,
      statusWhere status now row = true ↔ row.promotion.getEffectiveStatus now = status :=
    fun row hMem status => (hAll _ row (Keyed.Rows.find_of_mem hMem)).statusWhere_iff
  refine ⟨?_, ?_, ?_⟩
  · intro tenantId query status hStatus
    unfold findAll
    congr 1
    apply List.filter_congr
    intro row hMem
    rw [hStatus, Option.all_some, Bool.eq_iff_iff]
    simp only [Bool.and_eq_true, decide_eq_true_eq, hWhere row hMem]
  · intro row hMem
    exact ⟨_, (hWhere row hMem _).mpr rfl, fun other hOther => ((hWhere row hMem _).mp hOther).symm⟩
  · rintro tenantId eligible rfl
    have hRows : ∀ row : PromotionRow, (decide (row.tenantId = tenantId) && decide (row.promotion.method = .automatic)
        && row.promotion.botEligible && !row.promotion.manuallyEnded &&
          row.promotion.startDate.all (· ≤ now) && row.promotion.endDate.all (now ≤ ·)) =
        (decide (row.tenantId = tenantId) && decide (row.promotion.method = .automatic) &&
          row.promotion.botEligible && decide (row.promotion.getEffectiveStatus now = .active)) := by
      intro row
      rw [← active_eq]
      simp only [Bool.and_assoc]
    unfold findActiveAutomaticSnapshot
    simp only [hRows, List.take_take, List.length_take]
    congr 2
    rw [eq_iff_iff]
    omega

/-! ### A promotion that is not for the bot -/

namespace StatusFilters

def discounted : List Request := [.create "t1" "p1" (StoredRules.discount 0) 5]

def inForce : PromotionFindAllQuery where
  page := 1
  limit := 20
  type := none
  status := some .active
  method := none
  customerScope := none
  botEligible := false
  search := none

end StatusFilters

/-- An automatic promotion in force that the snapshot does not show. -/
theorem snapshot_leaves_out :
    (StoredRules.left StatusFilters.discounted).map (fun row =>
      (row.promotion.method, row.promotion.getEffectiveStatus 6)) = [(.automatic, .active)] ∧
    findActiveAutomaticSnapshot "t1" 6 (StoredRules.after StatusFilters.discounted) =
      ([], true) := by
  decide +kernel

/-- A promotion that was ended, activated and renamed is listed as active. -/
theorem status_filters_inTime : (findAll (fun _ _ => true) id "t1" StatusFilters.inForce 10
    (StoredRules.after StoredRules.inTime)).2 = 1 := by
  have hActivates : ActivatesLater (StoredRules.after (StoredRules.inTime.take 2))
      (.activatePromotion "t1" "p1" 8) := by
    show ∀ row ∈ (StoredRules.after (StoredRules.inTime.take 2)).findPromotion "t1" "p1",
      row.promotion.ActivatedLater 8
    decide +kernel
  have hAll := (status_filters (fun _ => 0) (fun _ _ => true) id StoredRules.tables
    StoredRules.inTime 10 rfl ⟨trivial, trivial, hActivates, trivial, trivial⟩
    (by decide)).1 "t1" StatusFilters.inForce .active rfl
  rw [StoredRules.after, hAll]
  decide +kernel

end Houndfe.Promotions
