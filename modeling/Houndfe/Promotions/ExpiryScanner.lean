import Houndfe.Base.Rotation
import Houndfe.Promotions.ExpiryAlerts
import Mathlib.Data.String.Basic

/-! The expiry scanner: a tick reads one page of the due promotions after its cursor and claims
every one of them, a claim that fails aside, and its cursor rotates over the due set. -/

namespace Houndfe.Promotions

open Transactions Transition

/-! ### One scan -/

/-- The predicate of the candidate query. -/
def DueRow (now : Int) (row : PromotionRow) : Prop :=
  row.promotion.manuallyEnded = false ∧
    (∃ endDate ∈ row.promotion.endDate, now < endDate ∧ endDate ≤ now + alertWindowMs) ∧
    ∀ startDate ∈ row.promotion.startDate, startDate ≤ now

instance (now : Int) : DecidablePred (DueRow now) := fun _ =>
  inferInstanceAs (Decidable (_ ∧ _ ∧ _))

/-- A due promotion with the end date that makes it due. -/
structure DueEntry where
  claim : ExpiryAlertClaim
  endDate : Int
  deriving DecidableEq, Repr

def DueEntry.promotionId (entry : DueEntry) : String :=
  entry.claim.promotionId

def PromotionRow.dueEntry (row : PromotionRow) : DueEntry :=
  ⟨⟨row.tenantId, row.promotion.id⟩, row.promotion.endDate.getD 0⟩

/-- The due promotions in the order of their ids. -/
def Tables.dueEntries (tables : Tables) : List DueEntry :=
  Keyed.sortByKey DueEntry.promotionId
    ((tables.promotions.rows.filter (DueRow tables.clock ·)).map PromotionRow.dueEntry)

def readBatch (batchSize : Nat) (cursorId : Option String) (tables : Tables) :
    List ExpiryAlertClaim :=
  (Rotation.page DueEntry.promotionId batchSize tables.dueEntries cursorId).map (·.claim)

structure PromotionExpiryScanSummary where
  scanned : Nat
  claimed : Nat
  alreadyAlerted : Nat
  notEligible : Nat
  failures : Nat
  deriving DecidableEq, Repr

def emptySummary : PromotionExpiryScanSummary :=
  ⟨0, 0, 0, 0, 0⟩

/-- What the claims of one scan meet: which of them fail, and how long each of them waits. -/
structure Circumstances where
  fails : ExpiryAlertClaim → Bool
  delay : ExpiryAlertClaim → Nat

def elapse (ms : Nat) (tables : Tables) : Tables :=
  { tables with clock := tables.clock + ms }

/-- A claim that throws is counted, and the batch goes on. -/
def claimCandidate (circumstances : Circumstances)
    (state : Tables × PromotionExpiryScanSummary) (claim : ExpiryAlertClaim) :
    Tables × PromotionExpiryScanSummary :=
  let (tables, summary) := state
  let tables := elapse (circumstances.delay claim) tables
  let failed := (tables, { summary with failures := summary.failures + 1 })
  if circumstances.fails claim then failed
  else match serve (claimExpiryAlert claim) tables with
    | .error _ => failed
    | .ok (after, .claimed _) => (after, { summary with claimed := summary.claimed + 1 })
    | .ok (after, .alreadyAlerted _) =>
        (after, { summary with alreadyAlerted := summary.alreadyAlerted + 1 })
    | .ok (after, _) => (after, { summary with notEligible := summary.notEligible + 1 })

/-- The scanner's cursor, and the tables that it works on. -/
structure ScannerState where
  cursorId : Option String
  tables : Tables

def scan (batchSize : Nat) (circumstances : Circumstances) (state : ScannerState) :
    ScannerState × PromotionExpiryScanSummary :=
  let candidates := readBatch batchSize state.cursorId state.tables
  if candidates = [] then (⟨none, state.tables⟩, emptySummary)
  else
    let (tables, summary) := candidates.foldl (claimCandidate circumstances)
      (state.tables, { emptySummary with scanned := candidates.length })
    (⟨Rotation.nextCursor ExpiryAlertClaim.promotionId batchSize candidates, tables⟩, summary)

/-! ### The due set -/

section

variable {tables : Tables} {entry : DueEntry} {row : PromotionRow} {now first last : Int}
  {endDate : Int}

theorem dueRow_iff : DueRow now row ↔ ∃ endDate, row.promotion.endDate = some endDate ∧
    evaluateEligibility row.promotion now = .ok endDate := by
  unfold DueRow evaluateEligibility
  cases hEnded : row.promotion.manuallyEnded with
  | true => simp
  | false =>
      by_cases hStart : ∃ start ∈ row.promotion.startDate, now < start
      · obtain ⟨start, hMem, hLate⟩ := hStart
        simp only [Bool.false_eq_true, if_false, true_and]
        rw [if_pos ⟨start, hMem, hLate⟩]
        constructor
        · exact fun h => absurd (h.2 start hMem) (by omega)
        · rintro ⟨endDate, _, h⟩
          cases h
      · simp only [Bool.false_eq_true, if_false, true_and]
        rw [if_neg hStart]
        have hStarted : ∀ startDate ∈ row.promotion.startDate, startDate ≤ now := by
          intro startDate hMem
          by_contra hLate
          exact hStart ⟨startDate, hMem, by omega⟩
        cases hEnd : row.promotion.endDate with
        | none => simp
        | some endDate =>
            simp only [Option.mem_def, Option.some.injEq, exists_eq_left']
            by_cases hPast : endDate ≤ now
            · rw [if_pos hPast]
              simp [hPast]
            · by_cases hFar : now + alertWindowMs < endDate
              · rw [if_neg hPast, if_pos hFar]
                simp [hFar]
              · rw [if_neg hPast, if_neg hFar]
                exact iff_of_true ⟨⟨by omega, by omega⟩, hStarted⟩ rfl

/-- A promotion that is due at two instants is due at every instant between them. -/
theorem eligible_between (hFirst : DueRow first row) (hLast : DueRow last row)
    (hLow : first ≤ now) (hHigh : now ≤ last) : DueRow now row := by
  obtain ⟨hEnded, ⟨endDate, hEnd, _, hNear⟩, hStarted⟩ := hFirst
  obtain ⟨_, ⟨other, hOther, hFuture, _⟩, _⟩ := hLast
  have hSame : endDate = other := Option.some.inj (hEnd.symm.trans hOther)
  refine ⟨hEnded, ⟨endDate, hEnd, by omega, by omega⟩, ?_⟩
  intro startDate hStart
  exact (hStarted startDate hStart).trans hLow

theorem mem_dueEntries : entry ∈ tables.dueEntries ↔
    ∃ row ∈ tables.promotions.rows, DueRow tables.clock row ∧ row.dueEntry = entry := by
  rw [Tables.dueEntries, (Keyed.sortByKey_perm _ _).mem_iff, List.mem_map]
  simp [and_assoc]

/-- What a due entry stands for. -/
theorem exists_row_of_due (h : entry ∈ tables.dueEntries) : ∃ row, DueRow tables.clock row ∧
    row.promotion.endDate = some entry.endDate ∧
      tables.findPromotion entry.claim.tenantId entry.claim.promotionId = some row := by
  obtain ⟨row, hRow, hDue, rfl⟩ := mem_dueEntries.mp h
  obtain ⟨endDate, hEnd, _⟩ := dueRow_iff.mp hDue
  refine ⟨row, hDue, by simp [PromotionRow.dueEntry, hEnd], ?_⟩
  exact findPromotion_eq_some.mpr ⟨Keyed.Rows.find_of_mem hRow, rfl⟩

theorem sorted_dueEntries (tables : Tables) :
    (tables.dueEntries.map DueEntry.promotionId).Pairwise (· < ·) := by
  have hTotal : Std.Total fun a b : DueEntry => a.promotionId ≤ b.promotionId :=
    ⟨fun a b => le_total _ _⟩
  have hTrans : IsTrans DueEntry fun a b => a.promotionId ≤ b.promotionId :=
    ⟨fun a b c => le_trans⟩
  have hSorted : tables.dueEntries.Pairwise fun a b => a.promotionId ≤ b.promotionId :=
    List.pairwise_insertionSort _ _
  have hNodup : (tables.dueEntries.map DueEntry.promotionId).Nodup := by
    rw [Tables.dueEntries, ((Keyed.sortByKey_perm _ _).map DueEntry.promotionId).nodup_iff,
      List.map_map]
    exact (tables.promotions.distinct.sublist (List.filter_sublist.map _))
  rw [List.pairwise_map]
  have hStrict := hSorted.and (List.pairwise_map.mp hNodup)
  exact hStrict.imp fun ⟨hLe, hNe⟩ => lt_of_le_of_ne hLe hNe

end

/-! ### One claim -/

/-- The alert of the entry is out. -/
def Alerted (entry : DueEntry) (tables : Tables) : Prop :=
  entry.claim.key entry.endDate ∈ tables.outbox.map (·.key)

/-- The claim names a tenant and a promotion, so that it is not refused. -/
def ExpiryAlertClaim.Valid (claim : ExpiryAlertClaim) : Prop :=
  claim.tenantId ≠ "" ∧ claim.promotionId ≠ ""

section

variable {tables after : Tables} {entry : DueEntry} {claim : ExpiryAlertClaim} {row : PromotionRow}
  {endDate : Int} {outcome : Outcome} {request : Request}

theorem serve_claimExpiryAlert (hValid : claim.Valid)
    (hRow : tables.findPromotion claim.tenantId claim.promotionId = some row)
    (hEligible : evaluateEligibility row.promotion tables.clock = .ok endDate) :
    serve (claimExpiryAlert claim) tables = .ok (
      if armed (claim.key endDate) (seed (claim.key endDate) tables) then
        (publish (claim.event endDate tables.clock)
          (flip (claim.key endDate) (seed (claim.key endDate) tables)),
          .claimed (claim.key endDate))
      else (seed (claim.key endDate) tables, .alreadyAlerted (claim.key endDate))) := by
  have hOwns : tables.owns claim.tenantId claim.promotionId = true := by
    rw [Tables.owns, hRow, Option.isSome_some]
  have hNames : checked (throwIf (claim.tenantId = "" ∨ claim.promotionId = "")
      (invalidArgumentWithCode
        "Promotion expiry alert claims require a non-empty tenantId and promotionId"
        "PROMOTION_EXPIRY_ALERT_CLAIM_INVALID")) = .ok () := by
    rw [throwIf, if_neg (by simp [hValid.1, hValid.2])]
    rfl
  unfold claimExpiryAlert lockPromotion
  rw [serve_check, hNames]
  show serve (Tx.lockRow _ _ >>= _) tables = _
  rw [serve_lockRow, hOwns, serve_query]
  simp only [if_true, hRow]
  rw [serve_query]
  simp only [hEligible]
  rw [serve_query]
  by_cases hArmed : armed (claim.key endDate) (seed (claim.key endDate) tables) = true
  · rw [if_pos hArmed]
    unfold ExpiryAlertClaim.key at hArmed
    rw [if_pos hArmed]
    rfl
  · rw [if_neg hArmed]
    unfold ExpiryAlertClaim.key at hArmed
    rw [if_neg hArmed]
    rfl

/-- With the gate shut the alert is out already. -/
theorem alerted_of_not_armed {key : AlertKey} (h : AlertInv tables)
    (hShut : armed key (seed key tables) = false) : key ∈ tables.outbox.map (·.key) := by
  have hNot := mt armed_seed_iff.mpr (Bool.eq_false_iff.mp hShut)
  simp only [not_or, not_forall, not_exists, not_and] at hNot
  obtain ⟨⟨state, hState, hKey⟩, hOn⟩ := hNot
  have hKey := not_not.mp hKey
  exact (h.alerted key).mpr ⟨state, hState, hKey, by simpa using hOn state hState hKey⟩

theorem Alerted.serves (h : Alerted entry tables) (hServes : Serves request tables after outcome) :
    Alerted entry after := by
  rcases outbox_serves hServes with hSame | ⟨_, _, _, _, _, hAdded⟩
  · rw [Alerted, hSame]
    exact h
  · rw [Alerted, hAdded, List.map_append]
    exact List.mem_append_left _ h

/-- What a claim leaves alone. -/
theorem frame_of_claim (hServes : Serves (.claimExpiryAlert claim) tables after outcome) :
    after.promotions = tables.promotions ∧ tables.clock ≤ after.clock := by
  cases hServes with
  | claimed _ _ => exact ⟨seed_promotions, Int.le_of_eq seed_clock.symm⟩
  | alreadyAlerted _ _ => exact ⟨seed_promotions, Int.le_of_eq seed_clock.symm⟩
  | notEligible => exact ⟨rfl, Int.le_refl _⟩
  | ended asked _ _ _ => exact asked.elim
  | activated asked _ _ => exact asked.elim
  | elapsed asked _ _ _ _ => exact asked.elim

/-- A claim of a due promotion, served alone, leaves its alert out. -/
theorem claim_alerts (hInv : AlertInv tables) (hValid : entry.claim.Valid)
    (hRow : tables.findPromotion entry.claim.tenantId entry.claim.promotionId = some row)
    (hEligible : evaluateEligibility row.promotion tables.clock = .ok entry.endDate) :
    ∃ after outcome, serve (claimExpiryAlert entry.claim) tables = .ok (after, outcome) ∧
      Alerted entry after := by
  rw [serve_claimExpiryAlert hValid hRow hEligible]
  by_cases hArmed : armed (entry.claim.key entry.endDate)
      (seed (entry.claim.key entry.endDate) tables) = true
  · rw [if_pos hArmed]
    refine ⟨_, _, rfl, ?_⟩
    simp [Alerted, publish, ExpiryAlertClaim.event]
  · rw [if_neg hArmed]
    refine ⟨_, _, rfl, ?_⟩
    rw [Alerted, seed_outbox]
    exact alerted_of_not_armed hInv (Bool.eq_false_iff.mpr hArmed)

/-! ### The claims of a page -/

variable {circumstances : Circumstances} {claims : List ExpiryAlertClaim}
  {summary : PromotionExpiryScanSummary}

/-- What a page of claims keeps. -/
structure Scans (before after : Tables) : Prop where
  promotions : after.promotions = before.promotions
  clock : before.clock ≤ after.clock
  inv : AlertInv before → AlertInv after
  alerted : ∀ entry, Alerted entry before → Alerted entry after

theorem Scans.refl (tables : Tables) : Scans tables tables :=
  ⟨rfl, Int.le_refl _, id, fun _ => id⟩

theorem Scans.trans {a b c : Tables} (h : Scans a b) (h' : Scans b c) : Scans a c where
  promotions := h'.promotions.trans h.promotions
  clock := Int.le_trans h.clock h'.clock
  inv := h'.inv ∘ h.inv
  alerted entry := h'.alerted entry ∘ h.alerted entry

theorem scans_elapse (ms : Nat) (tables : Tables) : Scans tables (elapse ms tables) where
  promotions := rfl
  clock := Int.le_add_of_nonneg_right (Int.natCast_nonneg ms)
  inv h := h.of_same rfl rfl
  alerted _ h := h

theorem serves_of_serve_claim
    (h : serve (claimExpiryAlert claim) tables = .ok (after, outcome)) :
    Serves (.claimExpiryAlert claim) tables after outcome :=
  Service.serves_of_serve (promotionService_keeps (fun _ => 0) (.claimExpiryAlert claim)) trivial h

theorem scans_of_serve (h : serve (claimExpiryAlert claim) tables = .ok (after, outcome)) :
    Scans tables after := by
  have hServes := serves_of_serve_claim h
  obtain ⟨hPromotions, hClock⟩ := frame_of_claim hServes
  exact ⟨hPromotions, hClock, fun hInv => hInv.serves hServes,
    fun entry hAlerted => hAlerted.serves hServes⟩

/-- The tables after one claim of a page: time has passed, and the claim was served or failed. -/
theorem claimCandidate_fst : (claimCandidate circumstances (tables, summary) claim).1 =
    elapse (circumstances.delay claim) tables ∨ ∃ outcome,
      serve (claimExpiryAlert claim) (elapse (circumstances.delay claim) tables) =
        .ok ((claimCandidate circumstances (tables, summary) claim).1, outcome) := by
  unfold claimCandidate
  simp only
  split
  · exact Or.inl rfl
  · split
    · exact Or.inl rfl
    · next after key hServe => exact Or.inr ⟨_, hServe⟩
    · next after key hServe => exact Or.inr ⟨_, hServe⟩
    · next after outcome _ _ hServe => exact Or.inr ⟨_, hServe⟩

theorem scans_claimCandidate (state : Tables × PromotionExpiryScanSummary)
    (claim : ExpiryAlertClaim) :
    Scans state.1 (claimCandidate circumstances state claim).1 := by
  obtain ⟨tables, summary⟩ := state
  have hTime := scans_elapse (circumstances.delay claim) tables
  have hCases : (claimCandidate circumstances (tables, summary) claim).1 =
      elapse (circumstances.delay claim) tables ∨ _ := claimCandidate_fst
  rcases hCases with hFailed | ⟨outcome, hServe⟩
  · exact hFailed ▸ hTime
  · exact hTime.trans (scans_of_serve hServe)

theorem scans_foldl (state : Tables × PromotionExpiryScanSummary) :
    Scans state.1 (claims.foldl (claimCandidate circumstances) state).1 := by
  induction claims generalizing state with
  | nil => exact Scans.refl _
  | cons claim rest ih => exact (scans_claimCandidate state claim).trans (ih _)

/-- A claim that does not fail leaves the alert out, when its promotion is due by then. -/
theorem claimCandidate_alerts {state : Tables × PromotionExpiryScanSummary}
    (hInv : AlertInv state.1) (hFails : circumstances.fails entry.claim = false)
    (hValid : entry.claim.Valid)
    (hRow : state.1.findPromotion entry.claim.tenantId entry.claim.promotionId = some row)
    (hEligible : evaluateEligibility row.promotion
      (state.1.clock + circumstances.delay entry.claim) = .ok entry.endDate) :
    Alerted entry (claimCandidate circumstances state entry.claim).1 := by
  obtain ⟨tables, summary⟩ := state
  have hLater : AlertInv (elapse (circumstances.delay entry.claim) tables) :=
    (scans_elapse _ _).inv hInv
  obtain ⟨after, outcome, hServe, hAlerted⟩ := claim_alerts hLater hValid hRow hEligible
  unfold claimCandidate
  simp only [hFails, hServe, Bool.false_eq_true, if_false]
  cases outcome <;> exact hAlerted

theorem delay_le_clock (state : Tables × PromotionExpiryScanSummary) (claim : ExpiryAlertClaim) :
    state.1.clock + circumstances.delay claim ≤
      (claimCandidate circumstances state claim).1.clock := by
  obtain ⟨tables, summary⟩ := state
  have hCases : (claimCandidate circumstances (tables, summary) claim).1 =
      elapse (circumstances.delay claim) tables ∨ _ := claimCandidate_fst
  rcases hCases with hFailed | ⟨outcome, hServe⟩
  · rw [hFailed]
    exact Int.le_refl _
  · exact (scans_of_serve hServe).clock

/-- Every entry of a page whose claim does not fail has its alert out at the end of the page, when
its promotion is due from the first claim to the last. -/
theorem foldl_alerts {state : Tables × PromotionExpiryScanSummary} (hInv : AlertInv state.1)
    (hMem : entry.claim ∈ claims) (hFails : circumstances.fails entry.claim = false)
    (hValid : entry.claim.Valid)
    (hRow : state.1.findPromotion entry.claim.tenantId entry.claim.promotionId = some row)
    (hEligible : ∀ now, state.1.clock ≤ now →
      now ≤ (claims.foldl (claimCandidate circumstances) state).1.clock →
        evaluateEligibility row.promotion now = .ok entry.endDate) :
    Alerted entry (claims.foldl (claimCandidate circumstances) state).1 := by
  induction claims generalizing state with
  | nil => cases hMem
  | cons claim rest ih =>
      rw [List.foldl_cons] at hEligible ⊢
      have hFirst : Scans state.1 (claimCandidate circumstances state claim).1 :=
        scans_claimCandidate state claim
      have hRest : Scans (claimCandidate circumstances state claim).1 (rest.foldl
          (claimCandidate circumstances) (claimCandidate circumstances state claim)).1 :=
        scans_foldl _
      by_cases hHead : entry.claim = claim
      · subst hHead
        apply hRest.alerted
        apply claimCandidate_alerts hInv hFails hValid hRow
        apply hEligible
        · exact Int.le_add_of_nonneg_right (Int.natCast_nonneg _)
        · exact (delay_le_clock state entry.claim).trans hRest.clock
      · have hIn : entry.claim ∈ rest := (List.mem_cons.mp hMem).resolve_left hHead
        refine ih (hFirst.inv hInv) hIn ?_ ?_
        · rw [Tables.findPromotion, hFirst.promotions]
          exact hRow
        · exact fun now hLow hHigh => hEligible now (hFirst.clock.trans hLow) hHigh

/-! ### Consecutive scans -/

variable {batchSize : Nat} {state later : ScannerState} {entries : List DueEntry}

theorem scan_tables : (scan batchSize circumstances state).1.tables =
    ((readBatch batchSize state.cursorId state.tables).foldl (claimCandidate circumstances)
      (state.tables, { emptySummary with
        scanned := (readBatch batchSize state.cursorId state.tables).length })).1 := by
  unfold scan
  simp only
  split
  · next hEmpty => rw [hEmpty, List.foldl_nil]
  · rfl

theorem scan_cursor (hSize : 0 < batchSize) : (scan batchSize circumstances state).1.cursorId =
    Rotation.nextCursor DueEntry.promotionId batchSize
      (Rotation.page DueEntry.promotionId batchSize state.tables.dueEntries state.cursorId) := by
  have hMap : ∀ page : List DueEntry,
      Rotation.nextCursor ExpiryAlertClaim.promotionId batchSize (page.map (·.claim)) =
        Rotation.nextCursor DueEntry.promotionId batchSize page := by
    intro page
    rw [Rotation.nextCursor, Rotation.nextCursor, List.length_map, List.getLast?_map,
      Option.map_map]
    rfl
  unfold scan
  simp only
  split
  · next hEmpty =>
      rw [readBatch, List.map_eq_nil_iff] at hEmpty
      rw [hEmpty, Rotation.nextCursor, if_pos (by simpa using hSize)]
  · exact hMap _

theorem scans_scan (batchSize : Nat) (circumstances : Circumstances) (state : ScannerState) :
    Scans state.tables (scan batchSize circumstances state).1.tables := by
  rw [scan_tables]
  exact scans_foldl (state.tables, _)

/-- A scan alerts every entry of its page whose claim does not fail, when the due set is the same
before and after it. -/
theorem scan_alerts (hInv : AlertInv state.tables) (hBefore : state.tables.dueEntries = entries)
    (hAfter : (scan batchSize circumstances state).1.tables.dueEntries = entries)
    (hPage : entry ∈ Rotation.page DueEntry.promotionId batchSize entries state.cursorId)
    (hFails : circumstances.fails entry.claim = false) (hValid : entry.claim.Valid) :
    Alerted entry (scan batchSize circumstances state).1.tables := by
  have hEntry : entry ∈ entries := by
    rw [Rotation.page] at hPage
    have hRemaining := List.mem_of_mem_take hPage
    cases hCursor : state.cursorId with
    | none => simpa [hCursor, Rotation.remaining] using hRemaining
    | some cursor =>
        rw [hCursor, Rotation.remaining] at hRemaining
        exact (List.mem_filter.mp hRemaining).1
  obtain ⟨row, hDue, hEnd, hRow⟩ := exists_row_of_due (hBefore ▸ hEntry)
  obtain ⟨row', hDue', _, hRow'⟩ := exists_row_of_due (hAfter ▸ hEntry)
  have hScans := scans_scan batchSize circumstances state
  have hSame : row' = row := by
    rw [Tables.findPromotion, hScans.promotions] at hRow'
    rw [Tables.findPromotion, hRow'] at hRow
    exact Option.some.inj hRow
  subst hSame
  rw [scan_tables] at hDue' ⊢
  apply foldl_alerts hInv _ hFails hValid hRow
  · intro now hLow hHigh
    obtain ⟨endDate, hEndDate, hEligible⟩ :=
      dueRow_iff.mp (eligible_between hDue hDue' hLow hHigh)
    rw [hEnd, Option.some.injEq] at hEndDate
    exact hEndDate ▸ hEligible
  · rw [readBatch, hBefore]
    exact List.mem_map_of_mem hPage

end

/-- A scan of the scanner, or a request of anybody else between two of them. -/
inductive ScanLabel where
  | scan (circumstances : Circumstances)
  | other (request : Request)

/-- The due set stays what it is. -/
inductive ScanStep (zoneOffset : ZoneOffset) (batchSize : Nat) (entries : List DueEntry) :
    ScannerState → ScanLabel → ScannerState → Prop where
  | scan {state : ScannerState} {circumstances : Circumstances}
      (before : state.tables.dueEntries = entries)
      (after : (scan batchSize circumstances state).1.tables.dueEntries = entries) :
      ScanStep zoneOffset batchSize entries state (.scan circumstances)
        (scan batchSize circumstances state).1
  | other {state : ScannerState} {request : Request} {tables : Tables} {outcome : Outcome}
      (served : serve (request.body zoneOffset) state.tables = .ok (tables, outcome)) :
      ScanStep zoneOffset batchSize entries state (.other request) ⟨state.cursorId, tables⟩

/-- The scans of a run. -/
def scansOf : List ScanLabel → List Circumstances
  | [] => []
  | .scan circumstances :: rest => circumstances :: scansOf rest
  | .other _ :: rest => scansOf rest

theorem scansOf_append (first second : List ScanLabel) :
    scansOf (first ++ second) = scansOf first ++ scansOf second := by
  induction first with
  | nil => rfl
  | cons label rest ih => cases label <;> simp [scansOf, ih]

section

variable {zoneOffset : ZoneOffset} {batchSize : Nat} {entries : List DueEntry}
  {state later : ScannerState} {labels : List ScanLabel} {entry : DueEntry}

/-- The pages of the scans so far are alerted, but for the claims that failed. -/
structure Covered (batchSize : Nat) (entries : List DueEntry) (start : ScannerState)
    (scans : List Circumstances) (state : ScannerState) : Prop where
  inv : AlertInv state.tables
  sorted : scans ≠ [] → (entries.map DueEntry.promotionId).Pairwise (· < ·)
  cursor : state.cursorId =
    Rotation.cursorAfter DueEntry.promotionId batchSize entries scans.length start.cursorId
  alerted : ∀ pages < scans.length, ∀ entry ∈ Rotation.page DueEntry.promotionId batchSize entries
    (Rotation.cursorAfter DueEntry.promotionId batchSize entries pages start.cursorId),
      (∀ circumstances ∈ scans, circumstances.fails entry.claim = false) → entry.claim.Valid →
        Alerted entry state.tables

theorem covered_of_runs (hSize : 0 < batchSize) (hInv : AlertInv state.tables)
    (run : Runs (ScanStep zoneOffset batchSize entries) state labels later) :
    Covered batchSize entries state (scansOf labels) later := by
  induction run with
  | zero => exact ⟨hInv, fun h => absurd rfl h, rfl, fun _ h => absurd h (Nat.not_lt_zero _)⟩
  | @succ middle final labels label prior last ih =>
      rw [scansOf_append]
      cases last with
      | @scan circumstances before after =>
          have hScans := scans_scan batchSize circumstances middle
          have hLength : (scansOf labels ++ scansOf [.scan circumstances]).length =
              (scansOf labels).length + 1 := by simp [scansOf]
          refine ⟨hScans.inv ih.inv, fun _ => before ▸ sorted_dueEntries _, ?_, ?_⟩
          · rw [scan_cursor hSize, before, hLength, ih.cursor, Rotation.cursorAfter_succ]
          · intro pages hPages entry hEntry hFails hValid
            rw [hLength] at hPages
            have hEarlier : ∀ circumstances ∈ scansOf labels,
                circumstances.fails entry.claim = false :=
              fun other hOther => hFails other (List.mem_append_left _ hOther)
            rcases Nat.lt_succ_iff_lt_or_eq.mp hPages with hOld | rfl
            · exact hScans.alerted entry (ih.alerted pages hOld entry hEntry hEarlier hValid)
            · rw [← ih.cursor] at hEntry
              exact scan_alerts ih.inv before after hEntry
                (hFails circumstances (by simp [scansOf])) hValid
      | @other request tables outcome served =>
          have hServes : Serves request middle.tables tables outcome :=
            Service.serves_of_serve (promotionService_keeps zoneOffset request) trivial served
          have hSame : scansOf labels ++ scansOf [.other request] = scansOf labels := by
            simp [scansOf]
          rw [hSame]
          refine ⟨ih.inv.serves hServes, ih.sorted, ih.cursor, ?_⟩
          intro pages hPages entry hEntry hFails hValid
          exact (ih.alerted pages hPages entry hEntry hFails hValid).serves hServes

/-- Nobody starves: after one scan more than the due set has pages, every entry whose claim never
failed has its alert. -/
theorem alerted_of_runs (hSize : 0 < batchSize) (hInv : AlertInv state.tables)
    (run : Runs (ScanStep zoneOffset batchSize entries) state labels later)
    (hScans : (entries.length + batchSize - 1) / batchSize + 1 ≤ (scansOf labels).length)
    (hEntry : entry ∈ entries) (hValid : entry.claim.Valid)
    (hFails : ∀ circumstances ∈ scansOf labels, circumstances.fails entry.claim = false) :
    Alerted entry later.tables := by
  have hCovered := covered_of_runs hSize hInv run
  have hSome : 0 < (scansOf labels).length := Nat.lt_of_lt_of_le (Nat.succ_pos _) hScans
  have hSorted := hCovered.sorted (List.length_pos_iff.mp hSome)
  obtain ⟨pages, hPages, hPage⟩ := Rotation.exists_mem_page hSize hSorted state.cursorId hEntry
  have hPositive : 0 < entries.length := List.length_pos_of_mem hEntry
  have hCeil : (entries.length + batchSize - 1) / batchSize = (entries.length - 1) / batchSize + 1 := by
    rw [← Nat.add_div_right _ hSize]
    congr 1
    omega
  exact hCovered.alerted pages (by omega) entry hPage hFails hValid

end

/-! ### The claim of both -/

/-- Every alert goes out once, from a promotion that was due when it was checked, and no due
promotion waits longer than one scan more than the due set has pages. -/
structure ExpiryAlertsHold {Tid : Type} [DecidableEq Tid] (zoneOffset : ZoneOffset) (start : Tables)
    (events : List (Event Tid Lock Tables Failure Outcome))
    (system : System Tid Lock Tables Failure Outcome) : Prop where
  once : (system.tables.outbox.map fun event =>
    (event.key.promotionId, event.endDate)).Nodup
  origin : ∀ event ∈ system.tables.outbox, Origin zoneOffset start events system event
  nobodyStarves : ∀ (batchSize : Nat) (cursorId : Option String) (entries : List DueEntry)
    (labels : List ScanLabel) (later : ScannerState), 0 < batchSize →
    Runs (ScanStep zoneOffset batchSize entries) ⟨cursorId, system.tables⟩ labels later →
    (entries.length + batchSize - 1) / batchSize + 1 ≤ (scansOf labels).length →
    ∀ entry ∈ entries, entry.claim.Valid →
      (∀ circumstances ∈ scansOf labels, circumstances.fails entry.claim = false) →
        Alerted entry later.tables

theorem expiryAlerts_hold {Tid : Type} [DecidableEq Tid] {zoneOffset : ZoneOffset} {start : Tables}
    {events : List (Event Tid Lock Tables Failure Outcome)}
    {system : System Tid Lock Tables Failure Outcome} (hQuiet : Quiet start)
    (run : Runs (Step (promotionService zoneOffset).Body) (System.idle start) events system) :
    ExpiryAlertsHold zoneOffset start events system := by
  have hInv : AlertInv system.tables :=
    holds_of_runs (fun _ _ _ _ h hServes => h.serves hServes) hQuiet.alertInv run
  have hOwned : Owned system.tables := by
    apply holds_of_runs (fun _ _ _ _ h hServes => h.serves hServes) _ run
    intro event hEvent
    rw [hQuiet.outbox] at hEvent
    cases hEvent
  have hOrigin : ∀ event ∈ system.tables.outbox, Origin zoneOffset start events system event :=
    fun event hEvent => origin_of_runs hQuiet run hEvent
  refine ⟨?_, hOrigin, ?_⟩
  · have hDates : ∀ event ∈ system.tables.outbox, event.endDate = event.key.endDateFingerprint := by
      intro event hEvent
      obtain ⟨_, _, _, _, _, _, claim, endDate, readAt, _, _, _, _, _, rfl⟩ :=
        (hOrigin event hEvent).commit
      rfl
    refine List.Nodup.map_on ?_ (List.Nodup.of_map _ hInv.events)
    intro event hEvent other hOther hSame
    obtain ⟨hPromotion, hEnd⟩ := Prod.mk.inj hSame
    apply List.inj_on_of_nodup_map hInv.events hEvent hOther
    obtain ⟨row, hRow, hTenant⟩ := owns_iff.mp (hOwned event hEvent)
    obtain ⟨row', hRow', hTenant'⟩ := owns_iff.mp (hOwned other hOther)
    rw [hPromotion, hRow', Option.some.injEq] at hRow
    subst hRow
    rw [AlertKey.ext_iff]
    exact ⟨hTenant.symm.trans hTenant', hPromotion,
      (hDates event hEvent).symm.trans (hEnd.trans (hDates other hOther))⟩
  · intro batchSize cursorId entries labels later hSize hRun hScans entry hEntry hValid hFails
    exact alerted_of_runs hSize hInv hRun hScans hEntry hValid hFails

/-! ### A claim -/

namespace ExpiryScanner

def promotion : Promotion where
  botEligible := false
  id := "p1"
  title := "Promo"
  type := .orderDiscount
  method := .automatic
  manuallyEnded := false
  startDate := none
  endDate := some 1000
  customerScope := .all
  discountType := some .percentage
  discountValue := some 10
  minPurchaseAmountCents := none
  appliesTo := none
  buyQuantity := none
  getQuantity := none
  getDiscountPercent := none
  buyTargetType := none
  getTargetType := none
  maxProductUnits := none
  consumedProductUnits := 0
  targetItems := []
  customers := []
  priceLists := []
  daysOfWeek := []

def tables : Tables where
  catalog _ := ⟨[], [], [], [], [], []⟩
  promotions := ⟨[⟨"t1", promotion, .active⟩], by decide⟩
  alertStates := []
  outbox := []
  clock := 0

/-- Two claims of one promotion, the second of which waits for the lock of the first. -/
def twice : List (Move Bool Request) :=
  let claim : Request := .claimExpiryAlert ⟨"t1", "p1"⟩
  .start false claim :: .advance false :: .start true claim ::
    List.replicate 4 (.advance false) ++ List.replicate 5 (.advance true)

def key : AlertKey :=
  ⟨"t1", "p1", "1970-01-01T00:00:01.000Z"⟩

theorem played_twice : (playRequests tables twice).map Prod.fst =
    some [.claimed key, .alreadyAlerted key] := by
  decide +kernel

end ExpiryScanner

theorem expiryAlerts_hold_twice : ∃ (events : List (Event Bool Lock Tables Failure Outcome))
    (last : System Bool Lock Tables Failure Outcome),
    Runs (Step (promotionService fun _ => 0).Body) (System.idle ExpiryScanner.tables) events last ∧
    answers events = [.claimed ExpiryScanner.key, .alreadyAlerted ExpiryScanner.key] ∧
    ExpiryAlertsHold (fun _ => 0) ExpiryScanner.tables events last := by
  obtain ⟨⟨told, after⟩, hPlayed, hTold⟩ := Option.map_eq_some_iff.mp ExpiryScanner.played_twice
  obtain ⟨events, last, run, hAnswers, _⟩ := runs_of_playRequests hPlayed
  exact ⟨events, last, run, hAnswers.trans hTold, expiryAlerts_hold ⟨rfl, rfl⟩ run⟩

end Houndfe.Promotions
