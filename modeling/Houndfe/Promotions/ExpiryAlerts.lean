import Houndfe.Promotions.PromotionCommits

/-! The expiry alerts of every interleaving of claims with the other requests: an alert goes out at
most once for a promotion and an end date, and only for a promotion that was eligible at the
instant read under the lock of its row. -/

namespace Houndfe.Promotions

open Transactions Transition

/-- The tables before the first alert. -/
structure Quiet (tables : Tables) : Prop where
  alertStates : tables.alertStates = []
  outbox : tables.outbox = []

theorem Quiet.alertInv {tables : Tables} (h : Quiet tables) : AlertInv tables := by
  constructor <;> simp [h.alertStates, h.outbox]

/-- Every promotion with an alert is there, with the tenant that was alerted. -/
def Owned (tables : Tables) : Prop :=
  ∀ event ∈ tables.outbox, tables.owns event.key.tenantId event.key.promotionId = true

section

variable {tenantId id other : String} {row : PromotionRow} {before after : Tables}
  {request : Request} {outcome : Outcome}

theorem owns_iff {tables : Tables} : tables.owns tenantId id = true ↔
    ∃ row, tables.promotions.find id = some row ∧ row.tenantId = tenantId := by
  simp [Tables.owns, Option.isSome_iff_exists, findPromotion_eq_some]

theorem owns_saved (h : before.owns tenantId id = true)
    (hWrite : overwrite row before = .ok after ∨ insert row before = .ok after) :
    after.owns tenantId id = true := by
  obtain ⟨stored, hStored, hTenant⟩ := owns_iff.mp h
  rw [owns_iff]
  rcases hWrite with hOverwrite | hInsert
  · obtain ⟨found, hOverwrites⟩ := overwrite_eq_ok hOverwrite
    rw [hOverwrites.find]
    split
    · next hSame =>
        have hFound := (findPromotion_eq_some.mp hOverwrites.found).1
        rw [← hSame, hStored, Option.some.injEq] at hFound
        exact ⟨_, rfl, hFound ▸ hTenant⟩
    · exact ⟨stored, hStored, hTenant⟩
  · exact ⟨stored, (insert_eq_ok hInsert).only.others id stored List.not_mem_nil hStored, hTenant⟩

theorem owns_updateStatuses {writes : StatusWrites} (h : before.owns tenantId id = true)
    (hWrite : updateStatuses other writes before = .ok after) : after.owns tenantId id = true := by
  induction writes generalizing before with
  | nil =>
      cases hWrite
      exact h
  | cons first rest ih =>
      obtain ⟨middle, hFirst, hRest⟩ := bind_eq_ok.mp hWrite
      apply ih _ hRest
      obtain ⟨stored, hStored, hTenant⟩ := owns_iff.mp h
      rw [owns_iff, find_updateStatus hFirst]
      split
      · exact ⟨stored.withStatus first.2, by rw [hStored, Option.map_some], hTenant⟩
      · exact ⟨stored, hStored, hTenant⟩

/-- A promotion never changes hands. -/
theorem owns_serves (h : before.owns tenantId id = true)
    (hServes : Serves request before after outcome) : after.owns tenantId id = true := by
  cases hServes with
  | created _ write => exact owns_saved h write
  | updated _ _ write => exact owns_saved h write
  | ended _ _ _ write => exact owns_updateStatuses h write
  | activated _ _ write => exact owns_updateStatuses h write
  | claimed _ _ =>
      show (seed _ before).owns tenantId id = true
      rw [Tables.owns, Tables.findPromotion, seed_promotions]
      exact h
  | alreadyAlerted _ _ =>
      rw [Tables.owns, Tables.findPromotion, seed_promotions]
      exact h
  | notEligible => exact h
  | elapsed _ promotions _ _ _ =>
      rw [Tables.owns, Tables.findPromotion, promotions]
      exact h

theorem seed_outbox (key : AlertKey) : (seed key before).outbox = before.outbox := by
  unfold seed
  split <;> rfl

/-- An event that a request adds is that of a claim that was due. -/
theorem outbox_serves (hServes : Serves request before after outcome) :
    after.outbox = before.outbox ∨ ∃ claim endDate readAt, Due claim before endDate readAt ∧
      outcome = .claimed (claim.key endDate) ∧
        after.outbox = before.outbox ++ [claim.event endDate readAt] := by
  cases hServes with
  | created _ write =>
      rcases write with hOverwrite | hInsert
      · obtain ⟨_, hOverwrites⟩ := overwrite_eq_ok hOverwrite
        exact Or.inl hOverwrites.only.outbox
      · exact Or.inl (insert_eq_ok hInsert).only.outbox
  | updated _ _ write =>
      rcases write with hOverwrite | hInsert
      · obtain ⟨_, hOverwrites⟩ := overwrite_eq_ok hOverwrite
        exact Or.inl hOverwrites.only.outbox
      · exact Or.inl (insert_eq_ok hInsert).only.outbox
  | ended _ _ _ write => exact Or.inl (only_updateStatuses write).outbox
  | activated _ _ write => exact Or.inl (only_updateStatuses write).outbox
  | claimed due _ =>
      refine Or.inr ⟨_, _, _, due, rfl, ?_⟩
      show (seed _ before).outbox ++ _ = _
      rw [seed_outbox]
  | alreadyAlerted _ _ => exact Or.inl (seed_outbox _)
  | notEligible => exact Or.inl rfl
  | elapsed _ _ _ outbox _ => exact Or.inl outbox

theorem Owned.serves (h : Owned before) (hServes : Serves request before after outcome) :
    Owned after := by
  intro event hEvent
  rcases outbox_serves hServes with hSame | ⟨claim, endDate, readAt, hDue, _, hAdded⟩
  · exact owns_serves (h event (hSame ▸ hEvent)) hServes
  · rw [hAdded, List.mem_append, List.mem_singleton] at hEvent
    apply owns_serves _ hServes
    rcases hEvent with hOld | rfl
    · exact h event hOld
    · obtain ⟨_, row, hRow, _⟩ := hDue
      exact Option.isSome_iff_exists.mpr ⟨row, hRow⟩

end

/-! ### Runs -/

section

variable {Tid : Type} [DecidableEq Tid] {zoneOffset : ZoneOffset} {tables : Tables}
  {system : System Tid Lock Tables Failure Outcome}
  {events : List (Event Tid Lock Tables Failure Outcome)}

theorem promotionService_any (request : Request) (before after : Tables) (outcome : Outcome)
    (_ : (promotionService zoneOffset).invariant before)
    (_ : (promotionService zoneOffset).serves request before after outcome) :
    (promotionService zoneOffset).invariant after := trivial

theorem promotionService_idle (zoneOffset : ZoneOffset) (tables : Tables) :
    (promotionService zoneOffset).Reached
      (System.idle tables : System Tid Lock Tables Failure Outcome) :=
  Service.reached_idle trivial

theorem holds_of_runs {P : Tables → Prop}
    (hServes : ∀ request before after outcome, P before → Serves request before after outcome →
      P after) (hStart : P tables)
    (run : Runs (Step (promotionService zoneOffset).Body) (System.idle tables) events system) :
    P system.tables := by
  have hGuarded : Runs (Guarded (Step (promotionService zoneOffset).Body) fun _ _ => True)
      (System.idle tables) events system := run.mono fun _ _ _ hStep => ⟨hStep, trivial⟩
  refine (promotionService_idle zoneOffset tables).invariant (promotionService_keeps zoneOffset)
    promotionService_any ?_ hGuarded hStart
  intro _ _ request outcome after _ _ hCommit h
  exact hServes request _ after outcome h hCommit

/-- The commit of a claim that put out the event, in a run that begins with `tables`. -/
structure Origin (zoneOffset : ZoneOffset) (tables : Tables)
    (events : List (Event Tid Lock Tables Failure Outcome))
    (system : System Tid Lock Tables Failure Outcome) (event : ExpiringEvent) : Prop where
  commit : ∃ found next earlier later tid body claim endDate readAt,
    events = earlier ++ .commit tid body (.claimed event.key) :: later ∧
    Runs (Step (promotionService zoneOffset).Body) (System.idle tables) earlier found ∧
    Step (promotionService zoneOffset).Body found (.commit tid body (.claimed event.key)) next ∧
    Runs (Step (promotionService zoneOffset).Body) next later system ∧
    Due claim found.tables endDate readAt ∧ event = claim.event endDate readAt

theorem Origin.succ {event : ExpiringEvent} (h : Origin zoneOffset tables events system event)
    {label : Event Tid Lock Tables Failure Outcome} {after : System Tid Lock Tables Failure Outcome}
    (last : Step (promotionService zoneOffset).Body system label after) :
    Origin zoneOffset tables (events ++ [label]) after event := by
  obtain ⟨found, next, earlier, later, tid, body, claim, endDate, readAt, rfl, hEarlier, hStep,
    hLater, hDue, hEvent⟩ := h.commit
  exact ⟨found, next, earlier, later ++ [label], tid, body, claim, endDate, readAt, by simp,
    hEarlier, hStep, Runs.succ hLater last, hDue, hEvent⟩

/-- Every event has its commit, and what the commit found was due. -/
theorem origin_of_runs (hQuiet : Quiet tables)
    (run : Runs (Step (promotionService zoneOffset).Body) (System.idle tables) events system)
    {event : ExpiringEvent} (hEvent : event ∈ system.tables.outbox) :
    Origin zoneOffset tables events system event := by
  induction run with
  | zero =>
      rw [show (System.idle tables : System Tid Lock Tables Failure Outcome).tables.outbox = [] from
        hQuiet.outbox] at hEvent
      cases hEvent
  | @succ middle final labels label prior last ih =>
      have hReached := ((promotionService_idle zoneOffset tables).runs
        (promotionService_keeps zoneOffset) promotionService_any prior).1
      cases hLast : last with
      | begin idle admitted => exact (ih hEvent).succ last
      | read running => exact (ih hEvent).succ last
      | locked running there free => exact (ih hEvent).succ last
      | missing running absent => exact (ih hEvent).succ last
      | rollback => exact (ih hEvent).succ last
      | @commit _ body ending _ after running written =>
          obtain ⟨request, rfl⟩ := (hReached.flies.each _ _ running).1
          have hServes : Serves request middle.tables after ending.answer :=
            hReached.commit (promotionService_keeps zoneOffset) (Step.commit running written)
          rcases outbox_serves hServes with hSame | ⟨claim, endDate, readAt, hDue, hTold, hAdded⟩
          · exact (ih (hSame ▸ hEvent)).succ last
          · have hOutbox : event ∈ middle.tables.outbox ++ [claim.event endDate readAt] :=
              hAdded ▸ hEvent
            rcases List.mem_append.mp hOutbox with hOld | hNew
            · exact (ih hOld).succ last
            · obtain rfl := List.mem_singleton.mp hNew
              rw [hTold] at last ⊢
              exact ⟨middle, _, labels, [], _, _, claim, endDate, readAt, rfl, prior, last,
                Runs.zero _, hDue, rfl⟩

end

end Houndfe.Promotions
