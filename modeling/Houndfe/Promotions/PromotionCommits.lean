import Houndfe.Promotions.PromotionRepository

/-! What the requests of the promotions commit. A row that was seen under its lock is still so at
the commit, and so are its alerts; whoever does not hold the lock of a row leaves it alone. -/

namespace Houndfe.Promotions

open Transactions

/-! ### The frame of a write -/

/-- Only the promotions of these ids may change, and none of them goes. -/
structure OnlyPromotions (ids : List String) (before after : Tables) : Prop where
  catalog : after.catalog = before.catalog
  alertStates : after.alertStates = before.alertStates
  outbox : after.outbox = before.outbox
  clock : after.clock = before.clock
  others : ∀ id row, id ∉ ids → before.promotions.find id = some row →
    after.promotions.find id = some row

namespace OnlyPromotions

variable {ids more : List String} {a b c : Tables}

theorem refl (ids : List String) (a : Tables) : OnlyPromotions ids a a :=
  ⟨rfl, rfl, rfl, rfl, fun _ _ _ h => h⟩

theorem trans (h : OnlyPromotions ids a b) (h' : OnlyPromotions more b c) :
    OnlyPromotions (ids ++ more) a c where
  catalog := h'.catalog.trans h.catalog
  alertStates := h'.alertStates.trans h.alertStates
  outbox := h'.outbox.trans h.outbox
  clock := h'.clock.trans h.clock
  others := by
    intro id row hId hRow
    rw [List.mem_append, not_or] at hId
    exact h'.others id row hId.2 (h.others id row hId.1 hRow)

end OnlyPromotions

section

variable {tenantId id other : String} {row stored : PromotionRow} {before after : Tables}

theorem checked_eq_ok {α : Type} {x : Except DomainError α} {a : α} :
    checked x = .ok a ↔ x = .ok a := by
  cases x <;> simp [checked, Except.mapError]

theorem findPromotion_eq_some {tables : Tables} : tables.findPromotion tenantId id = some row ↔
    tables.promotions.find id = some row ∧ row.tenantId = tenantId := by
  simp [Tables.findPromotion, Option.filter_eq_some_iff]

theorem id_of_find {tables : Tables} (h : tables.promotions.find id = some row) :
    row.promotion.id = id :=
  (Keyed.Rows.find_eq_some_iff.mp h).2

/-- What `overwrite` does: the row of the tenant is there, takes the new columns, and the cap
holds. -/
structure Overwrites (row stored : PromotionRow) (before after : Tables) : Prop where
  found : before.findPromotion row.tenantId row.promotion.id = some stored
  capped : ∀ cap ∈ row.promotion.maxProductUnits, stored.promotion.consumedProductUnits ≤ cap
  joins : replaceJoins row.promotion = .ok ()
  after_eq : after = { before with
    promotions := before.promotions.modify row.promotion.id (·.overwrite row) row.id_overwrite }

theorem overwrite_eq_ok (h : overwrite row before = .ok after) :
    ∃ stored, Overwrites row stored before after := by
  unfold overwrite at h
  cases hFound : before.findPromotion row.tenantId row.promotion.id with
  | none => simp [hFound] at h
  | some stored =>
      simp only [hFound, recap, bind_eq_ok, pure_eq_ok, checked_eq_ok, throwIf_eq_ok] at h
      obtain ⟨_, hCap, _, hJoins, hAfter⟩ := h
      refine ⟨stored, hFound, ?_, hJoins, hAfter.symm⟩
      intro cap hMem
      by_contra hLess
      exact hCap ⟨cap, hMem, by omega⟩

theorem Overwrites.find (h : Overwrites row stored before after) :
    after.promotions.find other = if other = row.promotion.id then
      some (stored.overwrite row) else before.promotions.find other := by
  rw [h.after_eq, Keyed.Rows.find_modify]
  split
  · next hSame => rw [hSame, (findPromotion_eq_some.mp h.found).1, Option.map_some]
  · rfl

theorem Overwrites.only (h : Overwrites row stored before after) :
    OnlyPromotions [row.promotion.id] before after := by
  refine ⟨?_, ?_, ?_, ?_, ?_⟩
  iterate 4 rw [h.after_eq]
  intro id found hId hFound
  rw [h.find, if_neg (by simpa using hId), hFound]

/-- What `insert` does: nobody has the id. -/
structure Inserts (row : PromotionRow) (before after : Tables) : Prop where
  fresh : before.promotions.find row.promotion.id = none
  capped : ∀ cap ∈ row.promotion.maxProductUnits, row.promotion.consumedProductUnits ≤ cap
  joins : replaceJoins row.promotion = .ok ()
  find : ∀ other, after.promotions.find other = if row.promotion.id = other then some row
    else before.promotions.find other
  only : OnlyPromotions [] before after

theorem insert_eq_ok (h : insert row before = .ok after) : Inserts row before after := by
  unfold insert at h
  cases hInsert : before.promotions.insert row with
  | none => simp [hInsert] at h
  | some promotions =>
      simp only [hInsert, recap, bind_eq_ok, pure_eq_ok, checked_eq_ok, throwIf_eq_ok] at h
      obtain ⟨_, hCap, _, hJoins, rfl⟩ := h
      have hFree := (Keyed.Rows.insert_eq_some.mp hInsert).1
      refine ⟨Keyed.lookup_eq_none.mpr hFree, ?_, hJoins,
        fun other => Keyed.Rows.find_insert hInsert, rfl, rfl, rfl, rfl, ?_⟩
      · intro cap hMem
        by_contra hLess
        exact hCap ⟨cap, hMem, by omega⟩
      · exact fun id found _ hFound => Keyed.Rows.find_insert_of_find hInsert hFound

variable {write : StatusWrite} {writes : StatusWrites}

theorem updateStatus_eq_ok (h : updateStatus tenantId id write before = .ok after) :
    before.owns tenantId id = true ∧ after = { before with
      promotions := before.promotions.modify id (·.withStatus write) (PromotionRow.id_withStatus write) } := by
  unfold updateStatus at h
  cases hFound : before.findPromotion tenantId id with
  | none => simp [hFound] at h
  | some found =>
      simp only [hFound, Except.ok.injEq] at h
      exact ⟨by simp [Tables.owns, hFound], h.symm⟩

theorem find_updateStatus (h : updateStatus tenantId id write before = .ok after) :
    after.promotions.find other = if other = id then
      (before.promotions.find other).map (·.withStatus write) else before.promotions.find other := by
  rw [(updateStatus_eq_ok h).2, Keyed.Rows.find_modify]

theorem only_updateStatus (h : updateStatus tenantId id write before = .ok after) :
    OnlyPromotions [id] before after := by
  refine ⟨?_, ?_, ?_, ?_, ?_⟩
  iterate 4 rw [(updateStatus_eq_ok h).2]
  intro other found hOther hFound
  rw [find_updateStatus h, if_neg (by simpa using hOther), hFound]

theorem only_updateStatuses (h : updateStatuses tenantId writes before = .ok after) :
    OnlyPromotions (writes.map Prod.fst) before after := by
  induction writes generalizing before with
  | nil =>
      cases h
      exact OnlyPromotions.refl _ _
  | cons first rest ih =>
      obtain ⟨middle, hFirst, hRest⟩ := bind_eq_ok.mp h
      exact (only_updateStatus hFirst).trans (ih hRest)

end

/-! ### What is protected -/

/-- The alerts of a promotion. -/
def Tables.alertsOf (tables : Tables) (promotionId : String) : List ExpiryAlertState :=
  tables.alertStates.filter (·.key.promotionId = promotionId)

/-- A row that is there stays as it is with its alerts, while somebody else holds its lock. -/
def SameRow (id : String) (a b : Tables) : Prop :=
  ∀ row, a.promotions.find id = some row →
    b.promotions.find id = some row ∧ b.alertsOf id = a.alertsOf id

structure PromotionAgree (held : List Lock) (a b : Tables) : Prop where
  clock : a.clock ≤ b.clock
  same : ∀ id, Lock.promotion id ∈ held → SameRow id a b

def promotionProtection : Protection Lock Tables where
  agree := PromotionAgree
  refl _ a := ⟨Int.le_refl _, fun _ _ _ h => ⟨h, rfl⟩⟩
  trans _ a b c h h' := by
    refine ⟨Int.le_trans h.clock h'.clock, ?_⟩
    intro id hId row hRow
    obtain ⟨hMiddle, hAlerts⟩ := h.same id hId row hRow
    obtain ⟨hLast, hAlerts'⟩ := h'.same id hId row hMiddle
    exact ⟨hLast, hAlerts'.trans hAlerts⟩
  mono _ _ _ _ h := ⟨h.clock, fun id hId => h.same id (List.mem_cons_of_mem _ hId)⟩

section

variable {held others : List Lock} {ids : List String} {before after : Tables}

/-- A write to rows whose locks are held leaves everything of the others alone. -/
theorem OnlyPromotions.agree (h : OnlyPromotions ids before after)
    (hHeld : ∀ id ∈ ids, Lock.promotion id ∈ held) (hOthers : ∀ key ∈ others, key ∉ held) :
    promotionProtection.agree others before after := by
  refine ⟨Int.le_of_eq h.clock.symm, ?_⟩
  intro id hId row hRow
  refine ⟨h.others id row (fun hMem => hOthers _ hId (hHeld id hMem)) hRow, ?_⟩
  rw [Tables.alertsOf, h.alertStates, Tables.alertsOf]

end

/-! ### What the requests mean -/

/-- The promotion of the claim is eligible at an instant that has come. -/
def Due (claim : ExpiryAlertClaim) (tables : Tables) (endDate readAt : Int) : Prop :=
  readAt ≤ tables.clock ∧ ∃ row, tables.findPromotion claim.tenantId claim.promotionId = some row ∧
    evaluateEligibility row.promotion readAt = .ok endDate

def ExpiryAlertClaim.key (claim : ExpiryAlertClaim) (endDate : Int) : AlertKey :=
  ⟨claim.tenantId, claim.promotionId, Instant.toISOString endDate⟩

def ExpiryAlertClaim.event (claim : ExpiryAlertClaim) (endDate readAt : Int) : ExpiringEvent :=
  ⟨claim.key endDate, Instant.toISOString endDate, Instant.toISOString readAt⟩

/-- The request ends these promotions. -/
def Request.Ends (ids : List String) : Request → Prop
  | .endPromotion _ id _ => ids = [id]
  | .batchEnd _ named _ => ids = named
  | _ => False

/-- The request activates these promotions. -/
def Request.Activates (ids : List String) : Request → Prop
  | .activatePromotion _ id _ => ids = [id]
  | .batchActivate _ named _ => ids = named
  | _ => False

/-- The request is about other tables, or about time alone. -/
def Request.Passes : Request → Prop
  | .editTargets _ _ | .tick _ => True
  | _ => False

/-- What a request does to the tables, and what it says it did. -/
inductive Serves : Request → Tables → Tables → Outcome → Prop where
  | created {tenantId id : String} {dto : CreatePromotionDto} {now : Int} {before after : Tables}
      {row : PromotionRow} (id_eq : row.promotion.id = id)
      (write : overwrite row before = .ok after ∨ insert row before = .ok after) :
      Serves (.create tenantId id dto now) before after (.created id)
  | updated {tenantId id : String} {dto : UpdatePromotionDto} {now : Int} {before after : Tables}
      {loaded row : PromotionRow} (id_eq : row.promotion.id = loaded.promotion.id)
      (ended : row.promotion.manuallyEnded = loaded.promotion.manuallyEnded)
      (write : overwrite row before = .ok after ∨ insert row before = .ok after) :
      Serves (.update tenantId id dto now) before after (.updated loaded)
  | ended {request : Request} {tenantId : String} {ids : List String} {writes : StatusWrites}
      {before after : Tables} (asked : request.Ends ids) (names : writes.map Prod.fst = ids)
      (ends : ∀ write ∈ writes, write.2.status = .ended ∧ write.2.manuallyEnded = none)
      (write : updateStatuses tenantId writes before = .ok after) :
      Serves request before after (.ended ids)
  | activated {request : Request} {tenantId : String} {ids : List String} {writes : StatusWrites}
      {before after : Tables} (asked : request.Activates ids) (names : writes.map Prod.fst ⊆ ids)
      (write : updateStatuses tenantId writes before = .ok after) :
      Serves request before after (.activated ids)
  | claimed {claim : ExpiryAlertClaim} {before : Tables} {endDate readAt : Int}
      (due : Due claim before endDate readAt)
      (gate : armed (claim.key endDate) (seed (claim.key endDate) before) = true) :
      Serves (.claimExpiryAlert claim) before
        (publish (claim.event endDate readAt)
          (flip (claim.key endDate) (seed (claim.key endDate) before)))
        (.claimed (claim.key endDate))
  | alreadyAlerted {claim : ExpiryAlertClaim} {before : Tables} {endDate readAt : Int}
      (due : Due claim before endDate readAt)
      (gate : armed (claim.key endDate) (seed (claim.key endDate) before) = false) :
      Serves (.claimExpiryAlert claim) before (seed (claim.key endDate) before)
        (.alreadyAlerted (claim.key endDate))
  | notEligible {claim : ExpiryAlertClaim} {before : Tables} {reason : String} :
      Serves (.claimExpiryAlert claim) before before (.notEligible reason)
  | elapsed {request : Request} {before after : Tables} (asked : request.Passes)
      (promotions : after.promotions = before.promotions)
      (alertStates : after.alertStates = before.alertStates) (outbox : after.outbox = before.outbox)
      (clock : before.clock ≤ after.clock) :
      Serves request before after .elapsed

/-- No request relies on what the tables are like when it starts. -/
def anyTables (_ : Tables) : Prop := True

def promotionService (zoneOffset : ZoneOffset) : Service Lock Tables Failure Outcome Request where
  protection := promotionProtection
  invariant := anyTables
  body := Request.body zoneOffset
  serves := Serves

section

variable {held : List Lock} {known : Tables → Prop} {tenantId id : String} {request : Request}

/-- A write that the held locks cover, or that leaves every row alone. -/
theorem warranted_of_only {pending : Pending} {outcome : Outcome} {ids : List String}
    (hOnly : ∀ before after, pending before = .ok after → OnlyPromotions ids before after)
    (hHeld : ∀ id ∈ ids, Lock.promotion id ∈ held)
    (hServes : ∀ before after, pending before = .ok after → Serves request before after outcome) :
    Warranted promotionProtection anyTables (Serves request) held known ⟨pending, outcome⟩ := by
  intro before after _ _ hWrite
  refine ⟨hServes before after hWrite, fun others hOthers => ?_⟩
  exact (hOnly before after hWrite).agree hHeld fun key hKey hMem => hOthers key hKey hMem

theorem ensures_lockPromotion {post : List Lock → (Tables → Prop) → Bool → Prop}
    (hFound : ∀ seen, known seen → seen.owns tenantId id = true →
      post (.promotion id :: held)
        (fun later => known later ∧ PromotionAgree (.promotion id :: held) seen later) true)
    (hAbsent : ∀ known', post held known' false) :
    (lockPromotion tenantId id).Ensures promotionProtection anyTables held known post :=
  ensures_lockRow (fun seen _ hKnown hThere => hFound seen hKnown hThere)
    fun _ _ _ _ => hAbsent _

theorem ensures_save {row : PromotionRow} {outcome : Outcome}
    (hServes : ∀ before after, (overwrite row before = .ok after ∨ insert row before = .ok after) →
      Serves request before after outcome) :
    (save row).Ensures promotionProtection anyTables held known fun held known saved =>
      Warranted promotionProtection anyTables (Serves request) held known ⟨saved, outcome⟩ := by
  unfold save
  rw [ensures_bind]
  apply ensures_lockPromotion
  · intro seen _ _
    have hHeld : ∀ other ∈ [row.promotion.id],
        Lock.promotion other ∈ Lock.promotion row.promotion.id :: held := by simp
    refine warranted_of_only ?_ hHeld fun before after h => hServes before after (Or.inl h)
    intro before after hWrite
    obtain ⟨stored, hOverwrites⟩ := overwrite_eq_ok hWrite
    exact hOverwrites.only
  · intro known'
    have hHeld : ∀ other ∈ ([] : List String), Lock.promotion other ∈ held := by simp
    exact warranted_of_only (fun before after hWrite => (insert_eq_ok hWrite).only) hHeld
      fun before after h => hServes before after (Or.inr h)

theorem ensures_findById {pending : Pending} {post : List Lock → (Tables → Prop) → PromotionRow → Prop}
    (h : ∀ known' row, row.promotion.id = id → row.tenantId = tenantId → post held known' row) :
    (findById tenantId id pending).Ensures promotionProtection anyTables held known post := by
  unfold findById
  rw [ensures_bind]
  apply ensures_queryOwn
  intro seen own _ _ _
  cases hFound : own.findPromotion tenantId id with
  | none => exact trivial
  | some row =>
      obtain ⟨hFind, hTenant⟩ := findPromotion_eq_some.mp hFound
      exact h _ row (id_of_find hFind) hTenant

/-! ### Status changes -/

/-- The locks of the rows that were written are held. -/
def Covers (held : List Lock) (written : StatusWrites) : Prop :=
  ∀ id ∈ written.map Prod.fst, Lock.promotion id ∈ held

/-- What the writes of a transaction are after the ids `done`: an id that its statement writes adds
its columns, and one that it leaves adds nothing. -/
structure WritesEach (write : Int → Promotion → Option StatusWrite)
    (P : List String → StatusWrites → Prop) : Prop where
  skip : ∀ done written id now promotion, write now promotion = none → P done written →
    P (done ++ [id]) written
  add : ∀ done written id now promotion columns, write now promotion = some columns →
    P done written → P (done ++ [id]) (written ++ [(id, columns)])

variable {write : Int → Promotion → Option StatusWrite} {P : List String → StatusWrites → Prop}
  {written : StatusWrites} {done : List String}

theorem ensures_changeStatus {now : Int} {post : List Lock → (Tables → Prop) → StatusWrites → Prop}
    (hEach : WritesEach write P) (hCovers : Covers held written) (hDone : P done written)
    (h : ∀ held known written, Covers held written → P (done ++ [id]) written →
      post held known written) :
    (changeStatus (write now) tenantId id written).Ensures promotionProtection anyTables held known
      post := by
  unfold changeStatus
  rw [ensures_bind]
  apply ensures_findById
  intro known' row _ _
  cases hWrite : write now row.promotion with
  | none => exact h _ _ _ hCovers (hEach.skip _ _ _ _ _ hWrite hDone)
  | some columns =>
      simp only [ensures_bind]
      apply ensures_lockPromotion
      · intro seen _ _
        apply h _ _ _ _ (hEach.add _ _ _ _ _ _ hWrite hDone)
        intro other hOther
        rw [List.map_append, List.mem_append] at hOther
        rcases hOther with hOld | hNew
        · exact List.mem_cons_of_mem _ (hCovers other hOld)
        · simp only [List.map_singleton, List.mem_singleton] at hNew
          simp [hNew]
      · exact fun _ => trivial

theorem ensures_changeEach {clock : Nat → Int} {ids : List String} {turn : Nat}
    {post : List Lock → (Tables → Prop) → StatusWrites → Prop} (hEach : WritesEach write P)
    (hCovers : Covers held written) (hDone : P done written)
    (h : ∀ held known written, Covers held written → P (done ++ ids) written →
      post held known written) :
    (changeEach write tenantId clock ids turn written).Ensures promotionProtection anyTables held
      known post := by
  induction ids generalizing done written held known turn with
  | nil => exact h _ _ _ hCovers (by simpa using hDone)
  | cons id rest ih =>
      simp only [changeEach, ensures_bind]
      apply ensures_changeStatus hEach hCovers hDone
      intro held known written hCovers hDone
      apply ih hCovers hDone
      intro held known written hCovers hAll
      rw [List.append_assoc] at hAll
      exact h _ _ _ hCovers hAll

theorem warranted_of_covers {outcome : Outcome} (hCovers : Covers held written)
    (hServes : ∀ before after, updateStatuses tenantId written before = .ok after →
      Serves request before after outcome) :
    Warranted promotionProtection anyTables (Serves request) held known
      ⟨updateStatuses tenantId written, outcome⟩ :=
  warranted_of_only (fun _ _ => only_updateStatuses) hCovers hServes

/-- What the writes of an end are. -/
def Ends (done : List String) (written : StatusWrites) : Prop :=
  written.map Prod.fst = done ∧
    ∀ write ∈ written, write.2.status = .ended ∧ write.2.manuallyEnded = none

theorem endWrite_each : WritesEach endWrite Ends := by
  constructor
  · intro done written id now promotion hWrite
    cases hWrite
  · intro done written id now promotion columns hWrite hDone
    cases hWrite
    constructor
    · rw [List.map_append, hDone.1, List.map_singleton]
    · intro write hMem
      rw [List.mem_append, List.mem_singleton] at hMem
      rcases hMem with hOld | rfl
      · exact hDone.2 write hOld
      · exact ⟨rfl, rfl⟩

/-- The writes of an activation, which leaves alone what is in force. -/
def Activates (done : List String) (written : StatusWrites) : Prop :=
  written.map Prod.fst ⊆ done

theorem activateWrite_each : WritesEach activateWrite Activates := by
  constructor
  · intro done written id now promotion _ hDone
    exact List.subset_append_of_subset_left _ hDone
  · intro done written id now promotion columns _ hDone
    rw [Activates, List.map_append]
    exact List.append_subset.mpr ⟨List.subset_append_of_subset_left _ hDone,
      List.subset_append_of_subset_right _ (by simp)⟩

theorem ensures_preflight {ids : List String} {post : List Lock → (Tables → Prop) → Unit → Prop}
    (h : ∀ known', post held known' ()) :
    (preflight tenantId ids).Ensures promotionProtection anyTables held known post := by
  unfold preflight
  rw [ensures_bind]
  apply ensures_query
  intro seen _ _
  exact ensures_check fun _ _ => h _

section

variable {now : Int} {ids : List String} {clock : Nat → Int}

theorem covers_nil (held : List Lock) : Covers held [] := by
  simp [Covers]

theorem ends_nil : Ends [] [] := by
  simp [Ends]

theorem activates_nil : Activates [] [] :=
  List.nil_subset _

theorem ensures_endPromotion :
    (endPromotion tenantId id now).Ensures promotionProtection anyTables held known
      (Warranted promotionProtection anyTables (Serves (.endPromotion tenantId id now))) := by
  unfold endPromotion
  rw [ensures_bind]
  apply ensures_changeStatus endWrite_each (covers_nil held) ends_nil
  intro held known written hCovers hEnds
  exact warranted_of_covers hCovers fun before after hWrite => .ended rfl hEnds.1 hEnds.2 hWrite

theorem ensures_activatePromotion :
    (activatePromotion tenantId id now).Ensures promotionProtection anyTables held known
      (Warranted promotionProtection anyTables (Serves (.activatePromotion tenantId id now))) := by
  unfold activatePromotion
  rw [ensures_bind]
  apply ensures_changeStatus activateWrite_each (covers_nil held) activates_nil
  intro held known written hCovers hNames
  exact warranted_of_covers hCovers fun before after hWrite => .activated rfl hNames hWrite

theorem ensures_batchEnd :
    (batchEnd tenantId ids clock).Ensures promotionProtection anyTables held known
      (Warranted promotionProtection anyTables (Serves (.batchEnd tenantId ids clock))) := by
  unfold batchEnd
  simp only [ensures_bind]
  apply ensures_preflight
  intro known'
  apply ensures_changeEach endWrite_each (covers_nil held) ends_nil
  intro held known written hCovers hEnds
  exact warranted_of_covers hCovers fun before after hWrite => .ended rfl hEnds.1 hEnds.2 hWrite

theorem ensures_batchActivate :
    (batchActivate tenantId ids clock).Ensures promotionProtection anyTables held known
      (Warranted promotionProtection anyTables (Serves (.batchActivate tenantId ids clock))) := by
  unfold batchActivate
  simp only [ensures_bind]
  apply ensures_preflight
  intro known'
  apply ensures_changeEach activateWrite_each (covers_nil held) activates_nil
  intro held known written hCovers hNames
  exact warranted_of_covers hCovers fun before after hWrite => .activated rfl hNames hWrite

end

/-! ### Creation and update -/

section

variable {zoneOffset : ZoneOffset} {now : Int}

theorem ensures_create {dto : CreatePromotionDto} :
    (create zoneOffset tenantId id dto now).Ensures promotionProtection anyTables held known
      (Warranted promotionProtection anyTables (Serves (.create tenantId id dto now))) := by
  unfold create
  simp only [ensures_bind]
  apply ensures_check
  intro _ _
  apply ensures_query
  intro _ _ _
  apply ensures_check
  intro targetItems _
  apply ensures_query
  intro _ _ _
  apply ensures_check
  intro customers _
  apply ensures_query
  intro _ _ _
  apply ensures_check
  intro priceLists _
  apply ensures_check
  intro promotion hPromotion
  apply ensures_check
  intro _ _
  apply ensures_check
  intro _ _
  have hId : promotion.id = id := by
    rw [(Promotion.create_eq_ok (checked_eq_ok.mp hPromotion)).1]
    rfl
  exact ensures_save fun before after hWrite => .created hId hWrite

theorem ensures_update {dto : UpdatePromotionDto} :
    (update zoneOffset tenantId id dto now).Ensures promotionProtection anyTables held known
      (Warranted promotionProtection anyTables (Serves (.update tenantId id dto now))) := by
  unfold update
  simp only [ensures_bind]
  apply ensures_findById
  intro _ loaded hId hTenant
  apply ensures_check
  intro _ _
  apply ensures_check
  intro _ _
  apply ensures_query
  intro _ _ _
  apply ensures_check
  intro targetItems _
  apply ensures_check
  intro _ _
  apply ensures_check
  intro capped hCapped
  apply ensures_check
  intro _ _
  apply ensures_query
  intro _ _ _
  apply ensures_check
  intro customers _
  apply ensures_query
  intro _ _ _
  apply ensures_check
  intro priceLists _
  simp only [checked_eq_ok, Promotion.updateMaxProductUnits, bind_eq_ok, pure_eq_ok] at hCapped
  obtain ⟨_, _, rfl⟩ := hCapped
  apply ensures_save
  intro before after hWrite
  refine .updated ?_ ?_ hWrite
  · rfl
  · rfl

end

/-! ### The claim -/

section

variable {claim : ExpiryAlertClaim} {key : AlertKey} {before after : Tables}

theorem mem_alertsOf {tables : Tables} {state : ExpiryAlertState} (hKey : state.key = key) :
    state ∈ tables.alertsOf key.promotionId ↔ state ∈ tables.alertStates := by
  simp [Tables.alertsOf, hKey]

/-- The gate opens for a new key and for one whose row has not alerted. -/
theorem armed_seed_iff {tables : Tables} : armed key (seed key tables) = true ↔
    (∀ state ∈ tables.alertStates, state.key ≠ key) ∨
      ∃ state ∈ tables.alertStates, state.key = key ∧ state.alerted = false := by
  unfold seed
  split
  · next hThere =>
      obtain ⟨stored, hStored, hKey⟩ := hThere
      simp only [armed, List.any_eq_true, Bool.and_eq_true, decide_eq_true_eq, Bool.not_eq_true']
      constructor
      · exact Or.inr
      · rintro (hNone | hSome)
        · exact absurd hKey (hNone stored hStored)
        · exact hSome
  · next hAbsent =>
      simp only [not_exists, not_and] at hAbsent
      simp only [armed, List.any_append, List.any_cons, List.any_nil, decide_true, Bool.not_false,
        Bool.and_true, Bool.or_false, Bool.or_true, true_iff]
      exact Or.inl hAbsent

/-- The gate depends on nothing but the alerts of the promotion. -/
theorem armed_seed_congr {a b : Tables}
    (h : b.alertsOf key.promotionId = a.alertsOf key.promotionId) :
    armed key (seed key b) = armed key (seed key a) := by
  have hSame : ∀ state : ExpiryAlertState, state.key = key →
      (state ∈ b.alertStates ↔ state ∈ a.alertStates) := by
    intro state hKey
    rw [← mem_alertsOf hKey, h, mem_alertsOf hKey]
  apply Bool.eq_iff_iff.mpr
  rw [armed_seed_iff, armed_seed_iff]
  apply or_congr
  · apply forall_congr'
    intro state
    constructor
    · exact fun hNone hState hKey => hNone ((hSame state hKey).mpr hState) hKey
    · exact fun hNone hState hKey => hNone ((hSame state hKey).mp hState) hKey
  · apply exists_congr
    intro state
    constructor
    · exact fun ⟨hState, hKey, hArmed⟩ => ⟨(hSame state hKey).mp hState, hKey, hArmed⟩
    · exact fun ⟨hState, hKey, hArmed⟩ => ⟨(hSame state hKey).mpr hState, hKey, hArmed⟩

theorem alertsOf_seed {other : String} (hOther : other ≠ key.promotionId) :
    (seed key before).alertsOf other = before.alertsOf other := by
  unfold seed
  split
  · rfl
  · simp [Tables.alertsOf, Ne.symm hOther]

theorem alertsOf_flip {other : String} (hOther : other ≠ key.promotionId) :
    (flip key before).alertsOf other = before.alertsOf other := by
  simp only [Tables.alertsOf, flip, List.filter_map]
  have hLeft : ∀ state ∈ before.alertStates.filter (·.key.promotionId = other),
      (if state.key = key ∧ state.alerted = false then
        (⟨key, true, state.alertEpoch + 1⟩ : ExpiryAlertState) else state) = state := by
    intro state hState
    have hPromotion : state.key.promotionId = other := by simpa using (List.mem_filter.mp hState).2
    refine if_neg fun h => hOther ?_
    rw [← hPromotion, h.1]
  have hFilter : before.alertStates.filter ((fun state : ExpiryAlertState =>
      decide (state.key.promotionId = other)) ∘ fun state =>
        if state.key = key ∧ state.alerted = false then ⟨key, true, state.alertEpoch + 1⟩
        else state) = before.alertStates.filter (·.key.promotionId = other) := by
    apply List.filter_congr
    intro state _
    simp only [Function.comp]
    split
    · next h => simp [h.1]
    · rfl
  rw [hFilter]
  exact (List.map_congr_left hLeft).trans (List.map_id _)

/-- The alerts of a claim are covered by the lock of its promotion. -/
theorem agree_of_alerts {others : List Lock} (hHeld : Lock.promotion id ∈ held)
    (hOthers : ∀ lock ∈ others, lock ∉ held) (hPromotions : after.promotions = before.promotions)
    (hClock : after.clock = before.clock)
    (hAlerts : ∀ other, other ≠ id → after.alertsOf other = before.alertsOf other) :
    promotionProtection.agree others before after := by
  refine ⟨Int.le_of_eq hClock.symm, ?_⟩
  intro other hOther row hRow
  have hNe : other ≠ id := by
    rintro rfl
    exact hOthers _ hOther hHeld
  exact ⟨hPromotions ▸ hRow, hAlerts other hNe⟩

theorem warranted_pure {outcome : Outcome}
    (h : ∀ before, Serves request before before outcome) :
    Warranted promotionProtection anyTables (Serves request) held known
      (⟨pure, outcome⟩ : Ending) := by
  intro before after _ _ hWrite
  cases hWrite
  exact ⟨h before, fun others _ => promotionProtection.refl others before⟩

theorem seed_promotions : (seed key before).promotions = before.promotions := by
  unfold seed
  split <;> rfl

theorem seed_clock : (seed key before).clock = before.clock := by
  unfold seed
  split <;> rfl

theorem ensures_claimExpiryAlert :
    (claimExpiryAlert claim).Ensures promotionProtection anyTables held known
      (Warranted promotionProtection anyTables (Serves (.claimExpiryAlert claim))) := by
  unfold claimExpiryAlert
  simp only [ensures_bind]
  apply ensures_check
  intro _ _
  apply ensures_lockPromotion
  · intro seen₀ _ hOwns
    apply ensures_query
    intro seen _ hSeen
    simp only [if_true]
    cases hLocked : seen.findPromotion claim.tenantId claim.promotionId with
    | none => exact warranted_pure fun _ => .notEligible
    | some row =>
        obtain ⟨hFind, hTenant⟩ := findPromotion_eq_some.mp hLocked
        simp only [ensures_bind]
        apply ensures_query
        intro clocked _ hClocked
        cases hEligible : evaluateEligibility row.promotion clocked.clock with
        | error reason => exact warranted_pure fun _ => .notEligible
        | ok endDate =>
            simp only [ensures_bind]
            apply ensures_query
            intro gated _ hGated
            have hHeld : Lock.promotion claim.promotionId ∈
                Lock.promotion claim.promotionId :: held := List.mem_cons_self
            -- what was seen under the lock is so at the commit
            have hAt : ∀ before, PromotionAgree (.promotion claim.promotionId :: held) seen before →
                PromotionAgree (.promotion claim.promotionId :: held) clocked before →
                  Due claim before endDate clocked.clock := by
              intro before hRow hClock
              have hStored := (hRow.same _ hHeld row hFind).1
              exact ⟨hClock.clock, row, findPromotion_eq_some.mpr ⟨hStored, hTenant⟩, hEligible⟩
            have hGate : ∀ before,
                PromotionAgree (.promotion claim.promotionId :: held) gated before →
                  armed (claim.key endDate) (seed (claim.key endDate) before) =
                    armed (claim.key endDate) (seed (claim.key endDate) gated) := by
              intro before hAgree
              have hStored := (hGated.1.2.same _ hHeld row hFind).1
              exact armed_seed_congr (hAgree.same _ hHeld row hStored).2
            split
            · next hArmed =>
                rintro before after ⟨⟨⟨_, hRow⟩, hClock⟩, hAgree⟩ _ hWrite
                cases hWrite
                refine ⟨.claimed (hAt before hRow hClock) ((hGate before hAgree).trans hArmed), ?_⟩
                intro others hOthers
                refine agree_of_alerts hHeld (fun lock hLock hMem => hOthers lock hLock hMem)
                  seed_promotions seed_clock ?_
                intro other hOther
                exact (alertsOf_flip hOther).trans (alertsOf_seed hOther)
            · next hArmed =>
                rintro before after ⟨⟨⟨_, hRow⟩, hClock⟩, hAgree⟩ _ hWrite
                cases hWrite
                have hShut := (hGate before hAgree).trans (Bool.eq_false_iff.mpr hArmed)
                refine ⟨.alreadyAlerted (hAt before hRow hClock) hShut, ?_⟩
                intro others hOthers
                exact agree_of_alerts hHeld (fun lock hLock hMem => hOthers lock hLock hMem)
                  seed_promotions seed_clock fun other hOther => alertsOf_seed hOther
  · intro known'
    apply ensures_query
    intro seen _ _
    exact warranted_pure fun _ => .notEligible

end

/-- A write that leaves the promotions and the alerts alone, while time may pass. -/
theorem warranted_elapsed {pending : Tables → Tables} (hPasses : request.Passes)
    (hPromotions : ∀ before, (pending before).promotions = before.promotions)
    (hAlerts : ∀ before, (pending before).alertStates = before.alertStates)
    (hOutbox : ∀ before, (pending before).outbox = before.outbox)
    (hClock : ∀ before, before.clock ≤ (pending before).clock) :
    Warranted promotionProtection anyTables (Serves request) held known
      (⟨fun tables => .ok (pending tables), .elapsed⟩ : Ending) := by
  intro before after _ _ hWrite
  cases hWrite
  refine ⟨.elapsed hPasses (hPromotions before) (hAlerts before) (hOutbox before) (hClock before), ?_⟩
  intro others _
  refine ⟨hClock before, fun id _ row hRow => ⟨?_, ?_⟩⟩
  · rw [hPromotions]
    exact hRow
  · rw [Tables.alertsOf, hAlerts, Tables.alertsOf]

end

theorem promotionService_keeps (zoneOffset : ZoneOffset) (request : Request) :
    (promotionService zoneOffset).Keeps request := by
  cases request with
  | create tenantId id dto now => exact ensures_create
  | update tenantId id dto now => exact ensures_update
  | endPromotion tenantId id now => exact ensures_endPromotion
  | batchEnd tenantId ids clock => exact ensures_batchEnd
  | activatePromotion tenantId id now => exact ensures_activatePromotion
  | batchActivate tenantId ids clock => exact ensures_batchActivate
  | claimExpiryAlert claim => exact ensures_claimExpiryAlert
  | editTargets tenantId targetIds =>
      have hPasses : (Request.editTargets tenantId targetIds).Passes := trivial
      apply warranted_elapsed hPasses <;> intro before
      iterate 3 rfl
      exact Int.le_refl _
  | tick ms =>
      have hPasses : (Request.tick ms).Passes := trivial
      apply warranted_elapsed hPasses <;> intro before
      iterate 3 rfl
      exact Int.le_add_of_nonneg_right (Int.natCast_nonneg ms)

/-! ### Schedules -/

abbrev PromotionStage := Stage Bool Request Lock Tables Failure Outcome

/-- A schedule of requests in UTC: what they tell, and the tables that are left. -/
def playRequests (start : Tables) (moves : List (Move Bool Request)) :
    Option (List Outcome × Tables) :=
  ((Stage.empty start : PromotionStage).plays (Request.body fun _ => 0) (fun _ _ => true)
    moves).map fun last =>
      (answers ((Stage.empty start : PromotionStage).trace (Request.body fun _ => 0)
        (fun _ _ => true) moves), last.tables)

theorem runs_of_playRequests {start after : Tables} {moves : List (Move Bool Request)}
    {told : List Outcome} (h : playRequests start moves = some (told, after)) :
    ∃ (events : List (Event Bool Lock Tables Failure Outcome))
      (last : System Bool Lock Tables Failure Outcome),
      Transition.Runs (Step (promotionService fun _ => 0).Body) (System.idle start) events last ∧
      answers events = told ∧ last.tables = after := by
  obtain ⟨last, hLast, hReport⟩ := Option.map_eq_some_iff.mp h
  obtain ⟨rfl, rfl⟩ := Prod.mk.inj hReport
  have run : Transition.Runs (Step (promotionService fun _ => 0).Body)
      ((Stage.empty start : PromotionStage).system (promotionService fun _ => 0).body)
      ((Stage.empty start : PromotionStage).trace (promotionService fun _ => 0).body
        (fun _ _ => true) moves)
      (last.system (promotionService fun _ => 0).body) := Service.runs_trace hLast
  exact ⟨_, _, run, rfl, rfl⟩

/-! ### The invariant of the alerts -/

/-- Every alert has one state, every event one key, and the alerted states are those whose event is
out. -/
structure AlertInv (tables : Tables) : Prop where
  states : (tables.alertStates.map (·.key)).Nodup
  events : (tables.outbox.map (·.key)).Nodup
  alerted : ∀ key, key ∈ tables.outbox.map (·.key) ↔
    ∃ state ∈ tables.alertStates, state.key = key ∧ state.alerted = true

section

variable {key : AlertKey} {before after : Tables}

theorem AlertInv.of_same (h : AlertInv before) (hStates : after.alertStates = before.alertStates)
    (hOutbox : after.outbox = before.outbox) : AlertInv after := by
  constructor
  · rw [hStates]
    exact h.states
  · rw [hOutbox]
    exact h.events
  · rw [hOutbox, hStates]
    exact h.alerted

theorem AlertInv.seed (h : AlertInv before) (key : AlertKey) : AlertInv (seed key before) := by
  unfold Promotions.seed
  split
  · exact h
  · next hAbsent =>
      simp only [not_exists, not_and] at hAbsent
      constructor
      · simp only [List.map_append, List.map_singleton, List.nodup_append]
        refine ⟨h.states, by simp, ?_⟩
        intro first hFirst second hSecond hSame
        obtain ⟨state, hState, rfl⟩ := List.mem_map.mp hFirst
        rw [List.mem_singleton] at hSecond
        exact hAbsent state hState (hSame.trans hSecond)
      · exact h.events
      · intro other
        rw [h.alerted other]
        simp

/-- With the gate open nothing has alerted for the key. -/
theorem not_alerted_of_armed (h : AlertInv before) (hArmed : armed key before = true) :
    key ∉ before.outbox.map (·.key) := by
  simp only [armed, List.any_eq_true, Bool.and_eq_true, decide_eq_true_eq,
    Bool.not_eq_true'] at hArmed
  obtain ⟨state, hState, hKey, hOff⟩ := hArmed
  intro hEvent
  obtain ⟨other, hOther, hOtherKey, hOn⟩ := (h.alerted key).mp hEvent
  have hSame : other = state :=
    List.inj_on_of_nodup_map h.states hOther hState (hOtherKey.trans hKey.symm)
  rw [hSame, hOff] at hOn
  cases hOn

theorem AlertInv.claim (h : AlertInv before) {event : ExpiringEvent} (hEvent : event.key = key)
    (hArmed : armed key before = true) : AlertInv (publish event (flip key before)) := by
  have hFresh := not_alerted_of_armed h hArmed
  have hKeys : ∀ state : ExpiryAlertState, (if state.key = key ∧ state.alerted = false then
      (⟨key, true, state.alertEpoch + 1⟩ : ExpiryAlertState) else state).key = state.key := by
    intro state
    split
    · next hFlips => exact hFlips.1.symm
    · rfl
  constructor
  · have hMap : (publish event (flip key before)).alertStates.map (·.key) =
        before.alertStates.map (·.key) := by
      simp only [publish, flip, List.map_map]
      exact List.map_congr_left fun state _ => hKeys state
    rw [hMap]
    exact h.states
  · show ((before.outbox ++ [event]).map (·.key)).Nodup
    rw [List.map_append, List.map_singleton, List.nodup_append]
    refine ⟨h.events, by simp, ?_⟩
    intro first hFirst second hSecond hSame
    rw [List.mem_singleton, hEvent] at hSecond
    exact hFresh (hSecond ▸ hSame ▸ hFirst)
  · intro other
    show other ∈ (before.outbox ++ [event]).map (·.key) ↔ _
    rw [List.map_append, List.mem_append, List.map_singleton, List.mem_singleton, h.alerted, hEvent]
    simp only [publish, flip, List.mem_map]
    constructor
    · rintro (⟨state, hState, hKey, hOn⟩ | rfl)
      · exact ⟨state, ⟨state, hState, by simp [hOn]⟩, hKey, hOn⟩
      · simp only [armed, List.any_eq_true, Bool.and_eq_true, decide_eq_true_eq,
          Bool.not_eq_true'] at hArmed
        obtain ⟨state, hState, hKey, hOff⟩ := hArmed
        exact ⟨_, ⟨state, hState, rfl⟩, by simp [hKey, hOff], by simp [hKey, hOff]⟩
    · rintro ⟨flipped, ⟨state, hState, rfl⟩, hKey, hOn⟩
      rw [hKeys] at hKey
      by_cases hSame : other = key
      · exact Or.inr hSame
      · refine Or.inl ⟨state, hState, hKey, ?_⟩
        rwa [if_neg fun hFlips => hSame (hKey.symm.trans hFlips.1)] at hOn

theorem AlertInv.serves {request : Request} {outcome : Outcome} (h : AlertInv before)
    (hServes : Serves request before after outcome) : AlertInv after := by
  have hWritten : ∀ {row : PromotionRow} {before after : Tables}, AlertInv before →
      (overwrite row before = .ok after ∨ insert row before = .ok after) → AlertInv after := by
    rintro row before after h (hWrite | hWrite)
    · obtain ⟨stored, hOverwrites⟩ := overwrite_eq_ok hWrite
      exact h.of_same hOverwrites.only.alertStates hOverwrites.only.outbox
    · exact h.of_same (insert_eq_ok hWrite).only.alertStates (insert_eq_ok hWrite).only.outbox
  cases hServes with
  | created _ write => exact hWritten h write
  | updated _ _ write => exact hWritten h write
  | ended _ _ _ write =>
      have hOnly := only_updateStatuses write
      exact h.of_same hOnly.alertStates hOnly.outbox
  | activated _ _ write =>
      have hOnly := only_updateStatuses write
      exact h.of_same hOnly.alertStates hOnly.outbox
  | claimed _ gate => exact (h.seed _).claim rfl gate
  | alreadyAlerted _ _ => exact h.seed _
  | notEligible => exact h
  | elapsed _ _ alertStates outbox _ => exact h.of_same alertStates outbox

end

end Houndfe.Promotions
