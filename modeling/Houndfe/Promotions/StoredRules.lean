import Houndfe.Promotions.PromotionCommits
import Houndfe.Promotions.TargetRules

/-! Stored promotions and the rules of their types. Creations, updates, ends and activations that
come one after another keep every stored promotion valid, except where a promotion is ended before
it starts or where a target of the default side has another type than the promotion applies to. -/

namespace Houndfe.Promotions

open Transactions Transition

/-! ### A promotion that can be saved again -/

/-- What is stored passes every check of an update that changes nothing. -/
structure Promotion.Consistent (catalog : Catalog) (promo : Promotion) : Prop where
  rules : promo.params.Rules
  typed : ∀ item ∈ promo.targetItems, ItemTyped promo item
  listed : promo.storedInput.Listed catalog
  buyXGetY : assertBuyXGetYTargeted promo.type promo.appliesTo promo.targetItems = .ok ()
  advanced : assertAdvancedSideTargets promo.type promo.buyTargetType promo.getTargetType
    promo.targetItems = .ok ()
  joins : replaceJoins promo = .ok ()

section

variable {catalog : Catalog} {promo other : Promotion} {input : TargetInput}

theorem filter_side {side side' : TargetSide} (dtos : List TargetItemDto) :
    (dtos.map (·.onSide side)).filter (·.side = side') =
      if side = side' then dtos.map (·.onSide side) else [] := by
  split
  · next hSide =>
      apply List.filter_eq_self.mpr
      intro item hItem
      obtain ⟨dto, _, rfl⟩ := List.mem_map.mp hItem
      exact decide_eq_true hSide
  · next hSide =>
      apply List.filter_eq_nil_iff.mpr
      intro item hItem
      obtain ⟨dto, _, rfl⟩ := List.mem_map.mp hItem
      exact Bool.eq_false_iff.mp (decide_eq_false hSide)

theorem map_dto_onSide (side : TargetSide) (dtos : List TargetItemDto) :
    (dtos.map (·.onSide side)).map (·.dto) = dtos := by
  rw [List.map_map]
  exact List.map_id dtos

/-- The items of a side with a type, named again by their ids. -/
theorem sideItems_again (targetType : Option PromotionTargetType) (ids : List String) :
    sideItems targetType (((sideItems targetType ids).map (·.onSide .buy)).map (·.targetId)) =
      sideItems targetType ids := by
  cases targetType with
  | none => rfl
  | some targetType => simp [sideItems, TargetItemDto.onSide, Function.comp_def]

theorem mem_sideItems {targetType : Option PromotionTargetType} {ids : List String}
    {dto : TargetItemDto} (h : dto ∈ sideItems targetType ids) :
    some dto.targetType = targetType := by
  cases targetType with
  | none => simp [sideItems] at h
  | some targetType =>
      obtain ⟨id, _, rfl⟩ := List.mem_map.mp h
      rfl

/-- Targets that were resolved for the promotion can be resolved again. -/
theorem listed_of_resolved (hBuy : input.buyTargetType = promo.buyTargetType)
    (hGet : input.getTargetType = promo.getTargetType)
    (hResolve : resolveTargetItems catalog input = .ok promo.targetItems) :
    promo.storedInput.Listed catalog := by
  obtain ⟨hListed, hItems, _⟩ := resolveTargetItems_eq_ok.mp hResolve
  have hSide : ∀ side, promo.side side = input.sides.filter (·.side = side) := fun side => by
    rw [Promotion.side, hItems]
  constructor
  · have hDefault : promo.storedInput.targetItems = input.targetItems := by
      simp only [Promotion.storedInput, hSide, TargetInput.sides, List.filter_append, filter_side]
      simpa using map_dto_onSide .default input.targetItems
    rw [hDefault]
    exact hListed.default
  · have hItems : sideItems promo.storedInput.buyTargetType promo.storedInput.buyTargetItems =
        sideItems input.buyTargetType input.buyTargetItems := by
      simp only [Promotion.storedInput, hSide, TargetInput.sides, List.filter_append, filter_side,
        ← hBuy]
      simpa using sideItems_again input.buyTargetType input.buyTargetItems
    rw [hItems]
    exact hListed.buy
  · have hItems : sideItems promo.storedInput.getTargetType promo.storedInput.getTargetItems =
        sideItems input.getTargetType input.getTargetItems := by
      simp only [Promotion.storedInput, hSide, TargetInput.sides, List.filter_append, filter_side,
        ← hGet]
      simpa [TargetItemDto.onSide, Function.comp_def]
        using sideItems_again input.getTargetType input.getTargetItems
    rw [hItems]
    exact hListed.get

/-- Only a target of the default side can have a type of its own. -/
theorem typed_of_resolved (hBuy : input.buyTargetType = promo.buyTargetType)
    (hGet : input.getTargetType = promo.getTargetType)
    (hDefault : ∀ item ∈ input.targetItems, some item.targetType = promo.appliesTo)
    (hResolve : resolveTargetItems catalog input = .ok promo.targetItems) :
    ∀ item ∈ promo.targetItems, ItemTyped promo item := by
  obtain ⟨_, hItems, _⟩ := resolveTargetItems_eq_ok.mp hResolve
  intro item hItem
  rw [hItems, TargetInput.sides, List.mem_append, List.mem_append] at hItem
  rcases hItem with (hItem | hItem) | hItem <;> obtain ⟨dto, hDto, rfl⟩ := List.mem_map.mp hItem
  · exact hDefault dto hDto
  · exact (mem_sideItems hDto).trans hBuy
  · exact (mem_sideItems hDto).trans hGet

/-- The rules of a type are about neither of these fields. -/
theorem CreatePromotionParams.Rules.relabel {params : CreatePromotionParams} (h : params.Rules)
    (manuallyEnded : Bool) (priceLists : List String) (daysOfWeek : List DayOfWeek) {title : String}
    (hTitle : Text.trim title ≠ "") : CreatePromotionParams.Rules
      { params with
        title := title
        manuallyEnded := manuallyEnded
        priceLists := priceLists
        daysOfWeek := daysOfWeek } :=
  ⟨hTitle, h.dates, h.bot, h.byType, h.capacity⟩

/-- The dates and the flag of the operator concern the date range alone. -/
theorem Promotion.Consistent.withDates (h : promo.Consistent catalog) (manuallyEnded : Bool)
    {endDate : Option Int} (hDates : validateDateRange promo.startDate endDate = .ok ()) :
    Promotion.Consistent catalog
      { promo with manuallyEnded := manuallyEnded, endDate := endDate } where
  rules := ⟨h.rules.title, hDates, h.rules.bot, h.rules.byType, h.rules.capacity⟩
  typed := h.typed
  listed := h.listed
  buyXGetY := h.buyXGetY
  advanced := h.advanced
  joins := h.joins

end

/-! ### Requests with nobody else around -/

section

variable {zoneOffset : ZoneOffset} {tenantId id : String} {tables after : Tables}
  {outcome : Outcome} {now : Int} {written : StatusWrites} {ids : List String}

/-- A save that nobody else comes between. -/
def Tables.saved (tables : Tables) (row : PromotionRow) : Except Failure Tables :=
  (if tables.owns row.tenantId row.promotion.id then overwrite row else insert row) tables

theorem serve_save {row : PromotionRow} :
    serve (save row >>= fun saved => pure ⟨saved, outcome⟩) tables =
      (tables.saved row).map fun after => (after, outcome) := by
  unfold save lockPromotion Tables.saved
  simp only [bind_assoc, pure_bind, serve_lockRow, serve_pure]

theorem alone_findById {pending : Pending} {row : PromotionRow} :
    (findById tenantId id pending).alone tables = .ok row ↔
      ∃ own, pending tables = .ok own ∧ own.findPromotion tenantId id = some row := by
  unfold findById
  rw [Tx.alone_bind]
  cases hPending : pending tables with
  | error error => simp [Tx.queryOwn, Tx.alone, hPending, bind, Except.bind]
  | ok own =>
      cases hFound : own.findPromotion tenantId id <;>
        simp [Tx.queryOwn, Tx.alone, hPending, hFound, bind, Except.bind]

/-- What a creation has checked when it saves its row. -/
structure Creates (zoneOffset : ZoneOffset) (tenantId id : String) (dto : CreatePromotionDto)
    (tables : Tables) (row : PromotionRow) : Prop where
  tenantId_eq : row.tenantId = tenantId
  params : row.promotion.params.Rules
  id_eq : row.promotion.id = id
  appliesTo : row.promotion.appliesTo = dto.appliesTo
  buyTargetType : row.promotion.buyTargetType = dto.buyTargetType
  getTargetType : row.promotion.getTargetType = dto.getTargetType
  targets : resolveTargetItems (tables.catalog tenantId) dto.targetInput =
    .ok row.promotion.targetItems
  buyXGetY : assertBuyXGetYTargeted row.promotion.type row.promotion.appliesTo
    row.promotion.targetItems = .ok ()
  advanced : assertAdvancedSideTargets row.promotion.type row.promotion.buyTargetType
    row.promotion.getTargetType row.promotion.targetItems = .ok ()

theorem create_eq_ok {dto : CreatePromotionDto}
    (h : serve (create zoneOffset tenantId id dto now) tables = .ok (after, outcome)) :
    ∃ row, Creates zoneOffset tenantId id dto tables row ∧ tables.saved row = .ok after ∧
      row.status = row.promotion.getEffectiveStatus now := by
  unfold create at h
  simp only [serve_check, serve_query, serve_save, bind_eq_ok, checked_eq_ok] at h
  obtain ⟨_, _, items, hItems, customers, _, priceLists, _, promotion, hCreate, _, hBuy, _,
    hAdvanced, hSave⟩ := h
  obtain ⟨after', hWrite, hSame⟩ := map_eq_ok.mp hSave
  obtain ⟨rfl, _⟩ := Prod.mk.inj hSame
  obtain ⟨rfl, _⟩ := Promotion.create_eq_ok hCreate
  have hRules := accepted_iff.mp hCreate
  have hTitle : Text.trim (Text.trim dto.title) ≠ "" := by
    rw [Text.trim_trim]
    exact hRules.title
  refine ⟨_, ⟨rfl, ?_, rfl, rfl, rfl, rfl, hItems, hBuy, hAdvanced⟩, hWrite, rfl⟩
  exact hRules.relabel false priceLists dto.daysOfWeek hTitle

/-- What an update has checked when it saves the row that it makes of the stored one. -/
structure Updates (zoneOffset : ZoneOffset) (tenantId id : String) (dto : UpdatePromotionDto)
    (tables : Tables) (stored row : PromotionRow) : Prop where
  found : tables.findPromotion tenantId id = some stored
  params : row.promotion.params.Rules
  key : row.tenantId = tenantId ∧ row.promotion.id = stored.promotion.id
  type : row.promotion.type = stored.promotion.type
  consumed : row.promotion.consumedProductUnits = stored.promotion.consumedProductUnits
  appliesTo : row.promotion.appliesTo =
    (buildMergedValidationParams zoneOffset stored.promotion dto).appliesTo
  buyTargetType : row.promotion.buyTargetType =
    (buildTargetResolutionInput stored.promotion dto).buyTargetType
  getTargetType : row.promotion.getTargetType =
    (buildTargetResolutionInput stored.promotion dto).getTargetType
  targets : resolveTargetItems (tables.catalog tenantId)
    (buildTargetResolutionInput stored.promotion dto) = .ok row.promotion.targetItems
  buyXGetY : assertBuyXGetYTargeted row.promotion.type row.promotion.appliesTo
    row.promotion.targetItems = .ok ()
  advanced : assertAdvancedSideTargets row.promotion.type row.promotion.buyTargetType
    row.promotion.getTargetType row.promotion.targetItems = .ok ()

theorem updateMaxProductUnits_eq_ok {promo capped : Promotion} {maxProductUnits : Option Int} :
    promo.updateMaxProductUnits maxProductUnits = .ok capped ↔
      validateProductUnitCapacity maxProductUnits promo.consumedProductUnits = .ok () ∧
        capped = { promo with maxProductUnits := maxProductUnits } := by
  unfold Promotion.updateMaxProductUnits
  rw [bind_eq_ok]
  constructor
  · rintro ⟨_, hValid, hCapped⟩
    exact ⟨hValid, (pure_eq_ok.mp hCapped).symm⟩
  · rintro ⟨hValid, rfl⟩
    exact ⟨(), hValid, rfl⟩

theorem update_eq_ok {dto : UpdatePromotionDto}
    (h : serve (update zoneOffset tenantId id dto now) tables = .ok (after, outcome)) :
    ∃ stored row, Updates zoneOffset tenantId id dto tables stored row ∧
      tables.saved row = .ok after ∧ row.status = row.promotion.getEffectiveStatus now := by
  unfold update at h
  rw [serve_bind] at h
  obtain ⟨stored, hFound, h⟩ := bind_eq_ok.mp h
  obtain ⟨own, hOwn, hFound⟩ := alone_findById.mp hFound
  cases hOwn
  simp only [serve_check, serve_query, serve_save, bind_eq_ok, checked_eq_ok] at h
  obtain ⟨_, _, created, hCreate, items, hItems, _, hBuy, capped, hCapped, _, hAdvanced, customers,
    _, priceLists, _, hSave⟩ := h
  obtain ⟨after', hWrite, hSame⟩ := map_eq_ok.mp hSave
  obtain ⟨rfl, _⟩ := Prod.mk.inj hSame
  obtain ⟨_, rfl⟩ := updateMaxProductUnits_eq_ok.mp hCapped
  have hRules := accepted_iff.mp (accepted_of_create hCreate)
  refine ⟨stored, _, ?_, hWrite, rfl⟩
  refine ⟨hFound, ?_, ⟨rfl, rfl⟩, rfl, rfl, rfl, rfl, rfl, hItems, hBuy, hAdvanced⟩
  exact hRules.relabel stored.promotion.manuallyEnded priceLists
    (dto.daysOfWeek.getD stored.promotion.daysOfWeek) hRules.title

end

/-! ### The invariant -/

/-- Every stored promotion can be saved again. -/
def AllConsistent (tables : Tables) : Prop :=
  ∀ id row, tables.promotions.find id = some row →
    row.promotion.Consistent (tables.catalog row.tenantId)

section

variable {zoneOffset : ZoneOffset} {tenantId id : String} {tables after : Tables}
  {row stored : PromotionRow} {outcome : Outcome} {now : Int}

theorem overwrite_eq_self (hId : stored.promotion.id = row.promotion.id)
    (hType : stored.promotion.type = row.promotion.type)
    (hConsumed : stored.promotion.consumedProductUnits = row.promotion.consumedProductUnits) :
    (stored.overwrite row).promotion = row.promotion := by
  rw [PromotionRow.overwrite, hId, hType, hConsumed]

/-- A save keeps the invariant if its row is consistent and the row that it writes over, if there
is one, is the one it was made of. -/
theorem AllConsistent.saved (h : AllConsistent tables)
    (hRow : replaceJoins row.promotion = .ok () →
      row.promotion.Consistent (tables.catalog row.tenantId))
    (hStored : ∀ stored, tables.findPromotion row.tenantId row.promotion.id = some stored →
      stored.promotion.type = row.promotion.type ∧
        stored.promotion.consumedProductUnits = row.promotion.consumedProductUnits)
    (hSaved : tables.saved row = .ok after) : AllConsistent after := by
  intro other found hFound
  unfold Tables.saved at hSaved
  split at hSaved
  · obtain ⟨stored, hOverwrites⟩ := overwrite_eq_ok hSaved
    rw [hOverwrites.find] at hFound
    rw [hOverwrites.only.catalog]
    split at hFound
    · obtain ⟨hType, hConsumed⟩ := hStored stored hOverwrites.found
      obtain ⟨hFind, hTenant⟩ := findPromotion_eq_some.mp hOverwrites.found
      cases hFound
      rw [overwrite_eq_self (id_of_find hFind) hType hConsumed, PromotionRow.overwrite, hTenant]
      exact hRow hOverwrites.joins
    · exact h other found hFound
  · have hInserts := insert_eq_ok hSaved
    rw [hInserts.find] at hFound
    rw [hInserts.only.catalog]
    split at hFound
    · cases hFound
      exact hRow hInserts.joins
    · exact h other found hFound

/-- A status write keeps the invariant if the dates it leaves are in order. -/
theorem AllConsistent.status {write : StatusWrite} (h : AllConsistent tables)
    (hStored : tables.findPromotion tenantId id = some stored)
    (hDates : validateDateRange stored.promotion.startDate write.endDate = .ok ())
    (hWrite : updateStatus tenantId id write tables = .ok after) : AllConsistent after := by
  intro other found hFound
  rw [find_updateStatus hWrite] at hFound
  rw [(only_updateStatus hWrite).catalog]
  have hFind := (findPromotion_eq_some.mp hStored).1
  split at hFound
  · next hSame =>
      rw [hSame, hFind, Option.map_some, Option.some.injEq] at hFound
      rw [← hFound]
      exact (h id stored hFind).withDates _ hDates
  · exact h other found hFound

/-- The targets that an update leaves on the default side have the type the promotion applies to
afterwards. -/
def UpdatePromotionDto.Matches (zoneOffset : ZoneOffset) (dto : UpdatePromotionDto)
    (stored : Promotion) : Prop :=
  ∀ item ∈ (buildTargetResolutionInput stored dto).targetItems,
    some item.targetType = (buildMergedValidationParams zoneOffset stored dto).appliesTo

instance (zoneOffset : ZoneOffset) (dto : UpdatePromotionDto) (stored : Promotion) :
    Decidable (dto.Matches zoneOffset stored) := by
  unfold UpdatePromotionDto.Matches
  infer_instance

theorem AllConsistent.create {dto : CreatePromotionDto} (h : AllConsistent tables)
    (hFresh : tables.promotions.find id = none)
    (hMatches : ∀ item ∈ dto.targetItems, some item.targetType = dto.appliesTo)
    (hServe : serve (create zoneOffset tenantId id dto now) tables = .ok (after, outcome)) :
    AllConsistent after := by
  obtain ⟨row, hCreates, hSaved, _⟩ := create_eq_ok hServe
  have hMatches : ∀ item ∈ dto.targetInput.targetItems,
      some item.targetType = row.promotion.appliesTo := by
    rw [hCreates.appliesTo]
    exact hMatches
  apply h.saved _ _ hSaved
  · intro hJoins
    rw [hCreates.tenantId_eq]
    exact {
      rules := hCreates.params
      typed := typed_of_resolved hCreates.buyTargetType.symm hCreates.getTargetType.symm hMatches
        hCreates.targets
      listed := listed_of_resolved hCreates.buyTargetType.symm hCreates.getTargetType.symm
        hCreates.targets
      buyXGetY := hCreates.buyXGetY
      advanced := hCreates.advanced
      joins := hJoins }
  · intro stored hStored
    rw [hCreates.id_eq] at hStored
    rw [(findPromotion_eq_some.mp hStored).1] at hFresh
    cases hFresh

theorem AllConsistent.update {dto : UpdatePromotionDto} (h : AllConsistent tables)
    (hMatches : ∀ row ∈ tables.findPromotion tenantId id, dto.Matches zoneOffset row.promotion)
    (hServe : serve (update zoneOffset tenantId id dto now) tables = .ok (after, outcome)) :
    AllConsistent after := by
  obtain ⟨stored, row, hUpdates, hSaved, _⟩ := update_eq_ok hServe
  have hDefault : ∀ item ∈ (buildTargetResolutionInput stored.promotion dto).targetItems,
      some item.targetType = row.promotion.appliesTo := by
    rw [hUpdates.appliesTo]
    exact hMatches stored hUpdates.found
  apply h.saved _ _ hSaved
  · intro hJoins
    rw [hUpdates.key.1]
    exact {
      rules := hUpdates.params
      typed := typed_of_resolved hUpdates.buyTargetType.symm hUpdates.getTargetType.symm hDefault
        hUpdates.targets
      listed := listed_of_resolved hUpdates.buyTargetType.symm hUpdates.getTargetType.symm
        hUpdates.targets
      buyXGetY := hUpdates.buyXGetY
      advanced := hUpdates.advanced
      joins := hJoins }
  · intro other hOther
    have hId := id_of_find (findPromotion_eq_some.mp hUpdates.found).1
    rw [hUpdates.key.1, hUpdates.key.2, hId, hUpdates.found, Option.some.injEq] at hOther
    rw [← hOther]
    exact ⟨hUpdates.type.symm, hUpdates.consumed.symm⟩

end

/-! ### Ends and activations -/

section

variable {tenantId id : String} {tables own next after : Tables} {row : PromotionRow}
  {written written' : StatusWrites} {columns : StatusWrite} {now : Int}

theorem updateStatuses_append : updateStatuses tenantId (written ++ [(id, columns)]) tables =
    updateStatuses tenantId written tables >>= updateStatus tenantId id columns := by
  induction written generalizing tables with
  | nil => exact bind_pure (updateStatus tenantId id columns tables)
  | cons first rest ih =>
      simp only [List.cons_append, updateStatuses, bind_assoc]
      exact congrArg _ (funext fun _ => ih)

/-- One id after another, as the rows that the transaction sees itself change. -/
inductive Turns (tenantId : String) (write : Int → Promotion → Option StatusWrite)
    (clock : Nat → Int) : List String → Nat → Tables → Tables → Prop where
  | done {turn : Nat} {own : Tables} : Turns tenantId write clock [] turn own own
  | skip {id : String} {rest : List String} {turn : Nat} {own last : Tables} {row : PromotionRow}
      (found : own.findPromotion tenantId id = some row)
      (write_eq : write (clock turn) row.promotion = none)
      (later : Turns tenantId write clock rest (turn + 1) own last) :
      Turns tenantId write clock (id :: rest) turn own last
  | write {id : String} {rest : List String} {turn : Nat} {own next last : Tables}
      {row : PromotionRow} {columns : StatusWrite}
      (found : own.findPromotion tenantId id = some row)
      (write_eq : write (clock turn) row.promotion = some columns)
      (written : updateStatus tenantId id columns own = .ok next)
      (later : Turns tenantId write clock rest (turn + 1) next last) :
      Turns tenantId write clock (id :: rest) turn own last

theorem alone_changeStatus {write : Promotion → Option StatusWrite}
    (h : (changeStatus write tenantId id written).alone tables = .ok written') :
    ∃ own row, updateStatuses tenantId written tables = .ok own ∧
      own.findPromotion tenantId id = some row ∧
        (write row.promotion = none ∧ written' = written ∨
          ∃ columns, write row.promotion = some columns ∧ written' = written ++ [(id, columns)]) := by
  unfold changeStatus at h
  rw [Tx.alone_bind] at h
  obtain ⟨row, hFound, h⟩ := bind_eq_ok.mp h
  obtain ⟨own, hOwn, hRow⟩ := alone_findById.mp hFound
  refine ⟨own, row, hOwn, hRow, ?_⟩
  cases hWrite : write row.promotion with
  | none =>
      simp only [hWrite, Tx.alone_pure, Except.ok.injEq] at h
      exact Or.inl ⟨rfl, h.symm⟩
  | some columns =>
      simp only [hWrite, lockPromotion, Tx.alone_bind, Tx.alone_lockRow] at h
      obtain ⟨found, _, h⟩ := bind_eq_ok.mp h
      cases found with
      | true =>
          simp only [if_true, Tx.alone_pure, Except.ok.injEq] at h
          exact Or.inr ⟨columns, rfl, h.symm⟩
      | false => simp [Tx.alone] at h

/-- Alone, the ids take their turns on the rows as they are left by the turn before. -/
theorem turns_of_alone {write : Int → Promotion → Option StatusWrite} {clock : Nat → Int}
    {ids : List String} {turn : Nat} (hOwn : updateStatuses tenantId written tables = .ok own)
    (h : (changeEach write tenantId clock ids turn written).alone tables = .ok written')
    (hAfter : updateStatuses tenantId written' tables = .ok after) :
    Turns tenantId write clock ids turn own after := by
  induction ids generalizing written own turn with
  | nil =>
      simp only [changeEach, Tx.alone_pure, Except.ok.injEq] at h
      rw [← h, hOwn] at hAfter
      cases hAfter
      exact Turns.done
  | cons id rest ih =>
      rw [changeEach, Tx.alone_bind] at h
      obtain ⟨middle, hFirst, hRest⟩ := bind_eq_ok.mp h
      obtain ⟨own', row, hOwn', hFound, hTurn⟩ := alone_changeStatus hFirst
      rw [hOwn, Except.ok.injEq] at hOwn'
      subst hOwn'
      rcases hTurn with ⟨hNone, rfl⟩ | ⟨columns, hColumns, rfl⟩
      · exact Turns.skip hFound hNone (ih hOwn hRest)
      · cases hNext : updateStatus tenantId id columns own with
        | ok next =>
            have hOwn' : updateStatuses tenantId (written ++ [(id, columns)]) tables = .ok next := by
              rw [updateStatuses_append, hOwn]
              exact hNext
            exact Turns.write hFound hColumns hNext (ih hOwn' hRest)
        | error error =>
            unfold updateStatus at hNext
            simp [hFound] at hNext

theorem findPromotion_updateStatus {other : String} (hOther : other ≠ id)
    (h : updateStatus tenantId id columns own = .ok next) :
    next.findPromotion tenantId other = own.findPromotion tenantId other := by
  rw [Tables.findPromotion, find_updateStatus h, if_neg hOther, Tables.findPromotion]

/-- What an end at `now` makes of the promotion keeps its dates in order: it is ended already, it
has an end date, or it has started. -/
def Promotion.EndsInTime (promo : Promotion) (now : Int) : Prop :=
  promo.manuallyEnded = true ∨ promo.endDate.isSome ∨ ∀ start ∈ promo.startDate, start ≤ now

instance (promo : Promotion) (now : Int) : Decidable (promo.EndsInTime now) := by
  unfold Promotion.EndsInTime
  infer_instance

def EndsInTime (tenantId : String) (tables : Tables) (id : String) (now : Int) : Prop :=
  ∀ row ∈ tables.findPromotion tenantId id, row.promotion.EndsInTime now

instance (tenantId : String) (tables : Tables) (id : String) (now : Int) :
    Decidable (EndsInTime tenantId tables id now) := by
  unfold EndsInTime
  infer_instance

theorem dates_finish {promo : Promotion} (h : promo.EndsInTime now)
    (hDates : validateDateRange promo.startDate promo.endDate = .ok ()) :
    validateDateRange promo.startDate (promo.finish now).endDate = .ok () := by
  unfold Promotion.finish
  split
  · exact hDates
  · next hOpen =>
      cases hEnd : promo.endDate with
      | some endDate => rwa [hEnd] at hDates
      | none =>
          rcases h with hEnded | hSome | hStarted
          · exact absurd hEnded hOpen
          · rw [hEnd] at hSome
            cases hSome
          · rw [validateDateRange, throwIf_eq_ok]
            rintro ⟨start, hStart, finish, hFinish, hLess⟩
            cases hFinish
            have hBefore := hStarted start hStart
            omega

theorem dates_activate {promo : Promotion}
    (hDates : validateDateRange promo.startDate promo.endDate = .ok ()) :
    validateDateRange promo.startDate (promo.activate now).1.endDate = .ok () := by
  simp only [Promotion.activate]
  split
  · simp only
    split
    · simp [validateDateRange, throwIf]
    · exact hDates
  · exact hDates

/-- Ending ids one after another: who comes up again has been ended by then. -/
theorem AllConsistent.ends {clock : Nat → Int} {ids : List String} {turn : Nat}
    (h : AllConsistent own) (turns : Turns tenantId endWrite clock ids turn own after)
    (hTime : ∀ id ∈ ids, EndsInTime tenantId own id (clock (turn + ids.idxOf id))) :
    AllConsistent after := by
  induction turns with
  | done => exact h
  | skip found write_eq later ih => cases write_eq
  | @write id rest turn own next last row columns found write_eq written later ih =>
      cases write_eq
      have hNow : row.promotion.EndsInTime (clock turn) := by
        simpa using hTime id List.mem_cons_self row found
      have hDates := (h id row (findPromotion_eq_some.mp found).1).rules.dates
      apply ih (h.status found (dates_finish hNow hDates) written)
      intro other hOther later' hLater
      by_cases hSame : other = id
      · left
        rw [hSame, Option.mem_def, findPromotion_eq_some, find_updateStatus written, if_pos rfl,
          (findPromotion_eq_some.mp found).1, Option.map_some, Option.some.injEq] at hLater
        rw [← hLater.1]
        rfl
      · rw [findPromotion_updateStatus hSame written] at hLater
        have hRest := hTime other (List.mem_cons_of_mem _ hOther) later' hLater
        rw [List.idxOf_cons_ne _ (Ne.symm hSame)] at hRest
        rwa [Nat.add_right_comm, Nat.add_assoc]

theorem AllConsistent.activations {clock : Nat → Int} {ids : List String} {turn : Nat}
    (h : AllConsistent own) (turns : Turns tenantId activateWrite clock ids turn own after) :
    AllConsistent after := by
  induction turns with
  | done => exact h
  | skip found write_eq later ih => exact ih h
  | @write id rest turn own next last row columns found write_eq written later ih =>
      have hDates := (h id row (findPromotion_eq_some.mp found).1).rules.dates
      unfold activateWrite at write_eq
      simp only at write_eq
      split at write_eq
      · cases write_eq
        exact ih (h.status found (dates_activate hDates) written)
      · cases write_eq

end

/-! ### An update of the title -/

def UpdatePromotionDto.retitle (title : String) : UpdatePromotionDto :=
  { UpdatePromotionDto.empty with title := some title }

section

variable {zoneOffset : ZoneOffset} {tenantId id title : String} {tables : Tables}
  {stored row : PromotionRow} {promo : Promotion} {catalog : Catalog}

theorem replaceJoins_eq_ok : replaceJoins promo = .ok () ↔ promo.targetItems.Nodup ∧
    promo.customers.Nodup ∧ promo.priceLists.Nodup ∧ promo.daysOfWeek.Nodup := by
  unfold replaceJoins
  simp only [bind_eq_ok, checked_eq_ok, throwIf_eq_ok, not_not]
  constructor
  · rintro ⟨_, hTargets, hRest⟩
    split at hRest
    · next hAll => exact ⟨hTargets, hAll⟩
    · cases hRest
  · rintro ⟨hTargets, hAll⟩
    exact ⟨(), hTargets, if_pos hAll⟩

theorem recap_eq_ok {maxProductUnits : Option Int} {consumedProductUnits : Int}
    (h : validateProductUnitCapacity maxProductUnits consumedProductUnits = .ok ()) :
    recap maxProductUnits consumedProductUnits = .ok () := by
  unfold validateProductUnitCapacity at h
  replace h := past (past h)
  rw [recap, checked_eq_ok]
  rw [throwIf_eq_ok] at h ⊢
  exact h

/-- A row that is there takes columns that pass their checks. -/
theorem exists_saved (hFound : tables.findPromotion row.tenantId row.promotion.id = some stored)
    (hCap : validateProductUnitCapacity row.promotion.maxProductUnits
      stored.promotion.consumedProductUnits = .ok ())
    (hJoins : replaceJoins row.promotion = .ok ()) : ∃ after, tables.saved row = .ok after := by
  have hOwns : tables.owns row.tenantId row.promotion.id = true := by
    rw [Tables.owns, hFound]
    rfl
  refine ⟨{ tables with
    promotions := tables.promotions.modify row.promotion.id (·.overwrite row) row.id_overwrite }, ?_⟩
  rw [Tables.saved, if_pos hOwns, overwrite, hFound]
  simp only [recap_eq_ok hCap, hJoins]
  rfl

/-- The stored targets pass again. -/
theorem Promotion.Consistent.resolved (h : promo.Consistent catalog) :
    resolveTargetItems catalog promo.storedInput =
      .ok (promo.side .default ++ promo.side .buy ++ promo.side .get) := by
  refine resolveTargetItems_eq_ok.mpr ⟨h.listed, (sides_storedInput h.typed).symm, ?_⟩
  exact nodup_sides (replaceJoins_eq_ok.mp h.joins).1

/-- The columns of a promotion that only its title has changed in. -/
def Promotion.retitled (promo : Promotion) (title : String) : Promotion :=
  { promo with
    title := title
    targetItems := promo.side .default ++ promo.side .buy ++ promo.side .get }

/-- A consistent promotion takes a new title. -/
theorem Promotion.Consistent.retitle (hFound : tables.findPromotion tenantId id = some stored)
    (h : stored.promotion.Consistent (tables.catalog tenantId)) (hTitle : Text.trim title ≠ "")
    (now : Int) : ∃ after outcome,
      serve (Promotions.update zoneOffset tenantId id (.retitle title) now) tables =
        .ok (after, outcome) := by
  have hCreate : (buildMergedValidationParams zoneOffset stored.promotion
      (.retitle title)).Accepted :=
    accepted_iff.mpr (h.rules.relabel false stored.promotion.priceLists stored.promotion.daysOfWeek
      hTitle)
  have hBuyXGetY : assertBuyXGetYTargeted stored.promotion.type stored.promotion.appliesTo
      (stored.promotion.retitled title).targetItems = .ok () :=
    (assertBuyXGetYTargeted_congr fun _ => mem_sides).trans h.buyXGetY
  have hAdvanced : assertAdvancedSideTargets stored.promotion.type stored.promotion.buyTargetType
      stored.promotion.getTargetType (stored.promotion.retitled title).targetItems = .ok () :=
    assertAdvancedSideTargets_ok (fun _ => mem_sides) h.advanced
  have hJoins : replaceJoins (stored.promotion.retitled title) = .ok () := by
    obtain ⟨hTargets, hRest⟩ := replaceJoins_eq_ok.mp h.joins
    exact replaceJoins_eq_ok.mpr ⟨nodup_sides hTargets, hRest⟩
  have hRow : tables.findPromotion tenantId (stored.promotion.retitled title).id = some stored := by
    have hId := id_of_find (findPromotion_eq_some.mp hFound).1
    exact (congrArg _ hId).trans hFound
  obtain ⟨after, hSaved⟩ : ∃ after, tables.saved ⟨tenantId, stored.promotion.retitled title,
      (stored.promotion.retitled title).getEffectiveStatus now⟩ = .ok after :=
    exists_saved hRow h.rules.capacity hJoins
  refine ⟨after, .updated stored, ?_⟩
  unfold Promotions.update
  rw [serve_bind, bind_eq_ok]
  refine ⟨stored, alone_findById.mpr ⟨tables, rfl, hFound⟩, ?_⟩
  simp only [serve_check, serve_query, serve_save, bind_eq_ok, checked_eq_ok]
  exact ⟨(), rfl, _, hCreate, _, h.resolved, (), hBuyXGetY, _,
    updateMaxProductUnits_eq_ok.mpr ⟨h.rules.capacity, rfl⟩, (), hAdvanced, _, rfl, _, rfl,
    map_eq_ok.mpr ⟨after, hSaved, rfl⟩⟩

end

/-! ### Every run -/

/-- A request is served, or it fails and leaves the tables as they were. -/
def handle (zoneOffset : ZoneOffset) (tables : Tables) (request : Request) : Tables :=
  match serve (request.body zoneOffset) tables with
  | .ok (after, _) => after
  | .error _ => tables

/-- Every stored promotion is one that `Promotion.create` accepts, its targets are on the sides
that its type asks for, each with the type of its side, and its title alone can be changed. -/
structure StoredRules (zoneOffset : ZoneOffset) (tables : Tables) : Prop where
  accepted : ∀ row ∈ tables.promotions.rows, row.promotion.params.Accepted
  sided : ∀ row ∈ tables.promotions.rows,
    assertBuyXGetYTargeted row.promotion.type row.promotion.appliesTo row.promotion.targetItems =
        .ok () ∧
      assertAdvancedSideTargets row.promotion.type row.promotion.buyTargetType
        row.promotion.getTargetType row.promotion.targetItems = .ok ()
  typed : ∀ row ∈ tables.promotions.rows, ∀ item ∈ row.promotion.targetItems,
    ItemTyped row.promotion item
  retitled : ∀ row ∈ tables.promotions.rows, ∀ title now, Text.trim title ≠ "" →
    ∃ after outcome, serve (Promotions.update zoneOffset row.tenantId row.promotion.id
      (.retitle title) now) tables = .ok (after, outcome)

/-- Where the creation draws an id that no promotion has, stored promotions follow the rules of
their types after every run whose requests meet the guard. -/
def RulesHold (guard : ZoneOffset → Tables → Request → Prop) : Prop :=
  ∀ (zoneOffset : ZoneOffset) (start : Tables) (requests : List Request),
    start.promotions.rows = [] →
    Admits (guard zoneOffset) (handle zoneOffset) start requests →
    StoredRules zoneOffset (requests.foldl (handle zoneOffset) start)

/-- The random id of a creation is new. -/
def DrawsFresh (tables : Tables) : Request → Prop
  | .create _ id _ _ => tables.promotions.find id = none
  | _ => True

/-- Targets of the default side are of the type that the promotion applies to, no promotion without
an end date is ended before it starts, and what is targeted stays in the catalog. -/
def Sensible (zoneOffset : ZoneOffset) (tables : Tables) : Request → Prop
  | .create _ _ dto _ => ∀ item ∈ dto.targetItems, some item.targetType = dto.appliesTo
  | .update tenantId id dto _ =>
      ∀ row ∈ tables.findPromotion tenantId id, dto.Matches zoneOffset row.promotion
  | .endPromotion tenantId id now => EndsInTime tenantId tables id now
  | .batchEnd tenantId ids clock =>
      ∀ id ∈ ids, EndsInTime tenantId tables id (clock (ids.idxOf id))
  | .editTargets tenantId targetIds => ∀ row ∈ tables.promotions.rows, row.tenantId = tenantId →
      row.promotion.storedInput.Listed
        { tables.catalog tenantId with
          categories := targetIds .categories
          brands := targetIds .brands
          products := targetIds .products
          variants := targetIds .variants }
  | _ => True

section

variable {zoneOffset : ZoneOffset} {tables after : Tables} {request : Request} {outcome : Outcome}
  {tenantId id : String} {now : Int}

theorem AllConsistent.of_same (h : AllConsistent tables)
    (hPromotions : after.promotions = tables.promotions) (hCatalog : after.catalog = tables.catalog) :
    AllConsistent after := by
  unfold AllConsistent
  rw [hPromotions, hCatalog]
  exact h

theorem updateStatuses_nil : updateStatuses tenantId [] tables = .ok tables := rfl

/-- A catalog that still lists what the tenant's promotions target. -/
theorem AllConsistent.editTargets {catalog : Catalog} (h : AllConsistent tables)
    (hListed : ∀ row ∈ tables.promotions.rows, row.tenantId = tenantId →
      row.promotion.storedInput.Listed catalog) :
    AllConsistent { tables with catalog := Function.update tables.catalog tenantId catalog } := by
  intro id row hRow
  by_cases hTenant : row.tenantId = tenantId
  · have hMem := (Keyed.Rows.find_eq_some_iff.mp hRow).1
    have hNew := hListed row hMem hTenant
    simp only [hTenant, Function.update_self]
    exact { h id row hRow with listed := hNew }
  · simp only [Function.update_of_ne hTenant]
    exact h id row hRow

theorem seed_catalog {key : AlertKey} : (seed key tables).catalog = tables.catalog := by
  unfold seed
  split <;> rfl

theorem turns_of_changeStatus {write : Int → Promotion → Option StatusWrite} {told : Outcome}
    (h : serve (changeStatus (write now) tenantId id [] >>= fun written =>
      pure ⟨updateStatuses tenantId written, told⟩) tables = .ok (after, outcome)) :
    Turns tenantId write (fun _ => now) [id] 0 tables after := by
  rw [serve_bind] at h
  obtain ⟨written, hAlone, h⟩ := bind_eq_ok.mp h
  rw [serve_pure] at h
  obtain ⟨_, hWrite, hSame⟩ := map_eq_ok.mp h
  obtain ⟨rfl, _⟩ := Prod.mk.inj hSame
  apply turns_of_alone updateStatuses_nil _ hWrite
  simp only [changeEach, Tx.alone_bind, hAlone]
  rfl

theorem turns_of_changeEach {write : Int → Promotion → Option StatusWrite} {clock : Nat → Int}
    {ids : List String} {told : Outcome} (h : serve (preflight tenantId ids >>= fun _ =>
      changeEach write tenantId clock ids 0 [] >>= fun written =>
        pure ⟨updateStatuses tenantId written, told⟩) tables = .ok (after, outcome)) :
    Turns tenantId write clock ids 0 tables after := by
  rw [serve_bind] at h
  replace h := past h
  rw [serve_bind] at h
  obtain ⟨written, hAlone, h⟩ := bind_eq_ok.mp h
  rw [serve_pure] at h
  obtain ⟨_, hWrite, hSame⟩ := map_eq_ok.mp h
  obtain ⟨rfl, _⟩ := Prod.mk.inj hSame
  exact turns_of_alone updateStatuses_nil hAlone hWrite

/-- The step lemma: a request that is served keeps every stored promotion consistent. -/
theorem AllConsistent.serve (h : AllConsistent tables) (hFresh : DrawsFresh tables request)
    (hSensible : Sensible zoneOffset tables request)
    (hServe : Transactions.serve (request.body zoneOffset) tables = .ok (after, outcome)) :
    AllConsistent after := by
  have hServes := Service.serves_of_serve (promotionService_keeps zoneOffset request) trivial hServe
  cases request with
  | create tenantId id dto now => exact h.create hFresh hSensible hServe
  | update tenantId id dto now => exact h.update hSensible hServe
  | endPromotion tenantId id now =>
      apply h.ends (turns_of_changeStatus hServe)
      intro other hOther
      rw [List.mem_singleton.mp hOther]
      exact hSensible
  | batchEnd tenantId ids clock =>
      apply h.ends (turns_of_changeEach hServe)
      intro other hOther
      rw [Nat.zero_add]
      exact hSensible other hOther
  | activatePromotion tenantId id now => exact h.activations (turns_of_changeStatus hServe)
  | batchActivate tenantId ids clock => exact h.activations (turns_of_changeEach hServe)
  | claimExpiryAlert claim =>
      cases hServes with
      | claimed due gate => exact h.of_same seed_promotions seed_catalog
      | alreadyAlerted due gate => exact h.of_same seed_promotions seed_catalog
      | notEligible => exact h
      | ended asked | activated asked | elapsed asked => exact asked.elim
  | editTargets tenantId targetIds =>
      obtain ⟨_, hWrite, hSame⟩ := map_eq_ok.mp ((serve_pure _).symm.trans hServe)
      cases hWrite
      obtain ⟨rfl, _⟩ := Prod.mk.inj hSame
      exact h.editTargets hSensible
  | tick ms =>
      obtain ⟨_, hWrite, hSame⟩ := map_eq_ok.mp ((serve_pure _).symm.trans hServe)
      cases hWrite
      obtain ⟨rfl, _⟩ := Prod.mk.inj hSame
      exact h

/-- The run lemma. -/
theorem AllConsistent.requests {start : Tables} {requests : List Request} (h : AllConsistent start)
    (hAdmits : Admits (fun tables request =>
      DrawsFresh tables request ∧ Sensible zoneOffset tables request) (handle zoneOffset) start
        requests) : AllConsistent (requests.foldl (handle zoneOffset) start) := by
  induction requests generalizing start with
  | nil => exact h
  | cons request rest ih =>
      obtain ⟨⟨hFresh, hSensible⟩, hRest⟩ := hAdmits
      apply ih _ hRest
      unfold handle
      cases hServe : Transactions.serve (request.body zoneOffset) start with
      | ok served => exact h.serve hFresh hSensible hServe
      | error error => exact h

theorem AllConsistent.storedRules (h : AllConsistent tables) : StoredRules zoneOffset tables := by
  have hRow : ∀ row ∈ tables.promotions.rows,
      row.promotion.Consistent (tables.catalog row.tenantId) :=
    fun row hMem => h _ row (Keyed.Rows.find_of_mem hMem)
  constructor
  · exact fun row hMem => accepted_iff.mpr (hRow row hMem).rules
  · exact fun row hMem => ⟨(hRow row hMem).buyXGetY, (hRow row hMem).advanced⟩
  · exact fun row hMem => (hRow row hMem).typed
  · intro row hMem title now hTitle
    have hFound := findPromotion_eq_some.mpr ⟨Keyed.Rows.find_of_mem hMem, rfl⟩
    exact (hRow row hMem).retitle hFound hTitle now

end

/-- From no promotions, sensible requests leave stored promotions that follow the rules. -/
theorem storedRules_hold (zoneOffset : ZoneOffset) (start : Tables) (requests : List Request)
    (hEmpty : start.promotions.rows = [])
    (hAdmits : Admits (fun tables request => DrawsFresh tables request ∧
      Sensible zoneOffset tables request) (handle zoneOffset) start requests) :
    StoredRules zoneOffset (requests.foldl (handle zoneOffset) start) := by
  have hStart : AllConsistent start := by
    intro id row hRow
    have hMem := (Keyed.Rows.find_eq_some_iff.mp hRow).1
    rw [hEmpty] at hMem
    cases hMem
  exact (hStart.requests hAdmits).storedRules

/-! ### An end before the start -/

namespace StoredRules

/-- A discount on one product from the given day on, without an end. -/
def discount (startDate : Int) : CreatePromotionDto where
  title := "Promo"
  type := .productDiscount
  method := .automatic
  botEligible := none
  startDate := some startDate
  endDate := none
  customerScope := none
  discountType := some .percentage
  discountValue := some 10
  minPurchaseAmountCents := none
  appliesTo := some .products
  targetItems := [⟨.products, "x"⟩]
  buyQuantity := none
  getQuantity := none
  getDiscountPercent := none
  buyTargetType := none
  getTargetType := none
  buyTargetItems := []
  getTargetItems := []
  maxProductUnits := none
  customerIds := []
  priceListIds := []
  daysOfWeek := []

def tables : Tables where
  catalog _ := ⟨[], [], ["x"], [], [], []⟩
  promotions := Keyed.Rows.empty _
  alertStates := []
  outbox := []
  clock := 0

/-- A promotion that starts on the day after the epoch is ended on the day of the epoch. -/
def early : List Request :=
  [.create "t1" "p1" (discount dayMs) 5, .endPromotion "t1" "p1" 5]

/-- The promotion starts on the day of the epoch; it is ended, activated and renamed. -/
def inTime : List Request :=
  [.create "t1" "p1" (discount 0) 5, .endPromotion "t1" "p1" 5, .activatePromotion "t1" "p1" 8,
    .update "t1" "p1" (.retitle "Promo 2") 9]

/-- The tables that are left, and the promotions in them. -/
def after (requests : List Request) : Tables :=
  requests.foldl (handle fun _ => 0) tables

def left (requests : List Request) : List PromotionRow :=
  (after requests).promotions.rows

end StoredRules

/-- The end date of the early end comes before the start date. -/
theorem not_rulesHold : ¬ RulesHold fun _ => DrawsFresh := by
  intro h
  have hRules := h (fun _ => 0) StoredRules.tables StoredRules.early rfl ⟨by rfl, trivial, trivial⟩
  have hLeft : (StoredRules.left StoredRules.early).map (fun row =>
      (row.promotion.startDate, row.promotion.endDate)) = [(some dayMs, some 5)] := by
    decide +kernel
  obtain ⟨row, hRow, hSame⟩ : ∃ row ∈ StoredRules.left StoredRules.early,
      (row.promotion.startDate, row.promotion.endDate) = (some dayMs, some 5) := by
    rw [← List.mem_map, hLeft]
    exact List.mem_singleton_self _
  obtain ⟨hStart, hEnd⟩ := Prod.mk.inj hSame
  have hDates : validateDateRange row.promotion.startDate row.promotion.endDate = .ok () :=
    (accepted_iff.mp (hRules.accepted row hRow)).dates
  rw [hStart, hEnd, validateDateRange, throwIf_eq_ok] at hDates
  exact hDates ⟨dayMs, rfl, 5, rfl, by decide⟩

/-- A promotion that is ended in time, activated and renamed follows its rules. -/
theorem storedRules_hold_inTime :
    (StoredRules.left StoredRules.inTime).map (fun row => row.promotion.title) = ["Promo 2"] ∧
    StoredRules (fun _ => 0) (StoredRules.after StoredRules.inTime) := by
  have hCreate : ∀ item ∈ (StoredRules.discount 0).targetItems,
      some item.targetType = (StoredRules.discount 0).appliesTo := by decide
  have hEnd : EndsInTime "t1" (StoredRules.after (StoredRules.inTime.take 1)) "p1" 5 := by
    decide +kernel
  have hUpdate : ∀ row ∈ (StoredRules.after (StoredRules.inTime.take 3)).findPromotion "t1" "p1",
      (UpdatePromotionDto.retitle "Promo 2").Matches (fun _ => 0) row.promotion := by
    decide +kernel
  refine ⟨by decide +kernel, storedRules_hold (fun _ => 0) StoredRules.tables _ rfl ?_⟩
  exact ⟨⟨by rfl, hCreate⟩, ⟨trivial, hEnd⟩, ⟨trivial, trivial⟩, ⟨trivial, hUpdate⟩, trivial⟩

end Houndfe.Promotions
