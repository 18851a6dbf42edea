import Houndfe.Promotions.PromotionRequests

/-! The targets of a promotion: what their resolution lets through, that resolving stored targets
again gives the same ones, and what the rules of `Promotion.create` depend on. -/

namespace Houndfe.Promotions

/-! ### Resolution -/

def TargetItemDto.onSide (side : TargetSide) (dto : TargetItemDto) : PromotionTargetItemData :=
  ⟨side, dto.targetType, dto.targetId⟩

def PromotionTargetItemData.dto (item : PromotionTargetItemData) : TargetItemDto :=
  ⟨item.targetType, item.targetId⟩

/-- The targets that an input names, side by side. -/
def TargetInput.sides (input : TargetInput) : List PromotionTargetItemData :=
  input.targetItems.map (·.onSide .default) ++
    (sideItems input.buyTargetType input.buyTargetItems).map (·.onSide .buy) ++
    (sideItems input.getTargetType input.getTargetItems).map (·.onSide .get)

/-- Every id that an input names is found. -/
structure TargetInput.Listed (catalog : Catalog) (input : TargetInput) : Prop where
  default : validateTargetIds catalog input.targetItems = .ok ()
  buy : validateTargetIds catalog (sideItems input.buyTargetType input.buyTargetItems) = .ok ()
  get : validateTargetIds catalog (sideItems input.getTargetType input.getTargetItems) = .ok ()

section

variable {catalog : Catalog} {result items : List PromotionTargetItemData}
  {item : PromotionTargetItemData} {side : TargetSide} {dtos : List TargetItemDto}

theorem pushUnique_eq_ok : pushUnique result item = .ok items ↔
    item ∉ result ∧ items = result ++ [item] := by
  simp only [pushUnique, bind_eq_ok, throwIf_eq_ok, pure_eq_ok]
  constructor
  · rintro ⟨_, hFresh, rfl⟩
    exact ⟨hFresh, rfl⟩
  · rintro ⟨hFresh, rfl⟩
    exact ⟨(), hFresh, rfl⟩

/-- Targets are pushed as long as they stay distinct. -/
theorem foldlM_pushUnique {pushed : List PromotionTargetItemData} (hResult : result.Nodup) :
    pushed.foldlM pushUnique result = .ok items ↔
      items = result ++ pushed ∧ items.Nodup := by
  induction pushed generalizing result with
  | nil =>
      rw [List.foldlM_nil, pure_eq_ok, List.append_nil]
      exact ⟨fun h => ⟨h.symm, h ▸ hResult⟩, fun h => h.1.symm⟩
  | cons first rest ih =>
      rw [List.foldlM_cons, bind_eq_ok]
      constructor
      · rintro ⟨middle, hFirst, hRest⟩
        obtain ⟨hFresh, rfl⟩ := pushUnique_eq_ok.mp hFirst
        have hMiddle : (result ++ [first]).Nodup :=
          List.nodup_append.mpr ⟨hResult, by simp, by
            rintro a hA b hB rfl
            exact hFresh (List.mem_singleton.mp hB ▸ hA)⟩
        obtain ⟨rfl, hNodup⟩ := (ih hMiddle).mp hRest
        exact ⟨by simp, hNodup⟩
      · rintro ⟨rfl, hNodup⟩
        have hAll : ((result ++ [first]) ++ rest).Nodup := by simpa using hNodup
        have hMiddle : (result ++ [first]).Nodup := (List.nodup_append.mp hAll).1
        have hFresh : first ∉ result := fun hMem =>
          (List.nodup_append.mp hMiddle).2.2 first hMem first (by simp) rfl
        exact ⟨_, pushUnique_eq_ok.mpr ⟨hFresh, rfl⟩, (ih hMiddle).mpr ⟨by simp, hNodup⟩⟩

theorem pushSide_eq_ok (hResult : result.Nodup) :
    pushSide catalog side dtos result = .ok items ↔ validateTargetIds catalog dtos = .ok () ∧
      items = result ++ dtos.map (·.onSide side) ∧ items.Nodup := by
  unfold pushSide
  rw [bind_eq_ok]
  have hFold : (dtos.map (·.onSide side)).foldlM pushUnique result = .ok items ↔ _ :=
    foldlM_pushUnique hResult
  constructor
  · rintro ⟨⟨⟩, hValid, hPushed⟩
    exact ⟨hValid, hFold.mp hPushed⟩
  · rintro ⟨hValid, hPushed⟩
    exact ⟨(), hValid, hFold.mpr hPushed⟩

/-- The resolution lets through the targets that are listed and distinct, as they are. -/
theorem resolveTargetItems_eq_ok {input : TargetInput} :
    resolveTargetItems catalog input = .ok items ↔
      input.Listed catalog ∧ items = input.sides ∧ items.Nodup := by
  unfold resolveTargetItems
  rw [bind_eq_ok]
  constructor
  · rintro ⟨defaults, hDefaults, h⟩
    obtain ⟨bought, hBought, hGot⟩ := bind_eq_ok.mp h
    obtain ⟨hDefault, rfl, hFirst⟩ := (pushSide_eq_ok List.nodup_nil).mp hDefaults
    obtain ⟨hBuy, rfl, hSecond⟩ := (pushSide_eq_ok hFirst).mp hBought
    obtain ⟨hGet, rfl, hThird⟩ := (pushSide_eq_ok hSecond).mp hGot
    exact ⟨⟨hDefault, hBuy, hGet⟩, by simp [TargetInput.sides], hThird⟩
  · rintro ⟨hListed, rfl, hNodup⟩
    have hSecond : (input.targetItems.map (·.onSide .default) ++
        (sideItems input.buyTargetType input.buyTargetItems).map (·.onSide .buy)).Nodup :=
      (List.nodup_append.mp hNodup).1
    have hFirst : (input.targetItems.map (·.onSide .default)).Nodup :=
      (List.nodup_append.mp hSecond).1
    refine ⟨input.targetItems.map (·.onSide .default), ?_, ?_⟩
    · exact (pushSide_eq_ok List.nodup_nil).mpr ⟨hListed.default, by simp, hFirst⟩
    · rw [bind_eq_ok]
      exact ⟨_, (pushSide_eq_ok hFirst).mpr ⟨hListed.buy, rfl, hSecond⟩,
        (pushSide_eq_ok hSecond).mpr ⟨hListed.get, rfl, hNodup⟩⟩

end

/-! ### Stored targets -/

/-- The type of a target is that of its side. -/
def ItemTyped (promo : Promotion) (item : PromotionTargetItemData) : Prop :=
  match item.side with
  | .default => some item.targetType = promo.appliesTo
  | .buy => some item.targetType = promo.buyTargetType
  | .get => some item.targetType = promo.getTargetType

/-- The targets that an input names are those that are stored, resolved again. -/
def Promotion.storedInput (promo : Promotion) : TargetInput where
  targetItems := (promo.side .default).map (·.dto)
  buyTargetType := promo.buyTargetType
  getTargetType := promo.getTargetType
  buyTargetItems := (promo.side .buy).map (·.targetId)
  getTargetItems := (promo.side .get).map (·.targetId)

section

variable {promo : Promotion} {item : PromotionTargetItemData} {side : TargetSide}

theorem mem_side : item ∈ promo.side side ↔ item ∈ promo.targetItems ∧ item.side = side := by
  simp [Promotion.side]

theorem map_onSide_dto : ((promo.side side).map (·.dto)).map (·.onSide side) = promo.side side := by
  rw [List.map_map]
  conv => rhs; rw [← List.map_id (promo.side side)]
  apply List.map_congr_left
  intro item hItem
  obtain ⟨_, rfl⟩ := mem_side.mp hItem
  rfl

/-- A side with a type of its own is named by its ids alone. -/
theorem sideItems_side {targetType : Option PromotionTargetType}
    (h : ∀ item ∈ promo.side side, some item.targetType = targetType) :
    sideItems targetType ((promo.side side).map (·.targetId)) = (promo.side side).map (·.dto) := by
  cases targetType with
  | none =>
      have hEmpty : promo.side side = [] := by
        rw [List.eq_nil_iff_forall_not_mem]
        intro item hItem
        cases h item hItem
      rw [hEmpty]
      rfl
  | some targetType =>
      rw [sideItems, List.map_map]
      apply List.map_congr_left
      intro item hItem
      have hType : item.targetType = targetType := Option.some.inj (h item hItem)
      rw [Function.comp, PromotionTargetItemData.dto, hType]

variable (hTyped : ∀ item ∈ promo.targetItems, ItemTyped promo item)

include hTyped in
theorem sideItems_buy : sideItems promo.buyTargetType ((promo.side .buy).map (·.targetId)) =
    (promo.side .buy).map (·.dto) := by
  apply sideItems_side
  intro item hItem
  obtain ⟨hMem, hSide⟩ := mem_side.mp hItem
  simpa only [ItemTyped, hSide] using hTyped item hMem

include hTyped in
theorem sideItems_get : sideItems promo.getTargetType ((promo.side .get).map (·.targetId)) =
    (promo.side .get).map (·.dto) := by
  apply sideItems_side
  intro item hItem
  obtain ⟨hMem, hSide⟩ := mem_side.mp hItem
  simpa only [ItemTyped, hSide] using hTyped item hMem

include hTyped in
/-- Stored targets that are resolved again come back side by side. -/
theorem sides_storedInput :
    promo.storedInput.sides = promo.side .default ++ promo.side .buy ++ promo.side .get := by
  rw [TargetInput.sides, Promotion.storedInput]
  simp only [sideItems_buy hTyped, sideItems_get hTyped, map_onSide_dto]

theorem mem_sides : item ∈ promo.side .default ++ promo.side .buy ++ promo.side .get ↔
    item ∈ promo.targetItems := by
  simp only [List.mem_append, mem_side]
  cases hSide : item.side <;> simp

theorem nodup_sides (h : promo.targetItems.Nodup) :
    (promo.side .default ++ promo.side .buy ++ promo.side .get).Nodup := by
  have hApart : ∀ first second : TargetSide, first ≠ second →
      ∀ a ∈ promo.side first, ∀ b ∈ promo.side second, a ≠ b := by
    rintro first second hNe a hA b hB rfl
    exact hNe ((mem_side.mp hA).2.symm.trans (mem_side.mp hB).2)
  rw [List.nodup_append, List.nodup_append]
  refine ⟨⟨h.filter _, h.filter _, hApart _ _ (by decide)⟩, h.filter _, ?_⟩
  intro a hA b hB
  rcases List.mem_append.mp hA with hDefault | hBuy
  · exact hApart _ _ (by decide) a hDefault b hB
  · exact hApart _ _ (by decide) a hBuy b hB

end

/-! ### The checks of a whole promotion -/

section

variable {type : PromotionType} {appliesTo buyTargetType getTargetType : Option PromotionTargetType}
  {items other : List PromotionTargetItemData}

theorem assertBuyXGetYTargeted_congr (h : ∀ item, item ∈ items ↔ item ∈ other) :
    assertBuyXGetYTargeted type appliesTo items = assertBuyXGetYTargeted type appliesTo other := by
  unfold assertBuyXGetYTargeted throwIf
  simp only [h]

theorem assertSideTargeted_congr {side : TargetSide} {itemsName typeName : String}
    (h : ∀ item, item ∈ items ↔ item ∈ other) :
    assertSideTargeted side buyTargetType itemsName typeName items =
      assertSideTargeted side buyTargetType itemsName typeName other := by
  unfold assertSideTargeted throwIf
  simp only [h]

theorem overlapping_eq_none : overlapping items = none ↔ ∀ item ∈ items, item.side = .get →
    ∀ other ∈ items, other.side = .buy → other.targetType = item.targetType →
      other.targetId ≠ item.targetId := by
  simp [overlapping, List.find?_eq_none]

/-- The order of the targets does not matter to the sides of an advanced promotion. -/
theorem assertAdvancedSideTargets_ok (h : ∀ item, item ∈ items ↔ item ∈ other)
    (hOk : assertAdvancedSideTargets type buyTargetType getTargetType other = .ok ()) :
    assertAdvancedSideTargets type buyTargetType getTargetType items = .ok () := by
  unfold assertAdvancedSideTargets at hOk ⊢
  split
  · next hAdvanced =>
      rw [if_pos hAdvanced, bind_eq_ok] at hOk
      obtain ⟨_, hBuy, hOk⟩ := hOk
      obtain ⟨_, hGet, hOk⟩ := bind_eq_ok.mp hOk
      rw [assertSideTargeted_congr h, hBuy, assertSideTargeted_congr h, hGet]
      have hNone : overlapping other = none := by
        cases hOverlap : overlapping other with
        | none => rfl
        | some item => simp [hOverlap] at hOk
      have hSame : overlapping items = none := by
        rw [overlapping_eq_none] at hNone ⊢
        intro item hItem hSide other' hOther
        exact hNone item ((h item).mp hItem) hSide other' ((h other').mp hOther)
      rw [hSame]
      rfl
  · rfl

end

/-! ### What the rules of a creation depend on -/

/-- The parameters that would create the promotion as it is. -/
def Promotion.params (promo : Promotion) : CreatePromotionParams where
  botEligible := promo.botEligible
  id := promo.id
  title := promo.title
  type := promo.type
  method := promo.method
  manuallyEnded := promo.manuallyEnded
  startDate := promo.startDate
  endDate := promo.endDate
  customerScope := promo.customerScope
  discountType := promo.discountType
  discountValue := promo.discountValue
  minPurchaseAmountCents := promo.minPurchaseAmountCents
  appliesTo := promo.appliesTo
  buyQuantity := promo.buyQuantity
  getQuantity := promo.getQuantity
  getDiscountPercent := promo.getDiscountPercent
  buyTargetType := promo.buyTargetType
  getTargetType := promo.getTargetType
  maxProductUnits := promo.maxProductUnits
  consumedProductUnits := promo.consumedProductUnits
  priceLists := promo.priceLists
  daysOfWeek := promo.daysOfWeek

/-- `create` accepts the parameters. -/
def CreatePromotionParams.Accepted (params : CreatePromotionParams) : Prop :=
  Promotion.create params = .ok (Promotion.ofParams params (Text.trim params.title))

/-- The rules one by one. -/
structure CreatePromotionParams.Rules (params : CreatePromotionParams) : Prop where
  title : Text.trim params.title ≠ ""
  dates : validateDateRange params.startDate params.endDate = .ok ()
  bot : params.botEligible = true → assertBotEligibilitySupported params = .ok ()
  byType : validateByType params = .ok ()
  capacity : validateProductUnitCapacity params.maxProductUnits params.consumedProductUnits = .ok ()

theorem accepted_iff {params : CreatePromotionParams} : params.Accepted ↔ params.Rules := by
  unfold CreatePromotionParams.Accepted Promotion.create
  simp only [bind_eq_ok, throwIf_eq_ok]
  constructor
  · rintro ⟨_, hTitle, _, hDates, hRest⟩
    cases hBot : params.botEligible with
    | true =>
        simp only [hBot, if_true, bind_eq_ok] at hRest
        obtain ⟨_, hSupported, _, hByType, _, hCapacity, _⟩ := hRest
        exact ⟨hTitle, hDates, fun _ => hSupported, hByType, hCapacity⟩
    | false =>
        simp only [hBot, Bool.false_eq_true, if_false, bind_eq_ok] at hRest
        obtain ⟨_, hByType, _, hCapacity, _⟩ := hRest
        exact ⟨hTitle, hDates, fun h => absurd (hBot.symm.trans h) (by decide), hByType, hCapacity⟩
  · rintro ⟨hTitle, hDates, hBot, hByType, hCapacity⟩
    refine ⟨(), hTitle, (), hDates, ?_⟩
    cases hEligible : params.botEligible with
    | true =>
        simp only [if_true, bind_eq_ok]
        exact ⟨(), hBot hEligible, (), hByType, (), hCapacity, rfl⟩
    | false =>
        simp only [Bool.false_eq_true, if_false, bind_eq_ok]
        exact ⟨(), hByType, (), hCapacity, rfl⟩

theorem accepted_of_create {params : CreatePromotionParams} {created : Promotion}
    (h : Promotion.create params = .ok created) : params.Accepted := by
  obtain ⟨rfl, _⟩ := Promotion.create_eq_ok h
  exact h

end Houndfe.Promotions
