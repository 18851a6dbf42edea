import Houndfe.Base.Transition
import Houndfe.Sales.DraftMutations

/-! The totals of a saved draft against the totals of the charge. A draft whose last write
recomputed keeps its totals when the charge recomputes; the writes that skip the recompute
keep the draft well formed, and nothing more. -/

namespace Houndfe.Sales

open Promotions Products Traverse Transition

/-! ### A draft without lines -/

theorem orderDiscountCents_nonneg_of_recompute {env : PricingEnvironment} {sale : Sale}
    {recomputed : Recomputed} (h : recomputePricingAndPromotions env sale = .ok recomputed) :
    0 ≤ recomputed.sale.orderDiscountCents := by
  obtain ⟨prepared, items, _, _, rfl⟩ := recompute_eq_ok.mp h
  have hOrder : (Recomputed.of env prepared items).sale.orderDiscountCents = _ :=
    orderDiscountCents_applyOrderResult _ _
  rw [hOrder]
  obtain ⟨candidates, _, hPass, _⟩ :=
    evaluate_fits (buildPosEvalInput env prepared) env.promotions
  cases hSelected : (evaluate (buildPosEvalInput env prepared) env.promotions).selection.order with
  | none => exact le_rfl
  | some order =>
      rw [hPass] at hSelected
      exact (pickBestOrderPromo_eq_some hSelected).1.le

/-- Without lines an order discount takes nothing. -/
theorem previewTotals_of_empty {sale : Sale} (hItems : sale.items = [])
    (hOrder : 0 ≤ sale.orderDiscountCents) : sale.previewTotals = ⟨0, 0, 0⟩ := by
  simp [Sale.previewTotals, hItems, Sale.subtotalBaseCents, Sale.postLineSubtotalCents, hOrder]

theorem recompute_of_empty (env : PricingEnvironment) {sale : Sale} (hItems : sale.items = [])
    (hDraft : sale.status = .draft) :
    ∃ again, recomputePricingAndPromotions env sale = .ok again ∧
      again.sale.previewTotals = ⟨0, 0, 0⟩ := by
  have hPrepared : prepareSale env sale = .ok { sale with items := [] } :=
    prepareSale_eq_ok.mpr ⟨hDraft, [], by rw [hItems]; rfl, rfl⟩
  have hNone : (({ sale with items := [] } : Sale).items.map SaleItem.id).Nodup := List.nodup_nil
  have hRecompute : recomputePricingAndPromotions env sale =
      .ok (Recomputed.of env { sale with items := [] } []) :=
    recompute_eq_ok.mpr ⟨_, [], hPrepared,
      (applyLineResults_eq_ok_iff (selected_keys hNone) hNone).mpr rfl, rfl⟩
  have hOrder := orderDiscountCents_nonneg_of_recompute hRecompute
  exact ⟨_, hRecompute, previewTotals_of_empty (Recomputed.of_items _ _ _) hOrder⟩

/-! ### What a request writes -/

/-- The requests that recompute before they save, and the one that leaves no line. -/
def DraftMutation.reevaluates : DraftMutation → Bool
  | .applyItemDiscount _ _ | .applyGlobalDiscount _ _ | .removeGlobalDiscount
  | .clearCustomer => false
  | _ => true

namespace DraftService

/-- What the request `mutation` saves of the draft `sale`. -/
inductive Writes (env : DraftEnvironment) (sale : Sale) (mutation : DraftMutation) :
    Sale → Prop where
  | recomputed {mutated saved : Sale} (hMutated : mutated.WellFormed)
      (hSaved : reevaluate env mutated = .ok saved) : Writes env sale mutation saved
  | cleared {saved : Sale} (hItems : saved.items = []) (hDraft : saved.status = .draft)
      (hOrder : saved.orderDiscountCents = sale.orderDiscountCents) :
      Writes env sale mutation saved
  | skipped {saved : Sale} (hSkips : mutation.reevaluates = false)
      (hWellFormed : saved.WellFormed)
      (hOrder : saved.orderDiscountCents = sale.orderDiscountCents) :
      Writes env sale mutation saved

variable {env : DraftEnvironment} {actorId : String} {sale saved : Sale}

/-- Every request that saves recomputes, leaves no line, or is one of those that skip. -/
theorem serve_writes {mutation : DraftMutation} (hWellFormed : sale.WellFormed)
    (hFresh : mutation.DrawsFresh sale) (h : serve env actorId sale mutation = .ok (some saved)) :
    Writes env sale mutation saved := by
  obtain ⟨mutated, hMutates, hSaved⟩ := serve_saves h
  have hMutated := hMutates.wellFormed hWellFormed hFresh
  have hOrder := hMutates.orderDiscountCents
  cases mutation with
  | clearItems =>
      cases hSaved
      cases hMutates with
      | clearItems h =>
          have hSame := hOrder rfl
          obtain ⟨_, hDraft, h⟩ := bind_eq_ok.mp h
          cases pure_eq_ok.mp h
          exact .cleared rfl (not_not.mp (throwIf_eq_ok.mp hDraft)) hSame
  | applyItemDiscount | applyGlobalDiscount | removeGlobalDiscount | clearCustomer =>
      cases hSaved
      exact .skipped rfl hMutated (hOrder rfl)
  | addItem | updateItemQuantity | removeItem | overrideItemPrice | removeItemDiscount
  | applyManualPromotion | removeManualPromotion | removeAppliedPromotion | assignCustomer
  | setSalePriceList => exact .recomputed hMutated hSaved

end DraftService

/-! ### Runs of requests -/

structure DraftRequest where
  env : DraftEnvironment
  actorId : String
  mutation : DraftMutation

/-- A draft with the request that wrote it last. -/
structure Draft where
  sale : Sale
  lastWrite : Option DraftRequest

/-- A request loads the draft with its rows in some order, and saves what it makes of it. One
that is refused, or has nothing to save, leaves the draft. -/
inductive DraftStep : Draft → DraftRequest → Draft → Prop where
  | saves {draft : Draft} {request : DraftRequest} {loaded saved : Sale}
      (hLoaded : Reloaded draft.sale loaded) (hFresh : request.mutation.DrawsFresh loaded)
      (hServe : DraftService.serve request.env request.actorId loaded request.mutation =
        .ok (some saved)) : DraftStep draft request ⟨saved, some request⟩
  | keeps {draft : Draft} {request : DraftRequest} {loaded : Sale}
      (hLoaded : Reloaded draft.sale loaded)
      (hServe : ∀ saved, DraftService.serve request.env request.actorId loaded request.mutation ≠
        .ok (some saved)) : DraftStep draft request draft

/-- The charge, recomputing under the prices and promotions of the last write, comes to the
totals of the draft. -/
def Draft.PreviewIsCharged (draft : Draft) : Prop :=
  ∀ env, (∀ request ∈ draft.lastWrite, request.env.pricing = env) →
    ∀ loaded, Reloaded draft.sale loaded →
      ∃ charged, recomputePricingAndPromotions env loaded = .ok charged ∧
        charged.sale.previewTotals = draft.sale.previewTotals

/-- The invariant of a draft: its order discount is not negative, and it previews the charge
unless its last write skipped the recompute. -/
structure DraftInvariant (draft : Draft) : Prop where
  wellFormed : draft.sale.WellFormed
  order : 0 ≤ draft.sale.orderDiscountCents
  preview : (∀ request ∈ draft.lastWrite, request.mutation.reevaluates = true) →
    draft.PreviewIsCharged

theorem Reloaded.orderDiscountCents {saved loaded : Sale} (h : Reloaded saved loaded) :
    loaded.orderDiscountCents = saved.orderDiscountCents := by
  rw [h.columns]
  rfl

theorem preview_of_empty {draft : Draft} (hItems : draft.sale.items = [])
    (hDraft : draft.sale.status = .draft) (hOrder : 0 ≤ draft.sale.orderDiscountCents) :
    draft.PreviewIsCharged := by
  intro env _ loaded hLoaded
  have hNone : loaded.items = [] := List.perm_nil.mp (hItems ▸ hLoaded.items).symm
  have hStatus : loaded.status = .draft := by
    rw [hLoaded.columns]
    exact hDraft
  obtain ⟨charged, hCharged, hTotals⟩ := recompute_of_empty env hNone hStatus
  exact ⟨charged, hCharged, hTotals.trans (previewTotals_of_empty hItems hOrder).symm⟩

theorem draftInvariant_opened {id userId : String} {sale : Sale}
    (h : Sale.create id userId = .ok sale) : DraftInvariant ⟨sale, none⟩ := by
  replace h := past (past h)
  cases pure_eq_ok.mp h
  refine ⟨⟨List.nodup_nil, fun _ hNone => ?_⟩, le_rfl, fun _ => ?_⟩
  · cases hNone
  · exact preview_of_empty rfl rfl le_rfl

/-- What one request writes keeps the invariant. -/
theorem draftInvariant_step {draft after : Draft} {request : DraftRequest}
    (hInvariant : DraftInvariant draft) (hStep : DraftStep draft request after) :
    DraftInvariant after := by
  cases hStep with
  | keeps _ _ => exact hInvariant
  | @saves loaded saved hLoaded hFresh hServe =>
      have hWellFormed := hLoaded.wellFormed hInvariant.wellFormed
      have hOrderLoaded : 0 ≤ loaded.orderDiscountCents := by
        rw [hLoaded.orderDiscountCents]
        exact hInvariant.order
      cases DraftService.serve_writes hWellFormed hFresh hServe with
      | @recomputed mutated _ hMutated hSaved =>
          obtain ⟨recomputed, hRecompute, hSale⟩ := bind_eq_ok.mp hSaved
          cases pure_eq_ok.mp hSale
          refine ⟨recompute_wellFormed hMutated hRecompute,
            orderDiscountCents_nonneg_of_recompute hRecompute, fun _ => ?_⟩
          intro env hEnv loaded hReloaded
          cases hEnv request rfl
          exact recompute_again hMutated hRecompute hReloaded
      | cleared hItems hDraft hOrder =>
          refine ⟨WellFormedLines.sale ?_, hOrder ▸ hOrderLoaded, fun _ => ?_⟩
          · rw [hItems]
            exact ⟨List.nodup_nil, fun _ hNone => by cases hNone⟩
          · exact preview_of_empty hItems hDraft (hOrder ▸ hOrderLoaded)
      | skipped hSkips hSaved hOrder =>
          refine ⟨hSaved, hOrder ▸ hOrderLoaded, fun hReevaluates => ?_⟩
          have hTrue := hReevaluates request rfl
          rw [hSkips] at hTrue
          cases hTrue

/-- In every state that any run of requests reaches from a new draft, whose last write is not
a discount of one or all lines, the removal of all discounts or the removal of the customer,
the charge comes to the totals of the draft. -/
theorem preview_is_charged_of_reevaluated {id userId : String} {opened : Sale}
    {requests : List DraftRequest} {draft : Draft} (hOpened : Sale.create id userId = .ok opened)
    (run : Runs DraftStep ⟨opened, none⟩ requests draft)
    (hLast : ∀ request ∈ draft.lastWrite, request.mutation.reevaluates = true) :
    draft.PreviewIsCharged :=
  (run.invariant (fun _ _ _ => draftInvariant_step) (draftInvariant_opened hOpened)).preview hLast

/-! ### Taking all discounts off a line on promotion -/

/-- One product, at ten pesos on the default list, and a peso off it. -/
def onePesoOff : DraftEnvironment where
  now := 0
  today := .monday
  catalog := {
    products := [⟨"product", "Product", true, false⟩]
    variants := []
    prices := ⟨[⟨"product", "row", "publico", 1000, []⟩], []⟩
    defaultGlobalPriceListId := some "publico"
    imageUrl := fun _ _ => none }
  productCategoryBrand _ := none
  promotions := [fixedDiscount 100]
  checkStockAvailability _ _ _ := .ok ⟨true, 10⟩
  customers := []
  customerAddresses := []
  globalPriceListIds := ["publico"]

def addOne : DraftRequest := ⟨onePesoOff, "seller", .addItem "line" "product" none 1⟩

def takeDiscountsOff : DraftRequest := ⟨onePesoOff, "seller", .removeGlobalDiscount⟩

/-- What the first request saves: the line at nine pesos. -/
def discountedDraft : Sale :=
  { Sale.fresh "sale" "seller" with
    items := [({ SaleItem.fresh ⟨"line", "sale", "product", none, "Product", none, none, 1, 1000,
      "MXN"⟩ Quantity.one with priceSource := .priceList }).withUnitDiscount 0 .amount 100 100
        "Fixed" "promotion"] }

theorem draftStep_of_serve {sale saved : Sale} {lastWrite : Option DraftRequest}
    {request : DraftRequest} (hFresh : request.mutation.DrawsFresh sale)
    (h : DraftService.serve request.env request.actorId sale request.mutation =
      .ok (some saved)) : DraftStep ⟨sale, lastWrite⟩ request ⟨saved, some request⟩ :=
  .saves (.refl sale) hFresh h

theorem addOne_saves : DraftStep ⟨Sale.fresh "sale" "seller", none⟩ addOne
    ⟨discountedDraft, some addOne⟩ :=
  draftStep_of_serve List.not_mem_nil rfl

/-- The line with its promotion is charged as it was previewed. -/
theorem preview_is_charged_of_one_line :
    (⟨discountedDraft, some addOne⟩ : Draft).PreviewIsCharged :=
  preview_is_charged_of_reevaluated (show Sale.create "sale" "seller" = _ from rfl)
    (Runs.single addOne_saves) fun _ hRequest => by
      cases hRequest
      rfl

/-- Taking all discounts off saves a total of ten pesos, and the charge comes to nine. -/
theorem preview_not_charged_after_removal :
    ∃ draft, Runs DraftStep ⟨Sale.fresh "sale" "seller", none⟩ [addOne, takeDiscountsOff] draft ∧
      draft.sale.previewTotals = ⟨1000, 0, 1000⟩ ∧
      recomputePricingAndPromotions onePesoOff.pricing draft.sale =
        .ok ⟨discountedDraft, [⟨"promotion", 1⟩], []⟩ ∧
      discountedDraft.previewTotals = ⟨1000, 100, 900⟩ ∧ ¬ draft.PreviewIsCharged := by
  have hRemoved : DraftService.serve onePesoOff "seller" discountedDraft
      takeDiscountsOff.mutation = .ok (some discountedDraft.removeGlobalDiscount) := rfl
  have hRecompute : recomputePricingAndPromotions onePesoOff.pricing
      discountedDraft.removeGlobalDiscount = .ok ⟨discountedDraft, [⟨"promotion", 1⟩], []⟩ := rfl
  refine ⟨⟨discountedDraft.removeGlobalDiscount, some takeDiscountsOff⟩,
    (Runs.single addOne_saves).succ
      (draftStep_of_serve trivial hRemoved), by decide, hRecompute, by decide, ?_⟩
  intro hPreview
  obtain ⟨charged, hCharged, hTotals⟩ := hPreview onePesoOff.pricing
    (fun _ hRequest => by cases hRequest; rfl) _ (.refl _)
  rw [hRecompute] at hCharged
  cases hCharged
  revert hTotals
  decide

end Houndfe.Sales

/-! ### Recomputing a second time

The sale, its lines, the capacity demands and the exclusions stay what the first recompute made of
them. -/

namespace Houndfe.Sales

open Promotions Keyed Traverse Transition

section

variable {env : PricingEnvironment} {prepared : Sale} {items : List SaleItem}

theorem applyOrderResult_again (sale : Sale) (order : Option PosEvalOrderResult) :
    applyOrderResult (applyOrderResult sale order) order = applyOrderResult sale order := by
  cases order <;> rfl

theorem applyOrderResult_pruneOptIns (sale : Sale) (order : Option PosEvalOrderResult)
    (targetableIds : List String) :
    applyOrderResult (pruneOptIns sale targetableIds) order =
      pruneOptIns (applyOrderResult sale order) targetableIds := by
  cases order <;> rfl

theorem pruneOptIns_of_targetable {sale : Sale} {targetableIds : List String}
    (h : ∀ id ∈ sale.optedInManualPromotionIds, id ∈ targetableIds) :
    pruneOptIns sale targetableIds = sale := by
  have hAll : (sale.optedInManualPromotionIds.filter fun id => targetableIds.contains id) =
      sale.optedInManualPromotionIds := by
    apply List.filter_eq_self.mpr
    intro id hId
    simpa [List.contains_eq_mem] using h id hId
  unfold pruneOptIns
  rw [hAll]

theorem withItems_self {sale : Sale} (h : sale.items = items) :
    { sale with items := items } = sale := by
  rw [← h]

/-- What the engine reads of the prepared sale, once the recompute is done. -/
def settledInput (env : PricingEnvironment) (prepared : Sale) (items : List SaleItem) :
    PosEvalInput :=
  buildPosEvalInput env { (Recomputed.of env prepared items).sale with items := prepared.items }

/-- An opt-in that survived the pruning has a target still. -/
theorem targetable_again {id : String}
    (hOptedIn : id ∈ (Recomputed.of env prepared items).sale.optedInManualPromotionIds) :
    id ∈ targetableManualPromotionIds (settledInput env prepared items)
      (loadCandidates (settledInput env prepared items) env.promotions) := by
  have hKept := (List.mem_filter.mp hOptedIn).2
  simp only [List.contains_eq_mem, decide_eq_true_eq] at hKept
  obtain ⟨promo, hPromo, rfl⟩ := List.mem_map.mp hKept
  rw [List.mem_filter] at hPromo
  obtain ⟨hLoaded, hTargets⟩ := hPromo
  simp only [Bool.and_eq_true, Bool.not_eq_true', decide_eq_true_eq] at hTargets
  obtain ⟨⟨⟨hManual, _⟩, hNotVetoed⟩, hTarget⟩ := hTargets
  apply List.mem_map_of_mem
  rw [List.mem_filter]
  refine ⟨hLoaded, ?_⟩
  have hVetoed : (settledInput env prepared items).vetoedPromotionIds =
      prepared.vetoedPromotionIds := applyOrderResult_vetoed _ _
  have hOptedInAgain : promo.id ∈ (settledInput env prepared items).optedInManualPromotionIds :=
    hOptedIn
  have hLines : (settledInput env prepared items).lines = (buildPosEvalInput env prepared).lines :=
    rfl
  rw [hVetoed, hLines]
  have hNotVetoedAgain : promo.id ∉ (buildPosEvalInput env prepared).vetoedPromotionIds := by
    simpa [List.contains_eq_mem] using hNotVetoed
  change promo.id ∉ prepared.vetoedPromotionIds at hNotVetoedAgain
  simp [hManual, hOptedInAgain, hNotVetoedAgain, hTarget]

end

theorem applyLineResults_again {env : PricingEnvironment} {sale prepared after : Sale}
    (hWellFormed : sale.WellFormed) (hPrepared : prepareSale env sale = .ok prepared)
    (h : Settles env sale prepared after) :
    applyLineResults env.now (evaluate (buildPosEvalInput env
      { after with items := prepared.items }) env.promotions).selection.lines prepared.items =
        .ok after.items := by
  have hIds := prepared_ids hWellFormed hPrepared
  have hSame := (agrees_again hWellFormed hPrepared h (.refl after) (.refl _)).evaluate
  have hResults : applyResultFor env.now (selectedLines env { after with items := prepared.items }) =
      applyResultFor env.now (selectedLines env prepared) := by
    funext item
    have hHere := congrFun hSame.lines item.id
    simp only [applyResultFor, selectedLines]
    rw [hHere]
  have hApplied := h.lines
  rw [← hResults] at hApplied
  have hPreparedIds : (({ after with items := prepared.items } : Sale).items.map SaleItem.id).Nodup :=
    hIds
  exact (applyLineResults_eq_ok_iff (selected_keys hPreparedIds) hIds).mpr hApplied

/-- The second round writes the sale that the first one left. -/
theorem of_settled (env : PricingEnvironment) (prepared : Sale) (items : List SaleItem)
    (hOrder : (evaluate (settledInput env prepared items) env.promotions).selection.order =
      (evaluate (buildPosEvalInput env prepared) env.promotions).selection.order) :
    (Recomputed.of env { (Recomputed.of env prepared items).sale with items := prepared.items }
      items).sale = (Recomputed.of env prepared items).sale := by
  have hItems := withItems_self (Recomputed.of_items env prepared items)
  have hApplied : applyOrderResult (Recomputed.of env prepared items).sale
      (evaluate (buildPosEvalInput env prepared) env.promotions).selection.order =
        (Recomputed.of env prepared items).sale :=
    (applyOrderResult_pruneOptIns _ _ _).trans
      (congrArg (fun sale => pruneOptIns sale _) (applyOrderResult_again _ _))
  calc (Recomputed.of env { (Recomputed.of env prepared items).sale with
        items := prepared.items } items).sale
      = pruneOptIns (applyOrderResult { (Recomputed.of env prepared items).sale with
          items := items }
          (evaluate (settledInput env prepared items) env.promotions).selection.order)
          (targetableManualPromotionIds (settledInput env prepared items)
            (loadCandidates (settledInput env prepared items) env.promotions)) := rfl
    _ = pruneOptIns (Recomputed.of env prepared items).sale
          (targetableManualPromotionIds (settledInput env prepared items)
            (loadCandidates (settledInput env prepared items) env.promotions)) := by
        rw [hItems, hOrder, hApplied]
    _ = (Recomputed.of env prepared items).sale :=
        pruneOptIns_of_targetable fun id hId => targetable_again hId

/-- A recompute of what a recompute made: nothing changes. -/
theorem recompute_fixpoint {env : PricingEnvironment} {sale : Sale} {recomputed : Recomputed}
    (hWellFormed : sale.WellFormed)
    (h : recomputePricingAndPromotions env sale = .ok recomputed) :
    recomputePricingAndPromotions env recomputed.sale = .ok recomputed := by
  obtain ⟨prepared, items, hPrepared, hItems, rfl⟩ := recompute_eq_ok.mp h
  have hSettles := settles_of_recompute hWellFormed hPrepared h
  have hSame := (agrees_again hWellFormed hPrepared hSettles (.refl _) (.refl _)).evaluate
  have hLines := applyLineResults_again hWellFormed hPrepared hSettles
  rw [Recomputed.of_items] at hLines
  refine recompute_eq_ok.mpr ⟨_, items, prepareSale_eq_ok.mpr ⟨hSettles.status, _,
    hSettles.prepares hWellFormed hPrepared, rfl⟩, hLines, ?_⟩
  have hSale := of_settled env prepared items hSame.order
  exact (congr (congr (congrArg Recomputed.mk hSale) hSame.demands) hSame.excluded).symm

/-! ### Reachable drafts -/

/-- The sales that are recomputed on a draft: the draft as it is read back, and what a request
makes of it. -/
inductive ToRecompute (draft : Draft) : Sale → Prop where
  | loaded {sale : Sale} (hLoaded : Reloaded draft.sale sale) : ToRecompute draft sale
  | mutated {env : DraftEnvironment} {loaded sale : Sale} {mutation : DraftMutation}
      (hLoaded : Reloaded draft.sale loaded) (hFresh : mutation.DrawsFresh loaded)
      (hMutated : DraftService.Mutates env loaded mutation sale) : ToRecompute draft sale

theorem ToRecompute.wellFormed {draft : Draft} {sale : Sale} (h : ToRecompute draft sale)
    (hWellFormed : draft.sale.WellFormed) : sale.WellFormed := by
  cases h with
  | loaded hLoaded => exact hLoaded.wellFormed hWellFormed
  | mutated hLoaded hFresh hMutated =>
      exact hMutated.wellFormed (hLoaded.wellFormed hWellFormed) hFresh

/-- On every draft that a run of requests reaches, recomputing twice is recomputing once: the
same sale in every column, the same demands and the same exclusions. -/
theorem recompute_twice_of_run {id userId : String} {opened : Sale}
    {requests : List DraftRequest} {draft : Draft} (hOpened : Sale.create id userId = .ok opened)
    (run : Runs DraftStep ⟨opened, none⟩ requests draft) {sale : Sale}
    (hSale : ToRecompute draft sale) {env : PricingEnvironment} {recomputed : Recomputed}
    (hRecompute : recomputePricingAndPromotions env sale = .ok recomputed) :
    recomputePricingAndPromotions env recomputed.sale = .ok recomputed := by
  have hInvariant := run.invariant (fun _ _ _ => draftInvariant_step) (draftInvariant_opened hOpened)
  exact recompute_fixpoint (hSale.wellFormed hInvariant.wellFormed) hRecompute

/-- The draft with one line on promotion. -/
theorem recompute_twice_of_one_line :
    recomputePricingAndPromotions onePesoOff.pricing discountedDraft =
      .ok ⟨discountedDraft, [⟨"promotion", 1⟩], []⟩ :=
  recompute_twice_of_run (show Sale.create "sale" "seller" = _ from rfl)
    (Runs.single addOne_saves) (.loaded (.refl _))
    (show recomputePricingAndPromotions onePesoOff.pricing discountedDraft =
      .ok ⟨discountedDraft, [⟨"promotion", 1⟩], []⟩ from rfl)

end Houndfe.Sales
