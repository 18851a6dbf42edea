import Houndfe.Quotations.QuotationsService

/-! What a request on a quotation can come to: an edit of the draft and a recompute, a change of
its notes and the like, or one of the two transitions. -/

namespace Houndfe.Quotations

open Traverse

/-! ### The requests -/

/-- What a request does to a draft before the recompute. -/
inductive DraftEdit : Quotation → Quotation → Prop where
  | lineAdded {draft changed : Quotation} {props : QuotationItemProps}
      (hOwner : props.quotationId = draft.id) (hChanged : draft.addItem props = .ok changed) :
      DraftEdit draft changed
  | quantityChanged {draft changed : Quotation} {itemId : String} {newQuantity : Int}
      (hChanged : draft.updateItemQuantity itemId newQuantity = .ok changed) :
      DraftEdit draft changed
  | lineRemoved {draft changed : Quotation} {itemId : String}
      (hChanged : draft.removeItem itemId = .ok changed) : DraftEdit draft changed
  | priceOverridden {draft changed : Quotation} {itemId : String}
      {input : OverrideQuotationItemPriceInput}
      (hChanged : draft.overrideItemPrice itemId input = .ok changed) : DraftEdit draft changed
  | optedIn {draft : Quotation} {promotionId : String} :
      DraftEdit draft (draft.optInManualPromotion promotionId)
  | optedOut {draft : Quotation} {promotionId : String} :
      DraftEdit draft (draft.optOutManualPromotion promotionId)
  | vetoed {draft : Quotation} {promotionId : String} :
      DraftEdit draft (draft.addVetoedPromotion promotionId)
  | vetoLifted {draft : Quotation} {promotionId : String} :
      DraftEdit draft (draft.removeVetoedPromotion promotionId)
  | rebound {draft : Quotation} {customerId globalPriceListId : Option String}
      {explicit : Bool} :
      DraftEdit draft { draft with
        customerId := customerId
        globalPriceListId := globalPriceListId
        priceListExplicitlySet := explicit }

/-- A change of a draft that is one of these edits. -/
def Edits (change : Quotation → Except DomainError Quotation) : Prop :=
  ∀ draft changed, change draft = .ok changed → DraftEdit draft changed

/-- The status a request gives a draft. -/
def QuotationRequest.targetStatus : QuotationRequest → QuotationStatus
  | .cancel _ => .cancelled
  | .send _ _ => .sent
  | _ => .draft

/-- What a request saves of the quotation it loaded, by the status it is for. -/
inductive Saves (env : QuotationEnvironment) : QuotationStatus → Quotation → Quotation → Prop where
  | recomputed {draft changed saved : Quotation} (hDraft : draft.status = .draft)
      (hEdit : DraftEdit draft changed)
      (hSaved : recomputePricingAndPromotions env changed = .ok saved) :
      Saves env .draft draft saved
  | annotated {draft : Quotation} {sellerUserId : String} {expiresAt : Option Int}
      {customerNotes : Option String} {taxRate : Rat} (hDraft : draft.status = .draft) :
      Saves env .draft draft { draft with
        sellerUserId := sellerUserId
        expiresAt := expiresAt
        customerNotes := customerNotes
        taxRate := taxRate }
  | sent {draft : Quotation} (hDraft : draft.status = .draft) :
      Saves env .sent draft { draft with status := .sent }
  | cancelled {draft : Quotation} {reason : QuotationCancelReason} {canceledAt : Int} :
      Saves env .cancelled draft (draft.cancel reason canceledAt)

theorem ensureDraft_eq_ok {quotation : Quotation} (h : quotation.ensureDraft = .ok ()) :
    quotation.status = .draft :=
  not_not.mp (throwIf_eq_ok.mp h)

section

variable {env : QuotationEnvironment} {draft saved : Quotation}

/-- An edit is all that a recomputing request adds to the recompute. -/
theorem saves_of_reevaluated {change : Quotation → Except DomainError Quotation}
    (hChange : Edits change)
    (h : QuotationsService.reevaluated env draft change = .ok saved) :
    Saves env .draft draft saved := by
  obtain ⟨_, hDraft, h⟩ := bind_eq_ok.mp h
  obtain ⟨changed, hChanged, h⟩ := bind_eq_ok.mp h
  exact .recomputed (ensureDraft_eq_ok hDraft) (hChange draft changed hChanged) h

theorem withItem_edits (itemId productId : String) (variantId : Option String) (quantity : Int) :
    Edits (QuotationsService.withItem env itemId productId variantId quantity) := by
  intro draft changed h
  obtain ⟨info, _, h⟩ := bind_eq_ok.mp h
  exact .lineAdded rfl h

theorem setGlobalPriceList_eq_ok {quotation changed : Quotation} {id : Option String}
    {explicit : Bool} (h : quotation.setGlobalPriceList id explicit = .ok changed) :
    changed = { quotation with globalPriceListId := id, priceListExplicitlySet := explicit } := by
  replace h := past (past h)
  exact (pure_eq_ok.mp h).symm

theorem assignCustomer_eq_ok {quotation changed : Quotation} {customerId : String}
    {priceListId : Option String} (h : quotation.assignCustomer customerId priceListId =
      .ok changed) :
    ∃ listId, changed =
      { quotation with customerId := some customerId, globalPriceListId := listId } := by
  replace h := past (past h)
  exact ⟨_, (pure_eq_ok.mp h).symm⟩

theorem openDraft_eq_ok {id sellerUserId : String} {customerId globalPriceListId : Option String}
    (h : QuotationsService.openDraft env id sellerUserId customerId globalPriceListId =
      .ok draft) :
    ∃ assignedId listId explicit, draft =
      { Quotation.fresh id sellerUserId assignedId listId env.now with
        priceListExplicitlySet := explicit } := by
  obtain ⟨customer, _, h⟩ := bind_eq_ok.mp h
  obtain ⟨created, hCreated, h⟩ := bind_eq_ok.mp h
  obtain ⟨_, _, hCreated⟩ := bind_eq_ok.mp hCreated
  obtain ⟨_, _, hCreated⟩ := bind_eq_ok.mp hCreated
  cases pure_eq_ok.mp hCreated
  split at h
  · cases setGlobalPriceList_eq_ok h
    exact ⟨customer.map CustomerRow.id, globalPriceListId.filter (· ≠ ""), true, rfl⟩
  · cases pure_eq_ok.mp h
    exact ⟨_, _, false, rfl⟩

theorem withCustomer_edits (customerId : String) :
    Edits (QuotationsService.withCustomer env customerId) := by
  intro draft changed h
  obtain ⟨customer, _, h⟩ := bind_eq_ok.mp h
  obtain ⟨seeded, hSeeded, h⟩ := bind_eq_ok.mp h
  obtain ⟨listId, rfl⟩ := assignCustomer_eq_ok h
  unfold QuotationsService.seedCustomerList at hSeeded
  dsimp only at hSeeded
  split at hSeeded
  · cases setGlobalPriceList_eq_ok hSeeded
    exact .rebound
  · cases hSeeded
    exact .rebound

theorem chooseList_edits (globalPriceListId : Option String) : Edits (fun draft => do
    throwIf (∃ id ∈ globalPriceListId, id ∉ env.globalPriceListIds)
      (ruleCode "PRICE_LIST_NOT_FOUND")
    draft.setGlobalPriceList globalPriceListId true) := by
  intro draft changed h
  replace h := past h
  cases setGlobalPriceList_eq_ok h
  exact .rebound

theorem applyManual_edits (env : ServiceEnvironment) (promotionId : String) :
    Edits (fun draft => do
      QuotationsService.assertPromotionIsManual env promotionId
      return draft.optInManualPromotion promotionId) := by
  intro draft changed h
  replace h := past h
  cases pure_eq_ok.mp h
  exact .optedIn

theorem saves_of_send {sendEmail : Bool} {delivery : Except DomainError Unit}
    (h : QuotationsService.send env draft sendEmail delivery = .ok saved) :
    Saves env .sent draft saved := by
  obtain ⟨_, hDraft, h⟩ := bind_eq_ok.mp h
  replace h := past (past (past (past (past h))))
  cases pure_eq_ok.mp h
  exact .sent (ensureDraft_eq_ok hDraft)

end

theorem serve_saves {env : ServiceEnvironment} {draft saved : Quotation}
    {request : QuotationRequest} (h : QuotationsService.serve env draft request = .ok saved) :
    Saves env.toQuotationEnvironment request.targetStatus draft saved := by
  cases request with
  | addItem itemId productId variantId quantity =>
      exact saves_of_reevaluated (withItem_edits itemId productId variantId quantity) h
  | updateItemQuantity itemId quantity =>
      have hEdit : Edits fun draft => draft.updateItemQuantity itemId quantity :=
        fun _ _ => .quantityChanged
      exact saves_of_reevaluated hEdit h
  | removeItem itemId =>
      have hEdit : Edits fun draft => draft.removeItem itemId := fun _ _ => .lineRemoved
      exact saves_of_reevaluated hEdit h
  | overrideItemPrice itemId unitPriceCents =>
      have hEdit : Edits fun draft => draft.overrideItemPrice itemId
          ⟨unitPriceCents, .custom, none, some unitPriceCents⟩ := fun _ _ => .priceOverridden
      exact saves_of_reevaluated hEdit h
  | applyManualPromotion promotionId => exact saves_of_reevaluated (applyManual_edits env _) h
  | removeManualPromotion promotionId =>
      have hEdit : Edits fun draft => .ok (draft.optOutManualPromotion promotionId) := by
        intro draft changed hChanged
        cases hChanged
        exact .optedOut
      exact saves_of_reevaluated hEdit h
  | vetoPromotion promotionId =>
      have hEdit : Edits fun draft => .ok (draft.addVetoedPromotion promotionId) := by
        intro draft changed hChanged
        cases hChanged
        exact .vetoed
      exact saves_of_reevaluated hEdit h
  | optInPromotion promotionId =>
      have hEdit : Edits fun draft => .ok (draft.removeVetoedPromotion promotionId) := by
        intro draft changed hChanged
        cases hChanged
        exact .vetoLifted
      exact saves_of_reevaluated hEdit h
  | setExpiry expiresAt =>
      obtain ⟨_, hDraft, h⟩ := bind_eq_ok.mp h
      cases pure_eq_ok.mp h
      exact .annotated (ensureDraft_eq_ok hDraft)
  | setNotes _ | setTaxRate _ =>
      obtain ⟨_, hDraft, h⟩ := bind_eq_ok.mp h
      replace h := past h
      cases pure_eq_ok.mp h
      exact .annotated (ensureDraft_eq_ok hDraft)
  | assignSeller sellerUserId =>
      replace h := past h
      obtain ⟨_, hDraft, h⟩ := bind_eq_ok.mp h
      cases pure_eq_ok.mp h
      exact .annotated (ensureDraft_eq_ok hDraft)
  | cancel cancelReason =>
      cases h
      exact .cancelled
  | assignCustomer customerId => exact saves_of_reevaluated (withCustomer_edits customerId) h
  | setPriceList globalPriceListId =>
      exact saves_of_reevaluated (chooseList_edits globalPriceListId) h
  | send sendEmail delivery => exact saves_of_send h

/-! ### What a line keeps -/

theorem create_quotationId {props : QuotationItemProps} {item : QuotationItem}
    (h : QuotationItem.create props = .ok item) : item.quotationId = props.quotationId := by
  replace h := past (past (past h))
  obtain ⟨quantity, _, h⟩ := bind_eq_ok.mp h
  replace h := past h
  cases pure_eq_ok.mp h
  rfl

/-- The columns that no request changes on a line. -/
structure SameLine (item line : QuotationItem) : Prop where
  id : line.id = item.id
  quotationId : line.quotationId = item.quotationId
  productId : line.productId = item.productId
  variantId : line.variantId = item.variantId

namespace SameLine

variable {env : QuotationEnvironment} {globalPriceListId : Option String}
  {item line : QuotationItem}

theorem refl (item : QuotationItem) : SameLine item item :=
  ⟨rfl, rfl, rfl, rfl⟩

theorem trans {middle : QuotationItem} (h : SameLine item middle) (h' : SameLine middle line) :
    SameLine item line :=
  ⟨h'.id.trans h.id, h'.quotationId.trans h.quotationId, h'.productId.trans h.productId,
    h'.variantId.trans h.variantId⟩

theorem of_changeQuantity {newQuantity : Int} (h : item.changeQuantity newQuantity = .ok line) :
    SameLine item line := by
  obtain ⟨_, _, h⟩ := bind_eq_ok.mp h
  cases pure_eq_ok.mp h
  exact ⟨rfl, rfl, rfl, rfl⟩

theorem of_overridePrice {input : OverrideQuotationItemPriceInput}
    (h : item.overridePrice input = .ok line) : SameLine item line := by
  replace h := past (past (past h))
  cases pure_eq_ok.mp h
  exact ⟨rfl, rfl, rfl, rfl⟩

theorem of_clearPromotion (item : QuotationItem) : SameLine item item.clearPromotion := by
  unfold QuotationItem.clearPromotion
  split
  · exact ⟨rfl, rfl, rfl, rfl⟩
  · exact refl item

theorem of_repriceNonStickyLine
    (h : repriceNonStickyLine env globalPriceListId item = .ok line) : SameLine item line := by
  unfold repriceNonStickyLine at h
  split at h
  · cases h
    exact refl item
  · replace h := past (past h)
    cases pure_eq_ok.mp h
    exact ⟨rfl, rfl, rfl, rfl⟩

theorem of_resnapshotLine (h : resnapshotLine env globalPriceListId item = .ok line) :
    SameLine item line := by
  unfold resnapshotLine at h
  split at h
  · obtain ⟨_, _, h⟩ := bind_eq_ok.mp h
    cases pure_eq_ok.mp h
    exact ⟨rfl, rfl, rfl, rfl⟩
  · cases h
    exact refl item

theorem of_applyLineResultToItem {result : Promotions.PosEvalLineResult}
    (h : applyLineResultToItem result item = .ok line) : SameLine item line := by
  cases result with
  | reward kind reward =>
      cases h
      exact refl item
  | perUnit perUnit =>
      replace h := past (past (past (past h)))
      cases pure_eq_ok.mp h
      exact ⟨rfl, rfl, rfl, rfl⟩

theorem of_settleTaxableBase (h : settleTaxableBase item = .ok line) : SameLine item line := by
  unfold settleTaxableBase QuotationItem.recomputeTaxableBase at h
  split at h
  · cases h
    exact refl item
  · split at h
    · replace h := past h
      cases pure_eq_ok.mp h
      exact ⟨rfl, rfl, rfl, rfl⟩
    · cases h

end SameLine

/-- Every line is one of the lines before. -/
def LinesFrom (before after : List QuotationItem) : Prop :=
  ∀ line ∈ after, ∃ item ∈ before, SameLine item line

theorem linesFrom_mapM {f : QuotationItem → Except DomainError QuotationItem}
    {before middle after : List QuotationItem} (hBefore : LinesFrom before middle)
    (hSame : ∀ item line, f item = .ok line → SameLine item line)
    (h : middle.mapM f = .ok after) : LinesFrom before after := by
  intro line hLine
  obtain ⟨item, hItem, hLineOk⟩ := mem_mapM h hLine
  obtain ⟨first, hFirst, hFrom⟩ := hBefore item hItem
  exact ⟨first, hFirst, hFrom.trans (hSame item line hLineOk)⟩

theorem linesFrom_applyLineResults {lineResults : List Promotions.PosEvalLineResult}
    {before middle after : List QuotationItem} (hBefore : LinesFrom before middle)
    (h : applyLineResults lineResults middle = .ok after) : LinesFrom before after := by
  unfold applyLineResults at h
  induction lineResults generalizing middle with
  | nil =>
      cases pure_eq_ok.mp h
      exact hBefore
  | cons result rest ih =>
      rw [List.foldlM_cons] at h
      obtain ⟨next, hNext, hRest⟩ := bind_eq_ok.mp h
      have hStep : LinesFrom before next := forall_updateFirst hBefore
        (fun _ _ ⟨first, hFirst, hFrom⟩ hResult =>
          ⟨first, hFirst, hFrom.trans (SameLine.of_applyLineResultToItem hResult)⟩)
        (fun extra hExtra => by cases hExtra; simp) hNext
      exact ih hStep hRest

/-- A recompute rewrites the lines of the quotation, settles their bases last, and drops opt-ins;
it changes nothing else. -/
theorem recompute_lines {env : QuotationEnvironment} {draft recomputed : Quotation}
    (h : recomputePricingAndPromotions env draft = .ok recomputed) :
    ∃ (applied items : List QuotationItem) (targetableIds : List String),
      applied.mapM settleTaxableBase = .ok items ∧ LinesFrom draft.items items ∧
      recomputed = pruneOptIns { draft with items := items } targetableIds := by
  obtain ⟨prepared, hPrepared, h⟩ := bind_eq_ok.mp h
  obtain ⟨repriced, hRepriced, hPrepared⟩ := bind_eq_ok.mp hPrepared
  obtain ⟨lines, hLines, hPrepared⟩ := bind_eq_ok.mp hPrepared
  cases pure_eq_ok.mp hPrepared
  obtain ⟨applied, hApplied, h⟩ := bind_eq_ok.mp h
  obtain ⟨items, hItems, h⟩ := bind_eq_ok.mp h
  cases pure_eq_ok.mp h
  refine ⟨applied, items, _, hItems, ?_, rfl⟩
  have hCleared : LinesFrom draft.items (draft.items.map QuotationItem.clearPromotion) := by
    intro line hLine
    obtain ⟨item, hItem, rfl⟩ := List.mem_map.mp hLine
    exact ⟨item, hItem, SameLine.of_clearPromotion item⟩
  have hRepriced := linesFrom_mapM hCleared
    (fun _ _ => SameLine.of_repriceNonStickyLine) hRepriced
  have hLines := linesFrom_mapM hRepriced (fun _ _ => SameLine.of_resnapshotLine) hLines
  have hApplied := linesFrom_applyLineResults hLines hApplied
  exact linesFrom_mapM hApplied (fun _ _ => SameLine.of_settleTaxableBase) hItems

end Houndfe.Quotations
