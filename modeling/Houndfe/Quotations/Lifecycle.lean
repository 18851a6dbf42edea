import Houndfe.Quotations.RoundTrip

/-! The service's operations on one quotation, side by side. Each loads the quotation, works on
what it loaded, and saves that over whatever is stored by then. -/

namespace Houndfe.Quotations

open Transition

/-! ### Operations side by side -/

inductive QuotationCall where
  | change (request : QuotationRequest)
  | remove

/-- An operation between its load and its commit. -/
structure PendingCall where
  call : QuotationCall
  loaded : Quotation

/-- The stored quotation and the operations under way. The rest is history: the quotation as it
was when it was first stored as sent, whether it was ever stored as cancelled, and the quotations
that committed sends had rendered. -/
structure LifecycleState where
  stored : Option Quotation
  pending : List PendingCall
  sent : Option Quotation
  cancelled : Bool
  documents : List Quotation

namespace LifecycleState

def opened (draft : Quotation) : LifecycleState :=
  ⟨some draft, [], none, false, []⟩

/-- What a send renders, and mails if it is asked to. -/
def rendered (request : QuotationRequest) (loaded : Quotation) : List Quotation :=
  match request with
  | .send _ _ => [loaded]
  | _ => []

/-- The upsert of `save`: the row is what was saved, whatever it was. -/
def afterSave (state : LifecycleState) (request : QuotationRequest) (loaded saved : Quotation)
    (pending : List PendingCall) : LifecycleState where
  stored := some saved
  pending := pending
  sent := state.sent.or (if saved.status = .sent then some saved else none)
  cancelled := state.cancelled || saved.status = .cancelled
  documents := state.documents ++ rendered request loaded

end LifecycleState

inductive LifecycleEvent where
  | load (call : PendingCall)
  | save (env : ServiceEnvironment) (request : QuotationRequest) (loaded : Quotation)
  | delete (loaded : Quotation)
  | abort (call : PendingCall)

inductive LifecycleStep : LifecycleState → LifecycleEvent → LifecycleState → Prop where
  | loaded {state : LifecycleState} {stored : Quotation} {call : PendingCall}
      (hStored : state.stored = some stored) (hLoaded : Reloaded stored call.loaded) :
      LifecycleStep state (.load call) { state with pending := state.pending ++ [call] }
  | saved {state : LifecycleState} {env : ServiceEnvironment} {request : QuotationRequest}
      {loaded saved : Quotation} {before after : List PendingCall}
      (hPending : state.pending = before ++ ⟨.change request, loaded⟩ :: after)
      (hSaved : QuotationsService.serve env loaded request = .ok saved) :
      LifecycleStep state (.save env request loaded)
        (state.afterSave request loaded saved (before ++ after))
  | deleted {state : LifecycleState} {loaded : Quotation} {before after : List PendingCall}
      (hPending : state.pending = before ++ ⟨.remove, loaded⟩ :: after)
      (hStatus : loaded.status = .draft ∨ loaded.status = .cancelled) :
      LifecycleStep state (.delete loaded)
        { state with stored := none, pending := before ++ after }
  | aborted {state : LifecycleState} {call : PendingCall} {before after : List PendingCall}
      (hPending : state.pending = before ++ call :: after) :
      LifecycleStep state (.abort call) { state with pending := before ++ after }

/-! ### The law -/

/-- The same lines, totals and price list; a title is no part of the stored lines. -/
structure SameContent (quotation other : Quotation) : Prop where
  items : (untitled quotation.items).Perm (untitled other.items)
  totals : quotation.recomputeTotals = other.recomputeTotals
  priceList : quotation.globalPriceListId = other.globalPriceListId

/-- A sent quotation is no draft again and keeps its content, a cancelled one stays cancelled,
and what is stored as sent is what was rendered. -/
structure LifecycleLaw (state : LifecycleState) : Prop where
  sent : ∀ quotation sent, state.stored = some quotation → state.sent = some sent →
    quotation.status ≠ .draft ∧ SameContent sent quotation
  cancelled : ∀ quotation, state.stored = some quotation → state.cancelled = true →
    quotation.status = .cancelled
  rendered : ∀ quotation, state.stored = some quotation → quotation.status = .sent →
    ∀ document ∈ state.documents, SameContent document quotation

/-- A draft is saved while the quotation has been neither sent nor cancelled since; after that
only a cancellation may be, or, if it was not cancelled, a second sending, of what was sent. -/
def InTime (state : LifecycleState) : LifecycleEvent → Prop
  | .save _ request loaded => loaded.status = .draft →
      (state.cancelled = true → request.targetStatus = .cancelled) ∧
        ∀ sent, state.sent = some sent →
          request.targetStatus ≠ .draft ∧ SameContent sent loaded
  | _ => True

/-! ### What one request does to status and content -/

namespace SameContent

variable {quotation other last : Quotation}

theorem refl (quotation : Quotation) : SameContent quotation quotation :=
  ⟨.refl _, rfl, rfl⟩

theorem symm (h : SameContent quotation other) : SameContent other quotation :=
  ⟨h.items.symm, h.totals.symm, h.priceList.symm⟩

theorem trans (h : SameContent quotation other) (h' : SameContent other last) :
    SameContent quotation last :=
  ⟨h.items.trans h'.items, h.totals.trans h'.totals, h.priceList.trans h'.priceList⟩

theorem of_reloaded (h : Reloaded quotation other) : SameContent quotation other := by
  have hUntitled : (untitled quotation.items).Perm other.items := h.items
  refine ⟨?_, ?_, ?_⟩
  · have hTwice : untitled (untitled quotation.items) = untitled quotation.items :=
      List.map_map
    rw [← hTwice]
    exact hUntitled.map _
  · have hTotals : quotation.recomputeTotals =
        { quotation with items := untitled quotation.items }.recomputeTotals := by
      simp only [Quotation.recomputeTotals, Quotation.grossCents, Quotation.netCents, untitled,
        List.map_map]
      rfl
    exact hTotals.trans (recomputeTotals_perm hUntitled)
  · rw [h.columns]

end SameContent

section

variable {env : QuotationEnvironment} {draft changed saved : Quotation}
  {target : QuotationStatus}

theorem updateItem_status {itemId : String}
    {f : QuotationItem → Except DomainError QuotationItem}
    (h : draft.updateItem itemId f = .ok changed) : changed.status = draft.status := by
  obtain ⟨items, _, h⟩ := bind_eq_ok.mp h
  cases pure_eq_ok.mp h
  rfl

theorem DraftEdit.status (h : DraftEdit draft changed) : changed.status = draft.status := by
  cases h with
  | lineAdded _ hChanged =>
      obtain ⟨_, _, hChanged⟩ := bind_eq_ok.mp hChanged
      obtain ⟨_, _, hChanged⟩ := bind_eq_ok.mp hChanged
      obtain ⟨_, _, hChanged⟩ := bind_eq_ok.mp hChanged
      cases pure_eq_ok.mp hChanged
      rfl
  | quantityChanged hChanged =>
      obtain ⟨_, _, hChanged⟩ := bind_eq_ok.mp hChanged
      obtain ⟨_, _, hChanged⟩ := bind_eq_ok.mp hChanged
      exact updateItem_status hChanged
  | lineRemoved hChanged =>
      obtain ⟨_, _, hChanged⟩ := bind_eq_ok.mp hChanged
      obtain ⟨_, _, hChanged⟩ := bind_eq_ok.mp hChanged
      cases pure_eq_ok.mp hChanged
      rfl
  | priceOverridden hChanged =>
      obtain ⟨_, _, hChanged⟩ := bind_eq_ok.mp hChanged
      exact updateItem_status hChanged
  | optedIn | optedOut | vetoed | vetoLifted | rebound => rfl

/-- From a draft a request reaches the status it is for. -/
theorem Saves.status (h : Saves env target draft saved) (hDraft : draft.status = .draft) :
    saved.status = target := by
  cases h with
  | recomputed _ hEdit hSaved =>
      obtain ⟨_, _, _, _, _, rfl⟩ := recompute_lines hSaved
      exact hEdit.status.trans hDraft
  | annotated _ => exact hDraft
  | sent _ => rfl
  | cancelled => rw [Quotation.cancel, if_neg (by rw [hDraft]; decide)]

theorem cancel_status (reason : QuotationCancelReason) (canceledAt : Int) :
    (draft.cancel reason canceledAt).status = .cancelled := by
  unfold Quotation.cancel
  split
  · next h => exact h
  · rfl

theorem cancel_content (reason : QuotationCancelReason) (canceledAt : Int) :
    SameContent draft (draft.cancel reason canceledAt) := by
  unfold Quotation.cancel
  split
  · exact .refl draft
  · exact ⟨.refl _, rfl, rfl⟩

/-- The two transitions copy the content. -/
theorem Saves.content (h : Saves env target draft saved) (hTarget : target ≠ .draft) :
    SameContent draft saved := by
  cases h with
  | recomputed _ _ _ | annotated _ => exact absurd rfl hTarget
  | sent _ => exact ⟨.refl _, rfl, rfl⟩
  | cancelled => exact cancel_content _ _

/-- What is no draft can only be cancelled. -/
theorem Saves.of_not_draft (h : Saves env target draft saved) (hStatus : draft.status ≠ .draft) :
    target = .cancelled ∧ saved.status = .cancelled := by
  cases h with
  | recomputed hDraft _ _ | annotated hDraft | sent hDraft => exact absurd hDraft hStatus
  | cancelled => exact ⟨rfl, cancel_status _ _⟩

end

/-! ### Runs in time -/

/-- The quotation stands as the history says: sent with the content that was sent, or cancelled,
and then with the content that was sent, if any was. -/
structure Placed (wasSent : Option Quotation) (wasCancelled : Bool) (quotation : Quotation) :
    Prop where
  sent : quotation.status = .sent → ∃ sent, wasSent = some sent ∧ SameContent sent quotation
  cancelled : quotation.status = .cancelled → wasCancelled = true ∧
    ∀ sent, wasSent = some sent → SameContent sent quotation
  expired : quotation.status ≠ .expired

/-- The stored quotation is past what the history holds, and so are the loaded ones that are no
drafts; what was rendered is what was sent. -/
structure Consistent (state : LifecycleState) : Prop where
  stored : ∀ quotation, state.stored = some quotation →
    Placed state.sent state.cancelled quotation ∧
    (∀ sent, state.sent = some sent → quotation.status ≠ .draft) ∧
    (state.cancelled = true → quotation.status = .cancelled)
  pending : ∀ call ∈ state.pending, Placed state.sent state.cancelled call.loaded
  documents : ∀ document ∈ state.documents, ∃ sent, state.sent = some sent ∧
    SameContent sent document

theorem Consistent.law {state : LifecycleState} (h : Consistent state) : LifecycleLaw state := by
  constructor
  · intro quotation sent hStored hSent
    obtain ⟨hPlaced, hOpen, _⟩ := h.stored quotation hStored
    refine ⟨hOpen sent hSent, ?_⟩
    cases hStatus : quotation.status with
    | draft => exact absurd hStatus (hOpen sent hSent)
    | expired => exact absurd hStatus hPlaced.expired
    | sent =>
        obtain ⟨first, hFirst, hContent⟩ := hPlaced.sent hStatus
        cases hFirst.symm.trans hSent
        exact hContent
    | cancelled => exact (hPlaced.cancelled hStatus).2 sent hSent
  · exact fun quotation hStored => (h.stored quotation hStored).2.2
  · intro quotation hStored hStatus document hDocument
    obtain ⟨sent, hSent, hDocumentContent⟩ := h.documents document hDocument
    obtain ⟨first, hFirst, hContent⟩ := (h.stored quotation hStored).1.sent hStatus
    cases hFirst.symm.trans hSent
    exact hDocumentContent.symm.trans hContent

/-- What a save must respect of the history. -/
structure Respects (state : LifecycleState) (request : QuotationRequest)
    (loaded saved : Quotation) : Prop where
  sent : ∀ sent, state.sent = some sent → saved.status ≠ .draft ∧ SameContent sent saved
  cancelled : state.cancelled = true → saved.status = .cancelled
  expired : saved.status ≠ .expired
  rendered : ∀ document ∈ LifecycleState.rendered request loaded,
    saved.status = .sent ∧ SameContent saved document

theorem targetStatus_ne_expired (request : QuotationRequest) :
    request.targetStatus ≠ .expired := by
  cases request with
  | cancel _ | send _ _ => exact QuotationStatus.noConfusion
  | _ => exact QuotationStatus.noConfusion

theorem targetStatus_of_rendered {request : QuotationRequest} {loaded document : Quotation}
    (h : document ∈ LifecycleState.rendered request loaded) :
    request.targetStatus = .sent ∧ document = loaded := by
  cases request with
  | send sendEmail delivery => exact ⟨rfl, List.mem_singleton.mp h⟩
  | _ => cases h

theorem mem_of_mem_pending {before after : List PendingCall} {call other : PendingCall}
    (h : other ∈ before ++ after) : other ∈ before ++ call :: after := by
  simp only [List.mem_append, List.mem_cons] at h ⊢
  exact h.imp id .inr

section

variable {state : LifecycleState} {env : ServiceEnvironment} {request : QuotationRequest}
  {loaded saved : Quotation}

/-- A cancellation of what was no draft when it was loaded is never late. -/
theorem respects_of_not_draft (hPlaced : Placed state.sent state.cancelled loaded) (hStatus : loaded.status ≠ .draft)
    (hSaved : QuotationsService.serve env loaded request = .ok saved) :
    Respects state request loaded saved := by
  have hSaves := serve_saves hSaved
  obtain ⟨hTarget, hCancelled⟩ := hSaves.of_not_draft hStatus
  have hContent : SameContent loaded saved := hSaves.content (by rw [hTarget]; decide)
  refine ⟨fun sent hSent => ⟨by rw [hCancelled]; decide, ?_⟩, fun _ => hCancelled,
    by rw [hCancelled]; decide, fun document hDocument => ?_⟩
  · refine SameContent.trans ?_ hContent
    cases hLoaded : loaded.status with
    | draft => exact absurd hLoaded hStatus
    | expired => exact absurd hLoaded hPlaced.expired
    | sent =>
        obtain ⟨first, hFirst, hFirstContent⟩ := hPlaced.sent hLoaded
        cases hFirst.symm.trans hSent
        exact hFirstContent
    | cancelled => exact (hPlaced.cancelled hLoaded).2 sent hSent
  · have hSend := (targetStatus_of_rendered hDocument).1
    rw [hTarget] at hSend
    cases hSend

theorem respects_of_draft (hStatus : loaded.status = .draft)
    (hTime : InTime state (.save env request loaded))
    (hSaved : QuotationsService.serve env loaded request = .ok saved) :
    Respects state request loaded saved := by
  have hSaves := serve_saves hSaved
  have hReached := hSaves.status hStatus
  obtain ⟨hCancelled, hSent⟩ := hTime hStatus
  refine ⟨fun sent hWas => ?_, fun hWas => hReached.trans (hCancelled hWas), ?_,
    fun document hDocument => ?_⟩
  · obtain ⟨hTarget, hContent⟩ := hSent sent hWas
    exact ⟨hReached ▸ hTarget, hContent.trans (hSaves.content hTarget)⟩
  · rw [hReached]
    exact targetStatus_ne_expired request
  · obtain ⟨hTarget, rfl⟩ := targetStatus_of_rendered hDocument
    exact ⟨hReached.trans hTarget, (hSaves.content (by rw [hTarget]; decide)).symm⟩

theorem afterSave_sent_of_some {sent : Quotation} {pending : List PendingCall}
    (h : state.sent = some sent) :
    (state.afterSave request loaded saved pending).sent = some sent := by
  rw [LifecycleState.afterSave, h]
  rfl

theorem afterSave_sent_of_ne {pending : List PendingCall} (h : saved.status ≠ .sent) :
    (state.afterSave request loaded saved pending).sent = state.sent := by
  rw [LifecycleState.afterSave, if_neg h, Option.or_none]

/-- After a save as sent, what counts as sent has the content that was saved. -/
theorem Respects.exists_sent (h : Respects state request loaded saved)
    (hStatus : saved.status = .sent) (pending : List PendingCall) :
    ∃ sent, (state.afterSave request loaded saved pending).sent = some sent ∧
      SameContent sent saved := by
  cases hSent : state.sent with
  | some sent => exact ⟨sent, afterSave_sent_of_some hSent, (h.sent sent hSent).2⟩
  | none =>
      refine ⟨saved, ?_, .refl saved⟩
      rw [LifecycleState.afterSave, hSent, if_pos hStatus]
      rfl

theorem Respects.placed {pending : List PendingCall} (h : Respects state request loaded saved)
    {quotation : Quotation} (hPlaced : Placed state.sent state.cancelled quotation) :
    Placed (state.afterSave request loaded saved pending).sent
      (state.afterSave request loaded saved pending).cancelled quotation := by
  refine ⟨fun hStatus => ?_, fun hStatus => ?_, hPlaced.expired⟩
  · obtain ⟨sent, hSent, hContent⟩ := hPlaced.sent hStatus
    exact ⟨sent, afterSave_sent_of_some hSent, hContent⟩
  · obtain ⟨hCancelled, hContent⟩ := hPlaced.cancelled hStatus
    have hSaved : saved.status ≠ .sent := by
      rw [h.cancelled hCancelled]
      decide
    rw [afterSave_sent_of_ne hSaved]
    exact ⟨by rw [LifecycleState.afterSave, hCancelled, Bool.true_or], hContent⟩

theorem Respects.consistent {before after : List PendingCall} {call : PendingCall}
    (h : Respects state request loaded saved) (hState : Consistent state)
    (hPending : state.pending = before ++ call :: after) :
    Consistent (state.afterSave request loaded saved (before ++ after)) := by
  refine ⟨?_, fun other hOther => h.placed (hState.pending other ?_), ?_⟩
  · intro quotation hStored
    cases hStored
    refine ⟨⟨fun hStatus => h.exists_sent hStatus _, fun hStatus => ?_, h.expired⟩, ?_, ?_⟩
    · have hSaved : saved.status ≠ .sent := by
        rw [hStatus]
        decide
      rw [afterSave_sent_of_ne hSaved]
      exact ⟨by simp [LifecycleState.afterSave, hStatus], fun sent hSent => (h.sent sent hSent).2⟩
    · intro sent hSent hDraft
      rw [afterSave_sent_of_ne (by rw [hDraft]; decide)] at hSent
      exact (h.sent sent hSent).1 hDraft
    · intro hCancelled
      simp only [LifecycleState.afterSave, Bool.or_eq_true, decide_eq_true_eq] at hCancelled
      exact hCancelled.elim h.cancelled id
  · rw [hPending]
    exact mem_of_mem_pending hOther
  · intro document hDocument
    rcases List.mem_append.mp hDocument with hOld | hNew
    · obtain ⟨sent, hSent, hContent⟩ := hState.documents document hOld
      exact ⟨sent, afterSave_sent_of_some hSent, hContent⟩
    · obtain ⟨hStatus, hContent⟩ := h.rendered document hNew
      obtain ⟨sent, hSent, hSaved⟩ := h.exists_sent hStatus (before ++ after)
      exact ⟨sent, hSent, hSaved.trans hContent⟩

theorem Placed.reloaded {stored : Quotation} (h : Reloaded stored loaded)
    (hStored : Placed state.sent state.cancelled stored) :
    Placed state.sent state.cancelled loaded := by
  have hStatus : loaded.status = stored.status := by rw [h.columns]
  have hContent := SameContent.of_reloaded h
  refine ⟨fun hLoaded => ?_, fun hLoaded => ?_, hStatus ▸ hStored.expired⟩
  · obtain ⟨sent, hSent, hSame⟩ := hStored.sent (hStatus ▸ hLoaded)
    exact ⟨sent, hSent, hSame.trans hContent⟩
  · obtain ⟨hCancelled, hSame⟩ := hStored.cancelled (hStatus ▸ hLoaded)
    exact ⟨hCancelled, fun sent hSent => (hSame sent hSent).trans hContent⟩

end

theorem consistent_of_step {state next : LifecycleState} {event : LifecycleEvent}
    (hState : Consistent state) (hStep : LifecycleStep state event next)
    (hTime : InTime state event) : Consistent next := by
  cases hStep with
  | loaded hStored hLoaded =>
      refine ⟨hState.stored, ?_, hState.documents⟩
      intro call hCall
      rcases List.mem_append.mp hCall with hOld | hNew
      · exact hState.pending call hOld
      · cases List.mem_singleton.mp hNew
        exact (hState.stored _ hStored).1.reloaded hLoaded
  | @saved env request loaded saved before after hPending hSaved =>
      have hCall : (⟨.change request, loaded⟩ : PendingCall) ∈ state.pending := by
        rw [hPending]
        simp
      have hRespects : Respects state request loaded saved := by
        by_cases hStatus : loaded.status = .draft
        · exact respects_of_draft hStatus hTime hSaved
        · exact respects_of_not_draft (hState.pending _ hCall) hStatus hSaved
      exact hRespects.consistent hState hPending
  | deleted hPending _ =>
      refine ⟨?_, ?_, hState.documents⟩
      · intro quotation hStored
        cases hStored
      · intro call hCall
        exact hState.pending call (hPending ▸ mem_of_mem_pending hCall)
  | aborted hPending =>
      refine ⟨hState.stored, ?_, hState.documents⟩
      intro call hCall
      exact hState.pending call (hPending ▸ mem_of_mem_pending hCall)

theorem inTime_of_law {state next : LifecycleState} {event : LifecycleEvent}
    (hStep : LifecycleStep state event next) (hLaw : LifecycleLaw next) :
    InTime state event := by
  cases hStep with
  | loaded _ _ | deleted _ _ | aborted _ => trivial
  | @saved env request loaded saved before after hPending hSaved =>
      intro hStatus
      have hSaves := serve_saves hSaved
      have hReached := hSaves.status hStatus
      constructor
      · intro hCancelled
        have hStays := hLaw.cancelled saved rfl
          (by rw [LifecycleState.afterSave, hCancelled, Bool.true_or])
        exact hReached.symm.trans hStays
      · intro sent hSent
        obtain ⟨hOpen, hContent⟩ := hLaw.sent saved sent rfl (afterSave_sent_of_some hSent)
        rw [hReached] at hOpen
        exact ⟨hOpen, hContent.trans (hSaves.content hOpen).symm⟩

theorem consistent_of_opened {env : QuotationEnvironment} {id sellerUserId : String}
    {customerId globalPriceListId : Option String} {draft : Quotation}
    (h : QuotationsService.openDraft env id sellerUserId customerId globalPriceListId =
      .ok draft) : Consistent (.opened draft) := by
  have hDraft : draft.status = .draft := by
    obtain ⟨_, _, _, rfl⟩ := openDraft_eq_ok h
    rfl
  refine ⟨?_, fun call hCall => absurd hCall List.not_mem_nil,
    fun document hDocument => absurd hDocument List.not_mem_nil⟩
  intro quotation hStored
  cases hStored
  refine ⟨⟨?_, ?_, ?_⟩, ?_, ?_⟩
  · intro hSent
    cases hDraft.symm.trans hSent
  · intro hCancelled
    cases hDraft.symm.trans hCancelled
  · rw [hDraft]
    decide
  · intro sent hSent
    cases hSent
  · intro hCancelled
    cases hCancelled

/-- Along a run from a new draft the law holds in every state exactly when every save is in
time. -/
theorem lifecycle_law_iff_in_time {env : QuotationEnvironment} {id sellerUserId : String}
    {customerId globalPriceListId : Option String} {draft : Quotation}
    (hOpened : QuotationsService.openDraft env id sellerUserId customerId globalPriceListId =
      .ok draft) (events : List LifecycleEvent) (state : LifecycleState) :
    Runs (Guarded LifecycleStep InTime) (.opened draft) events state ↔
      Runs (fun before event after => LifecycleStep before event after ∧ LifecycleLaw after)
        (.opened draft) events state := by
  have hStart : Consistent (.opened draft) := consistent_of_opened hOpened
  constructor
  · intro hRun
    have hKeeps : ∀ before event after, Consistent before →
        Guarded LifecycleStep InTime before event after → Consistent after :=
      fun _ _ _ hBefore hStep => consistent_of_step hBefore hStep.1 hStep.2
    induction hRun with
    | zero => exact .zero _
    | succ prior last ih =>
        have hBefore := prior.invariant hKeeps hStart
        exact .succ ih ⟨last.1, (hKeeps _ _ _ hBefore last).law⟩
  · intro hRun
    exact hRun.mono fun before event after hStep => ⟨hStep.1, inTime_of_law hStep.1 hStep.2⟩

/-! ### A line that is changed while the quotation is sent -/

/-- The quotation of one line, sent. -/
def sentQuotation : Quotation :=
  { oneLineQuotation with status := .sent }

/-- The same line with two units, saved from a draft. -/
def reopenedQuotation : Quotation :=
  { oneLineQuotation with items :=
      [{ quotedLine with quantity := Sales.Quantity.two, taxableBaseCents := some 17241 }] }

def addLine : QuotationRequest := .addItem "i" "p" none 1

def sendWithoutMail : QuotationRequest := .send false (.ok ())

def twoUnits : QuotationRequest := .updateItemQuantity "i" 2

/-- Both requests load the draft; the one that sends it saves first. -/
def overlappingEvents : List LifecycleEvent :=
  [.load ⟨.change addLine, emptyQuotation⟩, .save oneProduct addLine emptyQuotation,
    .load ⟨.change sendWithoutMail, oneLineQuotation⟩,
    .load ⟨.change twoUnits, oneLineQuotation⟩,
    .save oneProduct sendWithoutMail oneLineQuotation,
    .save oneProduct twoUnits oneLineQuotation]

/-- A sent quotation is a draft again, with other units than the document shows. -/
def reopenedState : LifecycleState :=
  ⟨some reopenedQuotation, [], some sentQuotation, false, [oneLineQuotation]⟩

theorem emptyQuotation_opened : QuotationsService.openDraft oneProduct.toQuotationEnvironment "q"
    "seller" none none = .ok emptyQuotation := rfl

theorem lifecycle_law_iff_in_time_of_overlap :
    Runs (Guarded LifecycleStep InTime) (.opened emptyQuotation) overlappingEvents
        reopenedState ↔
      Runs (fun before event after => LifecycleStep before event after ∧ LifecycleLaw after)
        (.opened emptyQuotation) overlappingEvents reopenedState :=
  lifecycle_law_iff_in_time emptyQuotation_opened overlappingEvents reopenedState

theorem overlap_runs :
    Runs LifecycleStep (.opened emptyQuotation) overlappingEvents reopenedState := by
  have hSame : ∀ quotation : Quotation, untitled quotation.items = quotation.items →
      Reloaded quotation quotation := by
    intro quotation hUntitled
    exact ⟨.of_eq hUntitled, .refl _, .refl _, rfl⟩
  have hAdded : QuotationsService.serve oneProduct emptyQuotation addLine =
      .ok oneLineQuotation := rfl
  have hSent : QuotationsService.serve oneProduct oneLineQuotation sendWithoutMail =
      .ok sentQuotation := rfl
  have hChanged : QuotationsService.serve oneProduct oneLineQuotation twoUnits =
      .ok reopenedQuotation := rfl
  have hEmpty := hSame emptyQuotation rfl
  have hOneLine := hSame oneLineQuotation rfl
  have hAdding := Runs.succ (Runs.zero (LifecycleState.opened emptyQuotation))
    (@LifecycleStep.loaded _ _ ⟨.change addLine, emptyQuotation⟩ rfl hEmpty)
  have hOneLineStored := hAdding.succ (@LifecycleStep.saved _ _ _ _ _ [] [] rfl hAdded)
  have hSending := hOneLineStored.succ
    (@LifecycleStep.loaded _ _ ⟨.change sendWithoutMail, oneLineQuotation⟩ rfl hOneLine)
  have hBoth := hSending.succ
    (@LifecycleStep.loaded _ _ ⟨.change twoUnits, oneLineQuotation⟩ rfl hOneLine)
  have hSentStored := hBoth.succ (@LifecycleStep.saved _ _ _ _ _ [] [_] rfl hSent)
  exact hSentStored.succ (@LifecycleStep.saved _ _ _ _ _ [] [] rfl hChanged)

/-- The law fails although every request was served as it stands. -/
theorem sent_quotation_reopened :
    Runs LifecycleStep (.opened emptyQuotation) overlappingEvents reopenedState ∧
      ¬ LifecycleLaw reopenedState := by
  refine ⟨overlap_runs, fun hLaw => ?_⟩
  exact (hLaw.sent reopenedQuotation sentQuotation rfl rfl).1 rfl

end Houndfe.Quotations
