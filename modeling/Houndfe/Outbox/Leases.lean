import Houndfe.Outbox.Delivery

/-! What the dispatcher of low-stock events keeps when nobody records a row whose lease somebody
else has taken over. The updates that record an outcome go by the id of the row alone, so that
nothing but the timing keeps a dispatcher from writing over its successor. -/

namespace Houndfe.Outbox

open Transition

/-! ### What one step does -/

/-- A poll goes on with some of what it has left. -/
structure Advances (change : Poll → Poll) : Prop where
  token : ∀ poll, (change poll).token = poll.token
  poller : ∀ poll, (change poll).poller = poll.poller
  rest : ∀ poll, (change poll).remaining ⊆ poll.remaining

theorem advances_at (progress : Progress) : Advances (·.at progress) :=
  ⟨fun _ => rfl, fun _ => rfl, fun _ => List.Subset.refl _⟩

theorem advances_next : Advances Poll.next :=
  ⟨fun _ => rfl, fun _ => rfl, fun _ => List.Sublist.subset (List.tail_sublist _)⟩

theorem advances_escape : Advances Poll.escape := by
  refine ⟨Poll.token_escape, fun poll => ?_, fun poll => ?_⟩ <;> unfold Poll.escape <;> split
  · rfl
  · rfl
  · exact List.nil_subset _
  · exact List.Sublist.subset (List.tail_sublist _)

/-- The token and the row that a dispatcher works with. -/
def Label.actsOn : Label → Option (String × String)
  | .enrichFails token id _ | .send token id _ | .publish token id _ _ | .publishFails token id _
  | .retry token id _ _ _ | .retryFails token id => some (token, id)
  | _ => none

/-- A step that leaves the rows alone. -/
def Label.Notes : Label → Prop
  | .enrichFails _ _ _ | .send _ _ _ | .publishFails _ _ _ | .retryFails _ _ => True
  | _ => False

/-- Everything that a step can do: a poll that works on a row goes on, and it writes the row if it
records its outcome. -/
inductive Steps (maxRetries : Nat) (state : State) : Label → State → Prop where
  | created {id tenantId eventType : String} {rows : Keyed.Rows OutboxEvent.id}
      (insert : state.rows.insert (.created id tenantId eventType state.clock) = some rows) :
      Steps maxRetries state (.create id tenantId eventType) { state with rows := rows }
  | ticked {ms : Nat} :
      Steps maxRetries state (.tick ms) { state with clock := state.clock + ms }
  | claimed {poller : Poller} {token : String} {batchSize : Nat} {lockMs : Int}
      {skipped order : List String} {progress : Progress} {polls : Keyed.Rows Poll.token}
      (perm : order.Perm
        ((pendingRows poller batchSize skipped state.clock state.rows.rows).map (·.id)))
      (insert : state.polls.insert ⟨token, poller,
        order.filterMap (state.claimed token (state.clock + lockMs) order).rows.find, progress⟩ =
          some polls) :
      Steps maxRetries state (.claim poller token batchSize lockMs skipped order)
        { state.claimed token (state.clock + lockMs) order with polls := polls }
  | noted {label : Label} {token : String} {change : Poll → Poll} (advances : Advances change)
      (notes : label.Notes) :
      Steps maxRetries state label (state.setPoll token change advances.token)
  | published {token id : String} {now : Int} {lost : Option String} {poll : Poll}
      {event : OutboxEvent} {change : Poll → Poll} (advances : Advances change)
      (working : state.working token id = some (poll, event)) :
      Steps maxRetries state (.publish token id now lost)
        ((state.update id (event.markPublished now) (event.id_markPublished now)).setPoll token
          change advances.token)
  | retried {token id message : String} {now jitter nextAttemptAt : Int} {lost : Bool} {poll : Poll}
      {event : OutboxEvent} {change : Poll → Poll} (advances : Advances change)
      (working : state.working token id = some (poll, event)) :
      Steps maxRetries state (.retry token id now jitter lost)
        ((state.update id
          (event.markRetry (poll.poller.maxRetries maxRetries) nextAttemptAt message)
          (event.id_markRetry _ nextAttemptAt message)).setPoll token change advances.token)

section

variable {maxRetries : Nat} {state next : State} {label : Label}

theorem steps_of_step (h : step maxRetries state label = some next) :
    Steps maxRetries state label next := by
  cases label with
  | create id tenantId eventType =>
      obtain ⟨rows, hInsert, rfl⟩ := Option.map_eq_some_iff.mp h
      exact Steps.created hInsert
  | tick ms =>
      cases h
      exact Steps.ticked
  | claim poller token batchSize lockMs skipped order =>
      obtain ⟨hOrder, h⟩ := Option.ite_none_right_eq_some.mp h
      obtain ⟨polls, hInsert, rfl⟩ := Option.map_eq_some_iff.mp h
      exact Steps.claimed hOrder hInsert
  | enrichFails token id message =>
      obtain ⟨⟨poll, event⟩, hWorking, h⟩ := Option.bind_eq_some_iff.mp h
      obtain ⟨_, h⟩ := Option.ite_none_right_eq_some.mp h
      cases h
      exact Steps.noted (advances_at _) trivial
  | send token id error =>
      obtain ⟨⟨poll, event⟩, hWorking, h⟩ := Option.bind_eq_some_iff.mp h
      obtain ⟨_, h⟩ := Option.ite_none_right_eq_some.mp h
      cases h
      exact Steps.noted (advances_at _) trivial
  | publish token id now lost =>
      obtain ⟨⟨poll, event⟩, hWorking, h⟩ := Option.bind_eq_some_iff.mp h
      obtain ⟨_, h⟩ := Option.ite_none_right_eq_some.mp h
      cases lost with
      | none =>
          cases h
          exact Steps.published advances_next hWorking
      | some message =>
          cases h
          exact Steps.published (advances_at _) hWorking
  | publishFails token id message =>
      obtain ⟨⟨poll, event⟩, hWorking, h⟩ := Option.bind_eq_some_iff.mp h
      obtain ⟨_, h⟩ := Option.ite_none_right_eq_some.mp h
      cases h
      exact Steps.noted (advances_at _) trivial
  | retry token id now jitter lost =>
      obtain ⟨⟨poll, event⟩, hWorking, h⟩ := Option.bind_eq_some_iff.mp h
      cases hProgress : poll.progress with
      | failed message =>
          simp only [hProgress] at h
          obtain ⟨_, h⟩ := Option.ite_none_right_eq_some.mp h
          cases lost with
          | true =>
              cases h
              exact Steps.retried advances_escape hWorking
          | false =>
              cases h
              exact Steps.retried advances_next hWorking
      | ready => simp [hProgress] at h
      | sent => simp [hProgress] at h
  | retryFails token id =>
      obtain ⟨⟨poll, event⟩, hWorking, h⟩ := Option.bind_eq_some_iff.mp h
      cases hProgress : poll.progress with
      | failed message =>
          simp only [hProgress, Option.some.injEq] at h
          subst h
          exact Steps.noted advances_escape trivial
      | ready => simp [hProgress] at h
      | sent => simp [hProgress] at h

end

/-! ### Rows and polls -/

/-- What a step makes of a row that is there. -/
inductive RowChange (maxRetries : Nat) (state : State) (row : OutboxEvent) :
    Label → OutboxEvent → Prop where
  | same {label : Label} : RowChange maxRetries state row label row
  | claimed {poller : Poller} {token : String} {batchSize : Nat} {lockMs : Int}
      {skipped order : List String} (due : row.claimable state.clock = true)
      (fresh : state.polls.find token = none) :
      RowChange maxRetries state row (.claim poller token batchSize lockMs skipped order)
        (row.lock token (state.clock + lockMs))
  | published {token : String} {now : Int} {lost : Option String} {poll : Poll}
      {event : OutboxEvent} (working : state.working token row.id = some (poll, event)) :
      RowChange maxRetries state row (.publish token row.id now lost) (event.markPublished now row)
  | retried {token message : String} {now jitter nextAttemptAt : Int} {lost : Bool} {poll : Poll}
      {event : OutboxEvent} (working : state.working token row.id = some (poll, event)) :
      RowChange maxRetries state row (.retry token row.id now jitter lost)
        (event.markRetry (poll.poller.maxRetries maxRetries) nextAttemptAt message row)

/-- What a poll of the next state comes from: a poll of this one goes on, or a claim has started it
on rows as they are now. -/
inductive PollChange (state next : State) (poll' : Poll) : Prop where
  | kept {poll : Poll} (found : state.polls.find poll'.token = some poll)
      (poller : poll'.poller = poll.poller) (rest : poll'.remaining ⊆ poll.remaining)
  | started (fresh : state.polls.find poll'.token = none)
      (batch : ∀ event ∈ poll'.remaining, poll'.poller.owns event.eventType = true ∧
        next.rows.find event.id = some event)

section

variable {maxRetries : Nat} {state next : State} {label : Label} {id token : String}
  {row : OutboxEvent} {poll : Poll} {event : OutboxEvent}

theorem mem_of_working (h : state.working token id = some (poll, event)) :
    state.polls.find token = some poll ∧ event ∈ poll.remaining ∧ event.id = id := by
  unfold State.working at h
  cases hFind : state.polls.find token with
  | none => simp [hFind] at h
  | some found =>
      simp only [hFind] at h
      obtain ⟨event', hHead, hSame⟩ := Option.map_eq_some_iff.mp h
      obtain ⟨rfl, rfl⟩ := Prod.mk.inj hSame
      obtain ⟨hHead, hId⟩ := Option.filter_eq_some_iff.mp hHead
      exact ⟨rfl, List.mem_of_mem_head? hHead, of_decide_eq_true hId⟩

theorem mem_pendingRows {poller : Poller} {batchSize : Nat} {skipped : List String} {now : Int}
    {rows : List OutboxEvent} (h : row ∈ pendingRows poller batchSize skipped now rows) :
    row ∈ rows ∧ row.claimable now = true ∧ poller.owns row.eventType = true := by
  have hSorted := List.mem_of_mem_take h
  rw [List.mem_mergeSort, List.mem_filter] at hSorted
  obtain ⟨hMem, hDue⟩ := hSorted
  simp only [Bool.and_eq_true] at hDue
  exact ⟨hMem, hDue.1.1, hDue.1.2⟩

theorem id_of_find (hRow : state.rows.find id = some row) : row.id = id :=
  (Keyed.Rows.find_eq_some_iff.mp hRow).2

theorem find_update {change : OutboxEvent → OutboxEvent} {target : String}
    (hKey : ∀ row, (change row).id = row.id) : (state.update target change hKey).rows.find id =
      if id = target then (state.rows.find id).map change else state.rows.find id := by
  rw [State.update, Keyed.Rows.find_modify]

theorem find_claimed {lockedUntil : Int} {order : List String} :
    (state.claimed token lockedUntil order).rows.find id = (state.rows.find id).map fun row =>
      if row.id ∈ order then row.lock token lockedUntil else row := by
  rw [State.claimed, Keyed.Rows.find_mapRows]

/-- A row whose id a claim has picked is due. -/
theorem due_of_picked {poller : Poller} {batchSize : Nat} {skipped order : List String}
    (hOrder : order.Perm
      ((pendingRows poller batchSize skipped state.clock state.rows.rows).map (·.id)))
    (hRow : state.rows.find id = some row) (hMem : id ∈ order) :
    row.claimable state.clock = true ∧ poller.owns row.eventType = true := by
  obtain ⟨picked, hPicked, hId⟩ := List.mem_map.mp (hOrder.mem_iff.mp hMem)
  obtain ⟨hIn, hDue⟩ := mem_pendingRows hPicked
  obtain ⟨hStored, hSame⟩ := Keyed.Rows.find_eq_some_iff.mp hRow
  rwa [Keyed.Rows.eq_of_key hIn hStored (hId.trans hSame.symm)] at hDue

theorem fresh_of_insert {polls : Keyed.Rows Poll.token} (h : state.polls.insert poll = some polls) :
    state.polls.find poll.token = none :=
  Keyed.lookup_eq_none.mpr (Keyed.Rows.insert_eq_some.mp h).1

end

section

variable {maxRetries : Nat} {state next : State} {label : Label} {id : String}
  {stored : OutboxEvent}

/-- A row is never removed, and it changes in one of these ways. -/
theorem Steps.row (h : Steps maxRetries state label next)
    (hRow : state.rows.find id = some stored) :
    ∃ row', next.rows.find id = some row' ∧ RowChange maxRetries state stored label row' := by
  have hId := id_of_find hRow
  cases h with
  | created insert => exact ⟨stored, Keyed.Rows.find_insert_of_find insert hRow, RowChange.same⟩
  | ticked => exact ⟨stored, hRow, RowChange.same⟩
  | claimed perm insert =>
      refine ⟨_, find_claimed.trans (congrArg _ hRow), ?_⟩
      beta_reduce
      split
      · next hMem =>
          rw [hId] at hMem
          exact RowChange.claimed (due_of_picked perm hRow hMem).1 (fresh_of_insert insert)
      · exact RowChange.same
  | noted advances notes => exact ⟨stored, hRow, RowChange.same⟩
  | @published _ _ now _ _ event _ advances working =>
      refine ⟨_, (find_update (event.id_markPublished now)).trans (by rw [hRow, Option.map_some, ← apply_ite some]), ?_⟩
      split
      · next hTarget =>
          rw [← hTarget, ← hId] at working ⊢
          exact RowChange.published working
      · exact RowChange.same
  | @retried _ _ message _ _ nextAttemptAt _ _ event _ advances working =>
      refine ⟨_, (find_update (event.id_markRetry _ nextAttemptAt message)).trans (by rw [hRow, Option.map_some, ← apply_ite some]), ?_⟩
      split
      · next hTarget =>
          rw [← hTarget, ← hId] at working ⊢
          exact RowChange.retried working
      · exact RowChange.same

theorem Steps.created_row (h : Steps maxRetries state label next)
    (hRow : next.rows.find id = some stored) (hNew : state.rows.find id = none) :
    ∃ tenantId eventType, stored = .created id tenantId eventType state.clock := by
  have hGone : ∀ {row : Option OutboxEvent}, row = none → row ≠ some stored := by
    rintro row rfl hSome
    cases hSome
  have hUpdate : ∀ (target : String) (change : OutboxEvent → OutboxEvent)
      (hKey : ∀ row, (change row).id = row.id),
      (state.update target change hKey).rows.find id = none := by
    intro target change hKey
    rw [find_update, hNew]
    exact ite_self none
  cases h with
  | @created other tenantId eventType rows insert =>
      rw [Keyed.Rows.find_insert insert] at hRow
      split at hRow
      · next hSame =>
          have hId : other = id := hSame
          rw [← hId]
          exact ⟨tenantId, eventType, (Option.some.inj hRow).symm⟩
      · exact absurd hRow (hGone hNew)
  | ticked => exact absurd hRow (hGone hNew)
  | claimed perm insert => exact absurd hRow (hGone (find_claimed.trans (congrArg _ hNew)))
  | noted advances notes => exact absurd hRow (hGone hNew)
  | @published _ _ now _ _ event _ advances working =>
      exact absurd hRow (hGone (hUpdate _ _ (event.id_markPublished now)))
  | @retried _ _ message _ _ nextAttemptAt _ _ event _ advances working =>
      exact absurd hRow (hGone (hUpdate _ _ (event.id_markRetry _ nextAttemptAt message)))

theorem kept_of_setPoll {before after : State} {token : String} {change : Poll → Poll}
    {poll' : Poll} (advances : Advances change) (hPolls : before.polls = state.polls)
    (hPoll : (before.setPoll token change advances.token).polls.find poll'.token = some poll') :
    PollChange state after poll' := by
  rw [State.setPoll, Keyed.Rows.find_modify, hPolls] at hPoll
  split at hPoll
  · obtain ⟨poll, hFound, hSame⟩ := Option.map_eq_some_iff.mp hPoll
    exact PollChange.kept hFound (hSame ▸ advances.poller poll) (hSame ▸ advances.rest poll)
  · exact PollChange.kept hPoll rfl (List.Subset.refl _)

theorem Steps.poll {poll' : Poll} (h : Steps maxRetries state label next)
    (hPoll : next.polls.find poll'.token = some poll') : PollChange state next poll' := by
  cases h with
  | created insert => exact PollChange.kept hPoll rfl (List.Subset.refl _)
  | ticked => exact PollChange.kept hPoll rfl (List.Subset.refl _)
  | @claimed poller token batchSize lockMs skipped order progress polls perm insert =>
      have hFresh := fresh_of_insert insert
      rw [Keyed.Rows.find_insert insert] at hPoll
      split at hPoll
      · next hToken =>
          cases hPoll
          refine PollChange.started hFresh ?_
          intro event hEvent
          obtain ⟨id, hId, hFound⟩ := List.mem_filterMap.mp hEvent
          obtain ⟨row, hRow, hSame⟩ := Option.map_eq_some_iff.mp (find_claimed.symm.trans hFound)
          have hEventId : event.id = id := (Keyed.Rows.find_eq_some_iff.mp hFound).2
          refine ⟨?_, hEventId ▸ hFound⟩
          have hOwns := (due_of_picked perm hRow hId).2
          rw [← hSame]
          split
          · exact hOwns
          · exact hOwns
      · exact PollChange.kept hPoll rfl (List.Subset.refl _)
  | noted advances notes => exact kept_of_setPoll advances rfl hPoll
  | published advances working => exact kept_of_setPoll advances rfl hPoll
  | retried advances working => exact kept_of_setPoll advances rfl hPoll

theorem Steps.poll_stays {token : String} {poll : Poll} (h : Steps maxRetries state label next)
    (hPoll : state.polls.find token = some poll) :
    ∃ poll', next.polls.find token = some poll' := by
  have hSet : ∀ (before : State) (other : String) (change : Poll → Poll)
      (advances : Advances change), before.polls = state.polls →
      ∃ poll', (before.setPoll other change advances.token).polls.find token = some poll' := by
    intro before other change advances hPolls
    rw [State.setPoll, Keyed.Rows.find_modify, hPolls, hPoll]
    split <;> exact ⟨_, rfl⟩
  cases h with
  | created insert => exact ⟨poll, hPoll⟩
  | ticked => exact ⟨poll, hPoll⟩
  | claimed perm insert => exact ⟨poll, Keyed.Rows.find_insert_of_find insert hPoll⟩
  | noted advances notes => exact hSet _ _ _ advances rfl
  | published advances working => exact hSet _ _ _ advances rfl
  | retried advances working => exact hSet _ _ _ advances rfl

end

/-! ### The lease of a row -/

def IsLowStock (row : OutboxEvent) : Prop := row.eventType = lowStockDetected

instance (row : OutboxEvent) : Decidable (IsLowStock row) := by
  unfold IsLowStock
  infer_instance

/-- A dispatcher records the outcome of a low-stock row only while the row carries its lock token,
and it sends none that has been published. -/
def Holds (state : State) : Label → Prop
  | .publish token id _ _ | .retry token id _ _ _ =>
      ∀ row ∈ state.rows.find id, IsLowStock row → row.lockToken = some token
  | .send _ id _ => ∀ row ∈ state.rows.find id, IsLowStock row → row.status ≠ .published
  | _ => True

instance (state : State) (label : Label) : Decidable (Holds state label) := by
  cases label <;> unfold Holds <;> infer_instance

/-- The invariant: tokens belong to polls, the rows of a batch are of the poller's own types, a row
that is locked is pending, and the poll that holds it has claimed it with the retries it has. -/
structure Leased (maxRetries : Nat) (state : State) : Prop where
  known : ∀ id row token, state.rows.find id = some row → row.lockToken = some token →
    ∃ poll, state.polls.find token = some poll
  owned : ∀ token poll, state.polls.find token = some poll → ∀ event ∈ poll.remaining,
    poll.poller.owns event.eventType = true ∧
      ∃ row, state.rows.find event.id = some row ∧ row.eventType = event.eventType
  locked : ∀ id row token, state.rows.find id = some row → IsLowStock row →
    row.lockToken = some token → row.status = .pending
  counted : ∀ id row, state.rows.find id = some row → IsLowStock row →
    row.retryCount ≤ maxRetries ∧ (row.status = .pending → row.retryCount < maxRetries)
  held : ∀ token poll event row, state.polls.find token = some poll → event ∈ poll.remaining →
    state.rows.find event.id = some row → IsLowStock row → row.lockToken = some token →
      row.retryCount = event.retryCount

section

variable {maxRetries : Nat} {state next : State} {label : Label} {id : String}
  {row row' : OutboxEvent}

theorem RowChange.eventType_eq (h : RowChange maxRetries state row label row') :
    row'.eventType = row.eventType := by
  cases h <;> rfl

theorem pending_of_claimable {now : Int} (h : row.claimable now = true) : row.status = .pending :=
  (of_decide_eq_true h).1

/-- Only the low-stock poller works on a low-stock row. -/
theorem Leased.lowStock {token : String} {poll : Poll} {event : OutboxEvent}
    (h : Leased maxRetries state) (hRow : state.rows.find row.id = some row) (hLow : IsLowStock row)
    (hWorking : state.working token row.id = some (poll, event)) : poll.poller = .lowStock := by
  obtain ⟨hPoll, hMem, hId⟩ := mem_of_working hWorking
  obtain ⟨hOwns, stored, hStored, hType⟩ := h.owned token poll hPoll event hMem
  rw [hId, hRow, Option.some.injEq] at hStored
  subst hStored
  rw [← hType, hLow] at hOwns
  cases hPoller : poll.poller with
  | lowStock => rfl
  | generic =>
      rw [hPoller] at hOwns
      exact absurd hOwns (by decide)

/-- What the holder of a row has claimed is what the row counts. -/
theorem Leased.retryCount_eq {token : String} {poll : Poll} {event : OutboxEvent}
    (h : Leased maxRetries state) (hRow : state.rows.find row.id = some row) (hLow : IsLowStock row)
    (hToken : row.lockToken = some token)
    (hWorking : state.working token row.id = some (poll, event)) :
    row.retryCount = event.retryCount := by
  obtain ⟨hPoll, hMem, hId⟩ := mem_of_working hWorking
  exact h.held token poll event row hPoll hMem (hId ▸ hRow) hLow hToken

/-- The step lemma of the lease: a low-stock row that is not pending stays as it is, and any other
counts its retries up to the maximum. -/
theorem Leased.change (h : Leased maxRetries state) (hRow : state.rows.find row.id = some row)
    (hLow : IsLowStock row) (hHolds : Holds state label)
    (hChange : RowChange maxRetries state row label row') :
    row.retryCount ≤ row'.retryCount ∧ row'.retryCount ≤ maxRetries ∧
      (row'.status = .pending → row'.retryCount < maxRetries) ∧
        (row.status ≠ .pending → row' = row) := by
  obtain ⟨hMost, hLess⟩ := h.counted row.id row hRow hLow
  cases hChange with
  | same => exact ⟨Nat.le_refl _, hMost, hLess, fun _ => rfl⟩
  | claimed due fresh =>
      have hPending := pending_of_claimable due
      exact ⟨Nat.le_refl _, hMost, fun _ => hLess hPending, fun hNot => absurd hPending hNot⟩
  | @published token now lost poll event working =>
      have hToken := hHolds row hRow hLow
      have hCount := h.retryCount_eq hRow hLow hToken working
      refine ⟨Nat.le_of_eq hCount, hCount ▸ hMost, fun hPending => ?_, fun hNot => ?_⟩
      · cases hPending
      · exact absurd (h.locked row.id row token hRow hLow hToken) hNot
  | @retried token message now jitter nextAttemptAt lost poll event working =>
      have hToken := hHolds row hRow hLow
      have hCount := h.retryCount_eq hRow hLow hToken working
      have hPending := h.locked row.id row token hRow hLow hToken
      have hPoller := h.lowStock hRow hLow working
      have hRoom := hLess hPending
      simp only [OutboxEvent.markRetry, hPoller, Poller.maxRetries, hCount] at hRoom ⊢
      refine ⟨Nat.le_succ _, hRoom, fun hStill => ?_, fun hNot => absurd hPending hNot⟩
      split at hStill
      · cases hStill
      · omega

theorem Steps.origin (h : Steps maxRetries state label next)
    (hRow : next.rows.find id = some row') :
    (∃ tenantId eventType, row' = .created id tenantId eventType state.clock) ∨
      ∃ row, state.rows.find id = some row ∧ RowChange maxRetries state row label row' := by
  cases hBefore : state.rows.find id with
  | none => exact Or.inl (h.created_row hRow hBefore)
  | some row =>
      obtain ⟨after, hAfter, hChange⟩ := h.row hBefore
      rw [hRow, Option.some.injEq] at hAfter
      subst hAfter
      exact Or.inr ⟨row, rfl, hChange⟩

theorem Steps.claims {poller : Poller} {token : String} {batchSize : Nat} {lockMs : Int}
    {skipped order : List String}
    (h : Steps maxRetries state (.claim poller token batchSize lockMs skipped order) next) :
    ∃ poll, next.polls.find token = some poll := by
  cases h with
  | claimed perm insert => exact ⟨_, (Keyed.Rows.find_insert insert).trans (if_pos rfl)⟩
  | noted advances notes => exact notes.elim

theorem Leased.known_step (h : Leased maxRetries state) (hStep : Steps maxRetries state label next)
    {token : String} (hRow : next.rows.find id = some row') (hToken : row'.lockToken = some token) :
    ∃ poll, next.polls.find token = some poll := by
  rcases hStep.origin hRow with ⟨tenantId, eventType, rfl⟩ | ⟨row, hBefore, hChange⟩
  · cases hToken
  · cases hChange with
    | same =>
        obtain ⟨poll, hPoll⟩ := h.known id row' token hBefore hToken
        exact hStep.poll_stays hPoll
    | claimed due fresh =>
        cases hToken
        exact hStep.claims
    | published working => cases hToken
    | retried working => cases hToken

theorem Leased.owned_step (h : Leased maxRetries state) (hStep : Steps maxRetries state label next)
    {token : String} {poll : Poll} (hPoll : next.polls.find token = some poll) {event : OutboxEvent}
    (hEvent : event ∈ poll.remaining) : poll.poller.owns event.eventType = true ∧
      ∃ row, next.rows.find event.id = some row ∧ row.eventType = event.eventType := by
  obtain rfl := (Keyed.Rows.find_eq_some_iff.mp hPoll).2
  cases hStep.poll hPoll with
  | kept found poller rest =>
      obtain ⟨hOwns, row, hRow, hType⟩ := h.owned _ _ found event (rest hEvent)
      obtain ⟨after, hAfter, hChange⟩ := hStep.row hRow
      exact ⟨poller ▸ hOwns, after, hAfter, hChange.eventType_eq.trans hType⟩
  | started fresh batch =>
      obtain ⟨hOwns, hFound⟩ := batch event hEvent
      exact ⟨hOwns, event, hFound, rfl⟩

theorem Leased.locked_step (h : Leased maxRetries state) (hStep : Steps maxRetries state label next)
    {token : String} (hRow : next.rows.find id = some row') (hLow : IsLowStock row')
    (hToken : row'.lockToken = some token) : row'.status = .pending := by
  rcases hStep.origin hRow with ⟨tenantId, eventType, rfl⟩ | ⟨row, hBefore, hChange⟩
  · rfl
  · cases hChange with
    | same => exact h.locked id row' token hBefore hLow hToken
    | claimed due fresh =>
        have hPending : row.status = .pending := pending_of_claimable due
        exact hPending
    | published working => cases hToken
    | retried working => cases hToken

theorem Leased.held_step (h : Leased maxRetries state) (hStep : Steps maxRetries state label next)
    {token : String} {poll : Poll} {event : OutboxEvent}
    (hPoll : next.polls.find token = some poll) (hEvent : event ∈ poll.remaining)
    (hRow : next.rows.find event.id = some row') (hLow : IsLowStock row')
    (hToken : row'.lockToken = some token) : row'.retryCount = event.retryCount := by
  obtain rfl := (Keyed.Rows.find_eq_some_iff.mp hPoll).2
  cases hStep.poll hPoll with
  | started fresh batch =>
      have hSame := (batch event hEvent).2
      rw [hRow, Option.some.injEq] at hSame
      rw [hSame]
  | kept found poller rest =>
      rcases hStep.origin hRow with ⟨tenantId, eventType, rfl⟩ | ⟨row, hBefore, hChange⟩
      · cases hToken
      · cases hChange with
        | same => exact h.held _ _ event row' found (rest hEvent) hBefore hLow hToken
        | claimed due fresh =>
            -- the token of a claim is new, while this poll was there before
            cases hToken
            rw [found] at fresh
            cases fresh
        | published working => cases hToken
        | retried working => cases hToken

theorem Leased.step (h : Leased maxRetries state) (hMax : 0 < maxRetries)
    (hStep : Steps maxRetries state label next) (hHolds : Holds state label) :
    Leased maxRetries next where
  known _ _ _ hRow hToken := h.known_step hStep hRow hToken
  owned _ _ hPoll _ hEvent := h.owned_step hStep hPoll hEvent
  locked _ _ _ hRow hLow hToken := h.locked_step hStep hRow hLow hToken
  held _ _ _ _ hPoll hEvent hRow hLow hToken := h.held_step hStep hPoll hEvent hRow hLow hToken
  counted := by
    intro id row' hRow hLow
    rcases hStep.origin hRow with ⟨tenantId, eventType, rfl⟩ | ⟨row, hBefore, hChange⟩
    · exact ⟨Nat.zero_le _, fun _ => hMax⟩
    · obtain rfl := id_of_find hBefore
      have hLow' : IsLowStock row := hChange.eventType_eq.symm.trans hLow
      obtain ⟨_, hMost, hLess, _⟩ := h.change hBefore hLow' hHolds hChange
      exact ⟨hMost, hLess⟩

end

/-! ### Runs -/

/-- An outbox with no rows, and no poll yet. -/
def Initial (state : State) : Prop :=
  state.rows.rows = [] ∧ state.polls.rows = []

abbrev System (maxRetries : Nat) (guard : State → Label → Prop) : State → Label → State → Prop :=
  Guarded (Fires (step maxRetries)) guard

/-- A state that a run reaches whose steps meet the guard. -/
def Reached (maxRetries : Nat) (guard : State → Label → Prop) (state : State) : Prop :=
  ∃ start labels, Initial start ∧ Runs (System maxRetries guard) start labels state

/-- The delivery of low-stock events in every run whose steps meet the guard. -/
structure Delivers (maxRetries : Nat) (guard : State → Label → Prop) : Prop where
  /-- What is published or failed stays so. -/
  terminal : ∀ state labels later id row, Reached maxRetries guard state →
    Runs (System maxRetries guard) state labels later → state.rows.find id = some row →
    IsLowStock row → row.status ≠ .pending →
    ∃ row', later.rows.find id = some row' ∧ row'.status = row.status
  /-- Retries only increase, up to the maximum. -/
  retries : ∀ state labels later id row, Reached maxRetries guard state →
    Runs (System maxRetries guard) state labels later → state.rows.find id = some row →
    IsLowStock row → ∃ row', later.rows.find id = some row' ∧ row.retryCount ≤ row'.retryCount ∧
      row'.retryCount ≤ maxRetries
  /-- A dispatcher whose lock is not on its row any more leaves the row as it is. -/
  fenced : ∀ state label next token id row, Reached maxRetries guard state →
    System maxRetries guard state label next → label.actsOn = some (token, id) →
    state.rows.find id = some row → IsLowStock row → row.lockToken ≠ some token →
    next.rows.find id = some row
  /-- A row that is neither published nor failed can be claimed after some time, by any claim that
  has room for it. -/
  claimable : ∀ state id row, Reached maxRetries guard state → state.rows.find id = some row →
    IsLowStock row → row.status ≠ .published → row.status ≠ .failed →
    ∃ until_, ∀ later token batchSize lockMs, until_ ≤ later.clock →
      later.rows.find id = some row → later.polls.find token = none →
      later.rows.rows.length ≤ batchSize →
      ∃ order next, step maxRetries later (.claim .lowStock token batchSize lockMs [] order) =
        some next ∧ id ∈ order
  /-- Once a send is recorded as published the row is not sent again. -/
  resent : ∀ state token id now lost next labels later token' error last row,
    Reached maxRetries guard state →
    System maxRetries guard state (.publish token id now lost) next →
    Runs (System maxRetries guard) next labels later → state.rows.find id = some row →
    IsLowStock row → ¬ System maxRetries guard later (.send token' id error) last

section

variable {maxRetries : Nat} {state later : State} {labels : List Label} {id : String}
  {row : OutboxEvent}

theorem leased_initial (h : Initial state) : Leased maxRetries state := by
  have hRow : ∀ id row, state.rows.find id ≠ some row := by
    intro id row hFound
    have hMem := (Keyed.Rows.find_eq_some_iff.mp hFound).1
    rw [h.1] at hMem
    cases hMem
  have hPoll : ∀ token poll, state.polls.find token ≠ some poll := by
    intro token poll hFound
    have hMem := (Keyed.Rows.find_eq_some_iff.mp hFound).1
    rw [h.2] at hMem
    cases hMem
  exact ⟨fun _ _ _ h => absurd h (hRow _ _), fun _ _ h => absurd h (hPoll _ _),
    fun _ _ _ h => absurd h (hRow _ _), fun _ _ h => absurd h (hRow _ _),
    fun _ _ _ _ h => absurd h (hPoll _ _)⟩

theorem Leased.runs (hMax : 0 < maxRetries) (h : Leased maxRetries state)
    (run : Runs (System maxRetries Holds) state labels later) : Leased maxRetries later :=
  run.invariant (fun _ _ _ hInv hStep => hInv.step hMax (steps_of_step hStep.1) hStep.2) h

theorem leased_of_reached (hMax : 0 < maxRetries) (h : Reached maxRetries Holds state) :
    Leased maxRetries state := by
  obtain ⟨start, labels, hInitial, run⟩ := h
  exact (leased_initial hInitial).runs hMax run

/-- What becomes of a low-stock row in a run: it counts its retries, and once it is not pending it
stays as it is. -/
structure Keeps (maxRetries : Nat) (row row' : OutboxEvent) : Prop where
  lowStock : IsLowStock row'
  retries : row.retryCount ≤ row'.retryCount
  most : row'.retryCount ≤ maxRetries
  settled : row.status ≠ .pending → row' = row

/-- The run lemma. -/
theorem Leased.keeps (hMax : 0 < maxRetries) (h : Leased maxRetries state)
    (run : Runs (System maxRetries Holds) state labels later)
    (hRow : state.rows.find id = some row) (hLow : IsLowStock row) :
    ∃ row', later.rows.find id = some row' ∧ Keeps maxRetries row row' := by
  induction run with
  | zero =>
      exact ⟨row, hRow, hLow, Nat.le_refl _, (h.counted id row hRow hLow).1, fun _ => rfl⟩
  | succ prior last ih =>
      obtain ⟨middle, hMiddle, hKeeps⟩ := ih
      obtain rfl := id_of_find hMiddle
      obtain ⟨after, hAfter, hChange⟩ := (steps_of_step last.1).row hMiddle
      obtain ⟨hRetries, hMost, _, hSettled⟩ :=
        (h.runs hMax prior).change hMiddle hKeeps.lowStock last.2 hChange
      refine ⟨after, hAfter, ?_, Nat.le_trans hKeeps.retries hRetries, hMost, ?_⟩
      · exact hChange.eventType_eq.trans hKeeps.lowStock
      · intro hStatus
        have hSame := hKeeps.settled hStatus
        rw [hSettled (hSame ▸ hStatus), hSame]

/-- A dispatcher that meets the guard changes no row that does not carry its token. -/
theorem RowChange.fenced {label : Label} {token : String} {row' : OutboxEvent}
    (h : RowChange maxRetries state row label row') (hHolds : Holds state label)
    (hActs : label.actsOn = some (token, row.id)) (hRow : state.rows.find row.id = some row)
    (hLow : IsLowStock row) (hToken : row.lockToken ≠ some token) : row' = row := by
  cases h with
  | same => rfl
  | claimed due fresh => cases hActs
  | published working =>
      cases hActs
      exact absurd (hHolds row hRow hLow) hToken
  | retried working =>
      cases hActs
      exact absurd (hHolds row hRow hLow) hToken

/-- A row that is pending is due once its next attempt has come and its lock has expired. -/
theorem claimable_of_le {now : Int} (hPending : row.status = .pending)
    (h : max row.nextAttemptAt (row.lockedUntil.getD 0 + 1) ≤ now) : row.claimable now = true := by
  apply decide_eq_true
  refine ⟨hPending, by omega, ?_⟩
  intro until_ hUntil
  rw [Option.mem_def] at hUntil
  rw [hUntil, Option.getD_some] at h
  omega

/-- A claim with room for every row picks each one that is due. -/
theorem exists_claim {token : String} {batchSize : Nat} (lockMs : Int)
    (hRow : later.rows.find id = some row) (hLow : IsLowStock row)
    (hDue : row.claimable later.clock = true) (hFresh : later.polls.find token = none)
    (hRoom : later.rows.rows.length ≤ batchSize) :
    ∃ order next, step maxRetries later (.claim .lowStock token batchSize lockMs [] order) =
      some next ∧ id ∈ order := by
  let order := (pendingRows .lowStock batchSize [] later.clock later.rows.rows).map (·.id)
  obtain ⟨hMem, hId⟩ := Keyed.Rows.find_eq_some_iff.mp hRow
  have hPicked : row ∈ pendingRows .lowStock batchSize [] later.clock later.rows.rows := by
    have hAll : (later.rows.rows.filter fun event => event.claimable later.clock &&
        Poller.lowStock.owns event.eventType && event.id ∉ ([] : List String)).length ≤ batchSize :=
      Nat.le_trans (List.length_filter_le _ _) hRoom
    rw [pendingRows, List.take_of_length_le (by rw [List.length_mergeSort]; exact hAll),
      List.mem_mergeSort, List.mem_filter]
    refine ⟨hMem, ?_⟩
    rw [hDue, Poller.owns, hLow]
    rfl
  let batch := order.filterMap (later.claimed token (later.clock + lockMs) order).rows.find
  obtain ⟨polls, hPolls⟩ : ∃ polls, later.polls.insert
      ⟨token, .lowStock, batch, Poller.lowStock.start batch⟩ = some polls :=
    Keyed.Rows.exists_insert hFresh
  refine ⟨order, { later.claimed token (later.clock + lockMs) order with polls := polls }, ?_, ?_⟩
  · simp only [step]
    rw [if_pos (List.Perm.refl order), hPolls, Option.map_some]
  · exact List.mem_map.mpr ⟨row, hPicked, hId⟩

end

theorem published_of_step {next : State} {token : String} {now : Int} {lost : Option String}
    {maxRetries : Nat} {state : State} {id : String} {row : OutboxEvent}
    (h : Steps maxRetries state (.publish token id now lost) next)
    (hRow : state.rows.find id = some row) : ∃ row', next.rows.find id = some row' ∧
      row'.eventType = row.eventType ∧ row'.status = .published := by
  cases h with
  | published advances working =>
      refine ⟨_, (find_update (OutboxEvent.id_markPublished _ now)).trans
        ((if_pos rfl).trans (congrArg _ hRow)), rfl, rfl⟩
  | noted advances notes => exact notes.elim

theorem delivers {maxRetries : Nat} (hMax : 0 < maxRetries) : Delivers maxRetries Holds where
  terminal := by
    intro state labels later id row hReached run hRow hLow hStatus
    obtain ⟨row', hLater, hKeeps⟩ := (leased_of_reached hMax hReached).keeps hMax run hRow hLow
    exact ⟨row', hLater, by rw [hKeeps.settled hStatus]⟩
  retries := by
    intro state labels later id row hReached run hRow hLow
    obtain ⟨row', hLater, hKeeps⟩ := (leased_of_reached hMax hReached).keeps hMax run hRow hLow
    exact ⟨row', hLater, hKeeps.retries, hKeeps.most⟩
  fenced := by
    intro state label next token id row _ hStep hActs hRow hLow hToken
    obtain ⟨row', hNext, hChange⟩ := (steps_of_step hStep.1).row hRow
    obtain rfl := id_of_find hRow
    rw [hNext, hChange.fenced hStep.2 hActs hRow hLow hToken]
  claimable := by
    intro state id row _ _ hLow hPublished hFailed
    have hPending : row.status = .pending := by
      cases hStatus : row.status with
      | pending => rfl
      | published => exact absurd hStatus hPublished
      | failed => exact absurd hStatus hFailed
    refine ⟨max row.nextAttemptAt (row.lockedUntil.getD 0 + 1), ?_⟩
    intro later token batchSize lockMs hClock hRow hFresh hRoom
    exact exists_claim lockMs hRow hLow (claimable_of_le hPending hClock) hFresh hRoom
  resent := by
    intro state token id now lost next labels later token' error last row hReached hPublish run hRow
      hLow hSend
    have hNext : Leased maxRetries next :=
      (leased_of_reached hMax hReached).runs hMax (Runs.single hPublish)
    obtain ⟨row', hRow', hType, hStatus⟩ := published_of_step (steps_of_step hPublish.1) hRow
    have hLow' : IsLowStock row' := hType.trans hLow
    obtain ⟨row'', hLater, hKeeps⟩ := hNext.keeps hMax run hRow' hLow'
    have hSame : row'' = row' := hKeeps.settled (by rw [hStatus]; decide)
    exact hSend.2 row' (hSame ▸ hLater) hLow' hStatus

/-! ### A dispatcher that wakes up late -/

namespace Late

def start : State := ⟨0, Keyed.Rows.empty _, Keyed.Rows.empty _⟩

def claim (token : String) : Label :=
  .claim .lowStock token 25 60000 [] ["e1"]

/-- The lock of the first poll expires, a second one claims the row, sends it and records it. -/
def takenOver : List Label :=
  [.create "e1" "t1" lowStockDetected, claim "first", .tick 60001, claim "second",
    .send "second" "e1" none, .publish "second" "e1" 60500 none]

/-- The send of the first poll times out only then. -/
def late : List Label :=
  [.send "first" "e1" (some "timeout"), .retry "first" "e1" 61000 0 false]

/-- What a run has made of the row. -/
def report (labels : List Label) : Option (Option (OutboxEventStatus × Nat)) :=
  (exec (step 5) start labels).map fun state =>
    (state.rows.find "e1").map fun row => (row.status, row.retryCount)

theorem initial_start : Initial start := ⟨rfl, rfl⟩

end Late

/-- The row that is published goes back to pending, to be sent again. -/
theorem not_delivers : ¬ Delivers 5 fun _ _ => True := by
  intro h
  have hUnguarded : ∀ {c d : State} {labels : List Label},
      Runs (Fires (step 5)) c labels d → Runs (System 5 fun _ _ => True) c labels d :=
    fun run => run.mono fun _ _ _ hStep => ⟨hStep, trivial⟩
  have hTaken : Late.report Late.takenOver = some (some (.published, 0)) := by decide +kernel
  have hLate : Late.report (Late.takenOver ++ Late.late) = some (some (.pending, 1)) := by
    decide +kernel
  obtain ⟨taken, hFirst, hPublished⟩ := Option.map_eq_some_iff.mp hTaken
  obtain ⟨row, hRow, hStatus⟩ := Option.map_eq_some_iff.mp hPublished
  obtain ⟨last, hAll, hPending⟩ := Option.map_eq_some_iff.mp hLate
  rw [exec_append, hFirst, Option.bind_some] at hAll
  have hReached : Reached 5 (fun _ _ => True) taken :=
    ⟨Late.start, Late.takenOver, Late.initial_start, hUnguarded (runs_of_exec hFirst)⟩
  have hLow : IsLowStock row := by
    have hType : (exec (step 5) Late.start Late.takenOver).map (fun state =>
        (state.rows.find "e1").map OutboxEvent.eventType) = some (some lowStockDetected) := by
      decide +kernel
    rw [hFirst, Option.map_some, hRow] at hType
    exact Option.some.inj (Option.some.inj hType)
  obtain ⟨row', hRow', hSame⟩ := h.terminal taken Late.late last "e1" row hReached
    (hUnguarded (runs_of_exec hAll)) hRow hLow (by rw [(Prod.mk.inj hStatus).1]; decide)
  rw [hRow', Option.map_some, Option.some.injEq, hSame] at hPending
  rw [(Prod.mk.inj hStatus).1] at hPending
  exact absurd (Prod.mk.inj hPending).1 (by decide)

/-- Where the first poll does not wake up any more the row stays published, whatever comes. -/
theorem delivers_takenOver : ∃ taken row, Reached 5 Holds taken ∧
    taken.rows.find "e1" = some row ∧ row.status = .published ∧
    ∀ labels later, Runs (System 5 Holds) taken labels later →
      ∃ row', later.rows.find "e1" = some row' ∧ row'.status = .published := by
  have hTaken : (exec (fun state label => if Holds state label then step 5 state label else none)
      Late.start Late.takenOver).map (fun state => (state.rows.find "e1").map fun row =>
        (row.status, row.eventType)) = some (some (.published, lowStockDetected)) := by
    decide +kernel
  obtain ⟨taken, hExec, hFound⟩ := Option.map_eq_some_iff.mp hTaken
  obtain ⟨row, hRow, hSame⟩ := Option.map_eq_some_iff.mp hFound
  obtain ⟨hStatus, hLow⟩ := Prod.mk.inj hSame
  have hReached : Reached 5 Holds taken :=
    ⟨Late.start, Late.takenOver, Late.initial_start, runs_guarded_of_exec hExec⟩
  refine ⟨taken, row, hReached, hRow, hStatus, fun labels later run => ?_⟩
  obtain ⟨row', hRow', hSame⟩ := (delivers (by decide : 0 < 5)).terminal taken labels later "e1" row
    hReached run hRow hLow (by rw [hStatus]; decide)
  exact ⟨row', hRow', hSame.trans hStatus⟩

end Houndfe.Outbox
