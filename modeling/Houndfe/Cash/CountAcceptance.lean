import Houndfe.Cash.Frozen

/-! Which counts of a frozen session are accepted, and what they declare. -/

namespace Houndfe.Cash

open PaymentMethods Transactions Transition Adapter

/-! ### An acceptable count -/

/-- The channel that a submitted line names. -/
def CashCountLine.named (line : CashCountLine) : CashCountLine :=
  ⟨Text.trim line.channelKey, line.amountCents⟩

/-- Denominations that make up an amount of physical cash. -/
structure Reconciles (denominations : List CashDenominationLine) (cashCents : Int) : Prop where
  permitted : ∀ denomination ∈ denominations, 0 < denomination.denominationCents ∧
    denomination.denominationCents ≤ centsStorageMax ∧ 0 ≤ denomination.quantity
  sum : (denominations.map fun denomination =>
    denomination.denominationCents * denomination.quantity).sum = cashCents

/-- Each required channel has one line and no other has any, each amount fits its column, and the
denominations, where any are given, make up the amount of the drawer. -/
structure CompleteCount (requiredChannelKeys : List String) (lines : List CashCountLine)
    (denominations : Option (List CashDenominationLine)) : Prop where
  once : (lines.map fun line => line.named.channelKey).Nodup
  covers : ∀ key, key ∈ lines.map (fun line => line.named.channelKey) ↔ key ∈ requiredChannelKeys
  amounts : ∀ line ∈ lines, 0 ≤ line.amountCents ∧ line.amountCents ≤ centsStorageMax
  reconciled : ∀ given, denominations = some given → given ≠ [] →
    ∃ line ∈ lines, line.named.channelKey = pooledCashChannel.channelKey ∧
      Reconciles given line.amountCents

/-- A complete count whose amounts together fit the column too. -/
structure AcceptableCount (requiredChannelKeys : List String) (lines : List CashCountLine)
    (denominations : Option (List CashDenominationLine)) : Prop
    extends CompleteCount requiredChannelKeys lines denominations where
  total : (lines.map (·.amountCents)).sum ≤ centsStorageMax

/-- `amountByChannel`. -/
def ValidatedCashCount.amountByChannel (validated : ValidatedCashCount) (channelKey : String) :
    Option Int :=
  (validated.lines.find? fun line => line.channelKey = channelKey).map (·.amountCents)

/-- An accepted count declares the amounts of its lines. -/
structure Declares (validated : ValidatedCashCount) (lines : List CashCountLine) : Prop where
  kept : validated.lines.Perm (lines.map CashCountLine.named)
  amountByChannel : ∀ line ∈ lines,
    validated.amountByChannel line.named.channelKey = some line.amountCents
  cash : ∀ line ∈ lines, line.named.channelKey = pooledCashChannel.channelKey →
    validated.cashCents = line.amountCents
  total : validated.totalCents = (lines.map (·.amountCents)).sum

/-- What a frozen session requires: the drawer, and channels that have a name. -/
structure FrozenChannels (requiredChannelKeys : List String) : Prop where
  drawer : pooledCashChannel.channelKey ∈ requiredChannelKeys
  named : "" ∉ requiredChannelKeys

/-! ### The loops -/

/-- A loop that adds up amounts within the window. -/
theorem foldlM_sum_iff {α : Type} {add : Int → α → Except DomainError Int} {Valid : α → Prop}
    {cents : α → Int} {rows : List α} (hNonneg : ∀ row ∈ rows, Valid row → 0 ≤ cents row)
    (hAdd : ∀ row ∈ rows, ∀ total next, 0 ≤ total → total ≤ centsStorageMax →
      (add total row = .ok next ↔
        Valid row ∧ total + cents row ≤ centsStorageMax ∧ total + cents row = next))
    {start total : Int} (hStart : 0 ≤ start ∧ start ≤ centsStorageMax) :
    rows.foldlM add start = .ok total ↔ (∀ row ∈ rows, Valid row) ∧
      start + (rows.map cents).sum ≤ centsStorageMax ∧ start + (rows.map cents).sum = total := by
  induction rows generalizing start with
  | nil => simp [pure_eq_ok, hStart.2]
  | cons row rest ih =>
      obtain ⟨hRowNonneg, hRestNonneg⟩ := List.forall_mem_cons.mp hNonneg
      obtain ⟨hRowAdd, hRestAdd⟩ := List.forall_mem_cons.mp hAdd
      rw [List.foldlM_cons, bind_eq_ok, List.forall_mem_cons, List.map_cons, List.sum_cons,
        ← add_assoc]
      constructor
      · rintro ⟨next, hNext, hRest⟩
        obtain ⟨hRow, hFits, rfl⟩ := (hRowAdd start next hStart.1 hStart.2).mp hNext
        have hAfter := Int.add_nonneg hStart.1 (hRowNonneg hRow)
        obtain ⟨hRows, hTotal, hSum⟩ := (ih hRestNonneg hRestAdd ⟨hAfter, hFits⟩).mp hRest
        exact ⟨⟨hRow, hRows⟩, hTotal, hSum⟩
      · rintro ⟨⟨hRow, hRows⟩, hTotal, hSum⟩
        have hBehind : 0 ≤ (rest.map cents).sum := by
          apply List.sum_nonneg
          intro amount hAmount
          obtain ⟨other, hOther, rfl⟩ := List.mem_map.mp hAmount
          exact hRestNonneg other hOther (hRows other hOther)
        have hFits : start + cents row ≤ centsStorageMax := by omega
        have hAfter := Int.add_nonneg hStart.1 (hRowNonneg hRow)
        exact ⟨_, (hRowAdd start _ hStart.1 hStart.2).mpr ⟨hRow, hFits, rfl⟩,
          (ih hRestNonneg hRestAdd ⟨hAfter, hFits⟩).mpr ⟨hRows, hTotal, hSum⟩⟩

theorem inRange_of_nonneg {value : Int} (hNonneg : 0 ≤ value) :
    InRange value ↔ value ≤ centsStorageMax := by
  simp only [InRange, centsStorageMin, centsStorageMax]
  omega

section

variable {requiredChannelKeys : List String} {lines start normalized : List CashCountLine}
  {line : CashCountLine} {denominations : List CashDenominationLine} {cents : Int}

theorem normalizeLine_eq_ok : normalizeLine requiredChannelKeys start line = .ok normalized ↔
    line.named.channelKey ≠ "" ∧ line.named.channelKey ∈ requiredChannelKeys ∧
      line.named.channelKey ∉ start.map CashCountLine.channelKey ∧
      (0 ≤ line.amountCents ∧ line.amountCents ≤ centsStorageMax) ∧
      start ++ [line.named] = normalized := by
  simp only [normalizeLine, bind_eq_ok, throwIf_eq_ok, assertNonNegativeCents_eq_ok,
    assertStorageRangeCents_eq_ok, exists_const, pure_eq_ok, not_or, not_not]
  constructor
  · rintro ⟨⟨hNamed, hKnown⟩, hFresh, hNonneg, hRange, rfl⟩
    exact ⟨hNamed, hKnown, hFresh, ⟨hNonneg, (inRange_of_nonneg hNonneg).mp hRange⟩, rfl⟩
  · rintro ⟨hNamed, hKnown, hFresh, ⟨hNonneg, hRange⟩, rfl⟩
    exact ⟨⟨hNamed, hKnown⟩, hFresh, hNonneg, (inRange_of_nonneg hNonneg).mpr hRange, rfl⟩

/-- The loop over the lines keeps each of them when they name distinct required channels. -/
theorem foldlM_normalizeLine_eq_ok :
    lines.foldlM (normalizeLine requiredChannelKeys) start = .ok normalized ↔
      (∀ line ∈ lines, line.named.channelKey ≠ "" ∧
        line.named.channelKey ∈ requiredChannelKeys ∧
        0 ≤ line.amountCents ∧ line.amountCents ≤ centsStorageMax) ∧
      (lines.map fun line => line.named.channelKey).Nodup ∧
      (∀ line ∈ lines, line.named.channelKey ∉ start.map CashCountLine.channelKey) ∧
      start ++ lines.map CashCountLine.named = normalized := by
  induction lines generalizing start with
  | nil => simp [pure_eq_ok]
  | cons line rest ih =>
      rw [List.foldlM_cons, bind_eq_ok]
      simp only [normalizeLine_eq_ok, ih, List.forall_mem_cons, List.map_cons, List.nodup_cons]
      constructor
      · rintro ⟨_, ⟨hNamed, hKnown, hFresh, hAmount, rfl⟩, hRest, hOnce, hApart, rfl⟩
        refine ⟨⟨⟨hNamed, hKnown, hAmount⟩, hRest⟩, ⟨?_, hOnce⟩,
          ⟨hFresh, fun other hOther => ?_⟩, by simp⟩
        · intro hIn
          obtain ⟨other, hOther, hSame⟩ := List.mem_map.mp hIn
          have hNot := hApart other hOther
          exact hNot (by simp [hSame])
        · have hNot := hApart other hOther
          simp only [List.map_append, List.mem_append, not_or] at hNot
          exact hNot.1
      · rintro ⟨⟨⟨hNamed, hKnown, hAmount⟩, hRest⟩, ⟨hNew, hOnce⟩, ⟨hFresh, hApart⟩, rfl⟩
        refine ⟨_, ⟨hNamed, hKnown, hFresh, hAmount, rfl⟩, hRest, hOnce, ?_, by simp⟩
        intro other hOther hIn
        simp only [List.map_append, List.mem_append, List.map_cons, List.map_nil,
          List.mem_singleton] at hIn
        rcases hIn with hIn | hSame
        · exact hApart other hOther hIn
        · exact hNew (hSame ▸ List.mem_map_of_mem hOther)

theorem foldlM_addLine_eq_ok (hAmounts : ∀ line ∈ lines, 0 ≤ line.amountCents) :
    lines.foldlM addLine 0 = .ok cents ↔
      (lines.map (·.amountCents)).sum ≤ centsStorageMax ∧
        (lines.map (·.amountCents)).sum = cents := by
  have hAdd : ∀ line ∈ lines, ∀ total next, 0 ≤ total → total ≤ centsStorageMax →
      (addLine total line = .ok next ↔ True ∧ total + line.amountCents ≤ centsStorageMax ∧
        total + line.amountCents = next) := by
    intro line hLine total next hTotal hFits
    have hAmount := hAmounts line hLine
    rw [addLine, addCents_eq_ok, inRange_of_nonneg hTotal, inRange_of_nonneg hAmount,
      inRange_of_nonneg (Int.add_nonneg hTotal hAmount), true_and]
    constructor
    · rintro ⟨_, _, hSum, hNext⟩
      exact ⟨hSum, hNext⟩
    · rintro ⟨hSum, hNext⟩
      exact ⟨hFits, by omega, hSum, hNext⟩
  rw [foldlM_sum_iff (fun line hLine _ => hAmounts line hLine) hAdd ⟨le_refl 0, by decide⟩]
  simp only [implies_true, true_and, zero_add]

/-- The loop over the denominations adds up the permitted ones. -/
theorem assertValidDenominations_eq_ok (hFits : cents ≤ centsStorageMax) :
    assertValidDenominations denominations cents = .ok () ↔ Reconciles denominations cents := by
  have hNonneg : ∀ denomination ∈ denominations, (0 < denomination.denominationCents ∧
      denomination.denominationCents ≤ centsStorageMax ∧ 0 ≤ denomination.quantity) →
      0 ≤ denomination.denominationCents * denomination.quantity :=
    fun denomination _ hValid => Int.mul_nonneg hValid.1.le hValid.2.2
  have hAdd : ∀ denomination ∈ denominations, ∀ total next, 0 ≤ total →
      total ≤ centsStorageMax → (addDenomination total denomination = .ok next ↔
        (0 < denomination.denominationCents ∧
          denomination.denominationCents ≤ centsStorageMax ∧ 0 ≤ denomination.quantity) ∧
        total + denomination.denominationCents * denomination.quantity ≤ centsStorageMax ∧
        total + denomination.denominationCents * denomination.quantity = next) := by
    intro denomination hMem total next hTotal hTotalFits
    simp only [addDenomination, multiplyCents, bind_eq_ok, throwIf_eq_ok, exists_const, not_or,
      not_le, not_lt, assertStorageRangeCents_eq_ok, pure_eq_ok, not_not, addCents_eq_ok]
    constructor
    · rintro ⟨⟨hValue, hValueFits⟩, ⟨hQuantity, _⟩, _, ⟨_, _, _, rfl⟩, _, _, hSum, hNext⟩
      exact ⟨⟨hValue, hValueFits, hQuantity⟩, hSum.2, hNext⟩
    · rintro ⟨⟨hValue, hValueFits, hQuantity⟩, hSum, hNext⟩
      have hProduct := Int.mul_nonneg hValue.le hQuantity
      -- the quantity is below its product with a value of a cent or more
      have hBelow : denomination.quantity ≤
          denomination.denominationCents * denomination.quantity :=
        by simpa using Int.mul_le_mul_of_nonneg_right hValue hQuantity
      have hProductFits : denomination.denominationCents * denomination.quantity ≤
          centsStorageMax := by omega
      exact ⟨⟨hValue, hValueFits⟩, ⟨hQuantity, hBelow.trans hProductFits⟩, _,
        ⟨(inRange_of_nonneg hValue.le).mpr hValueFits,
          (inRange_of_nonneg hQuantity).mpr (hBelow.trans hProductFits),
          (inRange_of_nonneg hProduct).mpr hProductFits, rfl⟩,
        (inRange_of_nonneg hTotal).mpr hTotalFits, (inRange_of_nonneg hProduct).mpr hProductFits,
        (inRange_of_nonneg (Int.add_nonneg hTotal hProduct)).mpr hSum, hNext⟩
  simp only [assertValidDenominations, bind_eq_ok, throwIf_eq_ok, not_not,
    foldlM_sum_iff hNonneg hAdd ⟨le_refl 0, by decide⟩, zero_add]
  constructor
  · rintro ⟨_, ⟨hValid, _, rfl⟩, hSame⟩
    exact ⟨hValid, hSame⟩
  · rintro ⟨hValid, hSum⟩
    exact ⟨_, ⟨hValid, hSum ▸ hFits, rfl⟩, hSum⟩

end

/-! ### Acceptance -/

section

variable {collate : String → String → Bool} {requiredChannelKeys : List String}
  {lines : List CashCountLine} {denominations : Option (List CashDenominationLine)}
  {validated : ValidatedCashCount} {line : CashCountLine}

theorem find?_named (hOnce : (lines.map fun line => line.named.channelKey).Nodup)
    (hLine : line ∈ lines) : (lines.map CashCountLine.named).find?
      (fun other => other.channelKey = line.named.channelKey) = some line.named := by
  have hKeys : ((lines.map CashCountLine.named).map CashCountLine.channelKey).Nodup := by
    rw [List.map_map]
    exact hOnce
  exact Keyed.lookup_of_mem hKeys (List.mem_map_of_mem hLine)

theorem checkDenominations_eq_ok
    (hOnce : (lines.map fun line => line.named.channelKey).Nodup)
    (hAmounts : ∀ line ∈ lines, 0 ≤ line.amountCents ∧ line.amountCents ≤ centsStorageMax)
    (hDrawer : line ∈ lines) (hPooled : line.named.channelKey = pooledCashChannel.channelKey) :
    checkDenominations denominations (lines.map CashCountLine.named) = .ok () ↔
      ∀ given, denominations = some given → given ≠ [] → Reconciles given line.amountCents := by
  have hFind : cashLine (lines.map CashCountLine.named) = some line.named := by
    rw [cashLine, ← hPooled]
    exact find?_named hOnce hDrawer
  cases denominations with
  | none => simp [checkDenominations]
  | some given =>
      cases given with
      | nil => simp [checkDenominations]
      | cons first rest =>
          have hCash : cashCents (lines.map CashCountLine.named) = line.amountCents := by
            rw [cashCents, hFind]
            rfl
          simp only [checkDenominations, bind_eq_ok, throwIf_eq_ok, exists_const, hFind,
            reduceCtorEq, not_false_eq_true, true_and, hCash, Option.some.injEq,
            assertValidDenominations_eq_ok (hAmounts line hDrawer).2]
          constructor
          · rintro hReconciles _ rfl _
            exact hReconciles
          · intro h
            exact h _ rfl (List.cons_ne_nil _ _)

theorem normalized_iff (hNamed : "" ∉ requiredChannelKeys) :
    (lines.foldlM (normalizeLine requiredChannelKeys) [] =
        .ok (lines.map CashCountLine.named) ∧
      ∀ key ∈ requiredChannelKeys, key ∈ lines.map fun line => line.named.channelKey) ↔
      (lines.map fun line => line.named.channelKey).Nodup ∧
      (∀ key, key ∈ lines.map (fun line => line.named.channelKey) ↔
        key ∈ requiredChannelKeys) ∧
      ∀ line ∈ lines, 0 ≤ line.amountCents ∧ line.amountCents ≤ centsStorageMax := by
  rw [foldlM_normalizeLine_eq_ok]
  constructor
  · rintro ⟨⟨hLines, hOnce, _, _⟩, hRequired⟩
    refine ⟨hOnce, fun key => ⟨fun hKey => ?_, hRequired key⟩, fun line hLine => ?_⟩
    · obtain ⟨line, hLine, rfl⟩ := List.mem_map.mp hKey
      exact (hLines line hLine).2.1
    · exact (hLines line hLine).2.2
  · rintro ⟨hOnce, hCovers, hAmounts⟩
    refine ⟨⟨fun line hLine => ?_, hOnce, by simp, by simp⟩, fun key => (hCovers key).mpr⟩
    have hKnown := (hCovers line.named.channelKey).mp (List.mem_map_of_mem hLine)
    exact ⟨fun hEmpty => hNamed (hEmpty ▸ hKnown), hKnown, hAmounts line hLine⟩

/-- What validation returns: the submitted lines under their channels, sorted. -/
theorem validateCashCount_eq_ok (hFrozen : FrozenChannels requiredChannelKeys) :
    validateCashCount collate lines requiredChannelKeys denominations = .ok validated ↔
      AcceptableCount requiredChannelKeys lines denominations ∧
      validated = ⟨(lines.map CashCountLine.named).insertionSort fun left right =>
          compareChannelKeys collate left.channelKey right.channelKey,
        cashCents (lines.map CashCountLine.named), (lines.map (·.amountCents)).sum⟩ := by
  have hPerm := List.perm_insertionSort (fun left right : CashCountLine =>
    compareChannelKeys collate left.channelKey right.channelKey) (lines.map CashCountLine.named)
  have hSum : (((lines.map CashCountLine.named).insertionSort fun left right =>
      compareChannelKeys collate left.channelKey right.channelKey).map (·.amountCents)).sum =
      (lines.map (·.amountCents)).sum := by
    rw [(hPerm.map _).sum_eq, List.map_map]
    rfl
  have hKeys : (lines.map CashCountLine.named).map CashCountLine.channelKey =
      lines.map fun line => line.named.channelKey := List.map_map
  simp only [validateCashCount, bind_eq_ok, throwIf_eq_ok, exists_const, pure_eq_ok]
  constructor
  · rintro ⟨_, normalized, hNormalized, _, hRequired, _, hDenominations, total, hTotal, rfl⟩
    obtain rfl : lines.map CashCountLine.named = normalized :=
      (foldlM_normalizeLine_eq_ok.mp hNormalized).2.2.2
    have hAll : ∀ key ∈ requiredChannelKeys,
        key ∈ lines.map fun line => line.named.channelKey := by
      intro key hKey
      have hOne := Traverse.forM_eq_ok_iff.mp hRequired key hKey
      rwa [requireChannel, throwIf_eq_ok, not_not, hKeys] at hOne
    obtain ⟨hOnce, hCovers, hAmounts⟩ := (normalized_iff hFrozen.named).mp ⟨hNormalized, hAll⟩
    obtain ⟨drawer, hDrawer, hPooled⟩ := List.mem_map.mp ((hCovers _).mpr hFrozen.drawer)
    have hNonneg : ∀ line ∈ (lines.map CashCountLine.named).insertionSort fun left right =>
        compareChannelKeys collate left.channelKey right.channelKey, 0 ≤ line.amountCents := by
      intro line hLine
      obtain ⟨submitted, hSubmitted, rfl⟩ := List.mem_map.mp (hPerm.mem_iff.mp hLine)
      exact (hAmounts submitted hSubmitted).1
    obtain ⟨hFits, rfl⟩ := (foldlM_addLine_eq_ok hNonneg).mp hTotal
    rw [checkDenominations_eq_ok hOnce hAmounts hDrawer hPooled] at hDenominations
    have hComplete : CompleteCount requiredChannelKeys lines denominations :=
      ⟨hOnce, hCovers, hAmounts, fun given hGiven hSome =>
        ⟨drawer, hDrawer, hPooled, hDenominations given hGiven hSome⟩⟩
    exact ⟨⟨hComplete, hSum ▸ hFits⟩, by rw [hSum]⟩
  · rintro ⟨⟨⟨hOnce, hCovers, hAmounts, hReconciled⟩, hFits⟩, rfl⟩
    obtain ⟨hNormalized, hAll⟩ :=
      (normalized_iff hFrozen.named).mpr ⟨hOnce, hCovers, hAmounts⟩
    obtain ⟨drawer, hDrawer, hPooled⟩ := List.mem_map.mp ((hCovers _).mpr hFrozen.drawer)
    have hNonneg : ∀ line ∈ (lines.map CashCountLine.named).insertionSort fun left right =>
        compareChannelKeys collate left.channelKey right.channelKey, 0 ≤ line.amountCents := by
      intro line hLine
      obtain ⟨submitted, hSubmitted, rfl⟩ := List.mem_map.mp (hPerm.mem_iff.mp hLine)
      exact (hAmounts submitted hSubmitted).1
    have hDenominations : ∀ given, denominations = some given → given ≠ [] →
        Reconciles given drawer.amountCents := by
      intro given hGiven hSome
      obtain ⟨line, hLine, hNamed, hLineSum⟩ := hReconciled given hGiven hSome
      obtain rfl := List.inj_on_of_nodup_map hOnce hLine hDrawer (hNamed.trans hPooled.symm)
      exact hLineSum
    refine ⟨?_, _, hNormalized, (), Traverse.forM_eq_ok_iff.mpr ?_, (),
      (checkDenominations_eq_ok hOnce hAmounts hDrawer hPooled).mpr hDenominations, _,
      (foldlM_addLine_eq_ok hNonneg).mpr ⟨hSum ▸ hFits, rfl⟩, by rw [hSum]⟩
    · rintro rfl
      cases hDrawer
    · intro key hKey
      rw [requireChannel, throwIf_eq_ok, not_not, hKeys]
      exact hAll key hKey

/-- A count of a frozen session is accepted exactly when it is acceptable. -/
theorem validateCashCount_ok_iff (hFrozen : FrozenChannels requiredChannelKeys) :
    (∃ validated, validateCashCount collate lines requiredChannelKeys denominations =
      .ok validated) ↔ AcceptableCount requiredChannelKeys lines denominations := by
  simp only [validateCashCount_eq_ok hFrozen, exists_and_left, exists_eq, and_true]

theorem declares_of_ok (hFrozen : FrozenChannels requiredChannelKeys)
    (h : validateCashCount collate lines requiredChannelKeys denominations = .ok validated) :
    Declares validated lines := by
  obtain ⟨⟨⟨hOnce, _, _, _⟩, _⟩, rfl⟩ := (validateCashCount_eq_ok hFrozen).mp h
  have hPerm := List.perm_insertionSort (fun left right : CashCountLine =>
    compareChannelKeys collate left.channelKey right.channelKey) (lines.map CashCountLine.named)
  have hKeys : ((lines.map CashCountLine.named).map CashCountLine.channelKey).Nodup := by
    rw [List.map_map]
    exact hOnce
  refine ⟨hPerm, fun line hLine => ?_, fun line hLine hPooled => ?_, rfl⟩
  · have hLookup := congrFun (Keyed.lookup_perm hKeys hPerm.symm) line.named.channelKey
    have hSorted : List.find? (fun other => other.channelKey = line.named.channelKey)
        ((lines.map CashCountLine.named).insertionSort fun left right =>
          compareChannelKeys collate left.channelKey right.channelKey) = some line.named :=
      hLookup.symm.trans (find?_named hOnce hLine)
    rw [ValidatedCashCount.amountByChannel, hSorted]
    rfl
  · have hFind : cashLine (lines.map CashCountLine.named) = some line.named := by
      rw [cashLine, ← hPooled]
      exact find?_named hOnce hLine
    show cashCents (lines.map CashCountLine.named) = line.amountCents
    rw [cashCents, hFind]
    rfl

end

/-! ### The counts of frozen sessions -/

/-- The channels of a frozen session are named, the drawer is one of them. -/
theorem SessionLedger.frozenChannels {session : CashSession} {movements : List CashMovement}
    {expected : ExpectedSnapshot} (h : SessionLedger session movements)
    (hTotals : ExpectedTotals session.openingCents.val movements expected) :
    FrozenChannels (requiredChannels expected) where
  drawer := (hTotals.covers _).mpr (.inl rfl)
  named := by
    intro hEmpty
    rcases (hTotals.covers "").mp hEmpty with hPooled | hMovement
    · exact absurd hPooled (by decide)
    · obtain ⟨movement, hMem, hKey⟩ := List.mem_map.mp hMovement
      have hValid := (CashMovement.isValid_iff.mp (h.countable.recordable movement hMem).1).2.2.1
      rw [hKey] at hValid
      exact absurd hValid (by decide)

/-- At any point of any interleaving of the register, a session that is frozen has its expected
totals, and a count of it is accepted exactly when it is acceptable; what an accepted count
declares are the amounts of its lines. -/
theorem counts_of_runs {Tid : Type} [DecidableEq Tid]
    {events : List (Event Tid CashLock CashTables DomainError CashDocument)}
    {system : System Tid CashLock CashTables DomainError CashDocument}
    (run : Runs (Step CashBody) (System.idle CashTables.empty) events system) {id : String}
    {session : SessionRow} (hFound : findSession system.tables id = some session)
    (hFrozen : session.status ≠ .opened) :
    ∃ expected, session.expectedJson = some expected ∧
      ∀ collate lines denominations,
        ((∃ validated, validateCashCount collate lines (requiredChannels expected) denominations =
            .ok validated) ↔
          AcceptableCount (requiredChannels expected) lines denominations) ∧
        ∀ validated, validateCashCount collate lines (requiredChannels expected) denominations =
          .ok validated → Declares validated lines := by
  have hLedgers : Ledgers system.tables :=
    invariant_of_runs (fun _ _ h hChange => h.change hChange)
      (fun _ _ h => ⟨h.owned, h.ledger⟩) (sound_idle _) ledgers_empty run
  have hLedger := hLedgers.ledger id session hFound
  obtain ⟨expected, hExpected, hTotals⟩ := hLedger.totals hFrozen
  have hChannels := hLedger.frozenChannels hTotals
  exact ⟨expected, hExpected, fun collate lines denominations =>
    ⟨validateCashCount_ok_iff hChannels, fun validated => declares_of_ok hChannels⟩⟩

theorem requiredChannels_of_frozenDay :
    ((serveAll frozenDay .empty).bind fun tables =>
      (findSession tables "morning").bind fun session =>
        session.expectedJson.map fun expected => (session.status, requiredChannels expected)) =
      some (.counting, ["CASH", "METHOD:TRANSFER"]) := by
  decide +kernel

theorem runs_frozenDay : ∃ events system session expected,
    Runs (Step CashBody) (System.idle CashTables.empty :
      System Unit CashLock CashTables DomainError CashDocument) events system ∧
    findSession system.tables "morning" = some session ∧ session.status = .counting ∧
    session.expectedJson = some expected ∧
    requiredChannels expected = ["CASH", "METHOD:TRANSFER"] := by
  obtain ⟨tables, hServed, hRest⟩ := Option.bind_eq_some_iff.mp requiredChannels_of_frozenDay
  obtain ⟨session, hSession, hRest⟩ := Option.bind_eq_some_iff.mp hRest
  obtain ⟨expected, hExpected, hHolds⟩ := Option.map_eq_some_iff.mp hRest
  have hDay : ∀ body ∈ frozenDay, CashBody body := by
    simp [frozenDay, cashBody_requestAt, CashBody.payments _ (moment_loads _ _)]
  obtain ⟨events, run⟩ := runs_of_serveAll hDay hServed
  exact ⟨events, _, session, expected, run, hSession, congrArg Prod.fst hHolds, hExpected,
    congrArg Prod.snd hHolds⟩

/-- The two channels of the day that was frozen are counted, the drawer by its coins. -/
theorem counts_of_frozenDay : ∃ events system session expected validated,
    Runs (Step CashBody) (System.idle CashTables.empty :
      System Unit CashLock CashTables DomainError CashDocument) events system ∧
    findSession system.tables "morning" = some session ∧
    session.expectedJson = some expected ∧
    validateCashCount (fun _ _ => true) [⟨"METHOD:TRANSFER", 70⟩, ⟨" CASH", 610⟩]
      (requiredChannels expected) (some [⟨100, 6⟩, ⟨5, 2⟩]) = .ok validated ∧
    Declares validated [⟨"METHOD:TRANSFER", 70⟩, ⟨" CASH", 610⟩] := by
  obtain ⟨events, system, session, expected, run, hSession, hStatus, hExpected, hRequired⟩ :=
    runs_frozenDay
  obtain ⟨_, hSame, hCounts⟩ := counts_of_runs run hSession (by rw [hStatus]; decide)
  obtain rfl := Option.some.inj (hExpected.symm.trans hSame)
  have hOk : validateCashCount (fun _ _ => true) [⟨"METHOD:TRANSFER", 70⟩, ⟨" CASH", 610⟩]
      ["CASH", "METHOD:TRANSFER"] (some [⟨100, 6⟩, ⟨5, 2⟩]) =
      .ok ⟨[⟨"CASH", 610⟩, ⟨"METHOD:TRANSFER", 70⟩], 610, 680⟩ := by
    decide +kernel
  rw [← hRequired] at hOk
  exact ⟨events, system, session, expected, _, run, hSession, hExpected, hOk,
    (hCounts _ _ _).2 _ hOk⟩

/-- A count of the same session that is complete and refused: the amounts of its channels fit the
column, their sum does not. -/
theorem count_refused_by_total : ∃ events system session expected,
    Runs (Step CashBody) (System.idle CashTables.empty :
      System Unit CashLock CashTables DomainError CashDocument) events system ∧
    findSession system.tables "morning" = some session ∧ session.status = .counting ∧
    session.expectedJson = some expected ∧
    CompleteCount (requiredChannels expected)
      [⟨"CASH", centsStorageMax⟩, ⟨"METHOD:TRANSFER", centsStorageMax⟩] none ∧
    validateCashCount (fun _ _ => true)
        [⟨"CASH", centsStorageMax⟩, ⟨"METHOD:TRANSFER", centsStorageMax⟩]
        (requiredChannels expected) none =
      .error (cashRuleViolation "CASH_ARITHMETIC_OVERFLOW"
        "totalCents arithmetic exceeded the safe cents storage range") := by
  obtain ⟨events, system, session, expected, run, hSession, hStatus, hExpected, hRequired⟩ :=
    runs_frozenDay
  refine ⟨events, system, session, expected, run, hSession, hStatus, hExpected, ?_, ?_⟩
  · have hKeys : [(⟨"CASH", centsStorageMax⟩ : CashCountLine),
        ⟨"METHOD:TRANSFER", centsStorageMax⟩].map (fun line => line.named.channelKey) =
        ["CASH", "METHOD:TRANSFER"] := by
      decide +kernel
    refine ⟨hKeys ▸ by decide, fun key => by rw [hKeys, hRequired], ?_, by simp⟩
    simp only [List.forall_mem_cons]
    decide
  · rw [hRequired]
    decide +kernel

end Houndfe.Cash
