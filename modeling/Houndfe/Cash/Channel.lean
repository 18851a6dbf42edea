import Houndfe.Cash.Movement
import Mathlib.Data.List.Infix
import Mathlib.Data.List.Sort

/-! Cash-register channels: how a tender gets its channel, and the grouping of a
session's movements by channel. -/

namespace Houndfe.Cash

open PaymentMethods

structure CashChannel where
  channelKey : String
  channelLabel : String
  method : TenderMethod
  deriving DecidableEq, Repr

def cashMethodLabels : TenderMethod → String
  | .cash => "Efectivo"
  | .cardCredit => "Tarjeta de crédito"
  | .cardDebit => "Tarjeta de débito"
  | .transfer => "Transferencia"

/-- The stored spelling of a method. -/
def cashMethodText : TenderMethod → String
  | .cash => "CASH"
  | .cardCredit => "CARD_CREDIT"
  | .cardDebit => "CARD_DEBIT"
  | .transfer => "TRANSFER"

def pooledCashChannel : CashChannel :=
  ⟨"CASH", cashMethodLabels .cash, .cash⟩

structure CashCatalogIdentity where
  paymentMethodId : String
  name : String
  deriving DecidableEq

/-- Physical cash is pooled; other tenders keep their catalog row, else their method. -/
def resolveCashChannel (method : TenderMethod) (catalog : Option CashCatalogIdentity) :
    Except DomainError CashChannel :=
  if method = .cash then .ok pooledCashChannel
  else
    match catalog with
    | some identity => do
        let paymentMethodId := Text.trim identity.paymentMethodId
        let name := Text.trim identity.name
        throwIf (paymentMethodId = "" ∨ name = "")
          (cashRuleViolation "CASH_CATALOG_IDENTITY_INVALID"
            "catalog channel identity requires a non-empty id and name")
        return ⟨"PM:" ++ paymentMethodId, name, method⟩
    | none => return ⟨"METHOD:" ++ cashMethodText method, cashMethodLabels method, method⟩

/-- The pooled drawer is the only channel of physical cash, and nothing else uses its key. -/
def CashChannel.Pooled (channel : CashChannel) : Prop :=
  if channel.method = .cash then channel = pooledCashChannel
  else channel.channelKey ≠ pooledCashChannel.channelKey

theorem resolveCashChannel_spec {method : TenderMethod} {catalog : Option CashCatalogIdentity}
    {channel : CashChannel} (h : resolveCashChannel method catalog = .ok channel) :
    channel.method = method ∧ channel.Pooled := by
  unfold resolveCashChannel at h
  split at h
  · next hCash =>
      cases h
      exact ⟨hCash.symm, rfl⟩
  · next hOther =>
      split at h
      · simp only [bind_eq_ok, pure_eq_ok] at h
        obtain ⟨_, _, rfl⟩ := h
        refine ⟨rfl, ?_⟩
        rw [CashChannel.Pooled, if_neg hOther]
        intro hKey
        have hChars := congrArg String.toList hKey
        rw [String.toList_append] at hChars
        exact absurd (List.cons.inj hChars).1 (by decide)
      · cases h
        refine ⟨rfl, ?_⟩
        rw [CashChannel.Pooled, if_neg hOther]
        intro hKey
        have hChars := congrArg String.toList hKey
        rw [String.toList_append] at hChars
        exact absurd (List.cons.inj hChars).1 (by decide)

structure CashChannelTotal where
  channelKey : String
  channelLabel : String
  method : TenderMethod
  totalCents : Int
  movementCount : Nat
  deriving DecidableEq, Repr

/-- A channel's first movement opens its total. -/
def CashChannelTotal.ofMovement (movement : CashMovement) : CashChannelTotal :=
  ⟨movement.channelKey, movement.channelLabel, movement.method, movement.deltaCents, 1⟩

/-- One movement of the grouping loop; the list is the insertion order of the map. -/
def addToChannel (groups : List CashChannelTotal) (movement : CashMovement) :
    Except DomainError (List CashChannelTotal) := do
  assertValidCashMovement movement
  match groups.find? (fun group => group.channelKey = movement.channelKey) with
  | some existing => do
      throwIf (existing.channelLabel ≠ movement.channelLabel ∨ existing.method ≠ movement.method)
        (cashRuleViolation "CASH_CHANNEL_LABEL_CONFLICT"
          "channel key is bound to more than one label or method")
      let totalCents ← addCents existing.totalCents movement.deltaCents "channelTotalCents"
      let updated := { existing with
        totalCents := totalCents
        movementCount := existing.movementCount + 1 }
      return groups.map fun group =>
        if group.channelKey = movement.channelKey then updated else group
  | none => return groups ++ [CashChannelTotal.ofMovement movement]

/-- The pooled drawer first, then the other keys in the order `collate` gives. -/
def compareChannelKeys (collate : String → String → Bool) (left right : String) : Bool :=
  if left = pooledCashChannel.channelKey then true
  else if right = pooledCashChannel.channelKey then false
  else collate left right

def groupMovementsByChannel (collate : String → String → Bool) (movements : List CashMovement) :
    Except DomainError (List CashChannelTotal) := do
  let groups ← movements.foldlM addToChannel []
  return groups.insertionSort fun left right =>
    compareChannelKeys collate left.channelKey right.channelKey

/-- The movements of one channel, and what they sum to. -/
def onChannel (key : String) (movements : List CashMovement) : List CashMovement :=
  movements.filter fun movement => movement.channelKey = key

def channelSum (key : String) (movements : List CashMovement) : Int :=
  ((onChannel key movements).map CashMovement.deltaCents).sum

/-- Two movements of one channel carry the same label and method. -/
def ChannelsConsistent (movements : List CashMovement) : Prop :=
  ∀ first ∈ movements, ∀ second ∈ movements, first.channelKey = second.channelKey →
    first.channelLabel = second.channelLabel ∧ first.method = second.method

/-- In this order, no channel's running sum leaves the storage window. -/
def RunningSumsInRange (movements : List CashMovement) : Prop :=
  ∀ earlier, earlier <+: movements → ∀ key, InRange (channelSum key earlier)

instance (movements : List CashMovement) : Decidable (ChannelsConsistent movements) := by
  unfold ChannelsConsistent
  infer_instance

/-! ### What the grouping computes -/

@[simp] theorem onChannel_append (key : String) (first second : List CashMovement) :
    onChannel key (first ++ second) = onChannel key first ++ onChannel key second :=
  List.filter_append ..

@[simp] theorem channelSum_append (key : String) (first second : List CashMovement) :
    channelSum key (first ++ second) = channelSum key first + channelSum key second := by
  simp [channelSum]

theorem channelSum_singleton_self (movement : CashMovement) :
    channelSum movement.channelKey [movement] = movement.deltaCents := by
  simp [channelSum, onChannel]

theorem channelSum_singleton_of_ne {key : String} {movement : CashMovement}
    (h : movement.channelKey ≠ key) : channelSum key [movement] = 0 := by
  simp [channelSum, onChannel, h]

/-- Only the channels that occur need to be looked at, so the condition can be computed. -/
theorem runningSumsInRange_iff {movements : List CashMovement} :
    RunningSumsInRange movements ↔ ∀ earlier ∈ movements.inits, ∀ movement ∈ earlier,
      InRange (channelSum movement.channelKey earlier) := by
  simp only [List.mem_inits]
  refine ⟨fun h earlier hEarlier movement _ => h earlier hEarlier _, fun h earlier hEarlier key => ?_⟩
  by_cases hKey : ∃ movement ∈ earlier, movement.channelKey = key
  · obtain ⟨movement, hMem, rfl⟩ := hKey
    exact h earlier hEarlier movement hMem
  · have hEmpty : onChannel key earlier = [] := by
      rw [onChannel, List.filter_eq_nil_iff]
      intro movement hMem
      simpa using fun hSame => hKey ⟨movement, hMem, hSame⟩
    rw [channelSum, hEmpty]
    exact inRange_zero

instance (movements : List CashMovement) : Decidable (RunningSumsInRange movements) :=
  decidable_of_iff _ runningSumsInRange_iff.symm

theorem channelSum_perm (key : String) {first second : List CashMovement}
    (h : first.Perm second) : channelSum key first = channelSum key second :=
  ((h.filter _).map _).sum_eq

/-- The group a channel should have after these movements: none before its first, then
that one's label and method with the sum of all. -/
def expectedGroup (key : String) (movements : List CashMovement) : Option CashChannelTotal :=
  (onChannel key movements).head?.map fun first =>
    ⟨key, first.channelLabel, first.method, channelSum key movements,
      (onChannel key movements).length⟩

/-- The groups hold, for every channel, what it should have, and nothing else. -/
structure Grouped (movements : List CashMovement) (groups : List CashChannelTotal) : Prop where
  lookup : ∀ key,
    groups.find? (fun group => group.channelKey = key) = expectedGroup key movements
  sound : ∀ group ∈ groups, expectedGroup group.channelKey movements = some group

theorem expectedGroup_append_of_ne {key : String} {movements : List CashMovement}
    {movement : CashMovement} (h : movement.channelKey ≠ key) :
    expectedGroup key (movements ++ [movement]) = expectedGroup key movements := by
  simp [expectedGroup, onChannel, channelSum, h]

theorem expectedGroup_eq_none {key : String} {movements : List CashMovement} :
    expectedGroup key movements = none ↔ onChannel key movements = [] := by
  simp [expectedGroup]

/-- The channel of a movement after it was added, when it was there before. -/
theorem expectedGroup_append_self {movements : List CashMovement} {movement : CashMovement}
    {existing : CashChannelTotal}
    (h : expectedGroup movement.channelKey movements = some existing) :
    expectedGroup movement.channelKey (movements ++ [movement]) =
      some { existing with
        totalCents := existing.totalCents + movement.deltaCents
        movementCount := existing.movementCount + 1 } := by
  simp only [expectedGroup, Option.map_eq_some_iff] at h ⊢
  obtain ⟨first, hFirst, rfl⟩ := h
  refine ⟨first, ?_, ?_⟩
  · rw [onChannel_append, List.head?_append, hFirst]
    rfl
  · rw [channelSum_append, channelSum_singleton_self]
    simp [onChannel]

theorem expectedGroup_append_first {movements : List CashMovement} {movement : CashMovement}
    (h : onChannel movement.channelKey movements = []) :
    expectedGroup movement.channelKey (movements ++ [movement]) =
      some (CashChannelTotal.ofMovement movement) := by
  have hSelf : onChannel movement.channelKey (movements ++ [movement]) = [movement] := by
    rw [onChannel_append, h]
    simp [onChannel]
  simp [expectedGroup, channelSum, hSelf, CashChannelTotal.ofMovement]

/-- The conditions under which one more movement joins its channel. -/
def Joins (movements : List CashMovement) (movement : CashMovement) : Prop :=
  ∀ existing ∈ expectedGroup movement.channelKey movements,
    existing.channelLabel = movement.channelLabel ∧ existing.method = movement.method ∧
      InRange existing.totalCents ∧ InRange (existing.totalCents + movement.deltaCents)

/-- One turn of the loop: a valid movement that joins its channel is counted there, and
any other raises. -/
theorem addToChannel_spec {movements : List CashMovement} {groups : List CashChannelTotal}
    {movement : CashMovement} (hGrouped : Grouped movements groups) (hValid : movement.IsValid) :
    ((∃ next, addToChannel groups movement = .ok next) ↔ Joins movements movement) ∧
      ∀ next, addToChannel groups movement = .ok next →
        Grouped (movements ++ [movement]) next := by
  have hLookup := hGrouped.lookup movement.channelKey
  unfold addToChannel
  rw [hLookup]
  cases hExpected : expectedGroup movement.channelKey movements with
  | none =>
      have hEmpty := expectedGroup_eq_none.mp hExpected
      refine ⟨⟨fun _ existing hMem => ?_, fun _ => ?_⟩, fun next hNext => ?_⟩
      · rw [hExpected] at hMem
        cases hMem
      · exact ⟨_, bind_eq_ok.mpr ⟨(), hValid, rfl⟩⟩
      · simp only [bind_eq_ok, pure_eq_ok, assertValidCashMovement_eq_ok, exists_const] at hNext
        obtain ⟨_, rfl⟩ := hNext
        refine ⟨fun key => ?_, fun group hMem => ?_⟩
        · rw [List.find?_append, hGrouped.lookup key]
          by_cases hKey : movement.channelKey = key
          · subst hKey
            rw [hExpected, expectedGroup_append_first hEmpty]
            simp [CashChannelTotal.ofMovement]
          · rw [expectedGroup_append_of_ne hKey]
            simp [CashChannelTotal.ofMovement, hKey]
        · rcases List.mem_append.mp hMem with hMem | hMem
          · have hSound := hGrouped.sound group hMem
            rw [expectedGroup_append_of_ne, hSound]
            intro hKey
            rw [← hKey, hExpected] at hSound
            cases hSound
          · obtain rfl := List.mem_singleton.mp hMem
            exact expectedGroup_append_first hEmpty
  | some existing =>
      have hExistingKey : existing.channelKey = movement.channelKey := by
        simp only [expectedGroup, Option.map_eq_some_iff] at hExpected
        obtain ⟨_, _, rfl⟩ := hExpected
        rfl
      simp only [bind_eq_ok, throwIf_eq_ok, addCents_eq_ok, pure_eq_ok, exists_const,
        assertValidCashMovement_eq_ok, not_or, not_not, ne_eq]
      refine ⟨⟨?_, ?_⟩, ?_⟩
      · rintro ⟨next, _, ⟨hLabel, hMethod⟩, _, ⟨hTotal, _, hSum, rfl⟩, _⟩ other hMem
        rw [hExpected] at hMem
        cases hMem
        exact ⟨hLabel, hMethod, hTotal, hSum⟩
      · intro hJoins
        obtain ⟨hLabel, hMethod, hTotal, hSum⟩ := hJoins existing hExpected
        exact ⟨_, hValid, ⟨hLabel, hMethod⟩, _, ⟨hTotal, hValid.inRange, hSum, rfl⟩, rfl⟩
      · rintro next ⟨_, _, _, ⟨_, _, _, rfl⟩, rfl⟩
        have hUpdated := expectedGroup_append_self hExpected
        refine ⟨fun key => ?_, fun group hMem => ?_⟩
        · rw [List.find?_map]
          have hSame : ((fun group : CashChannelTotal => decide (group.channelKey = key)) ∘
              fun group => if group.channelKey = movement.channelKey then
                { existing with
                  totalCents := existing.totalCents + movement.deltaCents
                  movementCount := existing.movementCount + 1 }
                else group) = fun group => decide (group.channelKey = key) := by
            funext group
            by_cases hGroup : group.channelKey = movement.channelKey
            · simp [hGroup, hExistingKey]
            · simp [hGroup]
          rw [hSame, hGrouped.lookup key]
          by_cases hKey : movement.channelKey = key
          · subst hKey
            rw [hUpdated, hExpected]
            simp [hExistingKey]
          · rw [expectedGroup_append_of_ne hKey]
            cases hOther : expectedGroup key movements with
            | none => rfl
            | some group =>
                have hOtherKey : group.channelKey = key := by
                  simp only [expectedGroup, Option.map_eq_some_iff] at hOther
                  obtain ⟨_, _, rfl⟩ := hOther
                  rfl
                simp [hOtherKey, Ne.symm hKey]
        · obtain ⟨other, hOther, rfl⟩ := List.mem_map.mp hMem
          by_cases hKey : other.channelKey = movement.channelKey
          · simpa [hKey, hExistingKey] using hUpdated
          · simp only [hKey, if_false]
            rw [expectedGroup_append_of_ne (Ne.symm hKey)]
            exact hGrouped.sound other hOther

/-- Joining, said of the list: same label and method as every earlier movement of the
channel, and a running sum that stays in the window. -/
theorem joins_iff {movements : List CashMovement} {movement : CashMovement}
    (hConsistent : ChannelsConsistent movements) (hRunning : RunningSumsInRange movements)
    (hValid : movement.IsValid) :
    Joins movements movement ↔
      ChannelsConsistent (movements ++ [movement]) ∧
        RunningSumsInRange (movements ++ [movement]) := by
  have hPrior := hRunning movements List.prefix_rfl
  have hSumIff : RunningSumsInRange (movements ++ [movement]) ↔
      InRange (channelSum movement.channelKey movements + movement.deltaCents) := by
    constructor
    · intro h
      have hAll := h (movements ++ [movement]) List.prefix_rfl movement.channelKey
      rwa [channelSum_append, channelSum_singleton_self] at hAll
    · intro h earlier hEarlier key
      rcases List.prefix_concat_iff.mp hEarlier with rfl | hEarlier
      · by_cases hKey : movement.channelKey = key
        · subst hKey
          rwa [channelSum_append, channelSum_singleton_self]
        · rw [channelSum_append, channelSum_singleton_of_ne hKey, add_zero]
          exact hPrior key
      · exact hRunning earlier hEarlier key
  have hConsistentIff : ChannelsConsistent (movements ++ [movement]) ↔
      ∀ other ∈ onChannel movement.channelKey movements,
        other.channelLabel = movement.channelLabel ∧ other.method = movement.method := by
    constructor
    · intro h other hOther
      obtain ⟨hMem, hKey⟩ := List.mem_filter.mp hOther
      exact h other (by simp [hMem]) movement (by simp) (by simpa using hKey)
    · intro h first hFirst second hSecond hKey
      have hOf : ∀ other ∈ movements, other.channelKey = movement.channelKey →
          other.channelLabel = movement.channelLabel ∧ other.method = movement.method :=
        fun other hMem hSame => h other (List.mem_filter.mpr ⟨hMem, by simpa using hSame⟩)
      rcases List.mem_append.mp hFirst with hFirstMem | hFirstMem <;>
        rcases List.mem_append.mp hSecond with hSecondMem | hSecondMem
      · exact hConsistent first hFirstMem second hSecondMem hKey
      · obtain rfl := List.mem_singleton.mp hSecondMem
        exact hOf first hFirstMem hKey
      · obtain rfl := List.mem_singleton.mp hFirstMem
        obtain ⟨hLabel, hMethod⟩ := hOf second hSecondMem hKey.symm
        exact ⟨hLabel.symm, hMethod.symm⟩
      · obtain rfl := List.mem_singleton.mp hFirstMem
        obtain rfl := List.mem_singleton.mp hSecondMem
        exact ⟨rfl, rfl⟩
  rw [hSumIff, hConsistentIff]
  cases hChannel : onChannel movement.channelKey movements with
  | nil =>
      have hZero : channelSum movement.channelKey movements = 0 := by
        simp [channelSum, hChannel]
      simp [Joins, expectedGroup, hChannel, hZero, hValid.inRange]
  | cons first rest =>
      have hFirst : first ∈ onChannel movement.channelKey movements := by simp [hChannel]
      have hRest : ∀ other ∈ rest, other.channelLabel = first.channelLabel ∧
          other.method = first.method := by
        intro other hOther
        have hMem : other ∈ onChannel movement.channelKey movements := by
          simp [hChannel, hOther]
        obtain ⟨hMem, hKey⟩ := List.mem_filter.mp hMem
        obtain ⟨hFirstMem, hFirstKey⟩ := List.mem_filter.mp hFirst
        refine hConsistent other hMem first hFirstMem ?_
        simp only [decide_eq_true_eq] at hKey hFirstKey
        rw [hKey, hFirstKey]
      simp only [Joins, expectedGroup, hChannel, List.head?_cons, Option.map_some,
        Option.mem_some_iff, forall_eq', List.mem_cons, forall_eq_or_imp]
      constructor
      · rintro ⟨hLabel, hMethod, _, hSum⟩
        refine ⟨⟨⟨hLabel, hMethod⟩, fun other hOther => ?_⟩, hSum⟩
        obtain ⟨hOtherLabel, hOtherMethod⟩ := hRest other hOther
        exact ⟨hOtherLabel.trans hLabel, hOtherMethod.trans hMethod⟩
      · rintro ⟨⟨⟨hLabel, hMethod⟩, _⟩, hSum⟩
        exact ⟨hLabel, hMethod, hPrior _, hSum⟩

/-- The grouping loop over valid movements raises unless every channel is consistent and
every running sum stays in the window; its groups are what the channels should have. -/
theorem foldlM_addToChannel_spec {movements : List CashMovement}
    (hValid : ∀ movement ∈ movements, movement.IsValid) :
    ((∃ groups, movements.foldlM addToChannel [] = .ok groups) ↔
        ChannelsConsistent movements ∧ RunningSumsInRange movements) ∧
      ∀ groups, movements.foldlM addToChannel [] = .ok groups → Grouped movements groups := by
  induction movements using List.reverseRecOn with
  | nil =>
      refine ⟨⟨fun _ => ⟨?_, ?_⟩, fun _ => ⟨[], rfl⟩⟩, ?_⟩
      · rintro first hFirst
        cases hFirst
      · intro earlier hEarlier key
        rw [List.prefix_nil.mp hEarlier]
        exact inRange_zero
      · rintro groups hGroups
        cases hGroups
        exact ⟨fun _ => rfl, by simp⟩
  | append_singleton earlier movement ih =>
      obtain ⟨hIff, hGroups⟩ := ih fun other hOther => hValid other (by simp [hOther])
      have hMovement := hValid movement (by simp)
      simp only [List.foldlM_append, List.foldlM_cons, List.foldlM_nil, bind_pure, bind_eq_ok]
      constructor
      · constructor
        · rintro ⟨next, groups, hFold, hAdd⟩
          obtain ⟨hConsistent, hRunning⟩ := hIff.mp ⟨groups, hFold⟩
          have hJoins := (addToChannel_spec (hGroups groups hFold) hMovement).1.mp ⟨next, hAdd⟩
          exact (joins_iff hConsistent hRunning hMovement).mp hJoins
        · rintro ⟨hConsistent, hRunning⟩
          have hConsistentEarlier : ChannelsConsistent earlier :=
            fun first hFirst second hSecond =>
              hConsistent first (by simp [hFirst]) second (by simp [hSecond])
          have hRunningEarlier : RunningSumsInRange earlier :=
            fun part hPart => hRunning part (hPart.trans (List.prefix_append _ _))
          obtain ⟨groups, hFold⟩ := hIff.mpr ⟨hConsistentEarlier, hRunningEarlier⟩
          have hJoins := (joins_iff hConsistentEarlier hRunningEarlier hMovement).mpr
            ⟨hConsistent, hRunning⟩
          obtain ⟨next, hAdd⟩ := (addToChannel_spec (hGroups groups hFold) hMovement).1.mpr hJoins
          exact ⟨next, groups, hFold, hAdd⟩
      · rintro next ⟨groups, hFold, hAdd⟩
        exact (addToChannel_spec (hGroups groups hFold) hMovement).2 next hAdd

end Houndfe.Cash
