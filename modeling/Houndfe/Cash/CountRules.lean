import Houndfe.Base.Keyed
import Houndfe.Base.Traverse
import Houndfe.Cash.Ledger

/-! The rules of a count: what a blind count must cover, and the comparison of the expected,
declared and verified amounts, each kept apart from the others. -/

namespace Houndfe.Cash

open PaymentMethods

/-- Subtract two amounts of the window; a difference that leaves it is refused. -/
def subtractCents (left right : Int) (field : String) : Except DomainError Int := do
  assertStorageRangeCents left field
  assertStorageRangeCents right field
  throwIf (¬ InRange (left - right))
    (cashRuleViolation "CASH_ARITHMETIC_OVERFLOW"
      (field ++ " arithmetic exceeded the safe cents storage range"))
  return left - right

def multiplyCents (amountCents quantity : Int) (field : String) : Except DomainError Int := do
  assertStorageRangeCents amountCents field
  assertStorageRangeCents quantity (field ++ ".quantity")
  throwIf (¬ InRange (amountCents * quantity))
    (cashRuleViolation "CASH_ARITHMETIC_OVERFLOW"
      (field ++ " arithmetic exceeded the safe cents storage range"))
  return amountCents * quantity

theorem subtractCents_eq_ok {left right difference : Int} {field : String} :
    subtractCents left right field = .ok difference ↔
      InRange left ∧ InRange right ∧ InRange (left - right) ∧ left - right = difference := by
  simp only [subtractCents, bind_eq_ok, assertStorageRangeCents_eq_ok, throwIf_eq_ok,
    exists_const, pure_eq_ok, not_not]

/-- Two counted amounts are never further apart than the window. -/
theorem inRange_sub {left right : Int} (hLeft : 0 ≤ left ∧ InRange left)
    (hRight : 0 ≤ right ∧ InRange right) : InRange (left - right) := by
  simp only [InRange, centsStorageMin, centsStorageMax] at *
  omega

/-! ### Validating a count -/

structure CashCountLine where
  channelKey : String
  amountCents : Int
  deriving DecidableEq, Repr

structure CashDenominationLine where
  denominationCents : Int
  quantity : Int
  deriving DecidableEq, Repr

structure ValidatedCashCount where
  lines : List CashCountLine
  cashCents : Int
  totalCents : Int
  deriving DecidableEq, Repr

/-- One turn of the loop over the lines; `normalized` are the lines it kept so far. -/
def normalizeLine (requiredChannelKeys : List String) (normalized : List CashCountLine)
    (line : CashCountLine) : Except DomainError (List CashCountLine) := do
  let channelKey := Text.trim line.channelKey
  throwIf (channelKey = "" ∨ channelKey ∉ requiredChannelKeys)
    (cashRuleViolation "CASH_COUNT_UNKNOWN_CHANNEL" "count line references an unknown channel")
  throwIf (channelKey ∈ normalized.map CashCountLine.channelKey)
    (cashRuleViolation "CASH_COUNT_DUPLICATE_CHANNEL"
      "count must reference each channel exactly once")
  assertNonNegativeCents line.amountCents ("lines." ++ channelKey)
  assertStorageRangeCents line.amountCents ("lines." ++ channelKey)
  return normalized ++ [⟨channelKey, line.amountCents⟩]

def requireChannel (normalized : List CashCountLine) (requiredKey : String) :
    Except DomainError Unit :=
  throwIf (requiredKey ∉ normalized.map CashCountLine.channelKey)
    (cashRuleViolation "CASH_COUNT_MISSING_CHANNEL"
      "count is missing a required channel (missing is not zero)")

/-- The line of physical cash. -/
def cashLine (lines : List CashCountLine) : Option CashCountLine :=
  lines.find? fun line => line.channelKey = pooledCashChannel.channelKey

def cashCents (lines : List CashCountLine) : Int :=
  match cashLine lines with
  | some line => line.amountCents
  | none => 0

def addDenomination (total : Int) (denomination : CashDenominationLine) :
    Except DomainError Int := do
  throwIf (denomination.denominationCents ≤ 0 ∨ centsStorageMax < denomination.denominationCents)
    (cashRuleViolation "CASH_DENOMINATION_INVALID"
      "denomination must be a positive integer number of cents")
  throwIf (denomination.quantity < 0 ∨ centsStorageMax < denomination.quantity)
    (cashRuleViolation "CASH_DENOMINATION_INVALID"
      "denomination quantity must be a non-negative integer")
  let product ← multiplyCents denomination.denominationCents denomination.quantity
    "denominationCents"
  addCents total product "denominationTotalCents"

def assertValidDenominations (denominations : List CashDenominationLine) (cashCents : Int) :
    Except DomainError Unit := do
  let total ← denominations.foldlM addDenomination 0
  throwIf (total ≠ cashCents)
    (cashRuleViolation "CASH_DENOMINATION_SUM_MISMATCH"
      "denominations must sum to the counted physical cash")

/-- Denominations are optional; an empty list is none. -/
def checkDenominations (denominations : Option (List CashDenominationLine))
    (normalized : List CashCountLine) : Except DomainError Unit :=
  match denominations with
  | none | some [] => .ok ()
  | some denominations => do
      throwIf (cashLine normalized = none)
        (cashRuleViolation "CASH_DENOMINATION_CASH_LINE_REQUIRED"
          "denominations require a counted cash line")
      assertValidDenominations denominations (cashCents normalized)

def addLine (totalCents : Int) (line : CashCountLine) : Except DomainError Int :=
  addCents totalCents line.amountCents "totalCents"

def validateCashCount (collate : String → String → Bool) (lines : List CashCountLine)
    (requiredChannelKeys : List String) (denominations : Option (List CashDenominationLine)) :
    Except DomainError ValidatedCashCount := do
  throwIf (lines = []) (cashRuleViolation "CASH_COUNT_EMPTY" "an empty count is not a zero count")
  let normalized ← lines.foldlM (normalizeLine requiredChannelKeys) []
  requiredChannelKeys.forM (requireChannel normalized)
  checkDenominations denominations normalized
  let sorted := normalized.insertionSort fun left right =>
    compareChannelKeys collate left.channelKey right.channelKey
  let totalCents ← sorted.foldlM addLine 0
  return ⟨sorted, cashCents normalized, totalCents⟩

/-- What a count that was accepted looks like: one line for each required channel and no other,
every amount counted. -/
structure Counted (requiredChannelKeys : List String) (lines : List CashCountLine) : Prop where
  keys_nodup : (lines.map CashCountLine.channelKey).Nodup
  covers : ∀ key, key ∈ lines.map CashCountLine.channelKey ↔ key ∈ requiredChannelKeys
  amounts : ∀ line ∈ lines, 0 ≤ line.amountCents ∧ InRange line.amountCents

/-- The lines kept so far while the loop runs. -/
structure Normalized (requiredChannelKeys : List String) (lines : List CashCountLine) : Prop where
  keys_nodup : (lines.map CashCountLine.channelKey).Nodup
  known : ∀ line ∈ lines, line.channelKey ∈ requiredChannelKeys
  amounts : ∀ line ∈ lines, 0 ≤ line.amountCents ∧ InRange line.amountCents

theorem normalizeLine_keeps {requiredChannelKeys : List String}
    {normalized after : List CashCountLine} {line : CashCountLine}
    (hNormalized : Normalized requiredChannelKeys normalized)
    (h : normalizeLine requiredChannelKeys normalized line = .ok after) :
    Normalized requiredChannelKeys after := by
  simp only [normalizeLine, bind_eq_ok, throwIf_eq_ok, assertNonNegativeCents_eq_ok,
    assertStorageRangeCents_eq_ok, exists_const, pure_eq_ok, not_or, not_not] at h
  obtain ⟨⟨_, hKnown⟩, hFresh, hNonneg, hRange, rfl⟩ := h
  constructor
  · rw [List.map_append, List.nodup_append]
    refine ⟨hNormalized.keys_nodup, by simp, ?_⟩
    intro key hKey other hOther hSame
    obtain rfl := List.mem_singleton.mp hOther
    subst hSame
    exact hFresh hKey
  · intro other hOther
    rcases List.mem_append.mp hOther with hOther | hOther
    · exact hNormalized.known other hOther
    · obtain rfl := List.mem_singleton.mp hOther
      exact hKnown
  · intro other hOther
    rcases List.mem_append.mp hOther with hOther | hOther
    · exact hNormalized.amounts other hOther
    · obtain rfl := List.mem_singleton.mp hOther
      exact ⟨hNonneg, hRange⟩

theorem foldlM_normalizeLine_keeps {requiredChannelKeys : List String}
    {lines start normalized : List CashCountLine}
    (hStart : Normalized requiredChannelKeys start)
    (h : lines.foldlM (normalizeLine requiredChannelKeys) start = .ok normalized) :
    Normalized requiredChannelKeys normalized := by
  induction lines generalizing start with
  | nil =>
      cases h
      exact hStart
  | cons line rest ih =>
      rw [List.foldlM_cons] at h
      obtain ⟨middle, hLine, hRest⟩ := bind_eq_ok.mp h
      exact ih (normalizeLine_keeps hStart hLine) hRest

/-- The cash line does not depend on the order of lines with distinct channels. -/
theorem cashCents_perm {lines lines' : List CashCountLine}
    (hKeys : (lines.map CashCountLine.channelKey).Nodup) (hPerm : lines.Perm lines') :
    cashCents lines = cashCents lines' := by
  have hLookup := congrFun (Keyed.lookup_perm hKeys hPerm) pooledCashChannel.channelKey
  have hSame : cashLine lines = cashLine lines' := hLookup
  rw [cashCents, cashCents, hSame]

theorem validateCashCount_counted {collate : String → String → Bool} {lines : List CashCountLine}
    {requiredChannelKeys : List String} {denominations : Option (List CashDenominationLine)}
    {validated : ValidatedCashCount}
    (h : validateCashCount collate lines requiredChannelKeys denominations = .ok validated) :
    Counted requiredChannelKeys validated.lines ∧
      validated.cashCents = cashCents validated.lines := by
  simp only [validateCashCount, bind_eq_ok, throwIf_eq_ok, exists_const, pure_eq_ok] at h
  obtain ⟨_, normalized, hNormalized, _, hRequired, _, _, _, _, rfl⟩ := h
  have hStart : Normalized requiredChannelKeys [] := ⟨by simp, by simp, by simp⟩
  have hKept := foldlM_normalizeLine_keeps hStart hNormalized
  have hAll : ∀ key ∈ requiredChannelKeys, key ∈ normalized.map CashCountLine.channelKey := by
    intro key hKey
    have hOne := Traverse.forM_eq_ok_iff.mp hRequired key hKey
    rw [requireChannel, throwIf_eq_ok, not_not] at hOne
    exact hOne
  have hPerm := List.perm_insertionSort (fun left right : CashCountLine =>
    compareChannelKeys collate left.channelKey right.channelKey) normalized
  refine ⟨⟨(hPerm.map _).nodup_iff.mpr hKept.keys_nodup, fun key => ?_, fun line hLine => ?_⟩,
    cashCents_perm hKept.keys_nodup hPerm.symm⟩
  · rw [(hPerm.map CashCountLine.channelKey).mem_iff]
    constructor
    · intro hKey
      obtain ⟨line, hLine, rfl⟩ := List.mem_map.mp hKey
      exact hKept.known line hLine
    · exact hAll key
  · exact hKept.amounts line (hPerm.mem_iff.mp hLine)

theorem Counted.find {requiredChannelKeys : List String} {lines : List CashCountLine}
    (h : Counted requiredChannelKeys lines) {key : String} (hKey : key ∈ requiredChannelKeys) :
    ∃ line ∈ lines, lines.find? (fun line => line.channelKey = key) = some line := by
  obtain ⟨line, hLine, rfl⟩ := List.mem_map.mp ((h.covers key).mpr hKey)
  exact ⟨line, hLine, Keyed.lookup_of_mem h.keys_nodup hLine⟩

/-! ### Comparing counts -/

structure CashComparisonInput where
  expectedCents : Int
  declaredCents : Int
  verifiedCents : Option Int
  declarationNotes : Option String
  verificationNotes : Option String

structure CashComparison where
  expectedCents : Int
  declaredCents : Int
  verifiedCents : Option Int
  declarationDifferenceCents : Int
  verificationDifferenceCents : Option Int
  verifiedVsExpectedDifferenceCents : Option Int
  requiresDeclarationNotes : Bool
  requiresVerificationNotes : Bool
  hasDiscrepancy : Bool
  deriving DecidableEq, Repr

/-- Notes that are present and not blank. -/
def HasNotes (notes : Option String) : Prop :=
  Text.isNonEmptyText (notes.getD "") = true

instance (notes : Option String) : Decidable (HasNotes notes) :=
  inferInstanceAs (Decidable (_ = true))

/-- The part of the comparison that a verification adds: its difference from the declaration
and from the expected amount. -/
def compareVerified (input : CashComparisonInput) (verifiedCents : Int) :
    Except DomainError (Int × Int) := do
  let verificationDifferenceCents ←
    subtractCents verifiedCents input.declaredCents "verificationDifferenceCents"
  let verifiedVsExpectedDifferenceCents ←
    subtractCents verifiedCents input.expectedCents "verifiedVsExpectedDifferenceCents"
  throwIf (verificationDifferenceCents ≠ 0 ∧ ¬ HasNotes input.verificationNotes)
    (cashRuleViolation "CASH_DISCREPANCY_NOTES_REQUIRED"
      "a verified cash difference requires an explanation")
  return (verificationDifferenceCents, verifiedVsExpectedDifferenceCents)

def compareCashCounts (input : CashComparisonInput) : Except DomainError CashComparison := do
  assertStorageRangeCents input.expectedCents "expectedCents"
  assertStorageRangeCents input.declaredCents "declaredCents"
  match input.verifiedCents with
  | some verifiedCents => assertStorageRangeCents verifiedCents "verifiedCents"
  | none => pure ()
  let declarationDifferenceCents ←
    subtractCents input.declaredCents input.expectedCents "declarationDifferenceCents"
  throwIf (declarationDifferenceCents ≠ 0 ∧ ¬ HasNotes input.declarationNotes)
    (cashRuleViolation "CASH_DISCREPANCY_NOTES_REQUIRED"
      "a declared cash difference requires an explanation")
  let requiresDeclarationNotes : Bool := declarationDifferenceCents ≠ 0
  match input.verifiedCents with
  | some verifiedCents => do
      let (verificationDifferenceCents, verifiedVsExpectedDifferenceCents) ←
        compareVerified input verifiedCents
      let requiresVerificationNotes : Bool := verificationDifferenceCents ≠ 0
      return {
        expectedCents := input.expectedCents
        declaredCents := input.declaredCents
        verifiedCents := input.verifiedCents
        declarationDifferenceCents
        verificationDifferenceCents := some verificationDifferenceCents
        verifiedVsExpectedDifferenceCents := some verifiedVsExpectedDifferenceCents
        requiresDeclarationNotes
        requiresVerificationNotes
        hasDiscrepancy := requiresDeclarationNotes || requiresVerificationNotes }
  | none =>
      return {
        expectedCents := input.expectedCents
        declaredCents := input.declaredCents
        verifiedCents := none
        declarationDifferenceCents
        verificationDifferenceCents := none
        verifiedVsExpectedDifferenceCents := none
        requiresDeclarationNotes
        requiresVerificationNotes := false
        hasDiscrepancy := requiresDeclarationNotes }

/-- When a verified count can be compared: the amounts and the differences fit the window, and
a difference comes with its notes. -/
theorem compareCashCounts_verified_iff {expectedCents declaredCents verifiedCents : Int}
    {declarationNotes verificationNotes : Option String} :
    (∃ comparison, compareCashCounts
        ⟨expectedCents, declaredCents, some verifiedCents, declarationNotes, verificationNotes⟩ =
          .ok comparison) ↔
      InRange expectedCents ∧ InRange declaredCents ∧ InRange verifiedCents ∧
        InRange (declaredCents - expectedCents) ∧ InRange (verifiedCents - declaredCents) ∧
        InRange (verifiedCents - expectedCents) ∧
        (declaredCents ≠ expectedCents → HasNotes declarationNotes) ∧
        (verifiedCents ≠ declaredCents → HasNotes verificationNotes) := by
  simp only [compareCashCounts, compareVerified, bind_eq_ok, throwIf_eq_ok, exists_const,
    pure_eq_ok, assertStorageRangeCents_eq_ok, subtractCents_eq_ok, not_and, not_not,
    Prod.exists, Prod.mk.injEq]
  constructor
  · rintro ⟨_, hExpected, hDeclared, hVerified, _, ⟨_, _, hDeclaration, rfl⟩, hNotes, _, _,
      ⟨_, ⟨_, _, hVerification, rfl⟩, _, ⟨_, _, hVersus, rfl⟩, hVerifiedNotes, _⟩, _⟩
    exact ⟨hExpected, hDeclared, hVerified, hDeclaration, hVerification, hVersus,
      fun hNe => hNotes (sub_ne_zero.mpr hNe), fun hNe => hVerifiedNotes (sub_ne_zero.mpr hNe)⟩
  · rintro ⟨hExpected, hDeclared, hVerified, hDeclaration, hVerification, hVersus, hNotes,
      hVerifiedNotes⟩
    exact ⟨_, hExpected, hDeclared, hVerified, _, ⟨hDeclared, hExpected, hDeclaration, rfl⟩,
      fun hNe => hNotes (sub_ne_zero.mp hNe), _, _,
      ⟨_, ⟨hVerified, hDeclared, hVerification, rfl⟩, _, ⟨hVerified, hExpected, hVersus, rfl⟩,
        fun hNe => hVerifiedNotes (sub_ne_zero.mp hNe), rfl, rfl⟩, rfl⟩

/-- What the response to a declaration says when the comparison is refused for a missing
explanation or for its arithmetic: the submission is not rolled back. -/
structure UnexplainedComparison where
  expectedCents : Int
  declaredCents : Int
  verifiedCents : Option Int
  differenceCents : Option Int
  requiresDeclarationNotes : Bool
  requiresVerificationNotes : Bool
  hasDiscrepancy : Bool
  notesRequired : Bool
  deriving DecidableEq, Repr

inductive SafeComparison where
  | compared (comparison : CashComparison)
  | unexplained (comparison : UnexplainedComparison)
  deriving DecidableEq, Repr

def safeDifference (left right : Int) : Option Int :=
  (subtractCents left right "differenceCents").toOption

def compareSafely (input : CashComparisonInput) : Except DomainError SafeComparison :=
  match compareCashCounts input with
  | .ok comparison => .ok (.compared comparison)
  | .error error =>
      if error.code = "CASH_DISCREPANCY_NOTES_REQUIRED" ∨ error.code = "CASH_ARITHMETIC_OVERFLOW"
      then
        .ok (.unexplained {
          expectedCents := input.expectedCents
          declaredCents := input.declaredCents
          verifiedCents := input.verifiedCents
          differenceCents := safeDifference input.declaredCents input.expectedCents
          requiresDeclarationNotes := true
          requiresVerificationNotes := false
          hasDiscrepancy := true
          notesRequired := true })
      else .error error

/-- Every frozen channel needs its line in both counts and its own comparison. -/
def assertChannelExplanation (declaredLines verifiedLines : List CashCountLine)
    (declarationNotes verificationNotes : Option String) (channel : ExpectedChannel) :
    Except DomainError Unit :=
  match declaredLines.find? (fun line => line.channelKey = channel.channelKey),
      verifiedLines.find? (fun line => line.channelKey = channel.channelKey) with
  | some declared, some verified => do
      let _ ← compareCashCounts ⟨channel.expectedCents, declared.amountCents,
        some verified.amountCents, declarationNotes, verificationNotes⟩
      return ()
  | _, _ => .error (cashRuleViolation "CASH_COUNT_MISSING_CHANNEL"
      "A count must include every frozen channel")

def assertChannelExplanations (expected : ExpectedSnapshot)
    (declaredLines verifiedLines : List CashCountLine)
    (declarationNotes verificationNotes : Option String) : Except DomainError Unit :=
  expected.channels.forM
    (assertChannelExplanation declaredLines verifiedLines declarationNotes verificationNotes)

end Houndfe.Cash
