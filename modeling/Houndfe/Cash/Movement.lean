import Houndfe.PaymentMethods.Catalog
import Mathlib.Algebra.Ring.Int.Defs
import Mathlib.Algebra.Order.BigOperators.Group.List

/-! Cash-register money and movements: the storage window of cents and the rules a
movement must satisfy. -/

namespace Houndfe.Cash

open PaymentMethods

def centsStorageMin : Int := -2147483647
def centsStorageMax : Int := 2147483647

/-- The cents that fit the stored integer column. -/
def InRange (value : Int) : Prop :=
  centsStorageMin ≤ value ∧ value ≤ centsStorageMax

instance (value : Int) : Decidable (InRange value) :=
  inferInstanceAs (Decidable (_ ∧ _))

theorem inRange_zero : InRange 0 := by decide

/-- `cashRuleViolation` takes the code first. -/
def cashRuleViolation (code message : String) : DomainError :=
  businessRuleViolationError message code

def assertStorageRangeCents (value : Int) (field : String) : Except DomainError Unit :=
  throwIf (¬ InRange value)
    (cashRuleViolation "CASH_CENTS_OUT_OF_RANGE" (field ++ " must fit the Int cents storage range"))

def assertNonNegativeCents (value : Int) (field : String) : Except DomainError Unit :=
  throwIf (value < 0)
    (cashRuleViolation "CASH_CENTS_NEGATIVE" (field ++ " must not be negative"))

def assertNonEmptyText (value field : String) : Except DomainError Unit :=
  throwIf (¬ Text.isNonEmptyText value)
    (cashRuleViolation "CASH_IDENTITY_REQUIRED" (field ++ " must be a non-empty identifier"))

/-- Add two amounts of the window; a sum that leaves it is refused. -/
def addCents (left right : Int) (field : String) : Except DomainError Int := do
  assertStorageRangeCents left field
  assertStorageRangeCents right field
  throwIf (¬ InRange (left + right))
    (cashRuleViolation "CASH_ARITHMETIC_OVERFLOW"
      (field ++ " arithmetic exceeded the safe cents storage range"))
  return left + right

@[simp] theorem assertStorageRangeCents_eq_ok {value : Int} {field : String} {u : Unit} :
    assertStorageRangeCents value field = .ok u ↔ InRange value := by
  rw [assertStorageRangeCents, throwIf_eq_ok, not_not]

@[simp] theorem assertNonNegativeCents_eq_ok {value : Int} {field : String} {u : Unit} :
    assertNonNegativeCents value field = .ok u ↔ 0 ≤ value := by
  rw [assertNonNegativeCents, throwIf_eq_ok, not_lt]

@[simp] theorem assertNonEmptyText_eq_ok {value field : String} {u : Unit} :
    assertNonEmptyText value field = .ok u ↔ Text.isNonEmptyText value := by
  rw [assertNonEmptyText, throwIf_eq_ok, not_not]

theorem addCents_eq_ok {left right total : Int} {field : String} :
    addCents left right field = .ok total ↔
      InRange left ∧ InRange right ∧ InRange (left + right) ∧ left + right = total := by
  simp only [addCents, bind_eq_ok, assertStorageRangeCents_eq_ok, throwIf_eq_ok, exists_const,
    pure_eq_ok, not_not]

inductive CashMovementKind where
  | salePayment
  | saleChange
  | refundSettlement
  | cashIn
  | cashOut
  deriving DecidableEq, Repr

inductive CashSourceType where
  | payment
  | sale
  | refund
  | manual
  deriving DecidableEq, Repr

inductive CashMovementSign where
  | positive
  | negative
  deriving DecidableEq, Repr

def CashMovementKind.text : CashMovementKind → String
  | .salePayment => "SALE_PAYMENT"
  | .saleChange => "SALE_CHANGE"
  | .refundSettlement => "REFUND_SETTLEMENT"
  | .cashIn => "CASH_IN"
  | .cashOut => "CASH_OUT"

def CashSourceType.text : CashSourceType → String
  | .payment => "PAYMENT"
  | .sale => "SALE"
  | .refund => "REFUND"
  | .manual => "MANUAL"

def CashMovementSign.text : CashMovementSign → String
  | .positive => "positive"
  | .negative => "negative"

def cashMovementSigns : CashMovementKind → CashMovementSign
  | .salePayment => .positive
  | .saleChange => .negative
  | .refundSettlement => .negative
  | .cashIn => .positive
  | .cashOut => .negative

def cashMovementSources : CashMovementKind → CashSourceType
  | .salePayment => .payment
  | .saleChange => .sale
  | .refundSettlement => .refund
  | .cashIn => .manual
  | .cashOut => .manual

structure CashMovement where
  sessionId : String
  deltaCents : Int
  method : TenderMethod
  channelKey : String
  channelLabel : String
  kind : CashMovementKind
  sourceType : CashSourceType
  sourceId : String
  reason : Option String
  deriving DecidableEq, Repr

def SignViolated (movement : CashMovement) : Prop :=
  match cashMovementSigns movement.kind with
  | .positive => movement.deltaCents < 0
  | .negative => 0 < movement.deltaCents

instance (movement : CashMovement) : Decidable (SignViolated movement) := by
  unfold SignViolated
  split <;> infer_instance

def assertValidCashMovement (movement : CashMovement) : Except DomainError Unit := do
  assertNonEmptyText movement.sessionId "sessionId"
  assertNonEmptyText movement.sourceId "sourceId"
  assertNonEmptyText movement.channelKey "channelKey"
  assertNonEmptyText movement.channelLabel "channelLabel"
  assertStorageRangeCents movement.deltaCents "deltaCents"
  throwIf (movement.deltaCents = 0)
    (cashRuleViolation "CASH_MOVEMENT_ZERO_DELTA" "a cash movement must change the balance")
  throwIf (SignViolated movement)
    (cashRuleViolation "CASH_MOVEMENT_SIGN_INVALID"
      (movement.kind.text ++ " must be " ++ (cashMovementSigns movement.kind).text))
  let expectedSource := cashMovementSources movement.kind
  throwIf (movement.sourceType ≠ expectedSource)
    (cashRuleViolation "CASH_MOVEMENT_SOURCE_MISMATCH"
      (movement.kind.text ++ " cannot be sourced from " ++ movement.sourceType.text))
  throwIf (movement.kind = .saleChange ∧ movement.method ≠ .cash)
    (cashRuleViolation "CASH_CHANGE_NOT_CASH" "customer change is always physical cash")
  throwIf (expectedSource = .manual ∧ movement.method ≠ .cash)
    (cashRuleViolation "CASH_MANUAL_MOVEMENT_NOT_CASH"
      "manual cash movements must be physical cash")
  throwIf (expectedSource = .manual ∧ ¬ Text.isNonEmptyText (movement.reason.getD ""))
    (cashRuleViolation "CASH_MOVEMENT_REASON_REQUIRED" "manual cash movements require a reason")

/-- The movement passes its own check. -/
def CashMovement.IsValid (movement : CashMovement) : Prop :=
  assertValidCashMovement movement = .ok ()

/-- The rules of a movement, all together. -/
theorem CashMovement.isValid_iff {movement : CashMovement} :
    movement.IsValid ↔
      Text.isNonEmptyText movement.sessionId ∧ Text.isNonEmptyText movement.sourceId ∧
      Text.isNonEmptyText movement.channelKey ∧ Text.isNonEmptyText movement.channelLabel ∧
      InRange movement.deltaCents ∧ movement.deltaCents ≠ 0 ∧ ¬ SignViolated movement ∧
      movement.sourceType = cashMovementSources movement.kind ∧
      (movement.kind = .saleChange → movement.method = .cash) ∧
      (cashMovementSources movement.kind = .manual → movement.method = .cash) ∧
      (cashMovementSources movement.kind = .manual →
        Text.isNonEmptyText (movement.reason.getD "")) := by
  simp only [CashMovement.IsValid, assertValidCashMovement, bind_eq_ok, throwIf_eq_ok,
    assertNonEmptyText_eq_ok, assertStorageRangeCents_eq_ok, exists_const, not_not, not_and]

theorem CashMovement.IsValid.inRange {movement : CashMovement} (h : movement.IsValid) :
    InRange movement.deltaCents :=
  (isValid_iff.mp h).2.2.2.2.1

theorem assertValidCashMovement_eq_ok {movement : CashMovement} {u : Unit} :
    assertValidCashMovement movement = .ok u ↔ movement.IsValid :=
  Iff.rfl

/-- Whether a movement moves physical cash. -/
def CashMovement.isCash (movement : CashMovement) : Bool :=
  movement.method = .cash

/-- The sum of the physical cash movements. -/
def cashSum (movements : List CashMovement) : Int :=
  ((movements.filter CashMovement.isCash).map CashMovement.deltaCents).sum

/-- One step of the fold of `expectedCashCents`. -/
def addCashDelta (cashDelta : Int) (movement : CashMovement) : Except DomainError Int := do
  assertValidCashMovement movement
  if movement.method = .cash then addCents cashDelta movement.deltaCents "cashDeltaCents"
  else return cashDelta

def expectedCashCents (openingCents : Int) (movements : List CashMovement) :
    Except DomainError Int := do
  assertNonNegativeCents openingCents "openingCents"
  assertStorageRangeCents openingCents "openingCents"
  let cashDelta ← movements.foldlM addCashDelta 0
  addCents openingCents cashDelta "expectedCashCents"

/-- Adding up the cash of valid movements, under the name of the total. -/
theorem foldlM_addCash_eq_ok {field : String} {add : Int → CashMovement → Except DomainError Int}
    (hAdd : ∀ total movement, add total movement = do
      assertValidCashMovement movement
      if movement.method = .cash then addCents total movement.deltaCents field else return total)
    {movements : List CashMovement} {start total : Int}
    (h : movements.foldlM add start = .ok total) :
    total = start + cashSum movements ∧ (InRange start → InRange total) := by
  induction movements generalizing start with
  | nil =>
      cases h
      simp [cashSum]
  | cons movement rest ih =>
      rw [List.foldlM_cons] at h
      obtain ⟨middle, hStep, hRest⟩ := bind_eq_ok.mp h
      obtain ⟨rfl, hRange⟩ := ih hRest
      simp only [hAdd, bind_eq_ok] at hStep
      obtain ⟨_, _, hStep⟩ := hStep
      split at hStep
      · next hCash =>
          obtain ⟨_, _, hMiddle, rfl⟩ := addCents_eq_ok.mp hStep
          refine ⟨?_, fun _ => hRange hMiddle⟩
          simp [cashSum, CashMovement.isCash, hCash, add_assoc]
      · next hOther =>
          cases hStep
          refine ⟨?_, hRange⟩
          simp [cashSum, CashMovement.isCash, hOther]

/-- Whatever order the movements are loaded in, the expected cash is the opening fund
plus their sum. -/
theorem expectedCashCents_eq_ok {openingCents expected : Int} {movements : List CashMovement}
    (h : expectedCashCents openingCents movements = .ok expected) :
    expected = openingCents + cashSum movements ∧ InRange expected := by
  simp only [expectedCashCents, bind_eq_ok] at h
  obtain ⟨_, _, _, _, cashDelta, hFold, hAdd⟩ := h
  obtain ⟨_, _, hRange, rfl⟩ := addCents_eq_ok.mp hAdd
  rw [(foldlM_addCash_eq_ok (fun _ _ => rfl) hFold).1, zero_add] at hRange ⊢
  exact ⟨rfl, hRange⟩

theorem cashSum_perm {first second : List CashMovement} (h : first.Perm second) :
    cashSum first = cashSum second :=
  ((h.filter _).map _).sum_eq

@[simp] theorem cashSum_append (first second : List CashMovement) :
    cashSum (first ++ second) = cashSum first + cashSum second := by
  simp [cashSum]

end Houndfe.Cash
