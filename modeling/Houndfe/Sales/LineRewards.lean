import Houndfe.Base.Transition
import Houndfe.Sales.SaleItem

/-! The reward a sale line reports, over every sequence of its own operations.
Which operation set the current discount is tracked beside the line; the line
itself only has the columns. -/

namespace Houndfe.Sales

open Rounding Transition

/-- The operations of a line, with their arguments and their instant. -/
inductive SaleItemOperation where
  | applyDiscount (input : ApplySaleItemDiscountInput) (now : Int)
  | applyBuyXGetYReward (input : ApplyBuyXGetYRewardInput) (now : Int)
  | removeDiscount
  | overridePrice (input : OverrideSaleItemPriceInput)
  | reprice (input : RepriceSaleItemInput)
  | changeQuantity (newQuantity : Int)

/-- The operation that set the discount a line has now. -/
inductive DiscountOrigin where
  | noDiscount
  | perUnit
  | reward
  deriving DecidableEq, Repr

/-- A line and where its discount comes from. -/
structure TracedLine where
  line : SaleItem
  origin : DiscountOrigin

namespace SaleItemOperation

def apply (operation : SaleItemOperation) (line : SaleItem) : Except DomainError SaleItem :=
  match operation with
  | .applyDiscount input now => line.applyDiscount input now
  | .applyBuyXGetYReward input now => line.applyBuyXGetYReward input now
  | .removeDiscount => .ok line.removeDiscount
  | .overridePrice input => line.overridePrice input
  | .reprice input => line.reprice input
  | .changeQuantity newQuantity => line.changeQuantity newQuantity

/-- An override drops the discount as a removal does. -/
def origin (operation : SaleItemOperation) (before : DiscountOrigin) : DiscountOrigin :=
  match operation with
  | .applyDiscount _ _ => .perUnit
  | .applyBuyXGetYReward _ _ => .reward
  | .removeDiscount => .noDiscount
  | .overridePrice _ => .noDiscount
  | .reprice _ => before
  | .changeQuantity _ => before

/-- What the operations do not check: a per-unit discount over a reward, a new
price under a discount, a quantity too small for the reward, a negative price. -/
def Respects (operation : SaleItemOperation) (line : SaleItem) : Prop :=
  match operation with
  | .applyDiscount _ _ => line.rewardKind = none
  | .applyBuyXGetYReward _ _ => True
  | .removeDiscount => True
  | .overridePrice input => 0 ≤ input.priceCents
  | .reprice input =>
      line.prePriceCentsBeforeDiscount = none ∨ input.priceCents = line.unitPriceCents
  | .changeQuantity newQuantity => line.rewardCents ≤ line.unitPriceCents * newQuantity

end SaleItemOperation

/-- One call on a line; a refused call leaves it as it was. -/
inductive SaleItemStep : TracedLine → SaleItemOperation → TracedLine → Prop where
  | applied {c : TracedLine} {operation : SaleItemOperation} {updated : SaleItem}
      (h : operation.apply c.line = .ok updated) :
      SaleItemStep c operation ⟨updated, operation.origin c.origin⟩
  | refused {c : TracedLine} {operation : SaleItemOperation} {error : DomainError}
      (h : operation.apply c.line = .error error) : SaleItemStep c operation c

/-- The line a caller has after a call. -/
def serve (c : TracedLine) (operation : SaleItemOperation) : TracedLine :=
  match operation.apply c.line with
  | .ok updated => ⟨updated, operation.origin c.origin⟩
  | .error _ => c

theorem step_serve (c : TracedLine) (operation : SaleItemOperation) :
    SaleItemStep c operation (serve c operation) := by
  unfold serve
  split
  · exact .applied ‹_›
  · exact .refused ‹_›

/-- A call that goes through respects the line; a refused one may be anything. -/
def Considerate (c : TracedLine) (operation : SaleItemOperation) : Prop :=
  ∀ updated, operation.apply c.line = .ok updated → operation.Respects c.line

/-- What a line is to report, given where its discount comes from. -/
structure RewardState (c : TracedLine) : Prop where
  kind : c.line.toResponse.rewardKind.isSome ↔ c.origin = .reward
  percent : c.line.toResponse.rewardDiscountPercent.isSome ↔ c.origin = .reward
  perUnit : c.origin = .perUnit → ∃ discountCents,
    c.line.discountAmountCents = some discountCents ∧
      c.line.prePriceCentsBeforeDiscount = some (c.line.unitPriceCents + discountCents)
  reward : c.origin = .reward →
    c.line.prePriceCentsBeforeDiscount = some c.line.unitPriceCents
  net : 0 ≤ c.line.toResponse.subtotalCents

/-! ### The columns of each origin -/

/-- The columns of a line whose discount comes from `origin`. -/
inductive Columns : DiscountOrigin → SaleItem → Prop where
  | noDiscount {line : SaleItem} (hPrice : 0 ≤ line.unitPriceCents)
      (hKind : line.rewardKind = none) (hAmount : line.discountAmountCents = none)
      (hBefore : line.prePriceCentsBeforeDiscount = none) : Columns .noDiscount line
  | perUnit {line : SaleItem} {discountCents : Int} (hPrice : 0 ≤ line.unitPriceCents)
      (hKind : line.rewardKind = none)
      (hAmount : line.discountAmountCents = some discountCents)
      (hNonneg : 0 ≤ discountCents)
      (hBefore : line.prePriceCentsBeforeDiscount =
        some (line.unitPriceCents + discountCents)) : Columns .perUnit line
  | reward {line : SaleItem} {rewardCents : Int} (hKind : line.rewardKind.isSome)
      (hPercent : line.rewardDiscountPercent.isSome) (hPromotion : line.promotionId.isSome)
      (hAmount : line.discountAmountCents = some rewardCents) (hPositive : 0 < rewardCents)
      (hFits : rewardCents ≤ line.unitPriceCents * line.quantity.val)
      (hBefore : line.prePriceCentsBeforeDiscount = some line.unitPriceCents) :
      Columns .reward line

theorem eq_of_checkQuantity {newQuantity : Int} {quantity : Quantity}
    (h : checkQuantity newQuantity = .ok quantity) : quantity.val = newQuantity := by
  unfold checkQuantity at h
  split at h
  · cases h
    rfl
  · cases h

/-- The amount a discount takes off a price that is not negative. -/
theorem nonneg_of_computeDiscountAmountCents {input : ApplySaleItemDiscountInput}
    {baseline discountCents : Int} (hBase : 0 ≤ baseline)
    (h : SaleItem.computeDiscountAmountCents input baseline = .ok discountCents) :
    0 ≤ discountCents := by
  unfold SaleItem.computeDiscountAmountCents at h
  cases hType : input.type with
  | amount =>
      simp only [hType] at h
      split at h
      · cases h
      · cases h
        omega
  | percentage =>
      simp only [hType] at h
      split at h
      · cases h
      · cases h
        have hPercent : 0 ≤ input.percent.getD 0 := by omega
        exact roundDiv_nonneg (by decide) (mul_nonneg hBase hPercent)

namespace Columns

variable {origin : DiscountOrigin} {line updated : SaleItem}

/-- The derivation from the columns recognises the rewards and nothing else. -/
theorem isBuyXGetYReward (h : Columns origin line) :
    line.isBuyXGetYReward = true ↔ origin = .reward := by
  cases h with
  | noDiscount _ _ hAmount _ => simp [SaleItem.isBuyXGetYReward, hAmount]
  | perUnit _ _ hAmount _ hBefore =>
      simp only [SaleItem.isBuyXGetYReward, hAmount, hBefore, Option.getD_some, Bool.and_eq_true,
        decide_eq_true_eq, Option.some.injEq, reduceCtorEq, iff_false]
      omega
  | reward _ _ hPromotion hAmount hPositive _ hBefore =>
      simp [SaleItem.isBuyXGetYReward, hPromotion, hAmount, hPositive, hBefore]

theorem rewardCents_reward (h : Columns .reward line) :
    line.discountAmountCents = some line.rewardCents := by
  have hReward := h.isBuyXGetYReward.mpr rfl
  cases h with
  | reward _ _ _ hAmount _ _ _ => simp [SaleItem.rewardCents, hReward, hAmount]

/-- No line has a negative price, nor a negative price before its discount. -/
theorem baseCents_nonneg (h : Columns origin line) :
    0 ≤ line.unitPriceCents ∧ 0 ≤ line.baseCents := by
  have hQuantity := line.quantity.property
  cases h with
  | noDiscount hPrice _ _ hBefore => simp [SaleItem.baseCents, hBefore, hPrice]
  | perUnit hPrice _ _ hNonneg hBefore =>
      simp only [SaleItem.baseCents, hBefore, Option.getD_some]
      omega
  | reward _ _ _ _ hPositive hFits hBefore =>
      have hPrice : 0 ≤ line.unitPriceCents := by nlinarith
      simp [SaleItem.baseCents, hBefore, hPrice]

/-- The columns of an origin are what a line of that origin is to report. -/
theorem rewardState (h : Columns origin line) : RewardState ⟨line, origin⟩ := by
  have hReward := h.isBuyXGetYReward
  have hPrice := h.baseCents_nonneg.1
  have hQuantity := line.quantity.property
  have hGross : 0 ≤ line.unitPriceCents * line.quantity.val := by positivity
  cases h with
  | noDiscount _ hKind hAmount hBefore =>
      have hOther : line.isBuyXGetYReward = false := by simpa using hReward
      constructor <;> simp [SaleItem.toResponse, SaleItem.rewardCents, hOther, hKind, hGross]
  | perUnit _ hKind hAmount hNonneg hBefore =>
      have hOther : line.isBuyXGetYReward = false := by simpa using hReward
      constructor <;>
        simp [SaleItem.toResponse, SaleItem.rewardCents, hOther, hKind, hGross, hAmount, hBefore]
  | reward hKind hPercent hPromotion hAmount hPositive hFits hBefore =>
      have hSame : line.isBuyXGetYReward = true := by simpa using hReward
      obtain ⟨kind, hKind⟩ := Option.isSome_iff_exists.mp hKind
      constructor <;> simp [SaleItem.toResponse, SaleItem.rewardCents, hSame, hKind, hPercent,
        hAmount, hBefore, hFits]

/-! ### One operation -/

theorem fresh (props : SaleItemProps) (quantity : Quantity) (hPrice : 0 ≤ props.unitPriceCents) :
    Columns .noDiscount (SaleItem.fresh props quantity) :=
  .noDiscount hPrice rfl rfl rfl

theorem create {props : SaleItemProps} (h : SaleItem.create props = .ok line) :
    Columns .noDiscount line := by
  simp only [SaleItem.create, bind_eq_ok, throwIf_eq_ok, pure_eq_ok] at h
  obtain ⟨-, -, -, -, quantity, -, -, hPrice, rfl⟩ := h
  exact fresh props quantity (not_lt.mp hPrice)

theorem removeDiscount (h : Columns origin line) : Columns .noDiscount line.removeDiscount :=
  .noDiscount h.baseCents_nonneg.2 rfl rfl rfl

theorem overridePrice {input : OverrideSaleItemPriceInput}
    (hUpdate : line.overridePrice input = .ok updated) (hPrice : 0 ≤ input.priceCents) :
    Columns .noDiscount updated := by
  simp only [SaleItem.overridePrice, bind_eq_ok, throwIf_eq_ok, pure_eq_ok] at hUpdate
  obtain ⟨-, -, -, -, rfl⟩ := hUpdate
  exact .noDiscount hPrice rfl rfl rfl

/-- A per-unit discount leaves at least one cent of the price it is taken from. -/
theorem applyDiscount {input : ApplySaleItemDiscountInput} {now : Int} (h : Columns origin line)
    (hUpdate : line.applyDiscount input now = .ok updated) (hKind : line.rewardKind = none) :
    Columns .perUnit updated := by
  simp only [SaleItem.applyDiscount, bind_eq_ok, throwIf_eq_ok, pure_eq_ok] at hUpdate
  obtain ⟨-, -, -, -, -, -, discountCents, hAmount, -, hRemains, rfl⟩ := hUpdate
  have hNonneg := nonneg_of_computeDiscountAmountCents h.baseCents_nonneg.2 hAmount
  have hPrice : 0 ≤ line.baseCents - discountCents := by omega
  have hBefore : some line.baseCents = some (line.baseCents - discountCents + discountCents) := by
    simp
  exact .perUnit hPrice hKind rfl hNonneg hBefore

theorem applyBuyXGetYReward {input : ApplyBuyXGetYRewardInput} {now : Int}
    (hUpdate : line.applyBuyXGetYReward input now = .ok updated) : Columns .reward updated := by
  simp only [SaleItem.applyBuyXGetYReward, bind_eq_ok, throwIf_eq_ok, pure_eq_ok] at hUpdate
  obtain ⟨-, hPositive, -, hFits, -, -, rfl⟩ := hUpdate
  exact .reward rfl rfl rfl rfl (not_le.mp hPositive) (not_lt.mp hFits) rfl

/-- A new price under no discount, or the same price under one. -/
theorem reprice {input : RepriceSaleItemInput} (h : Columns origin line)
    (hUpdate : line.reprice input = .ok updated)
    (hSame : line.prePriceCentsBeforeDiscount = none ∨ input.priceCents = line.unitPriceCents) :
    Columns origin updated := by
  simp only [SaleItem.reprice, bind_eq_ok, throwIf_eq_ok, pure_eq_ok] at hUpdate
  obtain ⟨-, -, -, hPrice, rfl⟩ := hUpdate
  cases h with
  | noDiscount _ hKind hAmount hBefore => exact .noDiscount (not_lt.mp hPrice) hKind hAmount hBefore
  | perUnit _ hKind hAmount hNonneg hBefore =>
      have hPrices : input.priceCents = line.unitPriceCents := by simpa [hBefore] using hSame
      exact .perUnit (not_lt.mp hPrice) hKind hAmount hNonneg (by simpa [hPrices] using hBefore)
  | reward hKind hPercent hPromotion hAmount hPositive hFits hBefore =>
      have hPrices : input.priceCents = line.unitPriceCents := by simpa [hBefore] using hSame
      exact .reward hKind hPercent hPromotion hAmount hPositive (by simpa [hPrices] using hFits)
        (by simpa [hPrices] using hBefore)

theorem changeQuantity {newQuantity : Int} (h : Columns origin line)
    (hUpdate : line.changeQuantity newQuantity = .ok updated)
    (hFits : line.rewardCents ≤ line.unitPriceCents * newQuantity) : Columns origin updated := by
  simp only [SaleItem.changeQuantity, bind_eq_ok, pure_eq_ok] at hUpdate
  obtain ⟨quantity, hQuantity, rfl⟩ := hUpdate
  have hSame := h
  cases h with
  | noDiscount hPrice hKind hAmount hBefore => exact .noDiscount hPrice hKind hAmount hBefore
  | perUnit hPrice hKind hAmount hNonneg hBefore =>
      exact .perUnit hPrice hKind hAmount hNonneg hBefore
  | reward hKind hPercent hPromotion hAmount hPositive _ hBefore =>
      have hCents := hSame.rewardCents_reward
      rw [hAmount, Option.some.injEq] at hCents
      rw [← hCents, ← eq_of_checkQuantity hQuantity] at hFits
      exact .reward hKind hPercent hPromotion hAmount hPositive hFits hBefore

end Columns

/-! ### What a right report says of the operation before it -/

section

variable {line updated : SaleItem} {origin : DiscountOrigin}

theorem rewardKind_of_applyDiscount {input : ApplySaleItemDiscountInput} {now : Int}
    (hUpdate : line.applyDiscount input now = .ok updated)
    (hState : RewardState ⟨updated, .perUnit⟩) : line.rewardKind = none := by
  have hKind : updated.rewardKind = line.rewardKind := by
    simp only [SaleItem.applyDiscount, bind_eq_ok, throwIf_eq_ok, pure_eq_ok] at hUpdate
    obtain ⟨-, -, -, -, -, -, discountCents, -, -, -, rfl⟩ := hUpdate
    rfl
  have hReported := hState.kind
  simp only [SaleItem.toResponse, reduceCtorEq, iff_false, Bool.not_eq_true,
    Option.isSome_eq_false_iff, Option.isNone_iff_eq_none, Option.orElse_eq_none] at hReported
  exact hKind.symm.trans hReported.1

theorem nonneg_of_overridePrice {input : OverrideSaleItemPriceInput}
    (hUpdate : line.overridePrice input = .ok updated)
    (hState : RewardState ⟨updated, .noDiscount⟩) : 0 ≤ input.priceCents := by
  simp only [SaleItem.overridePrice, bind_eq_ok, throwIf_eq_ok, pure_eq_ok] at hUpdate
  obtain ⟨-, -, -, -, rfl⟩ := hUpdate
  have hNet : 0 ≤ input.priceCents * line.quantity.val := by
    simpa [SaleItem.toResponse, SaleItem.rewardCents, SaleItem.isBuyXGetYReward,
      SaleItem.clearDiscountFields] using hState.net
  exact nonneg_of_mul_nonneg_left hNet (by linarith [line.quantity.property])

theorem Columns.same_of_reprice {input : RepriceSaleItemInput} (h : Columns origin line)
    (hUpdate : line.reprice input = .ok updated) (hState : RewardState ⟨updated, origin⟩) :
    line.prePriceCentsBeforeDiscount = none ∨ input.priceCents = line.unitPriceCents := by
  simp only [SaleItem.reprice, bind_eq_ok, throwIf_eq_ok, pure_eq_ok] at hUpdate
  obtain ⟨-, -, -, -, rfl⟩ := hUpdate
  cases h with
  | noDiscount _ _ _ hBefore => exact .inl hBefore
  | perUnit _ _ hAmount _ hBefore =>
      obtain ⟨discountCents, hSame, hPrice⟩ := hState.perUnit rfl
      simp only [hAmount, Option.some.injEq] at hSame
      simp only [hBefore, Option.some.injEq] at hPrice
      right
      omega
  | reward _ _ _ _ _ _ hBefore =>
      have hPrice := hState.reward rfl
      simp only [hBefore, Option.some.injEq] at hPrice
      exact .inr hPrice.symm

theorem fits_of_changeQuantity {newQuantity : Int}
    (hUpdate : line.changeQuantity newQuantity = .ok updated)
    (hState : RewardState ⟨updated, origin⟩) :
    line.rewardCents ≤ line.unitPriceCents * newQuantity := by
  simp only [SaleItem.changeQuantity, bind_eq_ok, pure_eq_ok] at hUpdate
  obtain ⟨quantity, hQuantity, rfl⟩ := hUpdate
  have hNet : 0 ≤ line.unitPriceCents * quantity.val - line.rewardCents := hState.net
  rw [eq_of_checkQuantity hQuantity] at hNet
  omega

end

/-! ### Runs -/

theorem Columns.step {c d : TracedLine} {operation : SaleItemOperation}
    (h : Columns c.origin c.line) (step : SaleItemStep c operation d)
    (hConsiderate : Considerate c operation) : Columns d.origin d.line := by
  cases step with
  | refused _ => exact h
  | applied hUpdate =>
      have hRespects := hConsiderate _ hUpdate
      cases operation with
      | applyDiscount input now => exact h.applyDiscount hUpdate hRespects
      | applyBuyXGetYReward input now => exact Columns.applyBuyXGetYReward hUpdate
      | removeDiscount =>
          cases hUpdate
          exact h.removeDiscount
      | overridePrice input => exact Columns.overridePrice hUpdate hRespects
      | reprice input => exact h.reprice hUpdate hRespects
      | changeQuantity newQuantity => exact h.changeQuantity hUpdate hRespects

/-- A call that leaves the line reporting rightly respected it. -/
theorem Columns.considerate {c d : TracedLine} {operation : SaleItemOperation}
    (h : Columns c.origin c.line) (step : SaleItemStep c operation d) (hState : RewardState d) :
    Considerate c operation := by
  intro updated hUpdate
  cases step with
  | refused hRefused => simp [hUpdate] at hRefused
  | applied hApplied =>
      cases hUpdate.symm.trans hApplied
      cases operation with
      | applyDiscount input now => exact rewardKind_of_applyDiscount hUpdate hState
      | applyBuyXGetYReward input now => trivial
      | removeDiscount => trivial
      | overridePrice input => exact nonneg_of_overridePrice hUpdate hState
      | reprice input => exact h.same_of_reprice hUpdate hState
      | changeQuantity newQuantity => exact fits_of_changeQuantity hUpdate hState

theorem columns_of_run {line : SaleItem} {operations : List SaleItemOperation} {c : TracedLine}
    (hStart : Columns .noDiscount line)
    (run : Runs (Guarded SaleItemStep Considerate) ⟨line, .noDiscount⟩ operations c) :
    Columns c.origin c.line := by
  induction run with
  | zero => exact hStart
  | succ prior last ih => exact ih.step last.1 last.2

/-- A line reports its reward rightly along a run whose calls respect it, and a
run that never misreports is made of such calls. -/
theorem reward_state_iff_considerate {props : SaleItemProps} {line : SaleItem}
    (hNew : SaleItem.create props = .ok line) (operations : List SaleItemOperation)
    (c : TracedLine) :
    (Runs (Guarded SaleItemStep Considerate) ⟨line, .noDiscount⟩ operations c → RewardState c) ∧
    (Runs (fun c operation d => SaleItemStep c operation d ∧ RewardState d)
      ⟨line, .noDiscount⟩ operations c →
      Runs (Guarded SaleItemStep Considerate) ⟨line, .noDiscount⟩ operations c) := by
  have hStart := Columns.create hNew
  constructor
  · intro run
    exact (columns_of_run hStart run).rewardState
  · intro run
    induction run with
    | zero => exact Runs.zero _
    | succ prior last ih =>
        have hColumns := columns_of_run hStart ih
        exact ih.succ ⟨last.1, hColumns.considerate last.1 last.2⟩

/-! ### A manual discount over a reward -/

def twoCoffees : SaleItemProps :=
  ⟨"line", "sale", "product", none, "Coffee", none, none, 2, 100, "MXN"⟩

def oneFree : SaleItemOperation :=
  .applyBuyXGetYReward ⟨100, 100, none, "promotion", 100, .buyXGetY⟩ 0

def tenCentsOff : SaleItemOperation :=
  .applyDiscount ⟨.amount, some 10, none, none, none⟩ 1

theorem reward_over_manual_discount : RewardState
    ([tenCentsOff, oneFree].foldl serve ⟨SaleItem.fresh twoCoffees Quantity.two, .noDiscount⟩) := by
  have hNew : SaleItem.create twoCoffees = .ok (SaleItem.fresh twoCoffees Quantity.two) := by
    decide
  have hAdmits : Admits Considerate serve
      ⟨SaleItem.fresh twoCoffees Quantity.two, .noDiscount⟩ [tenCentsOff, oneFree] :=
    ⟨fun _ _ => rfl, fun _ _ => trivial, trivial⟩
  apply (reward_state_iff_considerate hNew [tenCentsOff, oneFree] _).1
  exact runs_foldl (fun c operation h => ⟨step_serve c operation, h⟩) hAdmits

/-- The line still reports the reward whose columns the manual discount took. -/
theorem manual_discount_over_reward : ¬ ∀ (props : SaleItemProps) (line : SaleItem),
    SaleItem.create props = .ok line → ∀ operations c,
      Runs SaleItemStep ⟨line, .noDiscount⟩ operations c → RewardState c := by
  intro hAll
  have hState := hAll twoCoffees (SaleItem.fresh twoCoffees Quantity.two) (by decide)
    [oneFree, tenCentsOff] _
    (((Runs.zero _).succ (step_serve _ _)).succ (step_serve _ _))
  have hReward := hState.kind.mp (by decide)
  exact absurd hReward (by decide)

end Houndfe.Sales
