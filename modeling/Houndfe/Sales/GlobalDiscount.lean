import Mathlib.Data.List.Forall2
import Houndfe.Base.Traverse
import Houndfe.Sales.Sale

/-! A global discount changes the lines of a sale one after another, in place. When it is all or
nothing: exactly when no line is too cheap for its percentage. -/

namespace Houndfe.Sales

open Traverse

/-! ### The discount in place -/

/-- The lines as they stand when `applyGlobalDiscount` returns or raises. -/
def discountInPlace (input : ApplySaleItemDiscountInput) (strategy : DiscountStrategy) (now : Int) :
    List SaleItem → List SaleItem × Except DomainError (List SkippedItem)
  | [] => ([], .ok [])
  | item :: rest =>
      match Sale.applyGlobalDiscountToItem input strategy now item with
      | .error error => (item :: rest, .error error)
      | .ok (updated, skipped) =>
          let (items, outcome) := discountInPlace input strategy now rest
          (updated :: items, outcome.map (skipped ++ ·))

/-- The sale after the call, raised or not. -/
def Sale.discountLines (sale : Sale) (input : ApplySaleItemDiscountInput)
    (strategy : DiscountStrategy) (now : Int) : Sale × Except DomainError (List SkippedItem) :=
  let (items, outcome) := discountInPlace input strategy now sale.items
  ({ sale with items := items }, outcome)

section

variable {input : ApplySaleItemDiscountInput} {strategy : DiscountStrategy} {now : Int}
  {items : List SaleItem} {item updated : SaleItem}

theorem discountInPlace_outcome (items : List SaleItem) :
    (discountInPlace input strategy now items).2 =
      (items.mapM (Sale.applyGlobalDiscountToItem input strategy now)).map fun results =>
        (results.map Prod.snd).flatten := by
  induction items with
  | nil => rfl
  | cons item rest ih =>
      rw [List.mapM_cons, discountInPlace]
      cases Sale.applyGlobalDiscountToItem input strategy now item with
      | error error => rfl
      | ok result =>
          show Except.map _ (discountInPlace input strategy now rest).2 = _
          rw [ih]
          cases rest.mapM (Sale.applyGlobalDiscountToItem input strategy now) <;> rfl

theorem discountInPlace_lines {results : List (SaleItem × List SkippedItem)}
    (h : items.mapM (Sale.applyGlobalDiscountToItem input strategy now) = .ok results) :
    (discountInPlace input strategy now items).1 = results.map Prod.fst := by
  induction items generalizing results with
  | nil =>
      cases h
      rfl
  | cons item rest ih =>
      obtain ⟨result, kept, hItem, hRest, rfl⟩ := mapM_cons_eq_ok.mp h
      rw [discountInPlace, hItem]
      exact congrArg (result.1 :: ·) (ih hRest)

/-! ### The discount on one line -/

/-- Exactly one of the two values, the one that the type asks for. -/
def ApplySaleItemDiscountInput.isWellFormed (input : ApplySaleItemDiscountInput) : Bool :=
  match input.type with
  | .amount => input.amountCents.isSome && input.percent.isNone
  | .percentage => input.percent.isSome && input.amountCents.isNone

/-- The discount is a valid one, but leaves less than a cent of the line. -/
def IsTooCheap (input : ApplySaleItemDiscountInput) (item : SaleItem) : Prop :=
  input.isWellFormed = true ∧ ∃ discountCents,
    SaleItem.computeDiscountAmountCents input item.baseCents = .ok discountCents ∧
      item.baseCents - discountCents < 1

/-- Under the skip strategy a line that has a discount is passed over. -/
def IsPassedOver (strategy : DiscountStrategy) (item : SaleItem) : Prop :=
  strategy = .skip ∧ item.discountType ≠ none

/-- A line that is tried takes the discount, is skipped or raises. -/
theorem discountToItem_of_tried (h : ¬ IsPassedOver strategy item) :
    Sale.applyGlobalDiscountToItem input strategy now item =
      match item.applyDiscount input now with
      | .ok updated => .ok (updated, [])
      | .error error =>
          if input.type = .amount ∧ error.message = "DISCOUNT_AMOUNT_INVALID" then
            .ok (item, [⟨item.id, "DISCOUNT_AMOUNT_INVALID"⟩])
          else .error error :=
  if_neg h

theorem discountToItem_of_passedOver (h : IsPassedOver strategy item) :
    Sale.applyGlobalDiscountToItem input strategy now item =
      .ok (item, [⟨item.id, "ALREADY_DISCOUNTED"⟩]) :=
  if_pos h

theorem applyDiscount_malformed (h : input.isWellFormed = false) :
    item.applyDiscount input now = .error (invalidArgumentError "INVALID_DISCOUNT_INPUT") := by
  unfold SaleItem.applyDiscount
  unfold ApplySaleItemDiscountInput.isWellFormed at h
  cases hType : input.type <;> cases hAmount : input.amountCents <;>
    cases hPercent : input.percent <;> simp [hType, hAmount, hPercent] at h <;>
      simp [throwIf, bind, Except.bind]

theorem applyDiscount_wellFormed (h : input.isWellFormed = true) :
    item.applyDiscount input now = (do
      let discountAmountCents ← SaleItem.computeDiscountAmountCents input item.baseCents
      throwIf (item.baseCents - discountAmountCents < 1)
        (invalidArgumentError "DISCOUNT_AMOUNT_INVALID")
      return { item with
        prePriceCentsBeforeDiscount := some item.baseCents
        discountType := some input.type
        discountValue := SaleItem.discountValueOf input
        discountAmountCents := some discountAmountCents
        discountTitle := input.discountTitle
        discountedAt := some now
        unitPriceCents := item.baseCents - discountAmountCents
        promotionId := input.promotionId }) := by
  unfold SaleItem.applyDiscount
  unfold ApplySaleItemDiscountInput.isWellFormed at h
  cases hType : input.type <;> cases hAmount : input.amountCents <;>
    cases hPercent : input.percent <;> simp [hType, hAmount, hPercent] at h <;>
      simp [throwIf, bind, Except.bind]

theorem applyDiscount_of_tooCheap (h : IsTooCheap input item) :
    item.applyDiscount input now = .error (invalidArgumentError "DISCOUNT_AMOUNT_INVALID") := by
  obtain ⟨hWellFormed, discountCents, hCents, hLeft⟩ := h
  rw [applyDiscount_wellFormed hWellFormed, hCents]
  show (throwIf _ _ >>= fun _ => _) = _
  rw [throwIf, if_pos hLeft]
  rfl

/-- A well-formed discount that raises is invalid in itself or leaves nothing of the line. -/
theorem applyDiscount_cases (h : input.isWellFormed = true) :
    (∃ updated, item.applyDiscount input now = .ok updated) ∨ IsTooCheap input item ∨
      ∃ error, SaleItem.computeDiscountAmountCents input item.baseCents = .error error ∧
        item.applyDiscount input now = .error error := by
  cases hCents : SaleItem.computeDiscountAmountCents input item.baseCents with
  | error error =>
      refine Or.inr (Or.inr ⟨error, rfl, ?_⟩)
      rw [applyDiscount_wellFormed h, hCents]
      rfl
  | ok discountCents =>
      by_cases hLeft : item.baseCents - discountCents < 1
      · exact Or.inr (Or.inl ⟨h, discountCents, hCents, hLeft⟩)
      · left
        rw [applyDiscount_wellFormed h, hCents]
        show ∃ updated, (throwIf _ _ >>= fun _ => _) = .ok updated
        rw [throwIf, if_neg hLeft]
        exact ⟨_, rfl⟩

/-- An amount is never raised: a line on which it is impossible is skipped. -/
theorem discount_amount (h : input.isWellFormed = true) (hAmount : input.type = .amount) :
    ∃ result, Sale.applyGlobalDiscountToItem input strategy now item = .ok result := by
  have hMessage : ∀ error, item.applyDiscount input now = .error error →
      error.message = "DISCOUNT_AMOUNT_INVALID" := by
    intro error hError
    rcases applyDiscount_cases h with ⟨updated, hOk⟩ | hCheap | ⟨other, hCents, hSame⟩
    · rw [hOk] at hError
      cases hError
    · rw [applyDiscount_of_tooCheap hCheap] at hError
      cases hError
      rfl
    · rw [hSame] at hError
      cases hError
      rw [SaleItem.computeDiscountAmountCents, hAmount] at hCents
      dsimp only at hCents
      split at hCents <;> cases hCents
      rfl
  by_cases hPassed : IsPassedOver strategy item
  · exact ⟨_, discountToItem_of_passedOver hPassed⟩
  · rw [discountToItem_of_tried hPassed]
    cases hResult : item.applyDiscount input now with
    | ok updated => exact ⟨_, rfl⟩
    | error error => exact ⟨_, if_pos ⟨hAmount, hMessage error hResult⟩⟩

/-- A line that raises where it is not too cheap raises because of the discount: every line does. -/
theorem raises_everywhere {error : DomainError}
    (hRaised : Sale.applyGlobalDiscountToItem input strategy now item = .error error)
    (hCheap : ¬ IsPassedOver strategy item → ¬ IsTooCheap input item) (other : SaleItem) :
    ∃ error, other.applyDiscount input now = .error error := by
  cases hWellFormed : input.isWellFormed with
  | false => exact ⟨_, applyDiscount_malformed hWellFormed⟩
  | true =>
      have hPassed : ¬ IsPassedOver strategy item := by
        intro hPassed
        rw [discountToItem_of_passedOver hPassed] at hRaised
        cases hRaised
      rcases applyDiscount_cases hWellFormed with ⟨updated, hOk⟩ | hLeft | ⟨own, hCents, _⟩
      · rw [discountToItem_of_tried hPassed, hOk] at hRaised
        cases hRaised
      · exact absurd hLeft (hCheap hPassed)
      · cases hType : input.type with
        | amount =>
            obtain ⟨result, hResult⟩ := discount_amount hWellFormed hType
            rw [hResult] at hRaised
            cases hRaised
        | percentage =>
            rw [SaleItem.computeDiscountAmountCents, hType] at hCents
            dsimp only at hCents
            split at hCents
            · next hRange =>
                refine ⟨invalidArgumentError "DISCOUNT_PERCENT_INVALID", ?_⟩
                rw [applyDiscount_wellFormed hWellFormed, SaleItem.computeDiscountAmountCents,
                  hType]
                dsimp only
                rw [if_pos hRange]
                rfl
            · cases hCents

end

/-! ### All or nothing -/

/-- A call that raises leaves every line as it was; a call that returns leaves the discount on
every line that can carry it; and a line on which it is impossible is skipped, whatever the form
of the discount. -/
structure IsAllOrNothing (sale : Sale) (input : ApplySaleItemDiscountInput)
    (strategy : DiscountStrategy) (now : Int) : Prop where
  raised : ∀ error, (sale.discountLines input strategy now).2 = .error error →
    (sale.discountLines input strategy now).1 = sale
  carried : ∀ skipped, (sale.discountLines input strategy now).2 = .ok skipped →
    List.Forall₂ (fun item after => ¬ IsPassedOver strategy item →
        ∀ updated, item.applyDiscount input now = .ok updated → after = updated)
      sale.items (sale.discountLines input strategy now).1.items
  impossible : ∀ item ∈ sale.items, ¬ IsPassedOver strategy item → IsTooCheap input item →
    Sale.applyGlobalDiscountToItem input strategy now item =
      .ok (item, [⟨item.id, "DISCOUNT_AMOUNT_INVALID"⟩])

section

variable {input : ApplySaleItemDiscountInput} {strategy : DiscountStrategy} {now : Int}
  {items : List SaleItem} {item updated : SaleItem}

/-- The lines stay as they were where no line can be changed. -/
theorem discountInPlace_unchanged (h : ∀ item ∈ items, ∀ result,
      Sale.applyGlobalDiscountToItem input strategy now item = .ok result → result.1 = item) :
    (discountInPlace input strategy now items).1 = items := by
  induction items with
  | nil => rfl
  | cons item rest ih =>
      obtain ⟨hItem, hRest⟩ := List.forall_mem_cons.mp h
      rw [discountInPlace]
      cases hResult : Sale.applyGlobalDiscountToItem input strategy now item with
      | error error => rfl
      | ok result =>
          show result.1 :: (discountInPlace input strategy now rest).1 = item :: rest
          rw [hItem result hResult, ih hRest]

/-- A call that returns went through every line. -/
theorem discountInPlace_forall₂ {skipped : List SkippedItem}
    (h : (discountInPlace input strategy now items).2 = .ok skipped) :
    List.Forall₂ (fun item after => ∃ reasons,
        Sale.applyGlobalDiscountToItem input strategy now item = .ok (after, reasons))
      items (discountInPlace input strategy now items).1 := by
  rw [discountInPlace_outcome] at h
  cases hResults : items.mapM (Sale.applyGlobalDiscountToItem input strategy now) with
  | error error => simp [hResults, Except.map] at h
  | ok results =>
      rw [discountInPlace_lines hResults, List.forall₂_map_right_iff]
      exact (forall₂_of_mapM hResults).imp fun item result hItem => ⟨result.2, hItem⟩

theorem discountToItem_carried {reasons : List SkippedItem} {after : SaleItem}
    (hOut : Sale.applyGlobalDiscountToItem input strategy now item = .ok (after, reasons))
    (hPassed : ¬ IsPassedOver strategy item)
    (hUpdated : item.applyDiscount input now = .ok updated) : after = updated := by
  rw [discountToItem_of_tried hPassed, hUpdated] at hOut
  cases hOut
  rfl

/-- A line on which the discount raises is left as it was. -/
theorem discountToItem_of_error {error : DomainError}
    (h : item.applyDiscount input now = .error error) :
    ∀ result, Sale.applyGlobalDiscountToItem input strategy now item = .ok result →
      result.1 = item := by
  intro result hOut
  unfold Sale.applyGlobalDiscountToItem at hOut
  rw [h] at hOut
  split at hOut
  · cases hOut
    rfl
  · dsimp only at hOut
    split at hOut <;> cases hOut
    rfl

/-- A call is all or nothing exactly when it gives an amount, or a percentage for which no line
that it tries is too cheap. -/
theorem isAllOrNothing_iff (sale : Sale) (input : ApplySaleItemDiscountInput)
    (strategy : DiscountStrategy) (now : Int) : IsAllOrNothing sale input strategy now ↔
      (input.type = .percentage → ∀ item ∈ sale.items, ¬ IsPassedOver strategy item →
        ¬ IsTooCheap input item) := by
  constructor
  · intro h hPercentage item hItem hPassed hCheap
    have hSkipped := h.impossible item hItem hPassed hCheap
    rw [discountToItem_of_tried hPassed, applyDiscount_of_tooCheap hCheap] at hSkipped
    simp [hPercentage] at hSkipped
  · intro h
    refine ⟨?_, ?_, ?_⟩
    · intro error hError
      have hOutcome : (discountInPlace input strategy now sale.items).2 = .error error := hError
      have hLines : (discountInPlace input strategy now sale.items).1 = sale.items := by
        by_cases hAll : ∀ item ∈ sale.items, ∃ result,
            Sale.applyGlobalDiscountToItem input strategy now item = .ok result
        · obtain ⟨results, hResults⟩ := mapM_isOk_iff.mpr hAll
          rw [discountInPlace_outcome, hResults] at hOutcome
          cases hOutcome
        · push Not at hAll
          obtain ⟨item, hItem, hNone⟩ := hAll
          cases hRaised : Sale.applyGlobalDiscountToItem input strategy now item with
          | ok result => exact absurd hRaised (hNone result)
          | error own =>
              have hCheap : ¬ IsPassedOver strategy item → ¬ IsTooCheap input item := by
                intro hPassed hCheap
                cases hType : input.type with
                | percentage => exact h hType item hItem hPassed hCheap
                | amount =>
                    obtain ⟨result, hResult⟩ := discount_amount hCheap.1 hType
                    exact hNone result hResult
              apply discountInPlace_unchanged
              intro other _
              obtain ⟨otherError, hOther⟩ := raises_everywhere hRaised hCheap other
              exact discountToItem_of_error hOther
      show { sale with items := (discountInPlace input strategy now sale.items).1 } = sale
      rw [hLines]
    · intro skipped hOk
      refine (discountInPlace_forall₂ hOk).imp fun item after hOut hPassed updated hUpdated => ?_
      obtain ⟨reasons, hOut⟩ := hOut
      exact discountToItem_carried hOut hPassed hUpdated
    · intro item hItem hPassed hCheap
      have hAmount : input.type = .amount := by
        cases hType : input.type with
        | amount => rfl
        | percentage => exact absurd hCheap (h hType item hItem hPassed)
      rw [discountToItem_of_tried hPassed, applyDiscount_of_tooCheap hCheap]
      exact if_pos ⟨hAmount, rfl⟩

end

/-- A line at ten pesos before one of a cent. -/
def centDraft : Sale :=
  { Sale.fresh "sale" "seller" with
    items := [SaleItem.fresh ⟨"line", "sale", "product", none, "Product", none, none, 1, 1000,
        "MXN"⟩ Quantity.one,
      SaleItem.fresh ⟨"cent", "sale", "sticker", none, "Sticker", none, none, 1, 1, "MXN"⟩
        Quantity.one] }

theorem percentage_stops_halfway :
    ¬ IsAllOrNothing centDraft ⟨.percentage, none, some 50, none, none⟩ .replace 0 := by
  intro h
  have hSame := h.raised (invalidArgumentError "DISCOUNT_AMOUNT_INVALID") (by decide +kernel)
  exact absurd hSame (by decide +kernel)

end Houndfe.Sales
