import Houndfe.Base.Decimal
import Houndfe.Shared.DomainError

/-! The decimal texts of purchase orders: their patterns, their exact arithmetic on scaled whole
numbers, and the totals of an order for each tax basis. -/

namespace Houndfe.Procurement

open Decimal

inductive PurchaseOrderErrorCode where
  | malformed
  | notFound
  | supplierArchived
  deriving DecidableEq, Repr

/-- `(0|[1-9][0-9]*)` -/
def isWhole : List Char → Bool
  | [] => false
  | ['0'] => true
  | c :: rest => c.isDigit && c ≠ '0' && rest.all Char.isDigit

/-- `^(0|[1-9][0-9]*)(\.[0-9]+)?$`, with as many digits on each side as the bounds admit. -/
def decimalPattern (wholeFits fractionFits : Nat → Bool) (text : String) : Bool :=
  let whole := text.toList.takeWhile (· ≠ '.')
  isWhole whole && wholeFits whole.length && match text.toList.dropWhile (· ≠ '.') with
    | [] => true
    | _ :: fraction =>
        fraction ≠ [] && fraction.all Char.isDigit && fractionFits fraction.length

/-- `^(0|[1-9][0-9]{0,8})(\.[0-9]{1,3})?$` -/
def quantityPattern : String → Bool :=
  decimalPattern (· ≤ 9) (· ≤ 3)

/-- `^(0|[1-9][0-9]{0,11})(\.[0-9]{1,4})?$` -/
def amountPattern : String → Bool :=
  decimalPattern (· ≤ 12) (· ≤ 4)

structure Scaled where
  coefficient : Nat
  scale : Nat

def scaled (text : String) : Except PurchaseOrderErrorCode Scaled :=
  if decimalPattern (fun _ => true) (fun _ => true) text then
    .ok ⟨Nat.ofDigitChars 10 ((parts text).1 ++ (parts text).2) 0, (parts text).2.length⟩
  else .error .malformed

def padStart (width : Nat) (digits : List Char) : List Char :=
  List.replicate (width - digits.length) '0' ++ digits

/-- `text.replace(/\.$/, '')` -/
def stripPoint (text : List Char) : List Char :=
  if text.getLast? = some '.' then text.dropLast else text

def render (coefficient scale : Nat) : String :=
  if coefficient = 0 then "0"
  else
    let digits := padStart (scale + 1) (Nat.toDigits 10 coefficient)
    if scale = 0 then String.ofList digits
    else
      let place := digits.length - scale
      String.ofList (stripPoint (stripZeros (digits.take place ++ '.' :: digits.drop place)))

def multiplyDecimals (left right : String) : Except PurchaseOrderErrorCode String := do
  let a ← scaled left
  let b ← scaled right
  return render (a.coefficient * b.coefficient) (a.scale + b.scale)

def addDecimals (left right : String) : Except PurchaseOrderErrorCode String := do
  let a ← scaled left
  let b ← scaled right
  let scale := max a.scale b.scale
  return render (a.coefficient * 10 ^ (scale - a.scale) + b.coefficient * 10 ^ (scale - b.scale))
    scale

/-! ### Totals -/

inductive TaxBasis where
  | excludesTax
  | includesTax
  deriving DecidableEq, Repr

structure Subtotal where
  amount : String
  taxBasis : TaxBasis
  deriving DecidableEq, Repr

structure LineSubtotal where
  lineId : String
  subtotal : Option Subtotal
  deriving DecidableEq, Repr

/-- The sums so far, one for each basis that was met. -/
def sumSubtotals (sums : TaxBasis → Option String) : List LineSubtotal →
    Except PurchaseOrderErrorCode (Option (TaxBasis → Option String))
  | [] => .ok (some sums)
  | line :: rest =>
      match line.subtotal with
      | none => .ok none
      | some subtotal => do
          let sum ← addDecimals ((sums subtotal.taxBasis).getD "0") subtotal.amount
          sumSubtotals (Function.update sums subtotal.taxBasis (some sum)) rest

def totalBases : List TaxBasis :=
  [.excludesTax, .includesTax]

/-- A total is an amount in pesos under a basis; `none` stands for `null`. -/
def computePurchaseOrderTotals (lineSubtotals : List LineSubtotal) :
    Except PurchaseOrderErrorCode (Option (List Subtotal)) :=
  if lineSubtotals = [] then .ok none
  else do
    let sums ← sumSubtotals (fun _ => none) lineSubtotals
    return sums.map fun sums =>
      totalBases.filterMap fun taxBasis => (sums taxBasis).map (⟨·, taxBasis⟩)

/-! ### Exactness -/

/-- A text that `scaled` reads. -/
def IsDecimal (text : String) : Prop :=
  decimalPattern (fun _ => true) (fun _ => true) text = true

instance (text : String) : Decidable (IsDecimal text) :=
  inferInstanceAs (Decidable (_ = true))

theorem isDecimal_of_pattern {wholeFits fractionFits : Nat → Bool} {text : String}
    (h : decimalPattern wholeFits fractionFits text = true) : IsDecimal text := by
  unfold IsDecimal
  simp only [decimalPattern, Bool.and_eq_true, Bool.and_true] at h ⊢
  refine ⟨h.1.1, ?_⟩
  split at h <;> simp_all

theorem isNumeral_of_isWhole {whole fraction : List Char} (hWhole : isWhole whole = true)
    (hFraction : fraction.all Char.isDigit = true) : IsNumeral whole fraction := by
  unfold isWhole at hWhole
  split at hWhole
  · cases hWhole
  · exact ⟨by decide, by decide, hFraction, fun _ => rfl⟩
  · simp only [Bool.and_eq_true, decide_eq_true_eq] at hWhole
    refine ⟨by simp, by simp [hWhole.1.1, hWhole.2], hFraction, ?_⟩
    intro hZero
    exact absurd (Option.some.inj hZero) hWhole.1.2

/-- The number a decimal text denotes is what `scaled` reads from it. -/
theorem scaled_spec {text : String} (h : IsDecimal text) :
    ∃ read, scaled text = .ok read ∧ value text = (read.coefficient : ℚ) / 10 ^ read.scale :=
  ⟨_, if_pos h, rfl⟩

/-- A canonical text is a decimal text. -/
theorem isDecimal_of_canonical {text : String} (h : Canonical text) : IsDecimal text := by
  obtain ⟨hNumeral, hJoined, _⟩ := h
  have hWhole : isWhole (parts text).1 = true := by
    obtain ⟨hPresent, hDigits, _, hLeading⟩ := hNumeral
    generalize (parts text).1 = whole at *
    unfold isWhole
    split
    · exact absurd rfl hPresent
    · rfl
    · next c rest hNotZero =>
        simp only [List.all_cons, Bool.and_eq_true] at hDigits
        have hOther : c ≠ '0' := by
          rintro rfl
          exact hNotZero rfl (List.cons.inj (hLeading rfl)).2
        simp [hDigits, hOther]
  have hFraction := hNumeral.fractionDigits
  unfold IsDecimal decimalPattern
  simp only [parts] at hWhole hFraction
  simp only [hWhole, Bool.true_and, Bool.and_true]
  split
  · rfl
  · next c fraction hRest =>
      rw [hRest, List.drop_one, List.tail_cons] at hFraction
      have hPresent : fraction ≠ [] := by
        rintro rfl
        -- a text that ends in its point is not joined from its parts
        have hParts : (parts text).2 = [] := by
          rw [parts, hRest]
          rfl
        have hText : text.toList = text.toList.takeWhile (· ≠ '.') := by
          have hSame := congrArg String.toList hJoined
          rwa [join, hParts, if_pos rfl, String.toList_ofList] at hSame
        have hEnd := List.takeWhile_append_dropWhile (p := (· ≠ '.')) (l := text.toList)
        rw [← hText, hRest] at hEnd
        simp at hEnd
      simp [hFraction, hPresent]

theorem canonical_zero : Canonical "0" ∧ value "0" = 0 := by
  have hZero : "0" = join ['0'] [] := rfl
  have hDigits : ['0'].all Char.isDigit = true := rfl
  rw [hZero]
  refine ⟨canonical_join (isNumeral_of_isWhole rfl rfl) (by simp), ?_⟩
  rw [value_join hDigits, number]
  have hNone : Nat.ofDigitChars 10 (['0'] ++ []) 0 = 0 := rfl
  rw [hNone, Nat.cast_zero, zero_div]

/-- The canonical text of a coefficient over a power of ten. -/
theorem render_spec (coefficient scale : Nat) :
    Canonical (render coefficient scale) ∧
      value (render coefficient scale) = (coefficient : ℚ) / 10 ^ scale := by
  unfold render
  split
  · next hZero => simpa [hZero] using canonical_zero
  · next hPositive =>
      have hPos : 0 < coefficient := Nat.pos_of_ne_zero hPositive
      generalize hDigits : padStart (scale + 1) (Nat.toDigits 10 coefficient) = digits
      have hLength : digits.length =
          scale + 1 - (Nat.toDigits 10 coefficient).length +
            (Nat.toDigits 10 coefficient).length := by
        simp [← hDigits, padStart]
      have hAll : digits.all Char.isDigit = true := by
        rw [← hDigits, padStart, List.all_append, Bool.and_eq_true]
        refine ⟨by simp, List.all_eq_true.mpr fun c hMem => ?_⟩
        exact Nat.isDigit_of_mem_toDigits (by decide) (by decide) hMem
      have hLeading : digits.head? = some '0' → digits.length = scale + 1 := by
        intro hZero
        by_contra hLonger
        have hNone : scale + 1 - (Nat.toDigits 10 coefficient).length = 0 := by omega
        rw [← hDigits, padStart, hNone] at hZero
        exact head?_toDigits hPos hZero
      have hNumber : Nat.ofDigitChars 10 digits 0 = coefficient := by
        rw [← hDigits, padStart, Nat.ofDigitChars_append, Nat.ofDigitChars_replicate_zero,
          Nat.mul_zero, Nat.ofDigitChars_ten_toDigits]
      have hCut : (if scale = 0 then String.ofList digits
          else String.ofList (stripPoint (stripZeros (digits.take (digits.length - scale) ++
            '.' :: digits.drop (digits.length - scale))))) = cut digits scale := by
        unfold cut join
        split
        · next hWhole => simp [hWhole, stripZeros]
        · rw [stripZeros_append (by decide)]
          generalize hFraction : stripZeros (digits.drop (digits.length - scale)) = fraction
          have hOther : fraction.getLast? ≠ some '.' := by
            intro hLast
            have hDrop : (digits.drop (digits.length - scale)).all Char.isDigit = true :=
              List.all_eq_true.mpr fun c hMem =>
                List.all_eq_true.mp hAll c (List.mem_of_mem_drop hMem)
            have hDigits := all_stripZeros hDrop
            rw [hFraction] at hDigits
            exact ne_point (List.all_eq_true.mp hDigits '.' (List.mem_of_getLast? hLast)) rfl
          cases fraction with
          | nil => simp [stripPoint]
          | cons c rest =>
              rw [stripPoint, if_neg, if_neg (List.cons_ne_nil _ _)]
              rwa [List.getLast?_append_of_ne_nil _ (List.cons_ne_nil _ _),
                List.getLast?_cons_cons]
      have hSpec := cut_spec hAll (by omega : scale < digits.length) hLeading
      rw [hNumber] at hSpec
      simp only [hCut]
      exact hSpec

/-- A text is the canonical text of a number. -/
def Denotes (text : String) (number : ℚ) : Prop :=
  Canonical text ∧ value text = number

theorem Denotes.unique {text other : String} {number : ℚ} (h : Denotes text number)
    (h' : Denotes other number) : text = other :=
  h.1.unique h'.1 (h.2.trans h'.2.symm)

theorem multiplyDecimals_spec {left right : String} (hLeft : IsDecimal left)
    (hRight : IsDecimal right) :
    ∃ text, multiplyDecimals left right = .ok text ∧ Denotes text (value left * value right) := by
  obtain ⟨a, hA, hValueA⟩ := scaled_spec hLeft
  obtain ⟨b, hB, hValueB⟩ := scaled_spec hRight
  obtain ⟨hCanonical, hValue⟩ := render_spec (a.coefficient * b.coefficient) (a.scale + b.scale)
  refine ⟨_, by rw [multiplyDecimals, hA, hB]; rfl, hCanonical, ?_⟩
  rw [hValue, hValueA, hValueB, pow_add]
  push_cast
  field_simp

theorem addDecimals_spec {left right : String} (hLeft : IsDecimal left)
    (hRight : IsDecimal right) :
    ∃ text, addDecimals left right = .ok text ∧ Denotes text (value left + value right) := by
  obtain ⟨a, hA, hValueA⟩ := scaled_spec hLeft
  obtain ⟨b, hB, hValueB⟩ := scaled_spec hRight
  have hLift : ∀ {coefficient scale wide : Nat}, scale ≤ wide →
      ((coefficient * 10 ^ (wide - scale) : Nat) : ℚ) / 10 ^ wide =
        (coefficient : ℚ) / 10 ^ scale := by
    intro coefficient scale wide hWide
    obtain ⟨more, rfl⟩ := Nat.exists_eq_add_of_le hWide
    rw [Nat.add_sub_cancel_left, pow_add]
    push_cast
    field_simp
  obtain ⟨hCanonical, hValue⟩ := render_spec
    (a.coefficient * 10 ^ (max a.scale b.scale - a.scale) +
      b.coefficient * 10 ^ (max a.scale b.scale - b.scale)) (max a.scale b.scale)
  refine ⟨_, by rw [addDecimals, hA, hB]; rfl, hCanonical, ?_⟩
  rw [hValue, hValueA, hValueB, Nat.cast_add, add_div, hLift (Nat.le_max_left _ _),
    hLift (Nat.le_max_right _ _)]

/-! ### The totals of an order -/

section

variable {sums : TaxBasis → Option String} {seen : List Subtotal} {lines : List LineSubtotal}

/-- What the subtotals under a basis add up to. -/
def exactTotal (taxBasis : TaxBasis) (seen : List Subtotal) : ℚ :=
  ((seen.filter (·.taxBasis = taxBasis)).map (value ·.amount)).sum

/-- The sums of the subtotals seen so far. -/
structure Summed (sums : TaxBasis → Option String) (seen : List Subtotal) : Prop where
  amount : ∀ taxBasis text, sums taxBasis = some text → Denotes text (exactTotal taxBasis seen)
  met : ∀ taxBasis, (sums taxBasis).isSome ↔ ∃ subtotal ∈ seen, subtotal.taxBasis = taxBasis

/-- The sums do not depend on the order of the subtotals. -/
theorem Summed.unique {sums' : TaxBasis → Option String} {seen' : List Subtotal}
    (h : Summed sums seen) (h' : Summed sums' seen') (hPerm : seen.Perm seen') : sums = sums' := by
  funext taxBasis
  have hSame : exactTotal taxBasis seen = exactTotal taxBasis seen' :=
    ((hPerm.filter _).map _).sum_eq
  have hMet : (sums taxBasis).isSome ↔ (sums' taxBasis).isSome := by
    rw [h.met, h'.met]
    simp only [hPerm.mem_iff]
  cases hSum : sums taxBasis with
  | none =>
      rw [hSum] at hMet
      exact (Option.not_isSome_iff_eq_none.mp fun hSome => absurd (hMet.mpr hSome) (by simp)).symm
  | some text =>
      rw [hSum] at hMet
      obtain ⟨other, hOther⟩ := Option.isSome_iff_exists.mp (hMet.mp rfl)
      rw [hOther, (h.amount _ _ hSum).unique (hSame ▸ h'.amount _ _ hOther)]

theorem Summed.add {subtotal : Subtotal} (h : Summed sums seen)
    (hDecimal : IsDecimal subtotal.amount) : ∃ sum,
      addDecimals ((sums subtotal.taxBasis).getD "0") subtotal.amount = .ok sum ∧
        Summed (Function.update sums subtotal.taxBasis (some sum)) (seen ++ [subtotal]) := by
  have hBefore :
      Denotes ((sums subtotal.taxBasis).getD "0") (exactTotal subtotal.taxBasis seen) := by
    cases hSum : sums subtotal.taxBasis with
    | some text => exact h.amount _ _ hSum
    | none =>
        have hNone : seen.filter (·.taxBasis = subtotal.taxBasis) = [] := by
          rw [List.filter_eq_nil_iff]
          intro other hMem hBasis
          have hMet := (h.met subtotal.taxBasis).mpr ⟨other, hMem, by simpa using hBasis⟩
          simp [hSum] at hMet
        simpa [exactTotal, hNone, Denotes] using canonical_zero
  obtain ⟨sum, hSum, hDenotes⟩ := addDecimals_spec (isDecimal_of_canonical hBefore.1) hDecimal
  rw [hBefore.2] at hDenotes
  refine ⟨sum, hSum, ?_, ?_⟩
  · intro taxBasis text hText
    by_cases hBasis : subtotal.taxBasis = taxBasis
    · subst hBasis
      rw [Function.update_self, Option.some.injEq] at hText
      simpa [exactTotal, ← hText] using hDenotes
    · rw [Function.update_of_ne (Ne.symm hBasis)] at hText
      simpa [exactTotal, hBasis] using h.amount _ _ hText
  · intro taxBasis
    by_cases hBasis : subtotal.taxBasis = taxBasis
    · subst hBasis
      simp
    · rw [Function.update_of_ne (Ne.symm hBasis), h.met]
      simp [or_and_right, exists_or, hBasis]

theorem sumSubtotals_spec (h : Summed sums seen)
    (hDecimal : ∀ line ∈ lines, ∀ subtotal ∈ line.subtotal, IsDecimal subtotal.amount) :
    (sumSubtotals sums lines = .ok none ∧ ∃ line ∈ lines, line.subtotal = none) ∨
      ∃ after, sumSubtotals sums lines = .ok (some after) ∧
        (∀ line ∈ lines, line.subtotal ≠ none) ∧
          Summed after (seen ++ lines.filterMap (·.subtotal)) := by
  induction lines generalizing sums seen with
  | nil => exact .inr ⟨sums, rfl, by simp, by simpa using h⟩
  | cons line rest ih =>
      obtain ⟨hLine, hRest⟩ := List.forall_mem_cons.mp hDecimal
      cases hSubtotal : line.subtotal with
      | none => exact .inl ⟨by simp [sumSubtotals, hSubtotal], line, List.mem_cons_self, hSubtotal⟩
      | some subtotal =>
          obtain ⟨sum, hSum, hSummed⟩ := h.add (hLine subtotal hSubtotal)
          have hStep : sumSubtotals sums (line :: rest) = sumSubtotals
              (Function.update sums subtotal.taxBasis (some sum)) rest := by
            simp only [sumSubtotals, hSubtotal, hSum]
            rfl
          rw [hStep]
          rcases ih hSummed hRest with ⟨hNone, other, hMem, hMissing⟩ | ⟨after, hOk, hAll, hAfter⟩
          · exact .inl ⟨hNone, other, List.mem_cons_of_mem _ hMem, hMissing⟩
          · refine .inr ⟨after, hOk, ?_, ?_⟩
            · rw [List.forall_mem_cons, hSubtotal]
              exact ⟨Option.some_ne_none _, hAll⟩
            · simpa [hSubtotal] using hAfter

theorem summed_nil : Summed (fun _ => none) [] :=
  ⟨by simp, by simp⟩

/-- The totals of lines with decimal subtotals: none, or the exact sum under each basis met. -/
theorem computePurchaseOrderTotals_spec
    (hDecimal : ∀ line ∈ lines, ∀ subtotal ∈ line.subtotal, IsDecimal subtotal.amount) :
    (computePurchaseOrderTotals lines = .ok none ∧
        (lines = [] ∨ ∃ line ∈ lines, line.subtotal = none)) ∨
      ∃ sums, computePurchaseOrderTotals lines = .ok (some (totalBases.filterMap fun taxBasis =>
          (sums taxBasis).map (⟨·, taxBasis⟩))) ∧
        lines ≠ [] ∧ (∀ line ∈ lines, line.subtotal ≠ none) ∧
          Summed sums (lines.filterMap (·.subtotal)) := by
  unfold computePurchaseOrderTotals
  split
  · next hEmpty => exact .inl ⟨rfl, .inl hEmpty⟩
  · next hLines =>
      rcases sumSubtotals_spec summed_nil hDecimal with
        ⟨hNone, hMissing⟩ | ⟨sums, hOk, hAll, hSummed⟩
      · exact .inl ⟨by rw [hNone]; rfl, .inr hMissing⟩
      · exact .inr ⟨sums, by rw [hOk]; rfl, hLines, hAll, hSummed⟩

end

/-- Products and sums of wire decimals are the canonical texts of the exact products and sums, and
the totals of an order are exact for each basis, whatever the order of its lines. -/
theorem decimals_are_exact :
    (∀ left right, (quantityPattern left = true ∨ amountPattern left = true) →
      (quantityPattern right = true ∨ amountPattern right = true) →
      (∃ text, multiplyDecimals left right = .ok text ∧ Denotes text (value left * value right)) ∧
        ∃ text, addDecimals left right = .ok text ∧ Denotes text (value left + value right)) ∧
    ∀ lines : List LineSubtotal,
      (∀ line ∈ lines, ∀ subtotal ∈ line.subtotal, IsDecimal subtotal.amount) →
      (∃ totals, computePurchaseOrderTotals lines = .ok totals ∧
        (totals = none ↔ lines = [] ∨ ∃ line ∈ lines, line.subtotal = none) ∧
        ∀ listed ∈ totals, ∀ taxBasis,
          ((∃ total ∈ listed, total.taxBasis = taxBasis) ↔
            ∃ subtotal ∈ lines.filterMap (·.subtotal), subtotal.taxBasis = taxBasis) ∧
          ∀ total ∈ listed, total.taxBasis = taxBasis →
            Denotes total.amount (exactTotal taxBasis (lines.filterMap (·.subtotal)))) ∧
      ∀ lines', lines.Perm lines' →
        computePurchaseOrderTotals lines' = computePurchaseOrderTotals lines := by
  refine ⟨?_, ?_⟩
  · intro left right hLeft hRight
    have hDecimal : ∀ {text}, quantityPattern text = true ∨ amountPattern text = true →
        IsDecimal text :=
      fun h => h.elim isDecimal_of_pattern isDecimal_of_pattern
    exact ⟨multiplyDecimals_spec (hDecimal hLeft) (hDecimal hRight),
      addDecimals_spec (hDecimal hLeft) (hDecimal hRight)⟩
  · intro lines hDecimal
    refine ⟨?_, ?_⟩
    · rcases computePurchaseOrderTotals_spec hDecimal with
        ⟨hNone, hMissing⟩ | ⟨sums, hOk, hLines, hAll, hSummed⟩
      · exact ⟨none, hNone, by simpa using hMissing, by simp⟩
      · refine ⟨_, hOk, ?_, ?_⟩
        · simp only [reduceCtorEq, false_iff, not_or, not_exists, not_and]
          exact ⟨hLines, hAll⟩
        · rintro listed hListed taxBasis
          obtain rfl := Option.some.inj hListed
          refine ⟨?_, ?_⟩
          · rw [← hSummed.met]
            constructor
            · rintro ⟨total, hTotal, hBasis⟩
              obtain ⟨other, _, hFound⟩ := List.mem_filterMap.mp hTotal
              obtain ⟨text, hText, rfl⟩ := Option.map_eq_some_iff.mp hFound
              obtain rfl : other = taxBasis := hBasis
              rw [hText]
              rfl
            · intro hSome
              obtain ⟨text, hText⟩ := Option.isSome_iff_exists.mp hSome
              refine ⟨⟨text, taxBasis⟩, List.mem_filterMap.mpr ⟨taxBasis, ?_, ?_⟩, rfl⟩
              · cases taxBasis <;> decide
              · rw [hText]
                rfl
          · intro total hTotal hBasis
            obtain ⟨other, _, hFound⟩ := List.mem_filterMap.mp hTotal
            obtain ⟨text, hText, rfl⟩ := Option.map_eq_some_iff.mp hFound
            obtain rfl : other = taxBasis := hBasis
            exact hSummed.amount _ _ hText
    · intro lines' hPerm
      have hDecimal' : ∀ line ∈ lines', ∀ subtotal ∈ line.subtotal, IsDecimal subtotal.amount :=
        fun line hMem => hDecimal line (hPerm.mem_iff.mpr hMem)
      rcases computePurchaseOrderTotals_spec hDecimal with
        ⟨hNone, hMissing⟩ | ⟨sums, hOk, hLines, hAll, hSummed⟩ <;>
      rcases computePurchaseOrderTotals_spec hDecimal' with
        ⟨hNone', hMissing'⟩ | ⟨sums', hOk', hLines', hAll', hSummed'⟩
      · rw [hNone, hNone']
      · rcases hMissing with rfl | ⟨line, hMem, hAbsent⟩
        · exact absurd hPerm.nil_eq.symm hLines'
        · exact absurd hAbsent (hAll' line (hPerm.mem_iff.mp hMem))
      · rcases hMissing' with rfl | ⟨line, hMem, hAbsent⟩
        · exact absurd hPerm.eq_nil hLines
        · exact absurd hAbsent (hAll line (hPerm.mem_iff.mpr hMem))
      · rw [hOk, hOk', hSummed.unique hSummed' (hPerm.filterMap _)]

/-- Two and a half boxes at four pesos, and one line under each basis. -/
theorem decimals_are_exact_of_two_bases :
    (∃ text, multiplyDecimals "2.5" "4.00" = .ok text ∧ Denotes text (value "2.5" * value "4.00")) ∧
      computePurchaseOrderTotals [⟨"second", some ⟨"0.5", .excludesTax⟩⟩,
          ⟨"first", some ⟨"10", .includesTax⟩⟩] =
        computePurchaseOrderTotals [⟨"first", some ⟨"10", .includesTax⟩⟩,
          ⟨"second", some ⟨"0.5", .excludesTax⟩⟩] :=
  ⟨(decimals_are_exact.1 "2.5" "4.00" (.inl (by decide)) (.inr (by decide))).1,
    (decimals_are_exact.2 [⟨"first", some ⟨"10", .includesTax⟩⟩,
      ⟨"second", some ⟨"0.5", .excludesTax⟩⟩] (by decide)).2 _ (.swap ..)⟩

example : multiplyDecimals "2.5" "4.00" = .ok "10" := by decide +kernel

end Houndfe.Procurement
