import Mathlib.Data.List.DropRight
import Mathlib.Tactic.FieldSimp
import Mathlib.Tactic.Linarith
import Mathlib.Tactic.Ring

/-! Decimal numerals without a sign: the digits before and after the point, the number they
denote, and the canonical numeral, of which there is one for each number. -/

namespace Decimal

/-! ### Digits -/

theorem ofDigitChars_snoc (digits : List Char) (c : Char) :
    Nat.ofDigitChars 10 (digits ++ [c]) 0 =
      10 * Nat.ofDigitChars 10 digits 0 + (c.toNat - '0'.toNat) := by
  rw [Nat.ofDigitChars_append, Nat.ofDigitChars_cons, Nat.ofDigitChars_nil]

theorem digit_bounds {c : Char} (hDigit : c.isDigit = true) : 48 ≤ c.toNat ∧ c.toNat ≤ 57 := by
  simp only [Char.isDigit, Bool.and_eq_true, decide_eq_true_eq] at hDigit
  exact ⟨UInt32.le_iff_toNat_le.mp hDigit.1, UInt32.le_iff_toNat_le.mp hDigit.2⟩

/-- Digits of the same number are the same when there are as many of them. -/
theorem eq_of_ofDigitChars {digits others : List Char} (hDigits : digits.all Char.isDigit = true)
    (hOthers : others.all Char.isDigit = true) (hLength : digits.length = others.length)
    (hValue : Nat.ofDigitChars 10 digits 0 = Nat.ofDigitChars 10 others 0) : digits = others := by
  induction digits using List.reverseRecOn generalizing others with
  | nil => exact (List.length_eq_zero_iff.mp hLength.symm).symm
  | append_singleton digits c ih =>
      rcases List.eq_nil_or_concat' others with rfl | ⟨others, d, rfl⟩
      · simp at hLength
      · simp only [List.all_append, List.all_cons, List.all_nil, Bool.and_true,
          Bool.and_eq_true] at hDigits hOthers
        rw [ofDigitChars_snoc, ofDigitChars_snoc] at hValue
        obtain ⟨hLowC, hHighC⟩ := digit_bounds hDigits.2
        obtain ⟨hLowD, hHighD⟩ := digit_bounds hOthers.2
        have hZero : '0'.toNat = 48 := rfl
        have hSame : digits = others :=
          ih hDigits.1 hOthers.1 (by simpa using hLength) (by omega)
        have hLast : c = d := Char.toNat_inj.mp (by omega)
        rw [hSame, hLast]

/-- The digits of a positive number do not start with zero. -/
theorem head?_toDigits {n : Nat} (hPos : 0 < n) : (Nat.toDigits 10 n).head? ≠ some '0' := by
  induction n using Nat.strongRecOn with
  | _ n ih =>
      by_cases hDigit : n < 10
      · rw [Nat.toDigits_of_lt_base hDigit]
        simpa using hPos.ne'
      · rw [Nat.toDigits_of_base_le (by decide) (by omega),
          List.head?_append_of_ne_nil _ Nat.toDigits_ne_nil]
        exact ih (n / 10) (by omega) (by omega)

/-! ### Numerals -/

/-- The digits before the point and those after it. -/
def parts (text : String) : List Char × List Char :=
  (text.toList.takeWhile (· ≠ '.'), (text.toList.dropWhile (· ≠ '.')).drop 1)

def join (whole fraction : List Char) : String :=
  String.ofList (if fraction = [] then whole else whole ++ '.' :: fraction)

/-- Digits before a point without a leading zero, and digits after it. -/
structure IsNumeral (whole fraction : List Char) : Prop where
  present : whole ≠ []
  wholeDigits : whole.all Char.isDigit = true
  fractionDigits : fraction.all Char.isDigit = true
  leading : whole.head? = some '0' → whole = ['0']

/-- What the digits stand for. -/
def number (whole fraction : List Char) : ℚ :=
  Nat.ofDigitChars 10 (whole ++ fraction) 0 / 10 ^ fraction.length

def value (text : String) : ℚ :=
  number (parts text).1 (parts text).2

/-- No leading zero, no trailing zero after the point, and no trailing point. -/
structure Canonical (text : String) : Prop where
  numeral : IsNumeral (parts text).1 (parts text).2
  joined : text = join (parts text).1 (parts text).2
  trailing : (parts text).2.getLast? ≠ some '0'

variable {whole fraction : List Char}

theorem ne_point {c : Char} (hDigit : c.isDigit = true) : c ≠ '.' := by
  rintro rfl
  cases hDigit

theorem parts_join (hWhole : whole.all Char.isDigit = true) :
    parts (join whole fraction) = (whole, fraction) := by
  have hNone : ∀ c ∈ whole, decide (c ≠ '.') = true := by
    intro c hMem
    exact decide_eq_true (ne_point (List.all_eq_true.mp hWhole c hMem))
  unfold parts join
  rw [String.toList_ofList]
  split
  · next hEmpty =>
      rw [List.takeWhile_eq_self_iff.mpr hNone, List.dropWhile_eq_nil_iff.mpr hNone, hEmpty]
      rfl
  · rw [List.takeWhile_append_of_pos hNone, List.dropWhile_append_of_pos hNone]
    simp

theorem value_join (hWhole : whole.all Char.isDigit = true) :
    value (join whole fraction) = number whole fraction := by
  rw [value, parts_join hWhole]

theorem canonical_join (hNumeral : IsNumeral whole fraction)
    (hTrailing : fraction.getLast? ≠ some '0') : Canonical (join whole fraction) := by
  have hParts : parts (join whole fraction) = (whole, fraction) := parts_join hNumeral.wholeDigits
  exact ⟨by rw [hParts]; exact hNumeral, by rw [hParts], by rw [hParts]; exact hTrailing⟩

theorem number_snoc (c : Char) :
    number whole (fraction ++ [c]) =
      (10 * (Nat.ofDigitChars 10 (whole ++ fraction) 0 : ℚ) + (c.toNat - '0'.toNat : Nat)) /
        (10 ^ fraction.length * 10) := by
  rw [number, ← List.append_assoc, ofDigitChars_snoc, List.length_append, List.length_singleton,
    pow_succ]
  push_cast
  rfl

/-- A numeral with more digits after the point than another of the same number ends in zero. -/
theorem getLast?_of_longer {whole' fraction' : List Char}
    (hDigits : fraction.all Char.isDigit = true)
    (hLonger : fraction'.length < fraction.length)
    (hSame : number whole fraction = number whole' fraction') :
    fraction.getLast? = some '0' := by
  rcases List.eq_nil_or_concat' fraction with rfl | ⟨front, c, rfl⟩
  · simp at hLonger
  · simp only [List.all_append, List.all_cons, List.all_nil, Bool.and_true,
      Bool.and_eq_true] at hDigits
    obtain ⟨hLow, hHigh⟩ := digit_bounds hDigits.2
    have hMore : front.length = fraction'.length + (front.length - fraction'.length) := by
      simp only [List.length_append, List.length_singleton] at hLonger
      omega
    rw [number_snoc, number, hMore, pow_add] at hSame
    field_simp at hSame
    rw [mul_assoc] at hSame
    have hNat : 10 * Nat.ofDigitChars 10 (whole ++ front) 0 + (c.toNat - '0'.toNat) =
        10 * (10 ^ (front.length - fraction'.length) *
          Nat.ofDigitChars 10 (whole' ++ fraction') 0) := by
      exact_mod_cast hSame
    have hZero : '0'.toNat = 48 := rfl
    have hLast : c = '0' := Char.toNat_inj.mp (by omega)
    rw [List.getLast?_concat, hLast]

/-- The canonical numeral of a number is the only one. -/
theorem Canonical.unique {text other : String} (h : Canonical text) (h' : Canonical other)
    (hSame : value text = value other) : text = other := by
  obtain ⟨hNumeral, hJoined, hTrailing⟩ := h
  obtain ⟨hNumeral', hJoined', hTrailing'⟩ := h'
  rw [value, value] at hSame
  rw [hJoined, hJoined']
  generalize (parts text).1 = whole at *
  generalize (parts text).2 = fraction at *
  generalize (parts other).1 = whole' at *
  generalize (parts other).2 = fraction' at *
  have hLength : fraction.length = fraction'.length := by
    rcases Nat.lt_trichotomy fraction.length fraction'.length with hLess | hEqual | hMore
    · exact absurd (getLast?_of_longer hNumeral'.fractionDigits hLess hSame.symm) hTrailing'
    · exact hEqual
    · exact absurd (getLast?_of_longer hNumeral.fractionDigits hMore hSame) hTrailing
  have hCount : Nat.ofDigitChars 10 (whole ++ fraction) 0 =
      Nat.ofDigitChars 10 (whole' ++ fraction') 0 := by
    rw [number, number, hLength] at hSame
    field_simp at hSame
    exact_mod_cast hSame
  -- the shorter one would be the longer one without leading zeros
  have hShorter : ∀ {short long shortEnd longEnd : List Char}, IsNumeral short shortEnd →
      IsNumeral long longEnd → shortEnd.length = longEnd.length →
      Nat.ofDigitChars 10 (short ++ shortEnd) 0 = Nat.ofDigitChars 10 (long ++ longEnd) 0 →
      short.length ≤ long.length → short = long ∧ shortEnd = longEnd := by
    intro short long shortEnd longEnd hShort hLong hEnds hValue hLess
    have hPadded : List.replicate (long.length - short.length) '0' ++ (short ++ shortEnd) =
        long ++ longEnd := by
      apply eq_of_ofDigitChars
      · simp [hShort.wholeDigits, hShort.fractionDigits]
      · simp [hLong.wholeDigits, hLong.fractionDigits]
      · simp only [List.length_append, List.length_replicate]
        omega
      · rw [Nat.ofDigitChars_append, Nat.ofDigitChars_replicate_zero, Nat.mul_zero, hValue]
    have hNone : long.length - short.length = 0 := by
      by_contra hSome
      obtain ⟨less, hLess⟩ := Nat.exists_eq_succ_of_ne_zero hSome
      rw [hLess, List.replicate_succ, List.cons_append] at hPadded
      have hHead : long.head? = some '0' := by
        rw [← List.head?_append_of_ne_nil _ hLong.present, ← hPadded, List.head?_cons]
      have hOne := hLong.leading hHead
      have hAtLeast := List.length_pos_of_ne_nil hShort.present
      rw [hOne] at hLess
      simp only [List.length_singleton] at hLess
      omega
    rw [hNone, List.replicate_zero, List.nil_append] at hPadded
    exact List.append_inj hPadded (by omega)
  rcases Nat.le_total whole.length whole'.length with hLess | hMore
  · obtain ⟨rfl, rfl⟩ := hShorter hNumeral hNumeral' hLength hCount hLess
    rfl
  · obtain ⟨rfl, rfl⟩ := hShorter hNumeral' hNumeral hLength.symm hCount.symm hMore
    rfl

/-! ### Cutting digits at the point -/

/-- A text without the zeros it ends in. -/
def stripZeros (text : List Char) : List Char :=
  text.rdropWhile (· = '0')

theorem stripZeros_append {c : Char} (hOther : c ≠ '0') (front rest : List Char) :
    stripZeros (front ++ c :: rest) = front ++ c :: stripZeros rest := by
  unfold stripZeros
  induction rest using List.reverseRecOn with
  | nil =>
      rw [List.rdropWhile_nil, List.rdropWhile_concat_neg _ _ _ (by simpa using hOther)]
  | append_singleton rest d ih =>
      rw [← List.cons_append, ← List.append_assoc]
      by_cases hZero : d = '0'
      · rw [List.rdropWhile_concat_pos _ _ _ (by simpa using hZero), ih,
          List.rdropWhile_concat_pos _ _ _ (by simpa using hZero)]
      · rw [List.rdropWhile_concat_neg _ _ _ (by simpa using hZero),
          List.rdropWhile_concat_neg _ _ _ (by simpa using hZero), List.append_assoc]
        rfl

theorem getLast?_stripZeros (text : List Char) : (stripZeros text).getLast? ≠ some '0' := by
  intro hLast
  have hNone : stripZeros text ≠ [] := by
    intro hEmpty
    rw [hEmpty] at hLast
    cases hLast
  have hNot := List.rdropWhile_last_not (fun c => decide (c = '0')) text hNone
  rw [List.getLast?_eq_some_getLast hNone, Option.some.injEq] at hLast
  exact hNot (decide_eq_true hLast)

theorem all_stripZeros (hDigits : fraction.all Char.isDigit = true) :
    (stripZeros fraction).all Char.isDigit = true := by
  rw [List.all_eq_true] at hDigits ⊢
  exact fun c hMem => hDigits c ((List.rdropWhile_prefix _ _).subset hMem)

/-- Zeros at the end of the fraction count for nothing. -/
theorem number_stripZeros : number whole (stripZeros fraction) = number whole fraction := by
  unfold stripZeros
  induction fraction using List.reverseRecOn with
  | nil => rfl
  | append_singleton fraction c ih =>
      by_cases hZero : c = '0'
      · rw [List.rdropWhile_concat_pos _ _ _ (by simpa using hZero), ih, number_snoc, hZero, number]
        field_simp
        simp
      · rw [List.rdropWhile_concat_neg _ _ _ (by simpa using hZero)]

/-- Digits cut before the last `scale` of them, without the zeros at their end. -/
def cut (digits : List Char) (scale : Nat) : String :=
  join (digits.take (digits.length - scale)) (stripZeros (digits.drop (digits.length - scale)))

theorem cut_spec {digits : List Char} {scale : Nat} (hDigits : digits.all Char.isDigit = true)
    (hLonger : scale < digits.length)
    (hLeading : digits.head? = some '0' → digits.length = scale + 1) :
    Canonical (cut digits scale) ∧
      value (cut digits scale) = (Nat.ofDigitChars 10 digits 0 : ℚ) / 10 ^ scale := by
  obtain ⟨c, rest, rfl⟩ := List.exists_cons_of_length_pos (by omega : 0 < digits.length)
  have hAll : ∀ d ∈ c :: rest, d.isDigit = true := List.all_eq_true.mp hDigits
  have hTake : (List.take ((c :: rest).length - scale) (c :: rest)).all Char.isDigit = true :=
    List.all_eq_true.mpr fun d hMem => hAll d (List.mem_of_mem_take hMem)
  have hDrop : (List.drop ((c :: rest).length - scale) (c :: rest)).all Char.isDigit = true :=
    List.all_eq_true.mpr fun d hMem => hAll d (List.mem_of_mem_drop hMem)
  obtain ⟨whole, hWhole⟩ : ∃ whole, (c :: rest).length - scale = whole + 1 :=
    ⟨(c :: rest).length - scale - 1, by omega⟩
  constructor
  · apply canonical_join
    · refine ⟨?_, hTake, all_stripZeros hDrop, ?_⟩
      · rw [hWhole, List.take_succ_cons]
        exact List.cons_ne_nil _ _
      · rw [hWhole, List.take_succ_cons]
        intro hZero
        have hHead : c = '0' := Option.some.inj hZero
        have hOne := hLeading (by rw [hHead]; rfl)
        have hNone : whole = 0 := by omega
        rw [hNone, hHead, List.take_zero]
    · exact getLast?_stripZeros _
  · rw [cut, value_join hTake, number_stripZeros, number, List.take_append_drop, List.length_drop,
      Nat.sub_sub_self (Nat.le_of_lt hLonger)]

end Decimal
