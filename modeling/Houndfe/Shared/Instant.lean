import Mathlib.Algebra.GroupWithZero.Nat
import Mathlib.Data.List.Basic

/-! Instants of the `Date` object as milliseconds since the epoch, the text that `toISOString`
gives them, and the instant that `Date.parse` reads from it. -/

namespace Instant

def padded (width n : Nat) : String :=
  let digits := Nat.toDigits 10 n
  String.ofList (List.replicate (width - digits.length) '0' ++ digits)

/-- Year, month and day of a day counted from the epoch, in the proleptic Gregorian calendar.
Years are counted from March, so that the leap day comes last. -/
def civil (day : Int) : Int × Nat × Nat :=
  let shifted := day + 719468
  let era := shifted / 146097
  let ofEra := (shifted % 146097).toNat
  let yearOfEra := (ofEra - ofEra / 1460 + ofEra / 36524 - ofEra / 146096) / 365
  let ofYear := ofEra - (365 * yearOfEra + yearOfEra / 4 - yearOfEra / 100)
  let fromMarch := (5 * ofYear + 2) / 153
  let month := if fromMarch < 10 then fromMarch + 3 else fromMarch - 9
  let year := yearOfEra + era * 400
  (if month ≤ 2 then year + 1 else year, month, ofYear - (153 * fromMarch + 2) / 5 + 1)

def yearText (year : Int) : String :=
  if 0 ≤ year ∧ year ≤ 9999 then padded 4 year.toNat
  else (if year < 0 then "-" else "+") ++ padded 6 year.natAbs

/-- `Date.prototype.toISOString`. -/
def toISOString (instant : Int) : String :=
  let (year, month, day) := civil (instant / 86400000)
  let ofDay := (instant % 86400000).toNat
  yearText year ++ "-" ++ padded 2 month ++ "-" ++ padded 2 day ++ "T" ++
    padded 2 (ofDay / 3600000) ++ ":" ++ padded 2 (ofDay / 60000 % 60) ++ ":" ++
    padded 2 (ofDay / 1000 % 60) ++ "." ++ padded 3 (ofDay % 1000) ++ "Z"

example : toISOString 1709251199999 = "2024-02-29T23:59:59.999Z" := by decide +kernel

/-! ### Reading the text back -/

/-- The day of a date, counted from the epoch. -/
def dayOf (year : Int) (month day : Nat) : Int :=
  let fromMarchYear := if month ≤ 2 then year - 1 else year
  let yearOfEra := (fromMarchYear % 400).toNat
  let fromMarch := if 2 < month then month - 3 else month + 9
  let ofYear := (153 * fromMarch + 2) / 5 + day - 1
  fromMarchYear / 400 * 146097 +
    (yearOfEra * 365 + yearOfEra / 4 - yearOfEra / 100 + ofYear : Nat) - 719468

/-- The instants of the years 0 to 9999. -/
def InFourDigits (instant : Int) : Prop :=
  -62167219200000 ≤ instant ∧ instant < 253402300800000

instance (instant : Int) : Decidable (InFourDigits instant) :=
  inferInstanceAs (Decidable (_ ∧ _))

/-- The year of an era that a day falls in starts no later than the day and less than 366 days
before it. -/
theorem yearOfEra_bounds {ofEra yearOfEra : Nat} (hEra : ofEra < 146097)
    (hYear : yearOfEra = (ofEra - ofEra / 1460 + ofEra / 36524 - ofEra / 146096) / 365) :
    yearOfEra < 400 ∧ 365 * yearOfEra + yearOfEra / 4 - yearOfEra / 100 ≤ ofEra ∧
      ofEra - (365 * yearOfEra + yearOfEra / 4 - yearOfEra / 100) < 366 := by
  have hLeap : yearOfEra / 4 ≤ ofEra / 1460 := by omega
  refine ⟨by omega, ?_, ?_⟩
  · have hCenturies : ofEra / 36524 - ofEra / 146096 ≤ yearOfEra / 100 := by omega
    omega
  · by_cases hLast : ofEra = 146096
    · -- the leap day that closes the era
      subst hLast hYear
      decide
    · have hNoEra : ofEra / 146096 = 0 := by omega
      have hCenturies : yearOfEra / 100 ≤ ofEra / 36524 := by omega
      have hNext : ofEra / 1460 ≤ yearOfEra / 4 + 1 := by omega
      omega

/-- The month of a day counted from March starts no later than the day. -/
theorem fromMarch_bounds {ofYear : Nat} (hYear : ofYear < 366) :
    (5 * ofYear + 2) / 153 ≤ 11 ∧ (153 * ((5 * ofYear + 2) / 153) + 2) / 5 ≤ ofYear ∧
      ofYear - (153 * ((5 * ofYear + 2) / 153) + 2) / 5 < 31 := by
  omega

/-- The day of the date of a day. -/
theorem dayOf_civil (day : Int) :
    dayOf (civil day).1 (civil day).2.1 (civil day).2.2 = day := by
  simp only [civil]
  generalize hOfEra : ((day + 719468) % 146097).toNat = ofEra
  generalize hEra : (day + 719468) / 146097 = era
  generalize hYear : (ofEra - ofEra / 1460 + ofEra / 36524 - ofEra / 146096) / 365 = yearOfEra
  obtain ⟨hYears, hStart, hDays⟩ := yearOfEra_bounds (by omega) hYear.symm
  generalize hOfYear : ofEra - (365 * yearOfEra + yearOfEra / 4 - yearOfEra / 100) = ofYear
  rw [hOfYear] at hDays
  obtain ⟨hMonth, hMonthStart, hDay⟩ := fromMarch_bounds hDays
  generalize hFromMarch : (5 * ofYear + 2) / 153 = fromMarch
  rw [hFromMarch] at hMonth hMonthStart hDay
  have hDayOf : era * 146097 + ofEra - 719468 = day := by omega
  clear hOfEra hEra hYear
  have hYearOfEra : ((yearOfEra + era * 400) % 400).toNat = yearOfEra ∧
      (yearOfEra + era * 400) / 400 = era := by
    omega
  by_cases hLate : fromMarch < 10
  · have hSecond : ¬ fromMarch + 3 ≤ 2 := by omega
    have hAfter : 2 < fromMarch + 3 := by omega
    simp only [if_pos hLate, if_neg hSecond, dayOf, if_pos hAfter, hYearOfEra]
    rw [Nat.add_sub_cancel]
    omega
  · have hSecond : fromMarch - 9 ≤ 2 := by omega
    have hAfter : ¬ 2 < fromMarch - 9 := by omega
    simp only [if_neg hLate, if_pos hSecond, dayOf, if_neg hAfter, Int.add_sub_cancel, hYearOfEra]
    have hBack : fromMarch - 9 + 9 = fromMarch := by omega
    rw [hBack]
    omega

/-- The date of a day is one of the years 0 to 9999 exactly when the day is. -/
theorem civil_year_iff (day : Int) :
    0 ≤ (civil day).1 ∧ (civil day).1 ≤ 9999 ↔ -719528 ≤ day ∧ day < 2932897 := by
  simp only [civil]
  generalize hOfEra : ((day + 719468) % 146097).toNat = ofEra
  generalize hEra : (day + 719468) / 146097 = era
  generalize hYear : (ofEra - ofEra / 1460 + ofEra / 36524 - ofEra / 146096) / 365 = yearOfEra
  obtain ⟨hYears, hStart, hDays⟩ := yearOfEra_bounds (by omega) hYear.symm
  generalize hOfYear : ofEra - (365 * yearOfEra + yearOfEra / 4 - yearOfEra / 100) = ofYear
  rw [hOfYear] at hDays
  -- January and February are the last months of a year counted from March
  have hLate : (if (if (5 * ofYear + 2) / 153 < 10 then (5 * ofYear + 2) / 153 + 3
      else (5 * ofYear + 2) / 153 - 9) ≤ 2 then (yearOfEra + era * 400 + 1 : Int)
        else yearOfEra + era * 400) =
      if ofYear < 306 then yearOfEra + era * 400 else yearOfEra + era * 400 + 1 := by
    split <;> split <;> split <;> omega
  rw [hLate]
  have hDay : era * 146097 + ofEra - 719468 = day := by omega
  clear hLate hOfEra hEra hYear
  have hMost : 365 * yearOfEra + yearOfEra / 4 - yearOfEra / 100 ≤ 145731 := by omega
  split <;> omega

theorem civil_month_bounds (day : Int) : (1 ≤ (civil day).2.1 ∧ (civil day).2.1 ≤ 12) ∧
    1 ≤ (civil day).2.2 ∧ (civil day).2.2 ≤ 31 := by
  simp only [civil]
  obtain ⟨_, _, hDays⟩ := @yearOfEra_bounds ((day + 719468) % 146097).toNat _ (by omega) rfl
  obtain ⟨hMonth, hStart, hDay⟩ := fromMarch_bounds hDays
  refine ⟨?_, by omega, by omega⟩
  split <;> omega

end Instant
