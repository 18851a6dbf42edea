import Mathlib.Data.Rat.Defs

/-! The numbers of the language, and the whole ones among them. -/

namespace Houndfe

/-- A number of the language: finite, or infinite or none. -/
inductive Number where
  | finite (value : ℚ)
  | notFinite
  deriving DecidableEq

/-- The value of a finite number. -/
def Number.value : Number → ℚ
  | .finite value => value
  | .notFinite => 0

/-- `Number.isInteger`, and the integer. -/
def Number.integer : Number → Option Int
  | .finite value => if value.den = 1 then some value.num else none
  | .notFinite => none

/-- `Number.isSafeInteger`, and the integer. -/
def Number.safeInteger : Number → Option Int
  | .finite value =>
      if value.den = 1 ∧ value.num.natAbs ≤ 9007199254740991 then some value.num else none
  | .notFinite => none

def Number.ofInt (whole : Int) : Number :=
  .finite whole

theorem safeInteger_eq_some {value : Number} {whole : Int} : value.safeInteger = some whole ↔
    whole.natAbs ≤ 9007199254740991 ∧ value = .ofInt whole := by
  cases value with
  | notFinite => simp [Number.safeInteger, Number.ofInt]
  | finite value =>
      simp only [Number.safeInteger, Number.ofInt, Option.ite_none_right_eq_some, Option.some.injEq,
        Number.finite.injEq]
      constructor
      · rintro ⟨⟨hWhole, hSafe⟩, rfl⟩
        exact ⟨hSafe, (Rat.den_eq_one_iff value).mp hWhole |>.symm⟩
      · rintro ⟨hSafe, rfl⟩
        exact ⟨⟨rfl, hSafe⟩, rfl⟩

end Houndfe
