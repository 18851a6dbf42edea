import Houndfe.Promotions.PromotionRequests
import Houndfe.Shared.Instant
import Mathlib.Data.Int.Init
import Mathlib.Order.Bounds.Defs
import Mathlib.Data.Int.Order.Basic

/-! Business days in a zone whose offset changes. A day is taken to start at its local midnight by
the offset of noon UTC and to last 24 hours, which is right exactly where that offset holds for all
of it. -/

namespace Houndfe.Promotions.BusinessDays

/-- The seconds east of UTC at every instant. Two changes are at least a day apart. -/
structure Zone where
  offset : Int → Int
  bounded : ∀ instant, -86400 < offset instant ∧ offset instant < 86400
  apart : ∀ change later, change < later → offset (change - 1) ≠ offset change →
    offset (later - 1) ≠ offset later → dayMs ≤ later - change

/-- The day of the local date, counted from the epoch. -/
def Zone.localDay (zone : Zone) (instant : Int) : Int :=
  (instant + zone.offset instant * 1000) / dayMs

/-- The first ten characters of the text are a date for the years of four digits alone. -/
def getUtcCalendarDate (input : Int) : Option (Int × Nat × Nat) :=
  if Instant.InFourDigits input then some (Instant.civil (input / dayMs)) else none

/-- `new Date(calendarDate + 'T12:00:00Z')`. -/
def probeInstant (date : Int × Nat × Nat) : Int :=
  Instant.dayOf date.1 date.2.1 date.2.2 * dayMs + 43200000

/-- An offset that has seconds, as in `GMT-06:36:36`, is not recognised. -/
def getZoneOffsetMinutes (zone : Zone) (date : Int × Nat × Nat) : Option Int :=
  if zone.offset (probeInstant date) % 60 = 0 then some (zone.offset (probeInstant date) / 60)
  else none

/-- `Date.UTC(year, month - 1, day)` takes the years 0 to 99 for those of the last century. -/
def dateUtc (date : Int × Nat × Nat) : Int :=
  Instant.dayOf (if 0 ≤ date.1 ∧ date.1 ≤ 99 then 1900 + date.1 else date.1) date.2.1 date.2.2 * dayMs

/-- `none` where an error is thrown or the date is invalid. -/
def startOfBusinessDay (zone : Zone) (input : Int) : Option Int := do
  let calendarDate ← getUtcCalendarDate input
  let offsetMinutes ← getZoneOffsetMinutes zone calendarDate
  return dateUtc calendarDate - offsetMinutes * 60 * 1000

def endOfBusinessDay (zone : Zone) (input : Int) : Option Int :=
  (startOfBusinessDay zone input).map (· + 86399999)

/-- Bounds that are not given pass through. -/
def normalizePromotionDateRange (zone : Zone) (startDate endDate : Option Int) :
    Option (Option Int × Option Int) := do
  let startDate ← startDate.elim (some none) fun input => (startOfBusinessDay zone input).map some
  let endDate ← endDate.elim (some none) fun input => (endOfBusinessDay zone input).map some
  return (startDate, endDate)

/-! ### What is asked of the bounds -/

/-- The bounds of the day of this input are the first and the last instant of its local date, the
next day follows them, and a promotion of this one day is in force on its local date alone. -/
structure Tiles (zone : Zone) (input start finish : Int) : Prop where
  first : IsLeast {instant | zone.localDay instant = input / dayMs} start
  last : IsGreatest {instant | zone.localDay instant = input / dayMs} finish
  next : startOfBusinessDay zone (input + dayMs) = some (finish + 1)
  within : ∀ instant, start ≤ instant ∧ instant ≤ finish ↔ zone.localDay instant = input / dayMs
  inForce : ∀ promo : Promotion, promo.manuallyEnded = false →
    normalizePromotionDateRange zone (some input) (some input) =
      some (promo.startDate, promo.endDate) →
    ∀ now, promo.getEffectiveStatus now = .active ↔ zone.localDay now = input / dayMs

/-- The business day of an input is its local day. -/
def Exact (zone : Zone) (input : Int) : Prop :=
  ∃ start finish, startOfBusinessDay zone input = some start ∧
    endOfBusinessDay zone input = some finish ∧ Tiles zone input start finish

/-- The offset at noon UTC of a day. -/
def noonOffset (zone : Zone) (day : Int) : Int :=
  zone.offset (day * dayMs + 43200000)

/-- The offset of noon UTC is one of whole minutes. It is the offset of the next noon, of the 24
hours from the local midnight that it gives, and of every instant of the local date. -/
structure Steady (zone : Zone) (day : Int) : Prop where
  minutes : noonOffset zone day % 60 = 0
  next : noonOffset zone (day + 1) = noonOffset zone day
  hours : ∀ instant, day * dayMs - noonOffset zone day * 1000 ≤ instant →
    instant < (day + 1) * dayMs - noonOffset zone day * 1000 →
      zone.offset instant = noonOffset zone day
  date : ∀ instant, zone.localDay instant = day → zone.offset instant = noonOffset zone day

/-- The day and the next one are of the years 100 to 9999. -/
def InCenturies (day : Int) : Prop :=
  -683003 ≤ day ∧ day + 1 < 2932897

/-! ### Offsets that change -/

section

variable {zone : Zone} {input day start early late : Int}

theorem Zone.localDay_eq {instant : Int} : zone.localDay instant = day ↔
    day * 86400000 ≤ instant + zone.offset instant * 1000 ∧
      instant + zone.offset instant * 1000 < day * 86400000 + 86400000 := by
  unfold Zone.localDay dayMs
  omega

/-- Between two instants of different offsets there is a change. -/
theorem Zone.exists_change (hLe : early ≤ late) (hNe : zone.offset early ≠ zone.offset late) :
    ∃ change, early < change ∧ change ≤ late ∧ zone.offset (change - 1) ≠ zone.offset change := by
  induction late, hLe using Int.leInduction with
  | base => exact absurd rfl hNe
  | succ late hLe ih =>
      by_cases hLast : zone.offset late = zone.offset (late + 1)
      · obtain ⟨change, hAfter, hBefore, hChange⟩ := ih (hLast ▸ hNe)
        exact ⟨change, hAfter, by omega, hChange⟩
      · exact ⟨late + 1, by omega, by omega, by simpa using hLast⟩

/-- Where one change falls, no other falls within a day. -/
theorem Zone.offset_eq {change : Int} (hChange : zone.offset (change - 1) ≠ zone.offset change)
    (hLe : early ≤ late) (hBeside : late < change ∧ change - dayMs < early + 1 ∨
      change ≤ early ∧ late < change + dayMs) : zone.offset early = zone.offset late := by
  by_contra hNe
  obtain ⟨other, hAfter, hBefore, hOther⟩ := zone.exists_change hLe hNe
  rcases hBeside with ⟨hLate, hEarly⟩ | ⟨hEarly, hLate⟩
  · have hApart := zone.apart other change (by omega) hOther hChange
    omega
  · have hApart := zone.apart change other (by omega) hChange hOther
    omega

/-- Where 24 hours are exactly the instants of a date, the offset does not change in them. -/
theorem Zone.steady {offset : Int} (hStart : start = day * 86400000 - offset * 1000)
    (hWithin : ∀ instant, start ≤ instant ∧ instant ≤ start + 86399999 ↔ zone.localDay instant = day)
    {instant : Int} (hFrom : start ≤ instant) (hTo : instant ≤ start + 86399999) :
    zone.offset instant = offset := by
  have hFirst := Zone.localDay_eq.mp ((hWithin start).mp ⟨by omega, by omega⟩)
  have hLast := Zone.localDay_eq.mp ((hWithin (start + 86399999)).mp ⟨by omega, by omega⟩)
  have hMs : dayMs = 86400000 := rfl
  rcases lt_trichotomy (zone.offset instant) offset with hLess | hSame | hMore
  · -- the day would go on after its end
    obtain ⟨change, hAfter, hBefore, hChange⟩ := zone.exists_change hFrom (by omega)
    have hSame : zone.offset instant = zone.offset (start + 86399999 + 1) :=
      zone.offset_eq hChange (by omega) (Or.inr ⟨hBefore, by omega⟩)
    have hLate : zone.offset (start + 86399999) = zone.offset (start + 86399999 + 1) :=
      zone.offset_eq hChange (by omega) (Or.inr ⟨by omega, by omega⟩)
    have hIn := (hWithin (start + 86399999 + 1)).mpr (Zone.localDay_eq.mpr (by omega))
    omega
  · exact hSame
  · -- the day would have begun before its start
    obtain ⟨change, hAfter, hBefore, hChange⟩ := zone.exists_change hTo (by omega)
    have hSame : zone.offset (start - 1) = zone.offset instant :=
      zone.offset_eq hChange (by omega) (Or.inl ⟨by omega, by omega⟩)
    have hEarly : zone.offset (start - 1) = zone.offset start :=
      zone.offset_eq hChange (by omega) (Or.inl ⟨by omega, by omega⟩)
    have hIn := (hWithin (start - 1)).mpr (Zone.localDay_eq.mpr (by omega))
    omega

/-! ### The days that have a start -/

/-- The year 100 begins 683003 days before the epoch, and 1900 less than 26334 days. -/
theorem dayOf_bounds {year : Int} {month ofMonth : Nat} (hYear : 0 ≤ year)
    (hMonth : 1 ≤ month ∧ month ≤ 12) (hDay : 1 ≤ ofMonth ∧ ofMonth ≤ 31) :
    (Instant.dayOf year month ofMonth < -683003 ↔ year ≤ 99) ∧
      (1900 ≤ year → -26333 ≤ Instant.dayOf year month ofMonth) := by
  simp only [Instant.dayOf]
  by_cases hEarly : month ≤ 2
  · have hLate : ¬ 2 < month := by omega
    have hDays : 306 ≤ (153 * (month + 9) + 2) / 5 ∧ (153 * (month + 9) + 2) / 5 ≤ 337 := by omega
    simp only [if_pos hEarly, if_neg hLate]
    have hEra : (year - 1) / 400 = -1 ∨ (year - 1) / 400 = 0 ∨ 1 ≤ (year - 1) / 400 := by omega
    rcases hEra with hEra | hEra | hEra <;> omega
  · have hLate : 2 < month := by omega
    have hDays : (153 * (month - 3) + 2) / 5 ≤ 275 := by omega
    simp only [if_neg hEarly, if_pos hLate]
    have hEra : year / 400 = 0 ∨ 1 ≤ year / 400 := by omega
    rcases hEra with hEra | hEra <;> omega

theorem nextDay (input : Int) : (input + dayMs) / dayMs = input / dayMs + 1 := by
  unfold dayMs
  omega

theorem inFourDigits_iff : Instant.InFourDigits input ↔
    -719528 ≤ input / dayMs ∧ input / dayMs < 2932897 := by
  unfold Instant.InFourDigits dayMs
  omega

/-- In the years 100 to 9999 the start is the midnight that the noon offset gives. -/
theorem startOfBusinessDay_eq (hLow : -683003 ≤ input / dayMs) (hHigh : input / dayMs < 2932897) :
    startOfBusinessDay zone input = if noonOffset zone (input / dayMs) % 60 = 0 then
      some (input / dayMs * 86400000 - noonOffset zone (input / dayMs) * 1000) else none := by
  obtain ⟨hYear, _⟩ := (Instant.civil_year_iff _).mpr ⟨by omega, hHigh⟩
  obtain ⟨hMonth, hDay⟩ := Instant.civil_month_bounds (input / dayMs)
  have hBack := Instant.dayOf_civil (input / dayMs)
  have hLate : ¬ (0 ≤ (Instant.civil (input / dayMs)).1 ∧ (Instant.civil (input / dayMs)).1 ≤ 99) := by
    intro hEarly
    have hBefore := (dayOf_bounds hYear hMonth hDay).1.mpr hEarly.2
    omega
  have hProbe : zone.offset (probeInstant (Instant.civil (input / dayMs))) =
      noonOffset zone (input / dayMs) := by
    rw [probeInstant, hBack, noonOffset]
  have hMs : dayMs = 86400000 := rfl
  simp only [startOfBusinessDay, getUtcCalendarDate,
    if_pos (inFourDigits_iff.mpr ⟨by omega, hHigh⟩), Option.bind_eq_bind, Option.bind_some,
    getZoneOffsetMinutes, hProbe, dateUtc, if_neg hLate, hBack]
  split
  · next hMinutes =>
      generalize noonOffset zone (input / dayMs) = offset at hMinutes ⊢
      simp only [Option.bind_some, pure, Option.some.injEq, hMs]
      omega
  · rfl

/-- The bounds of a day are of its local date only from the year 100 on. -/
theorem Exact.inCenturies (h : Exact zone input) : InCenturies (input / dayMs) := by
  obtain ⟨start, finish, hStart, hFinish, hTiles⟩ := h
  have hDigits : ∀ {other day}, startOfBusinessDay zone other = some day →
      -719528 ≤ other / dayMs ∧ other / dayMs < 2932897 := by
    intro other day hSome
    rw [← inFourDigits_iff]
    by_contra hNot
    simp [startOfBusinessDay, getUtcCalendarDate, if_neg hNot] at hSome
  have hDay := hDigits hStart
  have hNext := hDigits hTiles.next
  rw [nextDay] at hNext
  refine ⟨?_, by omega⟩
  by_contra hEarly
  obtain ⟨hYear, _⟩ := (Instant.civil_year_iff _).mpr hDay
  obtain ⟨hMonth, hOfMonth⟩ := Instant.civil_month_bounds (input / dayMs)
  have hBack := Instant.dayOf_civil (input / dayMs)
  have hFirst : (Instant.civil (input / dayMs)).1 ≤ 99 :=
    (dayOf_bounds hYear hMonth hOfMonth).1.mp (by omega)
  have hLate := (dayOf_bounds (by omega : 0 ≤ 1900 + (Instant.civil (input / dayMs)).1) hMonth
    hOfMonth).2 (by omega)
  have hLocal := Zone.localDay_eq.mp hTiles.first.1
  have hBounded := zone.bounded start
  simp only [startOfBusinessDay, getUtcCalendarDate, if_pos (inFourDigits_iff.mpr hDay),
    Option.bind_eq_bind, Option.bind_some, Option.bind_eq_some_iff, pure, Option.some.injEq,
    getZoneOffsetMinutes, Option.ite_none_right_eq_some, dateUtc, if_pos (And.intro hYear hFirst)]
    at hStart
  obtain ⟨minutes, ⟨_, rfl⟩, rfl⟩ := hStart
  have hProbe := zone.bounded (probeInstant (Instant.civil (input / dayMs)))
  generalize Instant.dayOf (1900 + _) _ _ = date at hLate hLocal hBounded
  generalize input / dayMs = day at hEarly hLocal hBounded hProbe
  have hMs : dayMs = 86400000 := rfl
  rw [hMs] at hLocal hBounded
  omega

theorem Exact.steady (h : Exact zone input) : Steady zone (input / dayMs) := by
  obtain ⟨hLow, hHigh⟩ := h.inCenturies
  obtain ⟨start, finish, hStart, hFinish, hTiles⟩ := h
  have hNext := hTiles.next
  rw [startOfBusinessDay_eq (by rw [nextDay]; omega) (by rw [nextDay]; omega), nextDay,
    Option.ite_none_right_eq_some, Option.some.injEq] at hNext
  rw [endOfBusinessDay, hStart, Option.map_some, Option.some.injEq] at hFinish
  rw [startOfBusinessDay_eq hLow (by omega), Option.ite_none_right_eq_some, Option.some.injEq]
    at hStart
  obtain ⟨hMinutes, rfl⟩ := hStart
  subst hFinish
  have hHours := fun (instant : Int) hFrom hTo =>
    Zone.steady rfl hTiles.within (hFrom : _ ≤ instant) hTo
  constructor
  · exact hMinutes
  · omega
  · intro instant hFrom hTo
    have hMs : dayMs = 86400000 := rfl
    generalize input / dayMs = day at hFrom hTo hHours ⊢
    rw [hMs] at hFrom hTo
    exact hHours instant hFrom (by omega)
  · intro instant hLocal
    obtain ⟨hFrom, hTo⟩ := (hTiles.within instant).mpr hLocal
    exact hHours instant hFrom hTo

theorem Steady.exact (h : Steady zone (input / dayMs)) (hYears : InCenturies (input / dayMs)) :
    Exact zone input := by
  obtain ⟨hLow, hHigh⟩ := hYears
  have hStart := @startOfBusinessDay_eq zone input hLow (by omega)
  rw [if_pos h.minutes] at hStart
  have hNext : startOfBusinessDay zone (input + dayMs) = some ((input / dayMs + 1) * 86400000 -
      noonOffset zone (input / dayMs) * 1000) := by
    rw [startOfBusinessDay_eq (by rw [nextDay]; omega) (by rw [nextDay]; omega), nextDay, h.next,
      if_pos h.minutes]
  have hHours := h.hours
  have hDate := h.date
  generalize hOffset : noonOffset zone (input / dayMs) = offset at hStart hNext hHours hDate
  generalize hDay : input / dayMs = day at hStart hNext hHours hDate
  have hMs : dayMs = 86400000 := rfl
  rw [hMs] at hHours
  have hWithin : ∀ instant, day * 86400000 - offset * 1000 ≤ instant ∧
      instant ≤ day * 86400000 - offset * 1000 + 86399999 ↔ zone.localDay instant = day := by
    intro instant
    constructor
    · rintro ⟨hFrom, hTo⟩
      have hSame := hHours instant hFrom (by omega)
      rw [Zone.localDay_eq, hSame]
      omega
    · intro hLocal
      have hSame := hDate instant hLocal
      rw [Zone.localDay_eq, hSame] at hLocal
      omega
  have hFinish : endOfBusinessDay zone input =
      some (day * 86400000 - offset * 1000 + 86399999) := by
    rw [endOfBusinessDay, hStart, Option.map_some]
  refine ⟨_, _, hStart, hFinish, ?_⟩
  constructor
  · rw [hDay]
    exact ⟨(hWithin _).mp (by omega), fun instant hLocal => ((hWithin instant).mpr hLocal).1⟩
  · rw [hDay]
    exact ⟨(hWithin _).mp (by omega), fun instant hLocal => ((hWithin instant).mpr hLocal).2⟩
  · rw [hNext, Option.some.injEq]
    omega
  · rw [hDay]
    exact hWithin
  · intro promo hOpen hDates now
    simp only [normalizePromotionDateRange, Option.elim, hStart, hFinish, Option.map_some,
      Option.bind_eq_bind, Option.bind_some, pure, Option.some.injEq, Prod.mk.injEq] at hDates
    obtain ⟨hStartDate, hEndDate⟩ := hDates
    rw [hDay, ← hWithin now]
    simp only [Promotion.getEffectiveStatus, hOpen, ← hStartDate, ← hEndDate, Option.mem_def,
      Option.some.injEq, exists_eq_left']
    grind

end

/-- The business day of an input is its local day exactly in the years 100 to 9999 and where the
noon offset holds for the whole day. -/
theorem business_days (zone : Zone) (input : Int) : Exact zone input ↔
    InCenturies (input / dayMs) ∧ Steady zone (input / dayMs) :=
  ⟨fun h => ⟨h.inCenturies, h.steady⟩, fun ⟨hYears, hSteady⟩ => hSteady.exact hYears⟩

/-! ### A day on which clocks go forward -/

/-- UTC-5 until the eighth of March 2026 at two in the morning, UTC-4 from then on. -/
def newYork : Zone where
  offset instant := if instant < 1772953200000 then -18000 else -14400
  bounded instant := by split <;> omega
  apart change later hLess hChange hLater := by
    split at hChange <;> split at hChange <;> split at hLater <;> split at hLater <;> omega

/-- That day is taken to start an hour before its midnight. -/
theorem not_exact_newYork : ¬ Exact newYork 1772928000000 := by
  rintro ⟨start, finish, hStart, hFinish, hTiles⟩
  have hFirst := hTiles.first.1
  have hBegin : startOfBusinessDay newYork 1772928000000 = some 1772942400000 := by decide +kernel
  rw [hBegin, Option.some.injEq] at hStart
  rw [← hStart] at hFirst
  have hBefore : newYork.localDay 1772942400000 ≠ 1772928000000 / dayMs := by decide +kernel
  exact hBefore hFirst

end Houndfe.Promotions.BusinessDays
