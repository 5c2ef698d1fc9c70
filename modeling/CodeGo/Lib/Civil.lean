import Mathlib.Tactic.Common

/-!
# Days and months of the Gregorian calendar

Days are counted from 1 January 1970, months from March of the year 0, so that the day which
leap years add is the last of its twelve months.
-/

namespace CodeGo.Lib.Civil

/-- The days from 1 March of the year 0 to 1 March of the year `y`. -/
def yearStart (y : Int) : Int := 365 * y + y / 4 - y / 100 + y / 400

/-- The first day of a month. -/
def monthStart (k : Int) : Int := yearStart (k / 12) + (153 * (k % 12) + 2) / 5 - 719468

/-- The year, from March to February, of a day after 1 March of the year 0: cycles of 400 years,
centuries, cycles of four years and years are taken away in turn. -/
def yearOf (z : Int) : Int :=
  let era := z / 146097
  let ofEra := z % 146097
  let century := min (ofEra / 36524) 3
  let ofCentury := ofEra - 36524 * century
  let cycle := ofCentury / 1461
  let ofCycle := ofCentury - 1461 * cycle
  400 * era + 100 * century + 4 * cycle + min (ofCycle / 365) 3

/-- The month of a day. -/
def monthIndex (day : Int) : Int :=
  let z := day + 719468
  let y := yearOf z
  12 * y + (5 * (z - yearStart y) + 2) / 153

theorem yearStart_split {era century cycle r : Int} (hc : 0 ≤ century ∧ century ≤ 3)
    (hq : 0 ≤ cycle ∧ cycle ≤ 24) (hr : 0 ≤ r ∧ r ≤ 3) :
    yearStart (400 * era + 100 * century + 4 * cycle + r) =
      146097 * era + 36524 * century + 1461 * cycle + 365 * r := by
  have h4 : (400 * era + 100 * century + 4 * cycle + r) / 4 =
      100 * era + 25 * century + cycle := by omega
  have h100 : (400 * era + 100 * century + 4 * cycle + r) / 100 = 4 * era + century := by omega
  have h400 : (400 * era + 100 * century + 4 * cycle + r) / 400 = era := by omega
  unfold yearStart
  rw [h4, h100, h400]
  omega

/-- The length of a year: the next year is a leap year or not. -/
theorem yearStart_succ (y : Int) :
    yearStart (y + 1) = yearStart y +
      if (y + 1) % 4 = 0 ∧ ((y + 1) % 100 ≠ 0 ∨ (y + 1) % 400 = 0) then 366 else 365 := by
  unfold yearStart
  split <;> omega

/-- What the four divisions leave: less than a year, or the leap day at the end of a cycle. -/
theorem yearOf_split (z : Int) : ∃ era century cycle r,
    yearOf z = 400 * era + 100 * century + 4 * cycle + r ∧
      (0 ≤ century ∧ century ≤ 3) ∧ (0 ≤ cycle ∧ cycle ≤ 24) ∧ (0 ≤ r ∧ r ≤ 3) ∧
      146097 * era + 36524 * century + 1461 * cycle + 365 * r ≤ z ∧
      (z < 146097 * era + 36524 * century + 1461 * cycle + 365 * r + 365 ∨
        r = 3 ∧ (cycle = 24 → century = 3) ∧
          z = 146097 * era + 36524 * century + 1461 * cycle + 365 * r + 365) := by
  refine ⟨_, _, _, _, rfl, ?_, ?_, ?_, ?_, ?_⟩ <;> omega

theorem yearOf_spec (z : Int) : yearStart (yearOf z) ≤ z ∧ z < yearStart (yearOf z + 1) := by
  obtain ⟨era, century, cycle, r, hyear, hc, hq, hr, hlow, hhigh⟩ := yearOf_split z
  rw [yearStart_succ, hyear, yearStart_split hc hq hr]
  refine ⟨hlow, ?_⟩
  split <;> omega

/-- A day lies within its month. -/
theorem monthIndex_spec (day : Int) :
    monthStart (monthIndex day) ≤ day ∧ day < monthStart (monthIndex day + 1) := by
  obtain ⟨hlow, hhigh⟩ := yearOf_spec (day + 719468)
  have hlength := yearStart_succ (yearOf (day + 719468))
  unfold monthIndex monthStart
  dsimp only
  generalize yearOf (day + 719468) = y at hlow hhigh hlength ⊢
  have hdoy : 0 ≤ day + 719468 - yearStart y ∧ day + 719468 - yearStart y ≤ 365 := by
    split at hlength <;> omega
  obtain ⟨doy, hdoy'⟩ : ∃ d, d = day + 719468 - yearStart y := ⟨_, rfl⟩
  rw [← hdoy'] at hdoy ⊢
  have hmonth : 0 ≤ (5 * doy + 2) / 153 ∧ (5 * doy + 2) / 153 ≤ 11 := by omega
  have hdiv : (12 * y + (5 * doy + 2) / 153) / 12 = y := by omega
  have hmod : (12 * y + (5 * doy + 2) / 153) % 12 = (5 * doy + 2) / 153 := by omega
  rw [hdiv, hmod]
  refine ⟨by omega, ?_⟩
  by_cases hlast : (5 * doy + 2) / 153 = 11
  · -- February ends with the year
    have hdiv' : (12 * y + (5 * doy + 2) / 153 + 1) / 12 = y + 1 := by omega
    have hmod' : (12 * y + (5 * doy + 2) / 153 + 1) % 12 = 0 := by omega
    rw [hdiv', hmod']
    omega
  · have hdiv' : (12 * y + (5 * doy + 2) / 153 + 1) / 12 = y := by omega
    have hmod' : (12 * y + (5 * doy + 2) / 153 + 1) % 12 = (5 * doy + 2) / 153 + 1 := by omega
    rw [hdiv', hmod']
    omega

example : monthStart (12 * 1969 + 10) = 0 := by decide

end CodeGo.Lib.Civil
