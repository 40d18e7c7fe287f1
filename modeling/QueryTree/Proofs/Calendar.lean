import Mathlib.Algebra.Order.BigOperators.Group.List
import QueryTree.Moment.Basic

/-!
# The calendar counts days

Day numbers and dates of the civil calendar are inverse to each other, and so are moments and what
calendar and clock show of them.

* `Cycles`              : a day number taken apart into cycles of years
* `CivilDate.locate_spec` : the month of a day of the year
* `CivilDate.toDay_ofDay`, `CivilDate.isValid_ofDay`
* `CivilTime.toMoment?_civil` : what calendar and clock show at a moment names the moment
-/

namespace QueryTree

-- The sums of the model.
attribute [local instance (high)] Zero.ofOfNat0

/-! ## Months -/

/-- The month that a day of the year is located in lies behind the months before it, and is long
    enough for the day of the month. -/
theorem CivilDate.locate_spec {month : Nat} {lengths : List Nat} {day : Nat}
    (inside : day < lengths.sum) :
    ∃ i d, locate month lengths day = (month + i, d + 1) ∧ (lengths.take i).sum + d = day ∧
      i < lengths.length ∧ d < lengths.getD i 0 := by
  -- along the months: each that is passed over takes its length from the day
  induction lengths generalizing month day with
  | nil => simp at inside
  | cons length rest ih =>
    rw [List.sum_cons] at inside
    rw [locate]
    split
    · next here => exact ⟨0, day, rfl, by simp, by simp, by simpa using here⟩
    · next later =>
      have below : day - length < rest.sum := by omega
      obtain ⟨i, d, found, sum, bound, long⟩ := ih below
      refine ⟨i + 1, d, ?_, ?_, by simpa using bound, by simpa using long⟩
      · rw [found, Nat.add_right_comm, Nat.add_assoc]
      · rw [List.take_succ_cons, List.sum_cons]
        omega

theorem sum_monthLengths (leap : Bool) : (monthLengths leap).sum = if leap then 366 else 365 := by
  cases leap <;> rfl

/-! ## Years -/

/-- A day number taken apart: cycles of 400 years, centuries, cycles of four years, years, and a
    day of the year. -/
structure Cycles (day : Nat) where
  era : Nat
  century : Nat
  four : Nat
  year : Nat
  rest : Nat
  few : century ≤ 3 ∧ four ≤ 24 ∧ year ≤ 3
  sum : 146097 * era + 36524 * century + 1461 * four + 365 * year + rest = day
  -- the last year of a cycle of four is a day longer, unless it ends a century that does not end
  -- a cycle of 400 years
  short : rest < 365 ∨ rest = 365 ∧ year = 3 ∧ (four ≠ 24 ∨ century = 3)

namespace Cycles

def ofDay (day : Nat) : Cycles day :=
  let inCycle := day % 146097
  let century := min (inCycle / 36524) 3
  let inCentury := inCycle - century * 36524
  let inFour := inCentury % 1461
  let year := min (inFour / 365) 3
  { era := day / 146097
    century := century
    four := inCentury / 1461
    year := year
    rest := inFour - year * 365
    few := by omega
    sum := by omega
    short := by omega }

variable {day : Nat}

def civilYear (c : Cycles day) : Nat :=
  c.era * 400 + c.century * 100 + c.four * 4 + c.year + 1

theorem daysBeforeYear_civilYear (c : Cycles day) :
    daysBeforeYear c.civilYear + c.rest = day := by
  obtain ⟨hundred, five, four⟩ := c.few
  have sum := c.sum
  -- the leap days before the year, by the three divisions of the count
  have quarters : (c.civilYear - 1) / 4 = 100 * c.era + 25 * c.century + c.four := by
    unfold civilYear
    omega
  have centuries : (c.civilYear - 1) / 100 = 4 * c.era + c.century := by
    unfold civilYear
    omega
  have eras : (c.civilYear - 1) / 400 = c.era := by
    unfold civilYear
    omega
  unfold daysBeforeYear
  simp only [quarters, centuries, eras]
  unfold civilYear
  omega

theorem isLeap_civilYear (c : Cycles day) :
    isLeap c.civilYear = true ↔ c.year = 3 ∧ (c.four ≠ 24 ∨ c.century = 3) := by
  obtain ⟨hundred, five, four⟩ := c.few
  simp only [isLeap, Bool.and_eq_true, Bool.or_eq_true, beq_iff_eq, bne_iff_ne]
  unfold civilYear
  omega

theorem rest_lt (c : Cycles day) : c.rest < (monthLengths (isLeap c.civilYear)).sum := by
  have short := c.short
  rw [sum_monthLengths]
  split
  · omega
  · next common =>
    rw [isLeap_civilYear] at common
    omega

end Cycles

/-! ## Dates -/

namespace CivilDate

theorem ofDay_eq (day : Nat) :
    ∃ (c : Cycles day) (i d : Nat), ofDay day = ⟨c.civilYear, i + 1, d + 1⟩ ∧
      ((monthLengths (isLeap c.civilYear)).take i).sum + d = c.rest ∧ i < 12 ∧
        d < (monthLengths (isLeap c.civilYear)).getD i 0 := by
  -- the cycles give the year and the day of the year, the months the rest
  let c := Cycles.ofDay day
  obtain ⟨i, d, found, sum, bound, long⟩ : ∃ i d,
      locate 1 (monthLengths (isLeap c.civilYear)) c.rest = (1 + i, d + 1) ∧ _ :=
    locate_spec c.rest_lt
  refine ⟨c, i, d, ?_, sum, bound, long⟩
  have unfolded : ofDay day = ⟨c.civilYear, (locate 1 (monthLengths (isLeap c.civilYear)) c.rest).1,
      (locate 1 (monthLengths (isLeap c.civilYear)) c.rest).2⟩ := rfl
  rw [unfolded, found, Nat.add_comm 1 i]

theorem toDay_ofDay (day : Nat) : (ofDay day).toDay = day := by
  obtain ⟨c, i, d, found, sum, -, -⟩ := ofDay_eq day
  rw [found, toDay, daysBeforeMonth, Nat.add_sub_cancel, Nat.add_sub_cancel, Nat.add_assoc, sum]
  exact c.daysBeforeYear_civilYear

/-- Every day before the end of the year 9999 has a date of the calendar. -/
theorem isValid_ofDay {day : Nat} (inside : day < calendarDays) : (ofDay day).isValid = true := by
  obtain ⟨c, i, d, found, -, month, long⟩ := ofDay_eq day
  have few := c.few
  have sum := c.sum
  have year : c.civilYear ≤ 9999 := by
    unfold calendarDays at inside
    unfold Cycles.civilYear
    omega
  have first : 1 ≤ c.civilYear := by
    unfold Cycles.civilYear
    omega
  rw [found]
  simp only [isValid, Nat.add_sub_cancel, Bool.and_eq_true, decide_eq_true_eq]
  omega

end CivilDate

/-! ## Moments -/

theorem Moment.ofMicros?_micros (m : Moment) : ofMicros? m.micros = some m := by
  have inside := m.inCalendar
  have shown : 0 ≤ (m.micros : Int) ∧ (m.micros : Int) < (calendarDays * microsPerDay : Nat) := by
    omega
  unfold ofMicros?
  rw [dif_pos shown]
  rfl

theorem DateTime.utc?_ofUtc (m : Moment) : (ofUtc m).utc? = some m := by
  show Moment.ofMicros? ((m.micros : Int) - 0) = some m
  rw [Int.sub_zero]
  exact m.ofMicros?_micros

theorem Moment.isValid_civil (m : Moment) : m.civil.isValid = true := by
  have inside := m.inCalendar
  have date : m.civil.date.isValid = true := by
    refine CivilDate.isValid_ofDay ?_
    rw [Nat.div_lt_iff_lt_mul (by decide)]
    exact inside
  simp only [CivilTime.isValid, date, Bool.true_and, Bool.and_eq_true, decide_eq_true_eq]
  simp only [Moment.civil, microsPerDay]
  omega

theorem Moment.toMicros_civil (m : Moment) : m.civil.toMicros = m.micros := by
  simp only [CivilTime.toMicros, Moment.civil, CivilDate.toDay_ofDay, microsPerDay]
  omega

/-- What calendar and clock show at a moment names the moment. -/
theorem CivilTime.toMoment?_civil (m : Moment) : toMoment? m.civil = some m := by
  rw [toMoment?, if_pos m.isValid_civil, Moment.toMicros_civil]
  exact m.ofMicros?_micros

end QueryTree
