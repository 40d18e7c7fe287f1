import QueryTree.Proofs.MomentOrder
import QueryTree.Proofs.Rendering

/-!
# Dates read back

The text of a date in a query is read as the moment of the date with the places of the second
beyond the millisecond cut off, and that moment has the same text: cutting a second time takes
nothing away.

* `Moment.toMillis`, `Moment.civil_toMillis` : moments in whole milliseconds
* `Moment.read_queryText`, `Moment.queryText_toMillis` : reading and writing again
* `Value.readMoment_dateText` : date-like values, their text between blanks
-/

namespace QueryTree

/-! ## Moments -/

/-- A moment without the places of the second below the millisecond. -/
def Moment.toMillis (m : Moment) : Moment :=
  ⟨m.micros / 1000 * 1000, Nat.lt_of_le_of_lt (Nat.div_mul_le_self _ _) m.inCalendar⟩

theorem Moment.civil_toMillis (m : Moment) :
    m.toMillis.civil = { m.civil with micro := m.civil.micro / 1000 * 1000 } := by
  have day : m.micros / 1000 * 1000 / microsPerDay = m.micros / microsPerDay := by
    unfold microsPerDay
    omega
  have hour : m.micros / 1000 * 1000 % microsPerDay / 3600000000 =
      m.micros % microsPerDay / 3600000000 := by
    unfold microsPerDay
    omega
  have minute : m.micros / 1000 * 1000 % microsPerDay / 60000000 % 60 =
      m.micros % microsPerDay / 60000000 % 60 := by
    unfold microsPerDay
    omega
  have second : m.micros / 1000 * 1000 % microsPerDay / 1000000 % 60 =
      m.micros % microsPerDay / 1000000 % 60 := by
    unfold microsPerDay
    omega
  have micro : m.micros / 1000 * 1000 % microsPerDay % 1000000 =
      m.micros % microsPerDay % 1000000 / 1000 * 1000 := by
    unfold microsPerDay
    omega
  simp only [civil, toMillis, day, hour, minute, second, micro]

/-- The text of a moment in a query is read as the moment in whole milliseconds. -/
theorem Moment.read_queryText (m : Moment) {before after : List Char}
    (blank : ∀ c ∈ before, Text.isBlank c = true) (blank' : ∀ c ∈ after, Text.isBlank c = true) :
    Moment.read (before ++ m.queryText ++ after) = .ok m.toMillis := by
  have fits := CivilTime.fits_of_isValid m.isValid_civil
  have small : m.civil.micro / 1000 < 10 ^ 3 := by
    have := fits.micro
    omega
  have behind := FractionText.places (by decide) (by decide) small
  exact read_momentText fits behind m.civil_toMillis blank blank'

theorem Moment.queryText_toMillis (m : Moment) : m.toMillis.queryText = m.queryText :=
  queryText_congr (Nat.mul_div_cancel _ (by decide))

/-! ## Date-like values -/

/-- The text of a date-like value of the calendar is read, whatever blanks stand around it, as the
    moment of the value in whole milliseconds, which has the same text. -/
theorem Value.readMoment_dateText {v : Value} {i : Int} (named : v.instant? = some i)
    (inside : InCalendar i) :
    ∃ (u m : Moment) (text : List Char), v.moment? = .ok u ∧ (u.micros : Int) = i ∧
      (m.micros : Int) = i / 1000 * 1000 ∧
      m.civil = { u.civil with micro := u.civil.micro / 1000 * 1000 } ∧
      v.dateText = .ok text ∧
      (∀ before after, (∀ c ∈ before, Text.isBlank c = true) →
        (∀ c ∈ after, Text.isBlank c = true) →
        (Value.str (String.ofList (before ++ text ++ after))).readMoment = .ok m) ∧
      (Value.ofMoment m).dateText = .ok text := by
  obtain ⟨u, moment, micros⟩ := moment?_of_instant named inside
  refine ⟨u, u.toMillis, u.queryText, moment, micros, ?_, u.civil_toMillis, ?_, ?_, ?_⟩
  · rw [← micros]
    rfl
  · rw [dateText, moment]
    rfl
  · intro before after blank blank'
    have read := Moment.read_queryText u blank blank'
    rw [readMoment, text?]
    simp only [String.toList_ofList, read]
  · rw [Moment.dateText_ofMoment, Moment.queryText_toMillis]

/-- The last but one microsecond of the first day of the calendar, on a clock that is fourteen hours
    ahead of UTC. -/
def secondDayAhead : Value :=
  .dateTime ⟨⟨1 * microsPerDay + 50399999998, by decide⟩, some 50400000000⟩

theorem readMoment_secondDayAhead :
    secondDayAhead.instant? = some 86399999998 ∧ ∃ (m : Moment) (text : List Char),
      secondDayAhead.dateText = .ok text ∧ (m.micros : Int) = 86399999000 ∧
      (Value.str (String.ofList ([' ', '\u3000'] ++ text ++ ['\n']))).readMoment = .ok m ∧
      (Value.ofMoment m).dateText = .ok text := by
  have named : secondDayAhead.instant? = some 86399999998 := by decide +kernel
  have inside : InCalendar 86399999998 := by unfold InCalendar; decide
  obtain ⟨u, m, text, -, -, micros, -, written, read, again⟩ :=
    Value.readMoment_dateText named inside
  exact ⟨named, m, text, written, micros,
    read [' ', '\u3000'] ['\n'] (List.all_eq_true.1 rfl) (List.all_eq_true.1 rfl), again⟩

end QueryTree
