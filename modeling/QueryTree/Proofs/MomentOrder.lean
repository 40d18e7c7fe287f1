import QueryTree.Proofs.MomentText
import QueryTree.Query

/-!
# Dates in order

The texts of dates in queries stand in the order of the instants that they name, counted in whole
milliseconds: year, month, day and the parts of the time of day are written one after the other,
each with a fixed number of digits.

* `PartsBelow`       : texts that part where the first has the smaller character
* `padded_partsBelow`, `padded_append_partsBelow` : numerals of a fixed width
* `CivilDate.Before`, `CivilDate.before_ofDay` : dates of the calendar in the order of days
* `Moment.queryText_partsBelow`, `Moment.queryText_congr` : the texts of moments
* `Value.instant?`, `InCalendar` : the instant that a date-like value names
* `Value.dateText_lt_iff` : the order of texts is the order of instants
-/

namespace QueryTree

-- The sums and powers of the model.
attribute [local instance (high)] Zero.ofOfNat0 instPowNat

/-! ## Texts that part -/

/-- Two texts are the same up to a place where the first has the smaller character. -/
inductive PartsBelow : List Char → List Char → Prop where
  | here {c d : Char} {s t : List Char} : c < d → PartsBelow (c :: s) (d :: t)
  | later {c : Char} {s t : List Char} : PartsBelow s t → PartsBelow (c :: s) (c :: t)

namespace PartsBelow

variable {s t : List Char}

/-- What follows does not count. -/
theorem append (parts : PartsBelow s t) (u v : List Char) : PartsBelow (s ++ u) (t ++ v) := by
  induction parts with
  | here less => exact .here less
  | later _ ih => exact .later ih

theorem behind (parts : PartsBelow s t) (front : List Char) :
    PartsBelow (front ++ s) (front ++ t) := by
  induction front with
  | nil => exact parts
  | cons c front ih => exact .later ih

theorem lt (parts : PartsBelow s t) : s < t := by
  induction parts with
  | here less => exact .rel less
  | later _ ih => exact .cons ih

end PartsBelow

/-! ## Numerals of a fixed width -/

theorem digitChar_lt {d e : Nat} (less : d < e) (small : e < 10) :
    Text.digitChar d < Text.digitChar e := by
  have all : ∀ e < 10, ∀ d < e, Text.digitChar d < Text.digitChar e := by decide
  exact all e small d less

/-- Of two numerals of one length, the one of the smaller number has the smaller digit where they
    part. -/
theorem digits_partsBelow {ds es : List Nat} (length : ds.length = es.length)
    (small : ∀ e ∈ es, e < 10) (less : Text.ofDigits ds < Text.ofDigits es) :
    PartsBelow (ds.map Text.digitChar) (es.map Text.digitChar) := by
  induction ds generalizing es with
  | nil =>
    rw [List.eq_nil_of_length_eq_zero length.symm] at less
    exact absurd less (Nat.lt_irrefl _)
  | cons d ds ih =>
    cases es with
    | nil => cases length
    | cons e es =>
      have shorter : ds.length = es.length := Nat.succ.inj length
      have below := ofDigits_lt fun f member => small f (.tail _ member)
      have first (d : Nat) : Text.ofDigits [d] = d := by simp [Text.ofDigits]
      rw [← List.singleton_append, ← List.singleton_append (l := es), ofDigits_append,
        ofDigits_append, shorter, first, first] at less
      rcases Nat.lt_trichotomy d e with smaller | rfl | greater
      · exact .here (digitChar_lt smaller (small e (.head _)))
      · refine .later (ih shorter (fun f member => small f (.tail _ member)) ?_)
        exact Nat.lt_of_add_lt_add_left less
      · -- a greater first digit outweighs all others
        have outweighs : (e + 1) * 10 ^ es.length ≤ d * 10 ^ es.length :=
          Nat.mul_le_mul_right _ greater
        rw [Nat.succ_mul] at outweighs
        omega

theorem padded_partsBelow {width m n : Nat} (less : m < n) (fits : n < 10 ^ width)
    (some : 0 < width) : PartsBelow (Text.padded width m) (Text.padded width n) := by
  rw [padded_eq, padded_eq]
  refine digits_partsBelow ?_ (fun _ => lt_of_mem_paddedDigits) ?_
  · rw [length_paddedDigits (Nat.lt_trans less fits) some, length_paddedDigits fits some]
  · rwa [ofDigits_paddedDigits, ofDigits_paddedDigits]

/-- A numeral decides, unless it is the same on both sides. -/
theorem padded_append_partsBelow {width m n : Nat} {s t : List Char} (fits : n < 10 ^ width)
    (some : 0 < width) (order : m < n ∨ m = n ∧ PartsBelow s t) :
    PartsBelow (Text.padded width m ++ s) (Text.padded width n ++ t) := by
  rcases order with less | ⟨rfl, rest⟩
  · exact (padded_partsBelow less fits some).append _ _
  · exact rest.behind _

/-! ## Dates -/

/-- A year goes on for the days of its months. -/
theorem daysBeforeYear_succ {y : Nat} (first : 1 ≤ y) :
    daysBeforeYear (y + 1) = daysBeforeYear y + (monthLengths (isLeap y)).sum := by
  obtain ⟨k, rfl⟩ : ∃ k, y = k + 1 := ⟨y - 1, by omega⟩
  have leap : isLeap (k + 1) = true ↔ 4 ∣ k + 1 ∧ (¬ 100 ∣ k + 1 ∨ 400 ∣ k + 1) := by
    simp [isLeap, Nat.dvd_iff_mod_eq_zero]
  rw [sum_monthLengths, daysBeforeYear, daysBeforeYear, Nat.add_sub_cancel, Nat.add_sub_cancel,
    Nat.succ_div (b := 4), Nat.succ_div (b := 100), Nat.succ_div (b := 400), if_congr leap rfl rfl]
  have fewer : k / 100 ≤ k / 4 := Nat.div_le_div_left (by decide) (by decide)
  -- a multiple of 400 is one of 100, and that is one of 4
  have centuries : 100 ∣ k + 1 → 4 ∣ k + 1 := Nat.dvd_trans (by decide)
  have eras : 400 ∣ k + 1 → 100 ∣ k + 1 := Nat.dvd_trans (by decide)
  by_cases quarter : 4 ∣ k + 1
  · by_cases century : 100 ∣ k + 1
    · by_cases era : 400 ∣ k + 1 <;> simp only [quarter, century, era, if_true, if_false,
        not_true_eq_false, false_or, and_true, and_false] <;> omega
    · have era := mt eras century
      simp only [quarter, century, era, if_true, if_false, not_false_eq_true, true_or, and_true]
      omega
  · have century := mt centuries quarter
    have era := mt eras century
    simp only [quarter, century, era, if_false, false_and]
    omega

/-- Every year starts after the days of all years before it. -/
theorem daysBeforeYear_add_le {y z : Nat} (first : 1 ≤ y) (before : y < z) :
    daysBeforeYear y + (monthLengths (isLeap y)).sum ≤ daysBeforeYear z := by
  rw [← daysBeforeYear_succ first]
  have later : y + 1 ≤ z := before
  clear before
  induction z, later using Nat.le_induction with
  | base => exact Nat.le_refl _
  | succ z later ih =>
    rw [daysBeforeYear_succ (y := z) (by omega)]
    exact Nat.le_trans ih (Nat.le_add_right _ _)

/-- Every month starts after the days of all months before it. -/
theorem sum_take_add_le {lengths : List Nat} {i j : Nat} (before : i < j) :
    (lengths.take i).sum + lengths.getD i 0 ≤ (lengths.take j).sum := by
  induction lengths generalizing i j with
  | nil => simp
  | cons length rest ih =>
    obtain ⟨k, rfl⟩ : ∃ k, j = k + 1 := ⟨j - 1, by omega⟩
    cases i with
    | zero => simp
    | succ i =>
      have later := ih (Nat.lt_of_succ_lt_succ before)
      simp only [List.take_succ_cons, List.sum_cons, List.getD_cons_succ]
      omega

/-- One date comes before another: by the year, then by the month, then by the day. -/
def CivilDate.Before (d e : CivilDate) : Prop :=
  d.year < e.year ∨ d.year = e.year ∧ (d.month < e.month ∨ d.month = e.month ∧ d.day < e.day)

/-- The dates of the calendar are in the order of the days. -/
theorem CivilDate.before_ofDay {m n : Nat} (less : m < n) : (ofDay m).Before (ofDay n) := by
  obtain ⟨c, i, d, found, sum, -, long⟩ := ofDay_eq m
  obtain ⟨c', i', d', found', sum', -, long'⟩ := ofDay_eq n
  rw [found, found']
  have days := c.daysBeforeYear_civilYear
  have days' := c'.daysBeforeYear_civilYear
  have first' : 1 ≤ c'.civilYear := Nat.le_add_left 1 _
  rcases Nat.lt_trichotomy c.civilYear c'.civilYear with earlier | same | later
  · exact .inl earlier
  · refine .inr ⟨same, ?_⟩
    rw [same] at days sum long
    rcases Nat.lt_trichotomy i i' with earlier | rfl | later
    · exact .inl (Nat.succ_lt_succ earlier)
    · refine .inr ⟨rfl, Nat.succ_lt_succ ?_⟩
      omega
    · have months : ((monthLengths (isLeap c'.civilYear)).take i').sum +
          (monthLengths (isLeap c'.civilYear)).getD i' 0 ≤
            ((monthLengths (isLeap c'.civilYear)).take i).sum := sum_take_add_le later
      omega
  · have years := daysBeforeYear_add_le first' later
    have rest := c'.rest_lt
    omega

theorem dateText_partsBelow {d e : CivilDate} (fits : e.Fits) (before : d.Before e) :
    PartsBelow (Moment.dateText d) (Moment.dateText e) := by
  have some {n : Nat} : 0 < n + 1 := Nat.succ_pos n
  unfold Moment.dateText
  simp only [List.append_assoc, List.cons_append]
  refine padded_append_partsBelow fits.year some (before.imp_right (And.imp_right fun month => ?_))
  refine .later (padded_append_partsBelow fits.month some
    (month.imp_right (And.imp_right fun day => ?_)))
  exact .later (padded_partsBelow day fits.day some)

/-! ## Moments -/

/-- What follows the date in the text of a moment in a query. -/
def Moment.timeText (m : Moment) : List Char :=
  'T' :: (clockText m.civil ++ '.' :: Text.padded 3 (m.civil.micro / 1000) ++ ['Z'])

theorem Moment.queryText_eq_append (m : Moment) :
    m.queryText = dateText m.civil.date ++ m.timeText := by
  simp [queryText, timeText]

theorem Moment.timeText_partsBelow {m n : Moment}
    (less : m.micros % microsPerDay / 1000 < n.micros % microsPerDay / 1000) :
    PartsBelow m.timeText n.timeText := by
  have fits := CivilTime.fits_of_isValid n.isValid_civil
  have places : n.civil.micro / 1000 < 10 ^ 3 := by
    have := fits.micro
    omega
  have some {k : Nat} : 0 < k + 1 := Nat.succ_pos k
  -- the parts are those of the milliseconds of the day
  have parts : m.civil.hour < n.civil.hour ∨ m.civil.hour = n.civil.hour ∧
      (m.civil.minute < n.civil.minute ∨ m.civil.minute = n.civil.minute ∧
        (m.civil.second < n.civil.second ∨ m.civil.second = n.civil.second ∧
          m.civil.micro / 1000 < n.civil.micro / 1000)) := by
    simp only [civil]
    omega
  unfold timeText clockText
  simp only [List.append_assoc, List.cons_append]
  refine .later (padded_append_partsBelow fits.hour some
    (parts.imp_right (And.imp_right fun minute => ?_)))
  refine .later (padded_append_partsBelow fits.minute some
    (minute.imp_right (And.imp_right fun second => ?_)))
  refine .later (padded_append_partsBelow fits.second some
    (second.imp_right (And.imp_right fun milli => ?_)))
  exact .later ((padded_partsBelow milli places some).append _ _)

/-- The text of the earlier moment has the smaller character where the texts part. -/
theorem Moment.queryText_partsBelow {m n : Moment} (less : m.micros / 1000 < n.micros / 1000) :
    PartsBelow m.queryText n.queryText := by
  rw [queryText_eq_append, queryText_eq_append]
  have fits := CivilTime.fits_of_isValid n.isValid_civil
  have order : m.micros / microsPerDay < n.micros / microsPerDay ∨
      m.micros / microsPerDay = n.micros / microsPerDay ∧
        m.micros % microsPerDay / 1000 < n.micros % microsPerDay / 1000 := by
    unfold microsPerDay
    omega
  rcases order with day | ⟨day, time⟩
  · have dates : m.civil.date.Before n.civil.date := CivilDate.before_ofDay day
    exact (dateText_partsBelow fits.date dates).append _ _
  · have dates : m.civil.date = n.civil.date := congrArg CivilDate.ofDay day
    rw [dates]
    exact (timeText_partsBelow time).behind _

/-- Moments of one millisecond have one text. -/
theorem Moment.queryText_congr {m n : Moment} (same : m.micros / 1000 = n.micros / 1000) :
    m.queryText = n.queryText := by
  have day : m.micros / microsPerDay = n.micros / microsPerDay := by
    unfold microsPerDay
    omega
  have time : m.micros % microsPerDay / 1000 = n.micros % microsPerDay / 1000 := by
    unfold microsPerDay
    omega
  have dates : m.civil.date = n.civil.date := congrArg CivilDate.ofDay day
  have hour : m.civil.hour = n.civil.hour := by simp only [civil]; omega
  have minute : m.civil.minute = n.civil.minute := by simp only [civil]; omega
  have second : m.civil.second = n.civil.second := by simp only [civil]; omega
  have milli : m.civil.micro / 1000 = n.civil.micro / 1000 := by simp only [civil]; omega
  simp only [queryText, clockText, dates, hour, minute, second, milli]

theorem Moment.queryText_lt_iff {m n : Moment} :
    (m.micros / 1000 < n.micros / 1000 ↔ m.queryText < n.queryText) ∧
      (m.micros / 1000 = n.micros / 1000 ↔ m.queryText = n.queryText) := by
  rcases Nat.lt_trichotomy (m.micros / 1000) (n.micros / 1000) with earlier | same | later
  · have less := (queryText_partsBelow earlier).lt
    refine ⟨iff_of_true earlier less, iff_of_false (Nat.ne_of_lt earlier) fun texts => ?_⟩
    rw [texts] at less
    exact List.lt_irrefl _ less
  · have texts := queryText_congr same
    refine ⟨iff_of_false (Nat.not_lt.2 same.ge) ?_, iff_of_true same texts⟩
    rw [texts]
    exact List.lt_irrefl _
  · have greater := (queryText_partsBelow later).lt
    refine ⟨iff_of_false (Nat.not_lt_of_lt later) (List.lt_asymm greater),
      iff_of_false (Nat.ne_of_gt later) fun texts => ?_⟩
    rw [texts] at greater
    exact List.lt_irrefl _ greater

/-! ## Date-like values -/

/-- The instant that a date-like value names, in microseconds from the first midnight of the
    calendar of UTC: a date is its midnight, a reading of a clock is taken off by the offset of the
    clock, and a reading without an offset is one of a clock of UTC. -/
def Value.instant? : Value → Option Int
  | .date d => some (d.civil.toDay * microsPerDay : Nat)
  | .dateTime t => some (t.wall.civil.toMicros - t.offset.getD 0)
  | _ => none

/-- An instant lies in one of the years 1 to 9999 of UTC. -/
def InCalendar (i : Int) : Prop :=
  (daysBeforeYear 1 * microsPerDay : Nat) ≤ i ∧ i < (daysBeforeYear 10000 * microsPerDay : Nat)

theorem Moment.ofMicros?_inCalendar {i : Int} (inside : InCalendar i) :
    ∃ m, ofMicros? i = some m ∧ (m.micros : Int) = i := by
  have bounds : 0 ≤ i ∧ i < (calendarDays * microsPerDay : Nat) := inside
  refine ⟨⟨i.toNat, by omega⟩, dif_pos bounds, ?_⟩
  exact Int.toNat_of_nonneg bounds.1

/-- A value that names an instant of the calendar is the moment of that instant. -/
theorem Value.moment?_of_instant {v : Value} {i : Int} (named : v.instant? = some i)
    (inside : InCalendar i) : ∃ m : Moment, v.moment? = .ok m ∧ (m.micros : Int) = i := by
  cases v with
  | date d =>
    cases named
    refine ⟨Moment.ofDay d, rfl, ?_⟩
    rw [Day.civil, CivilDate.toDay_ofDay]
    rfl
  | dateTime t =>
    cases named
    obtain ⟨wall, offset⟩ := t
    obtain ⟨m, found, micros⟩ := Moment.ofMicros?_inCalendar inside
    refine ⟨m, ?_, micros⟩
    have moment : DateTime.utc? ⟨wall, offset⟩ = some m := by
      rw [← found, Moment.toMicros_civil]
      cases offset with
      | none => rw [Option.getD_none, Int.sub_zero, Moment.ofMicros?_micros]; rfl
      | some offset => rfl
    rw [moment?, moment]
  | _ => cases named

/-- The texts of two date-like values of the calendar are in the order of their instants, counted in
    whole milliseconds, and only values of one millisecond have one text. -/
theorem Value.dateText_lt_iff {v w : Value} {i j : Int} (named : v.instant? = some i)
    (named' : w.instant? = some j) (inside : InCalendar i) (inside' : InCalendar j) :
    ∃ s t, v.dateText = .ok s ∧ w.dateText = .ok t ∧
      (i / 1000 < j / 1000 ↔ s < t) ∧ (i / 1000 = j / 1000 ↔ s = t) := by
  obtain ⟨m, moment, rfl⟩ := moment?_of_instant named inside
  obtain ⟨n, moment', rfl⟩ := moment?_of_instant named' inside'
  refine ⟨m.queryText, n.queryText, ?_, ?_, ?_, ?_⟩
  · rw [dateText, moment]
    rfl
  · rw [dateText, moment']
    rfl
  · rw [← Moment.queryText_lt_iff.1]
    omega
  · rw [← Moment.queryText_lt_iff.2]
    omega

/-- The last microsecond of the 29th of February 2024, on a clock that is an hour behind UTC. -/
def leapDayEnd : Value :=
  .dateTime ⟨⟨738944 * microsPerDay + 82799999999, by decide⟩, some (-3600000000)⟩

/-- The first of March 2024. -/
def marchStart : Value :=
  .date ⟨738945, by decide⟩

theorem dateText_lt_leapDayEnd :
    leapDayEnd.instant? = some 63844847999999999 ∧ marchStart.instant? = some 63844848000000000 ∧
      ∃ s t, leapDayEnd.dateText = .ok s ∧ marchStart.dateText = .ok t ∧ s < t := by
  have named : leapDayEnd.instant? = some 63844847999999999 := by decide +kernel
  have named' : marchStart.instant? = some 63844848000000000 := by decide +kernel
  have inside : InCalendar 63844847999999999 := by unfold InCalendar; decide
  have inside' : InCalendar 63844848000000000 := by unfold InCalendar; decide
  obtain ⟨s, t, text, text', order, -⟩ := Value.dateText_lt_iff named named' inside inside'
  exact ⟨named, named', s, t, text, text', order.1 (by decide)⟩

end QueryTree
