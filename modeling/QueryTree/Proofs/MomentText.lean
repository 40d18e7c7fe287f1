import QueryTree.Moment.Reader
import QueryTree.Proofs.Calendar
import QueryTree.Proofs.Digits

/-!
# Moments as text

The text of a moment, with any number of places of the second, is read back as the moment that it
shows.

* `takeNumber?_padded`     : numerals of a fixed width
* `FractionText`           : what may stand behind the seconds
* `readDate?_dateText`, `readClock?_clockText` : dates and times of day
* `Moment.read_momentText` : whole moments, between blanks
* `Moment.read_dumpText`   : moments in dumps
* `Moment.digit_or_sign_of_mem_queryText` : the characters of moments in queries
-/

namespace QueryTree

/-! ## Numerals of a fixed width -/

/-- Digits are read off one by one. -/
theorem takeNumber?_map {ds : List Nat} {value : Nat} {rest : List Char} (small : ∀ d ∈ ds, d < 10) :
    takeNumber? value ds.length (ds.map Text.digitChar ++ rest) =
      some (ds.foldl (fun n d => 10 * n + d) value, rest) := by
  induction ds generalizing value with
  | nil => rfl
  | cons d ds ih =>
    simp only [List.length_cons, List.map_cons, List.cons_append, takeNumber?,
      asciiDigit?_digitChar (small d (.head _)), Option.bind_eq_bind, Option.bind_some]
    exact ih fun e member => small e (.tail _ member)

/-- A numeral of a fixed width is read as the number. -/
theorem takeNumber?_padded {width n : Nat} {rest : List Char} (fits : n < 10 ^ width)
    (some : 0 < width) :
    takeNumber? 0 width (Text.padded width n ++ rest) = .some (n, rest) := by
  have small : ∀ d ∈ paddedDigits width n, d < 10 := fun d => lt_of_mem_paddedDigits
  have read : takeNumber? 0 (paddedDigits width n).length
      ((paddedDigits width n).map Text.digitChar ++ rest) =
        .some (Text.ofDigits (paddedDigits width n), rest) := takeNumber?_map small
  rw [length_paddedDigits fits some, ← padded_eq, ofDigits_paddedDigits] at read
  exact read

/-! ## Dates -/

/-- A date whose parts fit their places. -/
structure CivilDate.Fits (d : CivilDate) : Prop where
  year : d.year < 10 ^ 4
  month : d.month < 10 ^ 2
  day : d.day < 10 ^ 2

theorem CivilDate.fits_of_isValid {d : CivilDate} (valid : d.isValid = true) : d.Fits := by
  simp only [isValid, Bool.and_eq_true, decide_eq_true_eq] at valid
  obtain ⟨⟨⟨⟨⟨-, year⟩, -⟩, month⟩, -⟩, day⟩ := valid
  have short : (monthLengths (isLeap d.year)).getD (d.month - 1) 0 ≤ 31 := by
    have all : ∀ leap, ∀ i < 12, (monthLengths leap).getD i 0 ≤ 31 := by decide
    exact all _ _ (by omega)
  exact ⟨by omega, by omega, by omega⟩

section Dates

variable {d : CivilDate} (fits : d.Fits)

include fits

theorem length_dateText : (Moment.dateText d).length = 10 := by
  simp only [Moment.dateText, List.length_append, List.length_cons,
    length_padded fits.year (by decide), length_padded fits.month (by decide),
    length_padded fits.day (by decide)]

/-- The characters that tell the form of a date tell the one with hyphens. -/
theorem dateLength?_dateText (rest : List Char) (long : 0 < rest.length) :
    dateLength? (Moment.dateText d ++ rest) = some 10 := by
  obtain ⟨c, cs, month, digit⟩ := padded_eq_cons 2 d.month
  have year : (Text.padded 4 d.year).length = 4 := length_padded fits.year (by decide)
  have noWeek : c ≠ 'W' := digit.ne (by decide)
  have length : (Moment.dateText d ++ rest).length ≠ 7 := by
    rw [List.length_append, length_dateText fits]
    omega
  have fifth : (Moment.dateText d ++ rest)[4]? = some '-' := by
    simp [Moment.dateText, year]
  have sixth : (Moment.dateText d ++ rest)[5]? = some c := by
    simp [Moment.dateText, year, month, List.getElem?_append]
  rw [dateLength?, if_neg length, if_pos fifth, sixth, if_neg (by simpa using noWeek)]

theorem readDate?_dateText (rest : List Char) :
    readDate? 10 (Moment.dateText d ++ rest) = some d := by
  obtain ⟨c, cs, month, digit⟩ := padded_eq_cons 2 d.month
  have noWeek : c ≠ 'W' := digit.ne (by decide)
  have readMonth (rest : List Char) : takeNumber? 0 2 (c :: (cs ++ rest)) = some (d.month, rest) := by
    rw [← List.cons_append, ← month]
    exact takeNumber?_padded fits.month (by decide)
  have text : Moment.dateText d ++ rest =
      Text.padded 4 d.year ++ '-' :: c :: (cs ++ '-' :: (Text.padded 2 d.day ++ rest)) := by
    rw [Moment.dateText, month]
    simp
  rw [text, readDate?, takeNumber?_padded fits.year (by decide)]
  simp only [Option.bind_eq_bind, Option.bind_some, firstOrEnd, List.headD_cons, beq_self_eq_true,
    takeHyphen?, if_true]
  split
  · next week => cases week; exact absurd rfl noWeek
  · simp only [readMonth, Option.bind_some, takeNumber?_padded fits.day (by decide)]

end Dates

/-! ## Times of day -/

/-- A time of day whose parts fit their places. -/
structure CivilTime.Fits (t : CivilTime) : Prop where
  date : t.date.Fits
  hour : t.hour < 10 ^ 2
  minute : t.minute < 10 ^ 2
  second : t.second < 10 ^ 2
  micro : t.micro < 10 ^ 6

theorem CivilTime.fits_of_isValid {t : CivilTime} (valid : t.isValid = true) : t.Fits := by
  simp only [isValid, Bool.and_eq_true, decide_eq_true_eq] at valid
  obtain ⟨⟨⟨⟨date, hour⟩, minute⟩, second⟩, micro⟩ := valid
  exact ⟨CivilDate.fits_of_isValid date, by omega, by omega, by omega, by omega⟩

/-- Reading a part that a colon separates from the next one. -/
theorem readParts?_colon {next : Char} {parts n : Nat} {colons : Option Bool} {read : List Nat}
    {rest : List Char} (fits : n < 10 ^ 2) (colon : colons.getD true = true) (more : rest ≠ []) :
    readParts? next (parts + 1) colons read (Text.padded 2 n ++ ':' :: rest) =
      readParts? next parts (some true) (read ++ [n]) rest := by
  obtain ⟨c, cs, rfl⟩ := List.exists_cons_of_ne_nil more
  rw [readParts?, takeNumber?_padded fits (by decide)]
  simp [colon]

/-- What may stand behind the seconds for a number of microseconds: nothing, or a point and up to
    six places. -/
inductive FractionText : Nat → List Char → Prop where
  | none : FractionText 0 []
  | places {width n : Nat} : 0 < width → width ≤ 6 → n < 10 ^ width →
      FractionText (n * 10 ^ (6 - width)) ('.' :: Text.padded width n)

/-- No character of a time of day starts a zone. -/
theorem not_startsZone_of_mem {t : CivilTime} {micro : Nat} {fraction : List Char} {c : Char}
    (behind : FractionText micro fraction) (member : c ∈ Moment.clockText t ++ fraction) :
    startsZone c = false := by
  have digits {n width : Nat} (inside : c ∈ Text.padded width n) : startsZone c = false := by
    have digit := isAsciiDigit_of_mem_padded inside
    simp only [startsZone, Bool.or_eq_false_iff, beq_eq_false_iff_ne]
    exact ⟨⟨digit.ne (by decide), digit.ne (by decide)⟩, digit.ne (by decide)⟩
  simp only [Moment.clockText, List.mem_append, List.mem_cons] at member
  rcases member with ((hour | rfl | minute) | rfl | second) | after
  · exact digits hour
  · rfl
  · exact digits minute
  · rfl
  · exact digits second
  · cases behind with
    | none => cases after
    | places =>
      rcases List.mem_cons.1 after with rfl | places
      · rfl
      · exact digits places

/-- The places of the second, read before a zone; those that are not written are zeros. -/
theorem readFraction?_padded {width n : Nat} (some : 0 < width) (few : width ≤ 6)
    (fits : n < 10 ^ width) :
    readFraction? 'Z' (Text.padded width n) = .some (n * 10 ^ (6 - width), true) := by
  have length := length_padded fits some
  have read : takeNumber? 0 width (Text.padded width n ++ []) = .some (n, []) :=
    takeNumber?_padded fits some
  rw [List.append_nil] at read
  rw [readFraction?, length]
  simp only [Nat.min_eq_right few, read]
  simp [endMark]

section Times

variable {t : CivilTime} {micro : Nat} {fraction : List Char} (fits : t.Fits)
  (behind : FractionText micro fraction)

include fits behind

/-- The last part, behind which the text ends or the places of the second stand. -/
theorem readParts?_last {hour minute : Nat} :
    readParts? 'Z' 1 (some true) [hour, minute] (Text.padded 2 t.second ++ fraction) =
      some ⟨hour, minute, t.second, micro, true⟩ := by
  rw [readParts?, takeNumber?_padded fits.second (by decide)]
  cases behind with
  | none => simp [endMark]
  | @places width n first few small =>
    obtain ⟨c, cs, places, digit⟩ := padded_eq_cons width n
    have read := readFraction?_padded first few small
    rw [places] at read ⊢
    simp [read]

theorem readClock?_clockText :
    readClock? 'Z' (Moment.clockText t ++ fraction) =
      some ⟨t.hour, t.minute, t.second, micro, true⟩ := by
  have some (n : Nat) (rest : List Char) : Text.padded 2 n ++ rest ≠ [] := by
    obtain ⟨c, cs, text, -⟩ := padded_eq_cons 2 n
    simp [text]
  have text : Moment.clockText t ++ fraction =
      Text.padded 2 t.hour ++ ':' :: (Text.padded 2 t.minute ++
        ':' :: (Text.padded 2 t.second ++ fraction)) := by
    simp [Moment.clockText]
  rw [readClock?, text, readParts?_colon fits.hour rfl (some _ _),
    readParts?_colon fits.minute rfl (some _ _)]
  exact readParts?_last fits behind

/-- A time of day with the zone of UTC. -/
theorem readTime?_clockText :
    readTime? (Moment.clockText t ++ fraction ++ ['Z']) =
      some (⟨t.hour, t.minute, t.second, micro, true⟩, some 0) := by
  have parted : (Moment.clockText t ++ fraction ++ ['Z']).span (!startsZone ·) =
      (Moment.clockText t ++ fraction, ['Z']) := by
    rw [List.span_eq_takeWhile_dropWhile, List.takeWhile_append_of_pos, List.dropWhile_append_of_pos]
    · simp [startsZone]
    all_goals exact fun c member => by simp [not_startsZone_of_mem behind member]
  have zone : readZone? ['Z'] = some 0 := rfl
  rw [readTime?, parted]
  simp [firstOrEnd, readClock?_clockText fits behind, zone]

end Times

/-! ## Moments -/

theorem IsAsciiDigit.not_blank {c : Char} (digit : IsAsciiDigit c) : Text.isBlank c = false := by
  have all : ∀ d < 10, Text.isBlank (Text.digitChar d) = false := by decide
  obtain ⟨d, small, rfl⟩ := digit
  exact all d small

/-- Blanks around a text are trimmed, up to its first and its last character. -/
theorem trim_between {before text behind : List Char} {c d : Char} {front back : List Char}
    (first : text = c :: back) (last : text = front ++ [d]) (solid : Text.isBlank c = false)
    (solid' : Text.isBlank d = false) (blank : ∀ x ∈ before, Text.isBlank x = true)
    (blank' : ∀ x ∈ behind, Text.isBlank x = true) :
    Text.trim (before ++ text ++ behind) = text := by
  have start : (before ++ text ++ behind).dropWhile Text.isBlank = text ++ behind := by
    rw [List.append_assoc, List.dropWhile_append_of_pos blank, first, List.cons_append,
      List.dropWhile_cons_of_neg (by simp [solid])]
  rw [Text.trim, start, Text.trimEnd, List.reverse_append,
    List.dropWhile_append_of_pos fun x member => blank' x (List.mem_reverse.1 member), last,
    List.reverse_append, List.reverse_singleton, List.singleton_append,
    List.dropWhile_cons_of_neg (by simp [solid']), List.reverse_cons, List.reverse_reverse]

/-- The text of what calendar and clock of UTC show, with the given places of the second. -/
def CivilTime.momentText (t : CivilTime) (fraction : List Char) : List Char :=
  Moment.dateText t.date ++ 'T' :: Moment.clockText t ++ fraction ++ ['Z']

/-- The text starts with a digit and ends with the letter of UTC. -/
theorem trim_momentText {t : CivilTime} {fraction before after : List Char}
    (blank : ∀ c ∈ before, Text.isBlank c = true) (blank' : ∀ c ∈ after, Text.isBlank c = true) :
    Text.trim (before ++ t.momentText fraction ++ after) = t.momentText fraction := by
  obtain ⟨c, cs, year, digit⟩ := padded_eq_cons 4 t.date.year
  obtain ⟨rest, first⟩ : ∃ rest, t.momentText fraction = c :: rest := by
    rw [← List.head?_eq_some_iff]
    simp [CivilTime.momentText, Moment.dateText, year]
  exact trim_between first rfl digit.not_blank (by decide) blank blank'

section Moments

variable {t : CivilTime} {micro : Nat} {fraction : List Char} (fits : t.Fits)
  (behind : FractionText micro fraction)

include fits behind

theorem DateTime.read?_momentText :
    read? (t.momentText fraction) = (CivilTime.toMoment? { t with micro := micro }).map ofUtc := by
  have time := readTime?_clockText fits behind
  have text : t.momentText fraction = Moment.dateText t.date ++
      'T' :: (Moment.clockText t ++ fraction ++ ['Z']) := by
    simp [CivilTime.momentText]
  have date := length_dateText fits.date
  have enough : ¬ (t.momentText fraction).length < 7 := by
    rw [text, List.length_append]
    omega
  have length : dateLength? (t.momentText fraction) = some 10 := by
    rw [text, dateLength?_dateText fits.date _ (by simp)]
  have day : readDate? 10 (t.momentText fraction) = some t.date := by
    rw [text, readDate?_dateText fits.date]
  have rest : (t.momentText fraction).drop 10 =
      'T' :: (Moment.clockText t ++ fraction ++ ['Z']) := by
    rw [text, List.drop_left' date]
  rw [read?, if_neg enough]
  simp only [length, day, rest, time, Option.bind_eq_bind, Option.bind_some]
  cases CivilTime.toMoment? { t with micro := micro } <;> rfl

/-- The text of a moment is read, whatever blanks stand around it. -/
theorem Moment.read_momentText {m : Moment} (shown : m.civil = { t with micro := micro })
    {before after : List Char} (blank : ∀ c ∈ before, Text.isBlank c = true)
    (blank' : ∀ c ∈ after, Text.isBlank c = true) :
    Moment.read (before ++ t.momentText fraction ++ after) = .ok m := by
  have read : DateTime.read? (Text.trim (before ++ t.momentText fraction ++ after)) =
      some (DateTime.ofUtc m) := by
    rw [trim_momentText blank blank', DateTime.read?_momentText fits behind, ← shown,
      CivilTime.toMoment?_civil]
    rfl
  have moment := DateTime.utc?_ofUtc m
  unfold Moment.read
  split
  · next none => cases none.symm.trans read
  · next t found =>
    cases found.symm.trans read
    split
    · next k there =>
      cases there.symm.trans moment
      rfl
    · next none => cases none.symm.trans moment

end Moments

/-- The text of a moment in a dump is read back as the moment. -/
theorem Moment.read_dumpText (m : Moment) : Moment.read m.dumpText = .ok m := by
  have fits := CivilTime.fits_of_isValid m.isValid_civil
  have behind : FractionText m.civil.micro (fractionText m.civil.micro) := by
    unfold fractionText
    split
    · next full =>
      rw [full]
      exact .none
    · have six : FractionText (m.civil.micro * 10 ^ (6 - 6)) ('.' :: Text.padded 6 m.civil.micro) :=
        .places (by decide) (by decide) fits.micro
      rwa [Nat.sub_self, Nat.pow_zero, Nat.mul_one] at six
  have read := read_momentText fits behind rfl (List.forall_mem_nil _) (List.forall_mem_nil _)
  rwa [List.append_nil, List.nil_append] at read

/-! ## Moments in queries -/

def momentSigns : List Char :=
  ['-', 'T', ':', '.', 'Z']

/-- In a query the text of a moment has only digits, and signs between them. -/
theorem Moment.digit_or_sign_of_mem_queryText (m : Moment) :
    ∀ c ∈ m.queryText, IsAsciiDigit c ∨ c ∈ momentSigns := by
  have digits (width n : Nat) : ∀ c ∈ Text.padded width n, IsAsciiDigit c ∨ c ∈ momentSigns :=
    fun _ member => .inl (isAsciiDigit_of_mem_padded member)
  have signs : '-' ∈ momentSigns ∧ 'T' ∈ momentSigns ∧ ':' ∈ momentSigns ∧ '.' ∈ momentSigns ∧
      'Z' ∈ momentSigns := by decide
  simp only [queryText, dateText, clockText, List.forall_mem_append, List.forall_mem_cons, signs,
    or_true, true_and, and_assoc]
  exact ⟨digits _ _, digits _ _, digits _ _, digits _ _, digits _ _, digits _ _, digits _ _,
    List.forall_mem_nil _⟩

end QueryTree
