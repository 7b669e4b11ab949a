import Mathlib.Data.Nat.Digits.Defs
import Relmap.Field.Basic
import Relmap.Proofs.Calendar.Civil
import Relmap.Proofs.Calendar.Timestamp
import Relmap.Proofs.Number.Scaled

/-!
# The standard notation is read back

`readTime?_text`: the text of a timestamp in the standard notation is read as that timestamp, in
years of any number of digits, before year zero and in a leap second too. Every number is written
in as many digits as its reader takes, or is followed by a mark that stops the reader; what has
been read then names the day and the time of day in full (`Timestamp.clues`).
-/

namespace Relmap.Calendar

open Number (isDigit digitsValue)

/-! ### Runs of digits -/

variable {s r : List Char} {n : Nat}

/-- Nothing that starts with a digit. -/
def StopsDigits (r : List Char) : Prop := ∀ c ∈ r.head?, isDigit c = false

theorem StopsDigits.takeWhile (h : StopsDigits r) (k : Nat) :
    (r.take k).takeWhile isDigit = [] := by
  cases r with
  | nil => simp
  | cons c r =>
    cases k with
    | zero => rfl
    | succ k => rw [List.take_succ_cons, List.takeWhile_cons_of_neg (by simp [h c rfl])]

/-- Digits are taken up to the largest number of them, or up to what is no digit. -/
theorem takeDigits?_append {least most : Nat} (digits : ∀ c ∈ s, isDigit c = true)
    (enough : least ≤ s.length) (room : s.length ≤ most)
    (stop : s.length = most ∨ StopsDigits r) (small : digitsValue s < numberLimit) :
    takeDigits? least most (s ++ r) = some (digitsValue s, r) := by
  have nothing : (r.take (most - s.length)).takeWhile isDigit = [] := by
    rcases stop with full | mark
    · rw [full, Nat.sub_self, List.take_zero, List.takeWhile_nil]
    · exact mark.takeWhile _
  have run : ((s ++ r).take most).takeWhile isDigit = s := by
    rw [List.take_append, List.take_of_length_le room, List.takeWhile_append_of_pos digits,
      nothing, List.append_nil]
  have bounds : ¬(s.length < least ∨ numberLimit ≤ digitsValue s) := by omega
  simp only [takeDigits?, run, if_neg bounds, List.drop_left]

theorem isDigit_padded {width : Nat} : ∀ c ∈ Number.padded width n, isDigit c = true := by
  intro c hc
  rcases List.mem_append.mp hc with zero | digit
  · rw [List.eq_of_mem_replicate zero]
    rfl
  · exact Number.isDigit_of_mem_toDigits digit

theorem digitsValue_padded (width n : Nat) : digitsValue (Number.padded width n) = n := by
  rw [Number.padded, Number.digitsValue_append, Number.digitsValue_zeros]
  exact Number.digitsValue_toDigits n

theorem length_padded {width : Nat} (hw : 0 < width) (h : n < 10 ^ width) :
    (Number.padded width n).length = width := by
  have digits := Nat.toDigits_length 10 n width hw h
  rw [Number.padded, List.length_append, List.length_replicate]
  omega

/-- A padded number is read up to what stops it. -/
theorem takeDigits?_padded {least most width : Nat}
    (enough : least ≤ (Number.padded width n).length)
    (room : (Number.padded width n).length ≤ most)
    (stop : (Number.padded width n).length = most ∨ StopsDigits r) (small : n < numberLimit) :
    takeDigits? least most (Number.padded width n ++ r) = some (n, r) := by
  have value := digitsValue_padded width n
  have taken := takeDigits?_append isDigit_padded enough room stop (by rwa [value])
  rwa [value] at taken

/-! ### Numbers -/

/-- A number below a hundred is written as two digits. -/
theorem twoChars_eq_padded (h : n < 100) : twoChars .zero n = Number.padded 2 n := by
  revert n
  decide

/-- A number starts with a digit, so nothing is trimmed. -/
theorem trimStart_twoChars (h : n < 100) :
    Text.trimStart (twoChars .zero n ++ r) = twoChars .zero n ++ r := by
  have length : (Number.padded 2 n).length = 2 := length_padded (by decide) h
  obtain ⟨d, ds, chars⟩ := List.exists_cons_of_length_pos (l := Number.padded 2 n) (by omega)
  have digit : isDigit d = true := isDigit_padded d (chars ▸ List.mem_cons_self)
  rw [twoChars_eq_padded h, chars, List.cons_append,
    Text.trimStart_of_head (Number.isBlank_of_isDigit digit)]

namespace NumberField

variable {f : NumberField} {c : Clues}

/-- A number of two digits is read, whatever follows it. -/
theorem read?_twoChars (width : f.width = some 2) (unsigned : f.isSigned = false) (h : n < 100) :
    f.read? (twoChars .zero n ++ r) c = (f.note? n c).map fun c => (r, c) := by
  have length : (Number.padded 2 n).length = 2 := length_padded (by decide) h
  have small : n < numberLimit := by
    rw [numberLimit, Number.unsignedBound]
    omega
  have taken : takeDigits? 1 2 (Number.padded 2 n ++ r) = some (n, r) :=
    takeDigits?_padded (by omega) (Nat.le_of_eq length) (.inl length) small
  rw [read?, trimStart_twoChars h, twoChars_eq_padded h, width, unsigned]
  show (takeDigits? 1 2 _ >>= _) = _
  rw [taken]
  show (f.note? n c >>= fun c => some (r, c)) = _
  cases f.note? n c <;> rfl

/-! What is noted of a number in its bounds, if nothing is known of its part yet. -/

theorem note?_month (lo : 1 ≤ n) (hi : n ≤ 12) (unknown : c.month = none) :
    NumberField.month.note? n c = some { c with month := some n } := by
  simp [note?, Clues.agree?, unknown, lo, hi]

theorem note?_day (lo : 1 ≤ n) (hi : n ≤ 31) (unknown : c.day = none) :
    NumberField.day.note? n c = some { c with day := some n } := by
  simp [note?, Clues.agree?, unknown, lo, hi]

theorem note?_hour (hi : n < 24) (unknown : c.halfDay = none ∧ c.halfDayHour = none) :
    NumberField.hour.note? n c =
      some { c with halfDay := some (n / 12), halfDayHour := some (n % 12) } := by
  have bound : (n : Int) ≤ 23 := by omega
  simp [note?, Clues.withHour?, Clues.agree?, unknown, bound, hi]

theorem note?_minute (hi : n ≤ 59) (unknown : c.minute = none) :
    NumberField.minute.note? n c = some { c with minute := some n } := by
  simp [note?, Clues.agree?, unknown, hi]

theorem note?_second (hi : n ≤ 60) (unknown : c.second = none) :
    NumberField.second.note? n c = some { c with second := some n } := by
  simp [note?, Clues.agree?, unknown, hi]

end NumberField

/-- A number of two digits that is noted. -/
theorem read?_zeros {f : NumberField} {c c' : Clues} (width : f.width = some 2)
    (unsigned : f.isSigned = false) (h : n < 100) (noted : f.note? n c = some c') :
    (PatternItem.zeros f).read? (twoChars .zero n ++ r) c = some (r, c') := by
  show f.read? _ c = _
  rw [NumberField.read?_twoChars width unsigned h, noted]
  rfl

/-- A year has at least four digits behind its sign. -/
theorem yearChars_eq_padded (year : Int) :
    yearChars .zero year =
      (if year < 0 then ['-'] else if 10000 ≤ year then ['+'] else []) ++
        Number.padded 4 year.natAbs := by
  by_cases before : year < 0
  · simp [yearChars, paddedInt, Number.padded, before]
  · by_cases late : 10000 ≤ year <;> simp [yearChars, paddedInt, Number.padded, before, late]

/-- A year is read up to the mark behind it. -/
theorem takeSigned?_yearChars {year : Int} (small : year.natAbs < numberLimit)
    (mark : StopsDigits r) :
    takeSigned? 4 (yearChars .zero year ++ r) = some (year, r) := by
  have chars : 0 < (Number.padded 4 year.natAbs).length := by
    simp only [Number.padded, List.length_append]
    have := List.length_pos_of_ne_nil (Nat.toDigits_ne_nil (b := 10) (n := year.natAbs))
    omega
  have taken {most : Nat} (room : (Number.padded 4 year.natAbs).length ≤ most) :
      takeDigits? 1 most (Number.padded 4 year.natAbs ++ r) = some (year.natAbs, r) :=
    takeDigits?_padded chars room (.inr mark) small
  have all : (Number.padded 4 year.natAbs).length ≤ (Number.padded 4 year.natAbs ++ r).length := by
    simp
  rw [yearChars_eq_padded]
  by_cases before : year < 0
  · rw [if_pos before]
    show (takeDigits? 1 (Number.padded 4 year.natAbs ++ r).length
      (Number.padded 4 year.natAbs ++ r)).map _ = _
    rw [taken all]
    exact congrArg (fun n => some (n, r)) (show -(year.natAbs : Int) = year by omega)
  by_cases late : 10000 ≤ year
  · rw [if_neg before, if_pos late]
    show (takeDigits? 1 (Number.padded 4 year.natAbs ++ r).length
      (Number.padded 4 year.natAbs ++ r)).map _ = _
    rw [taken all]
    exact congrArg (fun n => some (n, r)) (show (year.natAbs : Int) = year by omega)
  · have four : (Number.padded 4 year.natAbs).length ≤ 4 :=
      Nat.le_of_eq (length_padded (by decide) (by omega))
    obtain ⟨c, ds, first⟩ := List.exists_cons_of_length_pos chars
    have digit : isDigit c = true := isDigit_padded c (first ▸ List.mem_cons_self)
    simp only [if_neg before, if_neg late, List.nil_append]
    unfold takeSigned?
    split
    next h =>
      rw [first] at h
      cases h
      cases digit
    next h =>
      rw [first] at h
      cases h
      cases digit
    next =>
      rw [taken four]
      exact congrArg (fun n => some (n, r)) (show (year.natAbs : Int) = year by omega)

/-- The year of the standard notation. -/
theorem read?_yearChars {year : Int} {c : Clues} (mark : StopsDigits r)
    (fits : Number.Fits 32 year) (unknown : c.year = none) :
    (PatternItem.zeros .year).read? (yearChars .zero year ++ r) c =
      some (r, { c with year := some year }) := by
  have small : year.natAbs < numberLimit := by
    rw [numberLimit, Number.unsignedBound]
    rw [Number.Fits] at fits
    omega
  obtain ⟨d, ds, first, visible⟩ := exists_yearChars year
  have start : Text.trimStart (yearChars .zero year ++ r) = yearChars .zero year ++ r := by
    rw [first, List.cons_append, Text.trimStart_of_head visible]
  show NumberField.year.read? _ c = _
  rw [NumberField.read?, start]
  show (takeSigned? 4 _ >>= _) = _
  rw [takeSigned?_yearChars small mark]
  simp [NumberField.note?, fits, unknown, Clues.agree?]

/-- A fraction that is written in full is read to its end. -/
theorem takeFraction?_fractionChars {digits nanos : Nat} (positive : 0 < digits)
    (few : digits ≤ 9) (small : nanos < 10 ^ 9) (whole : nanos % 10 ^ (9 - digits) = 0) :
    takeFraction? (fractionChars digits nanos) = some (nanos, []) := by
  have exponent : 10 ^ 9 = 10 ^ digits * 10 ^ (9 - digits) := by
    rw [← Nat.pow_add]
    congr 1
    omega
  have quotient : nanos / 10 ^ (9 - digits) < 10 ^ digits :=
    Nat.div_lt_of_lt_mul (by rwa [Nat.mul_comm, ← exponent])
  have length := length_padded positive quotient
  have limit : nanos / 10 ^ (9 - digits) < numberLimit :=
    Nat.lt_of_le_of_lt (Nat.div_le_self _ _) (Nat.lt_trans small (by decide))
  have taken : takeDigits? 1 9 (Number.padded digits (nanos / 10 ^ (9 - digits)) ++ []) =
      some (nanos / 10 ^ (9 - digits), []) :=
    takeDigits?_padded (by omega) (by omega) (.inr fun _ h => nomatch h) limit
  rw [List.append_nil] at taken
  rw [takeFraction?, fractionChars, taken]
  simp only [Option.map_some, length, List.length_nil, Nat.sub_zero, List.dropWhile_nil]
  rw [Nat.div_mul_cancel (Nat.dvd_of_mod_eq_zero whole)]

/-- The fraction of the standard notation, or that there is none. -/
theorem read?_shortestFraction {nanos : Nat} (small : nanos < 10 ^ 9) (c : Clues)
    (unknown : c.nanosecond = none) :
    TextField.fraction.read? (shortestFraction nanos) c =
      some ([], { c with nanosecond := if nanos = 0 then none else some nanos }) := by
  by_cases zero : nanos = 0
  · subst zero
    simp [shortestFraction, TextField.read?, ← unknown]
  rw [if_neg zero]
  have read (digits : Nat) (positive : 0 < digits) (few : digits ≤ 9)
      (whole : nanos % 10 ^ (9 - digits) = 0) :
      TextField.fraction.read? ('.' :: fractionChars digits nanos) c =
        some ([], { c with nanosecond := some nanos }) := by
    have taken := takeFraction?_fractionChars positive few small whole
    simp [TextField.read?, taken, Clues.withNanos?, unknown, Clues.agree?]
  rw [shortestFraction, if_neg zero]
  by_cases milli : nanos % 1000000 = 0
  · rw [if_pos milli]
    exact read 3 (by decide) (by decide) milli
  rw [if_neg milli]
  by_cases micro : nanos % 1000 = 0
  · rw [if_pos micro]
    exact read 6 (by decide) (by decide) micro
  · rw [if_neg micro]
    exact read 9 (by decide) (by decide) (Nat.mod_one nanos)

/-! ### The whole text -/

/-- Reading goes on behind a piece. -/
theorem readItems?_cons {i : PatternItem} {is : List PatternItem} {s s' : List Char}
    {c c' : Clues} (h : i.read? s c = some (s', c')) :
    readItems? (i :: is) s c = readItems? is s' c' := by
  rw [readItems?, h]
  rfl

namespace Timestamp

variable (t : Timestamp)

/-- What the standard notation says of a timestamp. -/
def clues : Clues where
  year := some t.day.year
  month := some t.day.civil.month
  day := some t.day.civil.day
  halfDay := some (t.hour / 12)
  halfDayHour := some (t.hour % 12)
  minute := some t.minute
  second := some (t.second + t.nanos / nanosPerSecond)
  nanosecond := if t.fraction = 0 then none else some t.fraction

theorem exists_civil : t.day.civil.exists? = true := Civil.exists?_ofNumber t.day.number

theorem day_number : t.day.number = t.seconds / 86400 :=
  Int.fdiv_eq_ediv_of_nonneg _ (by decide)

theorem secondOfDay_eq : (t.secondOfDay : Int) = t.seconds % 86400 := by
  rw [secondOfDay, Int.fmod_eq_emod_of_nonneg _ (by decide), secondsPerDay]
  omega

theorem day_bounds : Day.first ≤ t.day.number ∧ t.day.number ≤ Day.last := by
  have lo := t.first_le
  have hi := t.lt_end
  rw [secondsPerDay] at lo hi
  rw [day_number]
  omega

theorem year_fits : Number.Fits 32 t.day.year := by
  have first : Day.first = -96465292 := by decide
  have last : Day.last = 95026236 := by decide
  obtain ⟨lo, hi⟩ := t.day_bounds
  obtain ⟨year_lo, year_hi⟩ := Civil.year_bounds (n := t.day.number) (by omega) (by omega)
  rw [Number.Fits]
  show _ ≤ (Civil.ofNumber t.day.number).year ∧ (Civil.ofNumber t.day.number).year < _
  omega

theorem hour_lt : t.hour < 24 := by
  have seconds := t.secondOfDay_eq
  rw [hour]
  omega

theorem minute_lt : t.minute < 60 := Nat.mod_lt _ (by decide)

/-- The seconds as they are written: sixty in a leap second. -/
theorem second_bounds :
    (t.nanos < nanosPerSecond ∧ t.nanos / nanosPerSecond = 0 ∧ t.second < 60) ∨
      (nanosPerSecond ≤ t.nanos ∧ t.nanos / nanosPerSecond = 1 ∧ t.second = 59) := by
  have small := t.nanos_lt
  have leap := t.leap_at_end
  have seconds := t.secondOfDay_eq
  rw [second]
  simp only [nanosPerSecond] at *
  omega

theorem text_chars :
    t.text.toList = yearChars .zero t.day.year ++ '-' :: (twoChars .zero t.day.civil.month ++
      '-' :: (twoChars .zero t.day.civil.day ++ ' ' :: (twoChars .zero t.hour ++
      ':' :: (twoChars .zero t.minute ++
      ':' :: (twoChars .zero (t.second + t.nanos / nanosPerSecond) ++
      shortestFraction t.fraction))))) := by
  simp [Timestamp.text, writeItems?, standardItems, PatternItem.clock, PatternItem.zeros,
    PatternItem.write?, NumberField.write, TextField.write?]

/-- The standard notation says everything there is to say of a timestamp. -/
theorem readItems?_text : readItems? standardItems t.text.toList {} = some t.clues := by
  obtain ⟨month_lo, month_hi⟩ := Civil.month_bounds t.exists_civil
  obtain ⟨day_lo, day_hi⟩ := Civil.day_bounds t.exists_civil
  have hour := t.hour_lt
  have minute := t.minute_lt
  have year := t.year_fits
  have second := t.second_bounds
  have fraction : t.fraction < 10 ^ 9 := Nat.mod_lt _ (by decide)
  have mark (c : Char) (s : List Char) (clues : Clues) :
      (PatternItem.literal [c]).read? (c :: s) clues = some (s, clues) := by
    simp [PatternItem.read?, takeLiteral?]
  have blank {n : Nat} (h : n < 100) (s : List Char) (clues : Clues) :
      (PatternItem.blank [' ']).read? (' ' :: (twoChars .zero n ++ s)) clues =
        some (twoChars .zero n ++ s, clues) :=
    congrArg (fun s => some (s, clues)) (trimStart_twoChars h)
  have dash (s : List Char) : StopsDigits ('-' :: s) := by
    rintro _ ⟨⟩
    decide
  rw [text_chars, standardItems]
  refine (readItems?_cons (read?_yearChars (dash _) year rfl)).trans ?_
  refine (readItems?_cons (mark '-' _ _)).trans ?_
  refine (readItems?_cons (read?_zeros rfl rfl (by omega)
    (NumberField.note?_month month_lo month_hi rfl))).trans ?_
  refine (readItems?_cons (mark '-' _ _)).trans ?_
  refine (readItems?_cons (read?_zeros rfl rfl (by omega)
    (NumberField.note?_day day_lo day_hi rfl))).trans ?_
  refine (readItems?_cons (blank (by omega) _ _)).trans ?_
  refine (readItems?_cons (read?_zeros rfl rfl (by omega)
    (NumberField.note?_hour hour ⟨rfl, rfl⟩))).trans ?_
  refine (readItems?_cons (mark ':' _ _)).trans ?_
  refine (readItems?_cons (read?_zeros rfl rfl (by omega)
    (NumberField.note?_minute (by omega) rfl))).trans ?_
  refine (readItems?_cons (mark ':' _ _)).trans ?_
  refine (readItems?_cons (read?_zeros rfl rfl (by omega)
    (NumberField.note?_second (by omega) rfl))).trans ?_
  exact readItems?_cons (i := .text .fraction) (read?_shortestFraction fraction _ rfl)

/-- What the standard notation says gives the day. -/
theorem resolveDay_clues : t.clues.resolveDay = .ok t.day := by
  have number : t.day.civil.number = t.day.number := Civil.number_ofNumber t.day.number
  have day : Day.ofCivil? t.day.year t.day.civil.month t.day.civil.day = some t.day := by
    rw [Day.ofCivil?]
    show (if t.day.civil.exists? ∧ Day.first ≤ t.day.civil.number ∧ t.day.civil.number ≤ Day.last
      then some (Day.mk t.day.civil.number) else none) = _
    rw [number, if_pos ⟨t.exists_civil, t.day_bounds⟩]
  have year : Clues.yearFits (some t.day.year) none none t.day.year = true := by
    simp [Clues.yearFits, Clues.fits]
  have noYear : Clues.yearFits none none none t.day.weekYear = true := by
    simp [Clues.yearFits, Clues.fits]
  have civil : t.clues.civilFits t.day = true := by
    show (Clues.yearFits (some t.day.year) none none t.day.year && decide _ && decide _) = true
    simp [year]
  have week : t.clues.weekFits t.day = true := by
    show (Clues.yearFits none none none t.day.weekYear && true && true) = true
    simp [noYear]
  have all : (t.clues.civilFits t.day && t.clues.weekFits t.day && t.clues.ordinalFits t.day) =
      true := by
    rw [civil, week]
    rfl
  have found : Clues.checked (Day.ofCivil? t.day.year t.day.civil.month t.day.civil.day)
      (fun d => t.clues.civilFits d && t.clues.weekFits d && t.clues.ordinalFits d) =
        .ok t.day := by
    rw [day]
    exact if_pos all
  show (Clues.checked (Day.ofCivil? t.day.year t.day.civil.month t.day.civil.day)
    (fun d => t.clues.civilFits d && t.clues.weekFits d && t.clues.ordinalFits d) >>= _) = _
  rw [found]
  rfl

/-- What the standard notation says gives the time of day, with the nanoseconds of a leap second
where the seconds are sixty. -/
theorem resolveTime_clues : t.clues.resolveTime = .ok (t.secondOfDay, t.nanos) := by
  have second := t.second_bounds
  have fraction : t.fraction = t.nanos % nanosPerSecond := rfl
  have day : (t.hour / 12 * 12 + t.hour % 12) * 3600 + t.minute * 60 + t.second =
      t.secondOfDay := by
    rw [hour, minute, Timestamp.second]
    omega
  have nanos : (t.clues.nanosecond.getD 0) = t.fraction := by
    show (if t.fraction = 0 then none else some t.fraction).getD 0 = _
    split
    · exact Eq.symm ‹_›
    · rfl
  have resolved : t.clues.resolveTime =
      .ok ((t.hour / 12 * 12 + t.hour % 12) * 3600 + t.minute * 60 +
        (if t.second + t.nanos / nanosPerSecond = 60 then 59
          else t.second + t.nanos / nanosPerSecond),
        (if t.second + t.nanos / nanosPerSecond = 60 then nanosPerSecond else 0) +
          t.fraction) := by
    rw [← nanos, Clues.resolveTime]
    simp only [clues, Option.some.injEq, Option.isNone_some, Bool.false_eq_true, and_false,
      if_false]
    split <;> rfl
  rw [resolved]
  rcases second with ⟨small, noLeap, lt⟩ | ⟨leap, one, last⟩
  · rw [if_neg (by omega), if_neg (by omega), noLeap, Nat.add_zero, Nat.zero_add, day, fraction,
      Nat.mod_eq_of_lt small]
  · have nanos_lt := t.nanos_lt
    have rest : nanosPerSecond + t.fraction = t.nanos := by
      rw [fraction]
      simp only [nanosPerSecond] at *
      omega
    rw [one, last, if_pos rfl, if_pos rfl, rest, ← last, day]

/-- The text of a timestamp in the standard notation is read as the timestamp. -/
theorem readTimestamp?_text : readTimestamp? standardItems t.text.toList = some t := by
  rw [readTimestamp?, readItems?_text]
  show t.clues.resolve? = some t
  have whole : Timestamp.ofDay? t.day t.secondOfDay t.nanos = some t := by
    have number := t.day_number
    have rest := t.secondOfDay_eq
    have seconds : t.day.number * secondsPerDay + t.secondOfDay = t.seconds := by
      rw [secondsPerDay]
      omega
    rw [ofDay?, seconds, make?_self]
  rw [Clues.resolve?, resolveDay_clues, resolveTime_clues]
  show (Timestamp.ofDay? t.day t.secondOfDay t.nanos >>= _) = _
  rw [whole]
  rfl

end Timestamp

/-- A reader that trims first and knows the standard notation reads every timestamp. -/
theorem readTime?_text (t : Timestamp) :
    Field.readTime? standardItems (Text.trim t.text.toList) = some t := by
  rw [t.trim_text, Field.readTime?, t.readTimestamp?_text]
  rfl

/-- The standard pattern writes the standard notation. -/
theorem Pattern.write?_standard (t : Timestamp) : Pattern.standard.write? t = some t.text := by
  simp [write?, standard, Timestamp.text, writeItems?, standardItems, PatternItem.clock,
    PatternItem.zeros, PatternItem.write?, TextField.write?]

end Relmap.Calendar
