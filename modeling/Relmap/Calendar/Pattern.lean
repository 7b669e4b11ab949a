import Relmap.Text.Blank

/-!
# Date patterns

A pattern describes the text of a date and a time: directives, which start with a percent sign,
stand for parts of the date, and everything else stands for itself. A pattern with an unknown
directive is no pattern.
-/

namespace Relmap.Calendar

/-- How a number shorter than its field is filled up. -/
inductive Pad
  | none
  | zero
  | space
  deriving DecidableEq, Repr

/-- The parts of a date and time that are written as numbers. -/
inductive NumberField
  | year
  | century
  | yearOfCentury
  | weekYear
  | weekYearOfCentury
  | quarter
  | month
  | day
  /-- The week of the year, weeks starting on Sunday. -/
  | weekFromSunday
  /-- The week of the year, weeks starting on Monday. -/
  | weekFromMonday
  /-- The week of the week year. -/
  | week
  /-- The weekday from zero for Sunday. -/
  | weekdayFromSunday
  /-- The weekday from one for Monday. -/
  | weekdayFromMonday
  | ordinal
  | hour
  | halfDayHour
  | minute
  | second
  | nanosecond
  /-- Seconds since 1970. -/
  | epochSeconds
  deriving DecidableEq, Repr

/-- The parts that are written as words or have a layout of their own. -/
inductive TextField
  | shortMonth
  | longMonth
  | shortWeekday
  | longWeekday
  | lowerHalfDay
  | upperHalfDay
  /-- A point and the fraction of the second, as long as needed; nothing for none. -/
  | fraction
  /-- A point and so many digits of the fraction. -/
  | pointedFraction (digits : Nat)
  /-- So many digits of the fraction, without a point. -/
  | bareFraction (digits : Nat)
  | zoneName
  | zoneOffset
  /-- An offset whose minutes may be missing, or `Z`. -/
  | looseZoneOffset
  /-- Date, time and offset as on the Internet. -/
  | internetTime
  deriving DecidableEq, Repr

/-- A piece of a pattern. -/
inductive PatternItem
  /-- Text that stands for itself. -/
  | literal (text : List Char)
  /-- Blank text: written as it is, read as any blank text. -/
  | blank (text : List Char)
  | number (field : NumberField) (pad : Pad)
  | text (field : TextField)
  deriving DecidableEq, Repr

namespace PatternItem

/-- A number filled up with zeros. -/
def zeros (f : NumberField) : PatternItem := .number f .zero

/-- The date as month, day and year of the century, with slashes. -/
def shortDate : List PatternItem :=
  [zeros .month, .literal ['/'], zeros .day, .literal ['/'], zeros .yearOfCentury]

/-- The time as hour, minute and second, with colons. -/
def clock : List PatternItem :=
  [zeros .hour, .literal [':'], zeros .minute, .literal [':'], zeros .second]

/-- The meaning of a directive of one letter. -/
def ofLetter? (c : Char) : Option (List PatternItem) :=
  match c with
  | 'A' => some [.text .longWeekday]
  | 'B' => some [.text .longMonth]
  | 'C' => some [zeros .century]
  | 'D' => some shortDate
  | 'F' => some [zeros .year, .literal ['-'], zeros .month, .literal ['-'], zeros .day]
  | 'G' => some [zeros .weekYear]
  | 'H' => some [zeros .hour]
  | 'I' => some [zeros .halfDayHour]
  | 'M' => some [zeros .minute]
  | 'P' => some [.text .lowerHalfDay]
  | 'R' => some [zeros .hour, .literal [':'], zeros .minute]
  | 'S' => some [zeros .second]
  | 'T' => some clock
  | 'U' => some [zeros .weekFromSunday]
  | 'V' => some [zeros .week]
  | 'W' => some [zeros .weekFromMonday]
  | 'X' => some clock
  | 'Y' => some [zeros .year]
  | 'Z' => some [.text .zoneName]
  | 'a' => some [.text .shortWeekday]
  | 'b' => some [.text .shortMonth]
  | 'c' => some <|
      [.text .shortWeekday, .blank [' '], .text .shortMonth, .blank [' '], .number .day .space,
        .blank [' ']] ++ clock ++ [.blank [' '], zeros .year]
  | 'd' => some [zeros .day]
  | 'e' => some [.number .day .space]
  | 'f' => some [zeros .nanosecond]
  | 'g' => some [zeros .weekYearOfCentury]
  | 'h' => some [.text .shortMonth]
  | 'j' => some [zeros .ordinal]
  | 'k' => some [.number .hour .space]
  | 'l' => some [.number .halfDayHour .space]
  | 'm' => some [zeros .month]
  | 'n' => some [.blank ['\n']]
  | 'p' => some [.text .upperHalfDay]
  | 'q' => some [.number .quarter .none]
  | 'r' => some
      [zeros .halfDayHour, .literal [':'], zeros .minute, .literal [':'], zeros .second,
        .blank [' '], .text .upperHalfDay]
  | 's' => some [.number .epochSeconds .none]
  | 't' => some [.blank ['\t']]
  | 'u' => some [.number .weekdayFromMonday .none]
  | 'v' => some
      [.number .day .space, .literal ['-'], .text .shortMonth, .literal ['-'], zeros .year]
  | 'w' => some [.number .weekdayFromSunday .none]
  | 'x' => some shortDate
  | 'y' => some [zeros .yearOfCentury]
  | 'z' => some [.text .zoneOffset]
  | '+' => some [.text .internetTime]
  | '%' => some [.literal ['%']]
  | _ => none

/-- The meaning of a directive of one letter under another way of filling up. Only a single number
can be filled up another way. -/
def repadded? (pad : Pad) (c : Char) : Option (List PatternItem) :=
  match ofLetter? c with
  | some [.number f _] => some [.number f pad]
  | _ => none

/-- The number of digits that a fraction of fixed length may have. -/
def fractionLength? (c : Char) : Option Nat :=
  match c with
  | '3' => some 3
  | '6' => some 6
  | '9' => some 9
  | _ => none

/-- The meaning of the directive at the head of the characters after a percent sign, and how many
of them it takes. -/
def directive? : List Char → Option (List PatternItem × Nat)
  | '-' :: c :: _ => (repadded? .none c).map (·, 2)
  | '0' :: c :: _ => (repadded? .zero c).map (·, 2)
  | '_' :: c :: _ => (repadded? .space c).map (·, 2)
  | '#' :: 'z' :: _ => some ([.text .looseZoneOffset], 2)
  | ':' :: 'z' :: _ => some ([.text .zoneOffset], 2)
  | ':' :: ':' :: 'z' :: _ => some ([.text .zoneOffset], 3)
  | ':' :: ':' :: ':' :: 'z' :: _ => some ([.text .zoneOffset], 4)
  | '.' :: 'f' :: _ => some ([.text .fraction], 2)
  | '.' :: c :: 'f' :: _ => (fractionLength? c).map fun n => ([.text (.pointedFraction n)], 3)
  | c :: r =>
    match fractionLength? c, r with
    | some n, 'f' :: _ => some ([.text (.bareFraction n)], 2)
    | _, _ => (ofLetter? c).map (·, 1)
  | [] => none

end PatternItem

/-- The pieces of a pattern; `none` if it has an unknown directive. -/
def patternItems? : List Char → Option (List PatternItem)
  | [] => some []
  | c :: r =>
    if c = '%' then
      match PatternItem.directive? r with
      | some (items, n) => (patternItems? (r.drop n)).map (items ++ ·)
      | none => none
    else if Text.isBlank c then
      let run := r.takeWhile Text.isBlank
      (patternItems? (r.drop run.length)).map (.blank (c :: run) :: ·)
    else
      let run := r.takeWhile fun d => !Text.isBlank d && d != '%'
      (patternItems? (r.drop run.length)).map (.literal (c :: run) :: ·)
  termination_by s => s.length
  decreasing_by all_goals grind

/-- A pattern: its text and its pieces. -/
structure Pattern where
  text : String
  items : List PatternItem
  items_eq : patternItems? text.toList = some items
  deriving DecidableEq

/-- The pattern with a given text. -/
def Pattern.ofText? (text : String) : Option Pattern :=
  match h : patternItems? text.toList with
  | some items => some ⟨text, items, h⟩
  | none => none

/-- Year, month, day and time with the fraction of the second as long as needed. -/
def standardItems : List PatternItem :=
  [PatternItem.zeros .year, .literal ['-'], PatternItem.zeros .month, .literal ['-'],
    PatternItem.zeros .day, .blank [' ']] ++ PatternItem.clock ++ [.text .fraction]

/-- The pattern taken where none is given. -/
def Pattern.standard : Pattern where
  text := "%Y-%m-%d %H:%M:%S%.f"
  items := standardItems
  items_eq := by
    have chars : "%Y-%m-%d %H:%M:%S%.f".toList =
        ['%', 'Y', '-', '%', 'm', '-', '%', 'd', ' ', '%', 'H', ':', '%', 'M', ':', '%', 'S', '%',
          '.', 'f'] := by decide
    rw [chars]
    simp [patternItems?, PatternItem.directive?, PatternItem.ofLetter?, PatternItem.fractionLength?,
      standardItems, PatternItem.zeros, PatternItem.clock, Text.isBlank, Text.blankRanges]

end Relmap.Calendar
