/-!
# Days of the Gregorian calendar

Days are counted from 1970-01-01, backwards too, and named by year, month and day of the Gregorian
calendar extended to all years. Counting goes by eras of four hundred years that start on the first
of March, so that the leap day is the last of its year.
-/

namespace Relmap.Calendar

/-- A day by its year, month and day of the month. -/
structure Civil where
  year : Int
  month : Nat
  day : Nat
  deriving DecidableEq, Repr

/-- Whether a year has a leap day. -/
def isLeapYear (y : Int) : Bool := y % 4 = 0 && (y % 100 ≠ 0 || y % 400 = 0)

/-- The number of days of a month; there are none in a month that does not exist. -/
def daysInMonth (y : Int) (m : Nat) : Nat :=
  match m with
  | 1 | 3 | 5 | 7 | 8 | 10 | 12 => 31
  | 4 | 6 | 9 | 11 => 30
  | 2 => if isLeapYear y then 29 else 28
  | _ => 0

/-- Whether the day exists. -/
def Civil.exists? (c : Civil) : Bool := 1 ≤ c.day && c.day ≤ daysInMonth c.year c.month

/-- The count of a day. -/
def Civil.number (c : Civil) : Int :=
  let y := if c.month ≤ 2 then c.year - 1 else c.year
  let era := y.fdiv 400
  let yearOfEra := y - era * 400
  let monthFromMarch : Int := if c.month ≤ 2 then c.month + 9 else c.month - 3
  let dayOfYear := (153 * monthFromMarch + 2) / 5 + c.day - 1
  let dayOfEra := yearOfEra * 365 + yearOfEra / 4 - yearOfEra / 100 + dayOfYear
  era * 146097 + dayOfEra - 719468

/-- The day with a given count. -/
def Civil.ofNumber (n : Int) : Civil :=
  let z := n + 719468
  let era := z.fdiv 146097
  let dayOfEra := z - era * 146097
  let yearOfEra := (dayOfEra - dayOfEra / 1460 + dayOfEra / 36524 - dayOfEra / 146096) / 365
  let dayOfYear := dayOfEra - (365 * yearOfEra + yearOfEra / 4 - yearOfEra / 100)
  let monthFromMarch := (5 * dayOfYear + 2) / 153
  let day := dayOfYear - (153 * monthFromMarch + 2) / 5 + 1
  let month := if monthFromMarch < 10 then monthFromMarch + 3 else monthFromMarch - 9
  let year := yearOfEra + era * 400
  ⟨if month ≤ 2 then year + 1 else year, month.toNat, day.toNat⟩

example : (Civil.mk 2024 2 29).number = 19782 ∧ Civil.ofNumber 19782 = ⟨2024, 2, 29⟩ := by decide

/-- A day of the calendar, by its count. -/
structure Day where
  number : Int
  deriving DecidableEq, Repr

namespace Day

/-- The first day of the calendar in use. -/
def first : Int := Civil.number ⟨-262143, 1, 1⟩

/-- The last day of the calendar in use. -/
def last : Int := Civil.number ⟨262142, 12, 31⟩

/-- The day of a year, month and day of the month, if it exists and is in use. -/
def ofCivil? (year : Int) (month day : Nat) : Option Day :=
  let c : Civil := ⟨year, month, day⟩
  if c.exists? ∧ first ≤ c.number ∧ c.number ≤ last then some ⟨c.number⟩ else none

/-- The day as year, month and day of the month. -/
def civil (d : Day) : Civil := Civil.ofNumber d.number

/-- The year of the day. -/
def year (d : Day) : Int := d.civil.year

/-- The count of the first day of the day's year, less one. -/
def yearStart (year : Int) : Int := Civil.number ⟨year, 1, 1⟩ - 1

/-- The place of the day in its year, from one. -/
def ordinal (d : Day) : Nat := (d.number - yearStart d.year).toNat

/-- The day of a year with a given place in it, if it exists and is in use. -/
def ofOrdinal? (year : Int) (ordinal : Nat) : Option Day :=
  let n := yearStart year + ordinal
  let size := if isLeapYear year then 366 else 365
  if 1 ≤ ordinal ∧ ordinal ≤ size ∧ first ≤ n ∧ n ≤ last then some ⟨n⟩ else none

/-- The weekday, from zero for Monday. -/
def weekday (d : Day) : Nat := ((d.number + 3) % 7).toNat

/-- How many days the weekday `w` comes after the weekday `start`. -/
def weekdaysSince (w start : Nat) : Nat := (w + 7 - start) % 7

/-- The week of the year when weeks start on a given weekday; days before the first such are in
week zero. -/
def weekFrom (start : Nat) (d : Day) : Nat := (d.ordinal + 6 - weekdaysSince d.weekday start) / 7

/-- The Thursday of the day's week, which decides the year the week belongs to. -/
def thursday (d : Day) : Day := ⟨d.number - d.weekday + 3⟩

/-- The year that the day's week belongs to. -/
def weekYear (d : Day) : Int := d.thursday.year

/-- The number of the day's week in that year. -/
def week (d : Day) : Nat := (d.thursday.ordinal + 6) / 7

/-- The number of weeks of a year. -/
def weeksInYear (year : Int) : Nat := (Day.mk (Civil.number ⟨year, 12, 28⟩)).week

/-- The day of a week and a weekday, if there is such a week and the day is in use. -/
def ofWeek? (weekYear : Int) (week weekday : Nat) : Option Day :=
  let start : Day := ⟨Civil.number ⟨weekYear, 1, 4⟩⟩
  let n := start.number - start.weekday + 7 * ((week : Int) - 1) + weekday
  if 1 ≤ week ∧ week ≤ weeksInYear weekYear ∧ first ≤ n ∧ n ≤ last then some ⟨n⟩ else none

/-- The quarter of the year, from one. -/
def quarter (d : Day) : Nat := (d.civil.month - 1) / 3 + 1

end Day

end Relmap.Calendar
