import Relmap.Calendar.Names
import Relmap.Calendar.Pattern
import Relmap.Calendar.Timestamp
import Relmap.Number.Word

/-!
# Writing a timestamp by a pattern

Each piece of a pattern writes its part of the timestamp. A timestamp knows no time zone, so the
pieces that name one have nothing to write and the whole text fails.
-/

namespace Relmap.Calendar

open Number (padded)

/-- A number filled up on the left to `width` characters; with `signed`, a sign is written always
and does not count. -/
def paddedInt (pad : Pad) (width : Nat) (signed : Bool) (n : Int) : List Char :=
  let sign := if n < 0 then ['-'] else if signed then ['+'] else []
  let digits := Nat.toDigits 10 n.natAbs
  let room := (if signed then width + 1 else width) - sign.length - digits.length
  match pad with
  | .none => sign ++ digits
  | .zero => sign ++ List.replicate room '0' ++ digits
  | .space => List.replicate room ' ' ++ sign ++ digits

/-- A number in two characters: tens and ones, the tens going on past the digits. -/
def twoChars (pad : Pad) (n : Nat) : List Char :=
  let ones := Char.ofNat (48 + n % 10)
  match n / 10, pad with
  | 0, .none => [ones]
  | 0, .space => [' ', ones]
  | tens, _ => [Char.ofNat (48 + tens), ones]

/-- A year in four digits, with a sign if it has another number of digits or is negative. -/
def yearChars (pad : Pad) (year : Int) : List Char :=
  paddedInt pad 4 (decide (year < 0 ∨ 10000 ≤ year)) year

/-- The hour of the half day, from one to twelve. -/
def Timestamp.halfDayHour (t : Timestamp) : Nat :=
  if t.hour % 12 = 0 then 12 else t.hour % 12

/-- The fraction of the second in nanoseconds, a leap second's too. -/
def Timestamp.fraction (t : Timestamp) : Nat := t.nanos % nanosPerSecond

namespace NumberField

/-- The characters of a number of a timestamp. -/
def write (f : NumberField) (pad : Pad) (t : Timestamp) : List Char :=
  let d := t.day
  match f with
  | .year => yearChars pad d.year
  | .century => twoChars pad ((d.year.fdiv 100).fmod 256).toNat
  | .yearOfCentury => twoChars pad (d.year.fmod 100).toNat
  | .weekYear => yearChars pad d.weekYear
  | .weekYearOfCentury => twoChars pad (d.weekYear.fmod 100).toNat
  | .quarter => Nat.toDigits 10 d.quarter
  | .month => twoChars pad d.civil.month
  | .day => twoChars pad d.civil.day
  | .weekFromSunday => twoChars pad (d.weekFrom 6)
  | .weekFromMonday => twoChars pad (d.weekFrom 0)
  | .week => twoChars pad d.week
  | .weekdayFromSunday => Nat.toDigits 10 ((d.weekday + 1) % 7)
  | .weekdayFromMonday => Nat.toDigits 10 (d.weekday + 1)
  | .ordinal => paddedInt pad 3 false d.ordinal
  | .hour => twoChars pad t.hour
  | .halfDayHour => twoChars pad t.halfDayHour
  | .minute => twoChars pad t.minute
  | .second => twoChars pad (t.second + t.nanos / nanosPerSecond)
  | .nanosecond => paddedInt pad 9 false t.fraction
  | .epochSeconds => paddedInt pad 9 false t.seconds

end NumberField

/-- The first digits of a fraction given in nanoseconds. -/
def fractionChars (digits nanos : Nat) : List Char :=
  padded digits (nanos / 10 ^ (9 - digits))

/-- A fraction as long as needed, in groups of three digits, after a point. -/
def shortestFraction (nanos : Nat) : List Char :=
  if nanos = 0 then []
  else if nanos % 1000000 = 0 then '.' :: fractionChars 3 nanos
  else if nanos % 1000 = 0 then '.' :: fractionChars 6 nanos
  else '.' :: fractionChars 9 nanos

namespace TextField

/-- The characters of a part of a timestamp; `none` for the parts that need a time zone. -/
def write? (f : TextField) (t : Timestamp) : Option (List Char) :=
  match f with
  | .shortMonth => some (shortName monthNames (t.day.civil.month - 1))
  | .longMonth => some (longName monthNames (t.day.civil.month - 1))
  | .shortWeekday => some (shortName weekdayNames t.day.weekday)
  | .longWeekday => some (longName weekdayNames t.day.weekday)
  | .lowerHalfDay => some (if t.hour < 12 then ['a', 'm'] else ['p', 'm'])
  | .upperHalfDay => some (if t.hour < 12 then ['A', 'M'] else ['P', 'M'])
  | .fraction => some (shortestFraction t.fraction)
  | .pointedFraction n => some ('.' :: fractionChars n t.fraction)
  | .bareFraction n => some (fractionChars n t.fraction)
  | .zoneName | .zoneOffset | .looseZoneOffset | .internetTime => none

end TextField

/-- The characters of a piece of a pattern. -/
def PatternItem.write? (t : Timestamp) : PatternItem → Option (List Char)
  | .literal s => some s
  | .blank s => some s
  | .number f pad => some (f.write pad t)
  | .text f => f.write? t

/-- The characters of a list of pieces. -/
def writeItems? (t : Timestamp) : List PatternItem → Option (List Char)
  | [] => some []
  | i :: is => do return (← i.write? t) ++ (← writeItems? t is)

/-- The text of a timestamp by a pattern; `none` if the pattern asks for a time zone. -/
def Pattern.write? (p : Pattern) (t : Timestamp) : Option String :=
  (writeItems? t p.items).map String.ofList

/-- The text of a timestamp in the standard notation. -/
def Timestamp.text (t : Timestamp) : String :=
  String.ofList ((writeItems? t standardItems).getD [])

end Relmap.Calendar
