import Relmap.Calendar.Clues
import Relmap.Calendar.Names
import Relmap.Calendar.Pattern
import Relmap.Number.Word

/-!
# Reading a timestamp by a pattern

Each piece of a pattern takes its characters from the front of the text and adds to the clues.
Numbers may have fewer digits than their field is wide and blank text in front of them; a number
with a sign may have any length. Nothing may be left of the text at the end.
-/

namespace Relmap.Calendar

open Text (trimStart isBlank)
open Number (isDigit digitsValue)

/-- The bound of the numbers that a directive may read. -/
def numberLimit : Nat := Number.unsignedBound 63

/-- Digits at the front of the text, from `least` to `most`, and the rest. -/
def takeDigits? (least most : Nat) (s : List Char) : Option (Nat × List Char) :=
  let digits := (s.take most).takeWhile isDigit
  let n := digitsValue digits
  if digits.length < least ∨ numberLimit ≤ n then none else some (n, s.drop digits.length)

/-- A number that may have a sign: with one it may have any length, without one at most `most`
digits. -/
def takeSigned? (most : Nat) (s : List Char) : Option (Int × List Char) :=
  match s with
  | '-' :: r => (takeDigits? 1 r.length r).map fun (n, r) => (-(n : Int), r)
  | '+' :: r => (takeDigits? 1 r.length r).map fun (n, r) => ((n : Int), r)
  | s => (takeDigits? 1 most s).map fun (n, r) => ((n : Int), r)

namespace NumberField

/-- The largest number of digits of a number without a sign; `none` for any number of digits. -/
def width : NumberField → Option Nat
  | .year | .weekYear => some 4
  | .quarter | .weekdayFromSunday | .weekdayFromMonday => some 1
  | .ordinal => some 3
  | .nanosecond => some 9
  | .epochSeconds => none
  | _ => some 2

/-- Whether the number may have a sign. -/
def isSigned : NumberField → Bool
  | .year | .weekYear => true
  | _ => false

/-- The clues with a number added; `none` if it is out of bounds or contradicts them. -/
def note? (f : NumberField) (n : Int) (c : Clues) : Option Clues :=
  let bounded (lo hi : Nat) : Option Nat := if lo ≤ n ∧ n ≤ hi then some n.toNat else none
  let yearBound : Option Int := if Number.Fits 32 n then some n else none
  match f with
  | .year => do return { c with year := ← Clues.agree? c.year (← yearBound) }
  | .century => do return { c with century := ← Clues.agree? c.century n }
  | .yearOfCentury => do return { c with yearOfCentury := ← Clues.agree? c.yearOfCentury n }
  | .weekYear => do return { c with weekYear := ← Clues.agree? c.weekYear (← yearBound) }
  | .weekYearOfCentury => do
    return { c with weekYearOfCentury := ← Clues.agree? c.weekYearOfCentury n }
  | .quarter => do return { c with quarter := ← Clues.agree? c.quarter (← bounded 1 4) }
  | .month => do return { c with month := ← Clues.agree? c.month (← bounded 1 12) }
  | .day => do return { c with day := ← Clues.agree? c.day (← bounded 1 31) }
  | .weekFromSunday => do
    return { c with weekFromSunday := ← Clues.agree? c.weekFromSunday (← bounded 0 53) }
  | .weekFromMonday => do
    return { c with weekFromMonday := ← Clues.agree? c.weekFromMonday (← bounded 0 53) }
  | .week => do return { c with week := ← Clues.agree? c.week (← bounded 1 53) }
  | .weekdayFromSunday => do
    return { c with weekday := ← Clues.agree? c.weekday (((← bounded 0 6) + 6) % 7) }
  | .weekdayFromMonday => do
    return { c with weekday := ← Clues.agree? c.weekday ((← bounded 1 7) - 1) }
  | .ordinal => do return { c with ordinal := ← Clues.agree? c.ordinal (← bounded 1 366) }
  | .hour => do c.withHour? (← bounded 0 23)
  | .halfDayHour => do
    return { c with halfDayHour := ← Clues.agree? c.halfDayHour ((← bounded 1 12) % 12) }
  | .minute => do return { c with minute := ← Clues.agree? c.minute (← bounded 0 59) }
  | .second => do return { c with second := ← Clues.agree? c.second (← bounded 0 60) }
  | .nanosecond => do
    return { c with nanosecond := ← Clues.agree? c.nanosecond (← bounded 0 999999999) }
  | .epochSeconds => do return { c with epochSeconds := ← Clues.agree? c.epochSeconds n }

/-- Reads a number from the front of the text. -/
def read? (f : NumberField) (s : List Char) (c : Clues) : Option (List Char × Clues) := do
  let s := trimStart s
  let width := f.width.getD s.length
  if f.isSigned then
    let (n, r) ← takeSigned? width s
    return (r, ← f.note? n c)
  else
    let (n, r) ← takeDigits? 1 width s
    return (r, ← f.note? n c)

end NumberField

/-- A fraction of one to nine digits, further digits being skipped: nanoseconds and the rest. -/
def takeFraction? (s : List Char) : Option (Nat × List Char) :=
  (takeDigits? 1 9 s).map fun (n, r) =>
    (n * 10 ^ (9 - (s.length - r.length)), r.dropWhile isDigit)

/-- A fraction of a fixed number of digits: nanoseconds and the rest. -/
def takeFixedFraction? (digits : Nat) (s : List Char) : Option (Nat × List Char) :=
  (takeDigits? digits digits s).map fun (n, r) => (n * 10 ^ (9 - digits), r)

/-- A zone offset in seconds, `+hh:mm` with the colon free to be blank text or missing. `loose`
lets the minutes be missing. -/
def takeOffset? (loose : Bool) (s : List Char) : Option (Int × List Char) :=
  match s with
  | [] => none
  | sign :: s =>
    if sign ≠ '+' ∧ sign ≠ '-' ∧ sign ≠ '\u2212' then none
    else do
      let (hours, s) ← takeDigits? 2 2 s
      let s := s.dropWhile fun c => c == ':' || isBlank c
      let (minutes, s) ←
        match s with
        | m :: n :: r =>
          if isDigit m && isDigit n && m < '6' then some (digitsValue [m, n], r) else none
        | [] => if loose then some (0, []) else none
        | _ => none
      let seconds : Int := hours * 3600 + minutes * 60
      return (if sign = '+' then seconds else -seconds, s)

/-- A zone offset, or the letter for none. -/
def takeZuluOffset? (loose : Bool) (s : List Char) : Option (Int × List Char) :=
  match s with
  | 'Z' :: r => some (0, r)
  | 'z' :: r => some (0, r)
  | s => takeOffset? loose s

namespace Clues

/-- The clues with the nanoseconds added. -/
def withNanos? (c : Clues) (n : Nat) : Option Clues := do
  return { c with nanosecond := ← agree? c.nanosecond n }

/-- The clues with a zone offset added. -/
def withOffset? (c : Clues) (n : Int) : Option Clues := do
  return { c with zoneOffset := ← agree? c.zoneOffset n }

/-- The clues with a month, counted from zero, added. -/
def withMonth? (c : Clues) (i : Nat) : Option Clues := do
  return { c with month := ← agree? c.month (i + 1) }

/-- The clues with a weekday added. -/
def withWeekday? (c : Clues) (i : Nat) : Option Clues := do
  return { c with weekday := ← agree? c.weekday i }

end Clues

/-- Reads a literal text. -/
def takeLiteral? (text s : List Char) : Option (List Char) :=
  if s.take text.length = text then some (s.drop text.length) else none

/-- Reads a mark between two numbers, and blank text in front of it. -/
def takeMark? (c : Char) (s : List Char) : Option (List Char) := takeLiteral? [c] (trimStart s)

/-- Reads date, time and offset as on the Internet: `T` or a blank between date and time, and `UTC`
or `Z` for no offset. Blank text may stand around the marks within the date and within the time. -/
def readInternetTime? (s : List Char) (c : Clues) : Option (List Char × Clues) := do
  let (s, c) ← NumberField.year.read? s c
  let (s, c) ← NumberField.month.read? (← takeMark? '-' s) c
  let (s, c) ← NumberField.day.read? (← takeMark? '-' s) c
  let s ←
    match s with
    | 't' :: r => some r
    | 'T' :: r => some r
    | ' ' :: r => some r
    | _ => none
  let (s, c) ← NumberField.hour.read? s c
  let (s, c) ← NumberField.minute.read? (← takeMark? ':' s) c
  let (s, c) ← NumberField.second.read? (← takeMark? ':' s) c
  let (s, c) ←
    match s with
    | '.' :: r => do
      let (n, r) ← takeFraction? r
      some (r, ← c.withNanos? n)
    | _ => some (s, c)
  let s := trimStart s
  let (offset, s) ←
    match afterWord? ['U', 'T', 'C'] s with
    | some r => some (0, r)
    | none => takeZuluOffset? false s
  return (s, ← c.withOffset? offset)

namespace TextField

/-- Reads a part from the front of the text. A fraction with its point may be missing. -/
def read? (f : TextField) (s : List Char) (c : Clues) : Option (List Char × Clues) :=
  match f with
  | .shortMonth => do
    let (i, r) ← readShortName? monthNames s
    return (r, ← c.withMonth? i)
  | .longMonth => do
    let (i, r) ← readLongName? monthNames s
    return (r, ← c.withMonth? i)
  | .shortWeekday => do
    let (i, r) ← readShortName? weekdayNames s
    return (r, ← c.withWeekday? i)
  | .longWeekday => do
    let (i, r) ← readLongName? weekdayNames s
    return (r, ← c.withWeekday? i)
  | .lowerHalfDay | .upperHalfDay =>
    match afterWord? ['a', 'm'] s, afterWord? ['p', 'm'] s with
    | some r, _ => do return (r, { c with halfDay := ← Clues.agree? c.halfDay 0 })
    | none, some r => do return (r, { c with halfDay := ← Clues.agree? c.halfDay 1 })
    | none, none => none
  | .fraction =>
    match s with
    | '.' :: r => do
      let (n, r) ← takeFraction? r
      return (r, ← c.withNanos? n)
    | _ => some (s, c)
  | .pointedFraction digits =>
    match s with
    | '.' :: r => do
      let (n, r) ← takeFixedFraction? digits r
      return (r, ← c.withNanos? n)
    | _ => some (s, c)
  | .bareFraction digits => do
    let (n, r) ← takeFixedFraction? digits s
    return (r, ← c.withNanos? n)
  | .zoneName => some (s.dropWhile fun d => !isBlank d, c)
  | .zoneOffset => do
    let (n, r) ← takeOffset? false (trimStart s)
    return (r, ← c.withOffset? n)
  | .looseZoneOffset => do
    let (n, r) ← takeZuluOffset? true (trimStart s)
    return (r, ← c.withOffset? n)
  | .internetTime => readInternetTime? s c

end TextField

/-- Reads a piece of a pattern from the front of the text. -/
def PatternItem.read? (s : List Char) (c : Clues) : PatternItem → Option (List Char × Clues)
  | .literal word => (takeLiteral? word s).map (·, c)
  | .blank _ => some (trimStart s, c)
  | .number f _ => f.read? s c
  | .text f => f.read? s c

/-- The clues that a whole text gives by a list of pieces. -/
def readItems? : List PatternItem → List Char → Clues → Option Clues
  | [], [], c => some c
  | [], _ :: _, _ => none
  | i :: is, s, c => do
    let (s, c) ← i.read? s c
    readItems? is s c

/-- The timestamp written by a list of pieces. -/
def readTimestamp? (items : List PatternItem) (s : List Char) : Option Timestamp :=
  (readItems? items s {}).bind Clues.resolve?

/-- The day written by a list of pieces. -/
def readDay? (items : List PatternItem) (s : List Char) : Option Day :=
  (readItems? items s {}).bind fun c => c.resolveDay.toOption

end Relmap.Calendar
