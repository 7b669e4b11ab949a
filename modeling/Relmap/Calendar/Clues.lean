import Relmap.Calendar.Timestamp
import Relmap.Number.Word

/-!
# What a text says about a date

A text read by a pattern gives numbers for some parts of a date and time. `Clues` collects them,
refusing a part that is said twice with two values. A day follows from a year with a month and a
day, an ordinal or a week, and has to agree with everything else said; a time of day follows from
hour and minute; a timestamp from both, or from a count of seconds that fills what is missing.
-/

namespace Relmap.Calendar

/-- Why clues give no date: something is missing, or something is contradicted or out of bounds. -/
inductive ClueFault
  | missing
  | wrong
  deriving DecidableEq, Repr

/-- The parts of a date and time that a text has given. -/
structure Clues where
  year : Option Int := none
  century : Option Int := none
  yearOfCentury : Option Int := none
  weekYear : Option Int := none
  weekYearOfCentury : Option Int := none
  quarter : Option Nat := none
  month : Option Nat := none
  day : Option Nat := none
  weekFromSunday : Option Nat := none
  weekFromMonday : Option Nat := none
  week : Option Nat := none
  weekday : Option Nat := none
  ordinal : Option Nat := none
  /-- Zero before noon, one after it. -/
  halfDay : Option Nat := none
  /-- The hour of the half day, zero for twelve. -/
  halfDayHour : Option Nat := none
  minute : Option Nat := none
  second : Option Nat := none
  nanosecond : Option Nat := none
  epochSeconds : Option Int := none
  zoneOffset : Option Int := none
  deriving DecidableEq, Repr

namespace Clues

/-- What is known of a part once `new` is said of it; `none` if it contradicts `old`. -/
def agree? {α : Type} [DecidableEq α] (old : Option α) (new : α) : Option (Option α) :=
  match old with
  | some v => if v = new then some (some new) else none
  | none => some (some new)

/-- Whether a part is unknown or as given. -/
def fits {α : Type} [DecidableEq α] (known : Option α) (v : α) : Bool :=
  match known with
  | some k => k = v
  | none => true

/-- The hour of the day, said as one number. -/
def withHour? (c : Clues) (n : Nat) : Option Clues :=
  if n < 24 then do
    let halfDay ← agree? c.halfDay (n / 12)
    let halfDayHour ← agree? c.halfDayHour (n % 12)
    return { c with halfDay, halfDayHour }
  else none

/-! ### Years -/

/-- The year from its three ways to be said. Two digits alone are of the years 1970 to 2069; a
century goes with years from zero on and not alone. -/
def resolveYear (year century ofCentury : Option Int) : Except ClueFault (Option Int) :=
  match year, century, ofCentury with
  | y, none, none => .ok y
  | some y, c, r =>
    if y < 0 then .error .wrong
    else if fits c (y / 100) && fits r (y % 100) then .ok (some y)
    else .error .wrong
  | none, some c, some r =>
    if Number.Fits 32 (c * 100 + r) then .ok (some (c * 100 + r)) else .error .wrong
  | none, none, some r => .ok (some (r + if r < 70 then 2000 else 1900))
  | none, some _, none => .error .missing

/-- Whether a year agrees with its three ways to be said. -/
def yearFits (year century ofCentury : Option Int) (y : Int) : Bool :=
  fits year y &&
    if 0 ≤ y then fits century (y / 100) && fits ofCentury (y % 100)
    else century.isNone && ofCentury.isNone

/-! ### Days -/

/-- Whether a day agrees with what is said of year, month and day. -/
def civilFits (c : Clues) (d : Day) : Bool :=
  yearFits c.year c.century c.yearOfCentury d.year && fits c.month d.civil.month &&
    fits c.day d.civil.day

/-- Whether a day agrees with what is said of its week. -/
def weekFits (c : Clues) (d : Day) : Bool :=
  yearFits c.weekYear none c.weekYearOfCentury d.weekYear && fits c.week d.week &&
    fits c.weekday d.weekday

/-- Whether a day agrees with what is said of its place in the year. -/
def ordinalFits (c : Clues) (d : Day) : Bool :=
  fits c.ordinal d.ordinal && fits c.weekFromSunday (d.weekFrom 6) &&
    fits c.weekFromMonday (d.weekFrom 0)

/-- The day of a week of a year whose weeks start on the weekday `start`. -/
def dayOfWeek? (year : Int) (week weekday start : Nat) : Option Day :=
  match Day.ofOrdinal? year 1 with
  | none => none
  | some newYear =>
    let firstStart := 1 + Day.weekdaysSince start newYear.weekday
    let n : Int := firstStart + ((week : Int) - 1) * 7 + Day.weekdaysSince weekday start
    if n ≤ 0 then none else Day.ofOrdinal? year n.toNat

/-- A day found by some of the clues, if it exists and agrees with the others. -/
def checked (d : Option Day) (ok : Day → Bool) : Except ClueFault Day :=
  match d with
  | some d => if ok d then .ok d else .error .wrong
  | none => .error .wrong

/-- The day, from the first of: month and day, ordinal, week from Sunday, week from Monday, and
week of the week year. -/
def resolveDay (c : Clues) : Except ClueFault Day := do
  let year ← resolveYear c.year c.century c.yearOfCentury
  let weekYear ← resolveYear c.weekYear none c.weekYearOfCentury
  let all (d : Day) : Bool := c.civilFits d && c.weekFits d && c.ordinalFits d
  let day ←
    match year, c.month, c.day, c.ordinal, c.weekFromSunday, c.weekFromMonday, c.weekday with
    | some y, some m, some d, _, _, _, _ => checked (Day.ofCivil? y m d) all
    | some y, _, _, some n, _, _, _ => checked (Day.ofOrdinal? y n) all
    | some y, _, _, _, some w, _, some wd => checked (dayOfWeek? y w wd 6) all
    | some y, _, _, _, _, some w, some wd => checked (dayOfWeek? y w wd 0) all
    | _, _, _, _, _, _, wd =>
      match weekYear, c.week, wd with
      | some y, some w, some wd => checked (Day.ofWeek? y w wd) all
      | _, _, _ => .error .missing
  if fits c.quarter day.quarter then .ok day else .error .wrong

/-! ### Times -/

/-- The second of the day and the nanoseconds. Seconds may be left out, but not before a fraction;
the second sixty is a leap second. -/
def resolveTime (c : Clues) : Except ClueFault (Nat × Nat) :=
  match c.halfDay, c.halfDayHour, c.minute with
  | some half, some hour, some minute =>
    let (second, leap) := if c.second = some 60 then (59, nanosPerSecond) else (c.second.getD 0, 0)
    if c.nanosecond.isSome ∧ c.second.isNone then .error .missing
    else .ok ((half * 12 + hour) * 3600 + minute * 60 + second, leap + c.nanosecond.getD 0)
  | _, _, _ => .error .missing

/-- A timestamp from a day and a time. -/
def join (d : Day) (time : Nat × Nat) : Except ClueFault Timestamp :=
  match Timestamp.ofDay? d time.1 time.2 with
  | some t => .ok t
  | none => .error .wrong

/-- The clues with every part that a count of seconds gives; at a leap second the count may be one
too high. -/
def filled? (c : Clues) (seconds : Int) : Option Clues := do
  let t ← Timestamp.ofSeconds? seconds
  let (t, c) ←
    if c.second = some 60 then
      if t.second = 59 then some (t, c)
      else if t.second = 0 then (Timestamp.ofSeconds? (seconds - 1)).map (·, c)
      else none
    else do
      let second ← agree? c.second t.second
      some (t, { c with second })
  let year ← agree? c.year t.day.year
  let ordinal ← agree? c.ordinal t.day.ordinal
  let c ← { c with year, ordinal }.withHour? t.hour
  let minute ← agree? c.minute t.minute
  return { c with minute }

/-- The timestamp, as it is said. A zone offset plays no part. -/
def resolve? (c : Clues) : Option Timestamp :=
  match c.resolveDay, c.resolveTime with
  | .ok d, .ok time => do
    let t ← Timestamp.ofDay? d time.1 time.2
    match c.epochSeconds with
    | none => some t
    | some n =>
      if n = t.seconds ∨ (nanosPerSecond ≤ t.nanos ∧ n = t.seconds + 1) then some t else none
  | day, time =>
    match c.epochSeconds with
    | none => none
    | some n =>
      if day matches .error .wrong then none
      else if time matches .error .wrong then none
      else do
        let c ← c.filled? n
        match c.resolveDay, c.resolveTime with
        | .ok d, .ok time => Timestamp.ofDay? d time.1 time.2
        | _, _ => none

end Clues

end Relmap.Calendar
