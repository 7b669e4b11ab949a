import Relmap.Calendar.Civil

/-!
# Timestamps

Points in time as whole seconds since 1970 and nanoseconds. A leap second is the second before it
with a thousand million nanoseconds or more. Counts of milliseconds and seconds round down, before
1970 too.
-/

namespace Relmap.Calendar

/-- The nanoseconds of a second. -/
def nanosPerSecond : Nat := 1000000000

/-- The seconds of a day. -/
def secondsPerDay : Int := 86400

/-- A point in time. -/
structure Timestamp where
  /-- Whole seconds since 1970. -/
  seconds : Int
  /-- Nanoseconds; those of a leap second start at a thousand million. -/
  nanos : Nat
  first_le : Day.first * secondsPerDay ≤ seconds
  lt_end : seconds < (Day.last + 1) * secondsPerDay
  nanos_lt : nanos < 2 * nanosPerSecond
  /-- Only the last second of a minute can run on. -/
  leap_at_end : nanosPerSecond ≤ nanos → seconds % 60 = 59
  deriving DecidableEq

namespace Timestamp

/-- The timestamp of the given parts, if they are in bounds. -/
def make? (seconds : Int) (nanos : Nat) : Option Timestamp :=
  if h : Day.first * secondsPerDay ≤ seconds ∧ seconds < (Day.last + 1) * secondsPerDay ∧
      nanos < 2 * nanosPerSecond ∧ (nanosPerSecond ≤ nanos → seconds % 60 = 59) then
    some ⟨seconds, nanos, h.1, h.2.1, h.2.2.1, h.2.2.2⟩
  else none

/-- The timestamp of a count of milliseconds. -/
def ofMillis? (millis : Int) : Option Timestamp :=
  make? (millis.fdiv 1000) ((millis.fmod 1000).toNat * 1000000)

/-- The timestamp of a count of seconds. -/
def ofSeconds? (seconds : Int) : Option Timestamp := make? seconds 0

/-- Whole milliseconds since 1970. -/
def millis (t : Timestamp) : Int := t.seconds * 1000 + t.nanos / 1000000

/-- The day of the timestamp. -/
def day (t : Timestamp) : Day := ⟨t.seconds.fdiv secondsPerDay⟩

/-- The seconds since the start of the day. -/
def secondOfDay (t : Timestamp) : Nat := (t.seconds.fmod secondsPerDay).toNat

/-- The hour of the day. -/
def hour (t : Timestamp) : Nat := t.secondOfDay / 3600

/-- The minute of the hour. -/
def minute (t : Timestamp) : Nat := t.secondOfDay / 60 % 60

/-- The second of the minute, a leap second apart. -/
def second (t : Timestamp) : Nat := t.secondOfDay % 60

/-- The timestamp of a day and a time of the day. -/
def ofDay? (d : Day) (secondOfDay nanos : Nat) : Option Timestamp :=
  make? (d.number * secondsPerDay + secondOfDay) nanos

/-- The start of a day. -/
def midnight? (d : Day) : Option Timestamp := ofDay? d 0 0

end Timestamp

end Relmap.Calendar
