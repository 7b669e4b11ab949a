import Relmap.Calendar.Civil
import Relmap.Number.Word

/-!
# Moments in TOML

A moment is a day, a time of day, or both with a letter T or a blank between them. The seconds of a
time may be left out, and may have a fraction. A day with a time may tell its offset from universal
time: a letter Z, or a sign with hours and minutes.
-/

namespace Relmap.Toml

open Number (isDigit readNat?)

/-- The number in the `n` digits at the front of a text, and what follows them. -/
def digitsThen? (n : Nat) (s : List Char) : Option (Nat × List Char) :=
  if n ≤ s.length then (readNat? (s.take n)).map (·, s.drop n) else none

/-- What follows the character `c` at the front of a text. -/
def afterChar? (c : Char) : List Char → Option (List Char)
  | [] => none
  | d :: r => if d = c then some r else none

/-- What follows a day: year, month and day of the month with dashes between them. -/
def afterDay? (s : List Char) : Option (List Char) := do
  let (year, s) ← digitsThen? 4 s
  let s ← afterChar? '-' s
  let (month, s) ← digitsThen? 2 s
  let s ← afterChar? '-' s
  let (day, s) ← digitsThen? 2 s
  if (Calendar.Civil.mk year month day).exists? then some s else none

/-- What follows hours and minutes. -/
def afterMinutes? (s : List Char) : Option (List Char) := do
  let (hours, s) ← digitsThen? 2 s
  let s ← afterChar? ':' s
  let (minutes, s) ← digitsThen? 2 s
  if hours ≤ 23 ∧ minutes ≤ 59 then some s else none

/-- What follows a fraction of a second, which may be left out. -/
def afterFraction? : List Char → Option (List Char)
  | '.' :: r => if r.head?.any isDigit then some (r.dropWhile isDigit) else none
  | s => some s

/-- What follows the seconds, which may be left out; there is room for a leap second. -/
def afterSeconds? : List Char → Option (List Char)
  | ':' :: r => do
    let (seconds, r) ← digitsThen? 2 r
    if seconds ≤ 60 then afterFraction? r else none
  | s => some s

/-- What follows a time of day. -/
def afterTime? (s : List Char) : Option (List Char) := (afterMinutes? s).bind afterSeconds?

/-- Whether a text is an offset from universal time, or empty. -/
def isOffset : List Char → Bool
  | [] | ['Z'] | ['z'] => true
  | c :: r => (c = '+' || c = '-') && afterMinutes? r == some []

/-- Whether a text is a moment. -/
def isMoment (s : List Char) : Bool :=
  match afterDay? s with
  | some [] => true
  | some (c :: r) => (c = 'T' || c = 't' || c = ' ') && (afterTime? r).any isOffset
  | none => afterTime? s == some []

end Relmap.Toml
