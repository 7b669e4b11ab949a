/-!
# Names of months and weekdays

English names, long and of three letters. Reading takes any letter case, and a long name may stop
after its third letter.
-/

namespace Relmap.Calendar

/-- The months in order. -/
def monthNames : List String :=
  ["January", "February", "March", "April", "May", "June", "July", "August", "September",
    "October", "November", "December"]

/-- The weekdays from Monday. -/
def weekdayNames : List String :=
  ["Monday", "Tuesday", "Wednesday", "Thursday", "Friday", "Saturday", "Sunday"]

/-- The name at a place, in full. -/
def longName (names : List String) (i : Nat) : List Char := (names.getD i "").toList

/-- The first three letters of the name at a place. -/
def shortName (names : List String) (i : Nat) : List Char := (longName names i).take 3

/-- The text after `word` if the text starts with it in any letter case. -/
def afterWord? (word s : List Char) : Option (List Char) :=
  if (s.take word.length).map Char.toLower = word.map Char.toLower then some (s.drop word.length)
  else none

/-- The place of the name whose first three letters start the text, and the rest. -/
def readShortName? (names : List String) (s : List Char) : Option (Nat × List Char) :=
  (List.range names.length).findSome? fun i =>
    (afterWord? (shortName names i) s).map fun r => (i, r)

/-- The same for a name that may go on after three letters: if it goes on in full, all of it is
taken. -/
def readLongName? (names : List String) (s : List Char) : Option (Nat × List Char) :=
  (readShortName? names s).map fun (i, r) =>
    (i, (afterWord? ((longName names i).drop 3) r).getD r)

end Relmap.Calendar
