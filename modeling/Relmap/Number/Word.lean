/-!
# Signed words and integer text

Signed integers of a fixed number of bits, kept in two's complement, and the decimal text of
integers. Narrowing comes in two kinds: `toWord?` refuses a number that does not fit, and
`BitVec.ofInt` keeps its low bits.
-/

namespace Relmap.Number

-- A power is the one of the core library, whatever other instances a module has in scope.
attribute [instance (1100)] instPowNat

/-- A signed integer of `bits` bits in two's complement. -/
abbrev Word (bits : Nat) := BitVec bits

/-- Whether a number fits a signed word. -/
def Fits (bits : Nat) (n : Int) : Prop := -2 ^ (bits - 1) ≤ n ∧ n < 2 ^ (bits - 1)

instance (bits : Nat) (n : Int) : Decidable (Fits bits n) := by unfold Fits; infer_instance

/-- The word of a number, if the number fits. -/
def toWord? (bits : Nat) (n : Int) : Option (Word bits) :=
  if Fits bits n then some (BitVec.ofInt bits n) else none

/-- The bound of unsigned words. -/
def unsignedBound (bits : Nat) : Nat := 2 ^ bits

/-- The decimal text of a natural number. -/
def natText (n : Nat) : String := String.ofList (Nat.toDigits 10 n)

/-- The decimal text of an integer, with a minus sign below zero. -/
def intText : Int → String
  | .ofNat n => natText n
  | .negSucc n => "-" ++ natText (n + 1)

/-- Whether a character is one of the ten ASCII digits. -/
def isDigit (c : Char) : Bool := '0' ≤ c && c ≤ '9'

/-- The value of an ASCII digit. -/
def digitValue (c : Char) : Nat := c.toNat - 48

/-- The value of a run of ASCII digits. -/
def digitsValue (s : List Char) : Nat := s.foldl (fun n c => 10 * n + digitValue c) 0

/-- A natural number: digits only, at least one. -/
def readNat? (s : List Char) : Option Nat :=
  if s ≠ [] ∧ s.all isDigit then some (digitsValue s) else none

/-- A natural number after an optional plus sign. -/
def readUnsigned? : List Char → Option Nat
  | '+' :: r => readNat? r
  | s => readNat? s

/-- An integer: an optional sign and digits. -/
def readInt? : List Char → Option Int
  | '+' :: r => (readNat? r).map Int.ofNat
  | '-' :: r => (readNat? r).map fun n => -(n : Int)
  | s => (readNat? s).map Int.ofNat

/-- An integer that fits a signed word. -/
def readWord? (bits : Nat) (s : List Char) : Option (Word bits) :=
  (readInt? s).bind (toWord? bits)

/-- A decimal text of `n` filled up with zeros on the left to `width` characters. -/
def padded (width n : Nat) : List Char :=
  let digits := Nat.toDigits 10 n
  List.replicate (width - digits.length) '0' ++ digits

end Relmap.Number
