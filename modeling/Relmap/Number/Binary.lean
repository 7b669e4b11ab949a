import Relmap.Number.Word

/-!
# Binary floating point

Floating-point numbers of an interchange format, held as their three fields. A finite number is
`significand · 2 ^ power`, up to its sign. Every operation that leaves the format's grid goes
through `ofRatio`, which rounds a quotient of natural numbers to the nearest number of the format,
ties to the even significand.
-/

namespace Relmap.Number

/-- The two free widths of an interchange format. -/
structure BinaryFormat where
  /-- Bits of the biased exponent. -/
  exponentBits : Nat
  /-- Bits of the fraction. -/
  fractionBits : Nat

/-- Single precision: thirty-two bits. -/
def BinaryFormat.single : BinaryFormat := ⟨8, 23⟩

/-- Double precision: sixty-four bits. -/
def BinaryFormat.double : BinaryFormat := ⟨11, 52⟩

/-- The power of two that the least significand bit of the smallest numbers stands for. -/
def BinaryFormat.leastPower (f : BinaryFormat) : Int :=
  2 - 2 ^ (f.exponentBits - 1) - f.fractionBits

/-- The biased exponent of infinities and NaNs. -/
def BinaryFormat.topExponent (f : BinaryFormat) : Nat := 2 ^ f.exponentBits - 1

/-- A bound on decimal exponents: from `10 ^ reach` on a number of this format is infinite, and
below `10 ^ -reach` it is zero. -/
def BinaryFormat.reach (f : BinaryFormat) : Int := 2 ^ f.exponentBits

/-- A number of a format, by its fields. -/
structure Binary (f : BinaryFormat) where
  negative : Bool
  exponent : BitVec f.exponentBits
  fraction : BitVec f.fractionBits
  deriving DecidableEq

/-- A single-precision number. -/
abbrev Single := Binary .single

/-- A double-precision number. -/
abbrev Double := Binary .double

namespace Binary

variable {f : BinaryFormat}

/-! ### Fields and bits -/

/-- The fields read as one number, sign first. -/
def toBits (x : Binary f) : Nat :=
  (x.negative.toNat * 2 ^ f.exponentBits + x.exponent.toNat) * 2 ^ f.fractionBits
    + x.fraction.toNat

/-- The number with the given fields, sign first. -/
def ofBits (f : BinaryFormat) (n : Nat) : Binary f where
  negative := n / 2 ^ (f.exponentBits + f.fractionBits) % 2 = 1
  exponent := BitVec.ofNat _ (n / 2 ^ f.fractionBits)
  fraction := BitVec.ofNat _ n

/-- Zero, with a sign. -/
def zero (f : BinaryFormat) (negative : Bool) : Binary f := ⟨negative, 0, 0⟩

/-- Infinity, with a sign. -/
def infinity (f : BinaryFormat) (negative : Bool) : Binary f :=
  ⟨negative, BitVec.ofNat _ f.topExponent, 0⟩

/-- A NaN. -/
def nan (f : BinaryFormat) : Binary f :=
  ⟨false, BitVec.ofNat _ f.topExponent, BitVec.ofNat _ (2 ^ (f.fractionBits - 1))⟩

/-- Whether the number is finite. -/
def isFinite (x : Binary f) : Bool := x.exponent.toNat < f.topExponent

/-- Whether the number is a NaN. -/
def isNaN (x : Binary f) : Bool := !x.isFinite && x.fraction != 0

/-- The significand of a finite number. -/
def significand (x : Binary f) : Nat :=
  if x.exponent = 0 then x.fraction.toNat else 2 ^ f.fractionBits + x.fraction.toNat

/-- The power of two of a finite number. -/
def power (x : Binary f) : Int :=
  if x.exponent = 0 then f.leastPower else f.leastPower + x.exponent.toNat - 1

/-- Whether the number is a zero of either sign. -/
def isZero (x : Binary f) : Bool := x.exponent == 0 && x.fraction == 0

/-- Equality of values: a NaN differs from everything, and the two zeros are equal. -/
def same (x y : Binary f) : Bool :=
  !x.isNaN && !y.isNaN && (x == y || (x.isZero && y.isZero))

/-- The number of opposite sign. -/
def negate (x : Binary f) : Binary f := { x with negative := !x.negative }

/-! ### Rounding -/

/-- The quotient rounded to the nearest natural number, ties to the even one. -/
def roundQuotient (num den : Nat) : Nat :=
  let floor := num / den
  let twice := 2 * (num % den)
  if twice < den ∨ (twice = den ∧ floor % 2 = 0) then floor else floor + 1

/-- The number whose magnitude is the `code`-th of its sign, counted from zero; codes past the
largest finite number mean infinity. -/
def ofCode (f : BinaryFormat) (negative : Bool) (code : Nat) : Binary f :=
  if f.topExponent * 2 ^ f.fractionBits ≤ code then infinity f negative
  else ⟨negative, BitVec.ofNat _ (code / 2 ^ f.fractionBits), BitVec.ofNat _ code⟩

/-- The quotient `num / den` rounded to the format. The power of two is the one that brings the
significand into its range, and no less than the format's least; carries out of the significand
run into the exponent by themselves. -/
def ofRatio (f : BinaryFormat) (negative : Bool) (num den : Nat) : Binary f :=
  if num = 0 ∨ den = 0 then zero f negative
  else
    let guess : Int := (num.log2 : Int) - den.log2 - f.fractionBits
    let scaled (q : Int) : Nat × Nat := (num * 2 ^ (-q).toNat, den * 2 ^ q.toNat)
    let low := (scaled guess).1 < 2 ^ f.fractionBits * (scaled guess).2
    let q := max (if low then guess - 1 else guess) f.leastPower
    let m := roundQuotient (scaled q).1 (scaled q).2
    ofCode f negative (m + (q - f.leastPower).toNat * 2 ^ f.fractionBits)

/-- `num / den · 2 ^ q` rounded to the format. -/
def ofScaled (f : BinaryFormat) (negative : Bool) (num den : Nat) (q : Int) : Binary f :=
  ofRatio f negative (num * 2 ^ q.toNat) (den * 2 ^ (-q).toNat)

/-- The integer nearest in the format. -/
def ofInt (f : BinaryFormat) (n : Int) : Binary f := ofRatio f (n < 0) n.natAbs 1

/-- `digits · 10 ^ exponent` rounded to the format. -/
def ofDecimal (f : BinaryFormat) (negative : Bool) (digits : Nat) (exponent : Int) : Binary f :=
  let size : Int := (Nat.toDigits 10 digits).length + exponent
  if digits = 0 ∨ size < -f.reach then zero f negative
  else if f.reach < size then infinity f negative
  else ofRatio f negative (digits * 10 ^ exponent.toNat) (10 ^ (-exponent).toNat)

/-! ### Conversions -/

/-- The same number in another format, rounded where that format is coarser. -/
def convert (g : BinaryFormat) (x : Binary f) : Binary g :=
  if x.isFinite then ofScaled g x.negative x.significand 1 x.power
  else if x.isNaN then nan g
  else infinity g x.negative

/-- The integer part of a finite number. -/
def truncate (x : Binary f) : Int :=
  let n : Int := x.significand * 2 ^ x.power.toNat / 2 ^ (-x.power).toNat
  if x.negative then -n else n

/-- The integer part held to the bounds of a signed word; a NaN gives zero. -/
def toWordClamped (bits : Nat) (x : Binary f) : Word bits :=
  let low : Int := -2 ^ (bits - 1)
  let high : Int := 2 ^ (bits - 1) - 1
  if x.isNaN then 0
  else if x.isFinite then BitVec.ofInt bits (max low (min high x.truncate))
  else BitVec.ofInt bits (if x.negative then low else high)

/-- The product of two finite numbers. -/
def mul (x y : Binary f) : Binary f :=
  ofScaled f (x.negative != y.negative) (x.significand * y.significand) 1 (x.power + y.power)

/-- The quotient of two finite numbers, the second not zero. -/
def div (x y : Binary f) : Binary f :=
  ofScaled f (x.negative != y.negative) x.significand y.significand (x.power - y.power)

/-! ### Reading -/

/-- The exponent part of a decimal text: nothing, or a mark and an integer. -/
def readExponent? : List Char → Option Int
  | [] => some 0
  | c :: r => if c = 'e' ∨ c = 'E' then readInt? r else none

/-- An unsigned decimal text with an optional fraction and an optional exponent, as its digits and
the exponent that goes with them. There is a digit before the point or after it. -/
def readDecimal? (s : List Char) : Option (Nat × Int) :=
  let whole := s.takeWhile isDigit
  let (fraction, rest) : List Char × List Char :=
    match s.dropWhile isDigit with
    | '.' :: r => (r.takeWhile isDigit, r.dropWhile isDigit)
    | r => ([], r)
  if whole.isEmpty && fraction.isEmpty then none
  else (readExponent? rest).map fun e => (digitsValue (whole ++ fraction), e - fraction.length)

/-- A sign in front of the rest of a number: whether it is a minus, and the rest. -/
def splitSign : List Char → Bool × List Char
  | '-' :: r => (true, r)
  | '+' :: r => (false, r)
  | s => (false, s)

/-- A number in decimal notation, or one of the words for infinity and NaN in any letter case,
after an optional sign. -/
def read? (f : BinaryFormat) (s : List Char) : Option (Binary f) :=
  let (negative, body) := splitSign s
  let word := body.map Char.toLower
  if word = "nan".toList then some (nan f)
  else if word = "inf".toList ∨ word = "infinity".toList then some (infinity f negative)
  else (readDecimal? body).map fun (digits, e) => ofDecimal f negative digits e

end Binary

end Relmap.Number
