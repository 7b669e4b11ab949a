import Relmap.Number.Binary

/-!
# The shortest decimal text of a binary number

Among the decimals that round to a given number, the one with the fewest digits, and of those the
nearest. It is found on the coarsest grid of multiples of a power of ten that has a point in the
interval of reals rounding to the number: of the two neighbours of the number on that grid the
nearer one is taken. How ties between them go, and how the digits are laid out, is up to the
caller; `plainText` writes them without an exponent.
-/

namespace Relmap.Number

/-- A decimal: `digits · 10 ^ exponent`. -/
structure Decimal where
  digits : Nat
  exponent : Int
  deriving DecidableEq, Repr

/-- How a decimal half way between two neighbours is rounded. -/
inductive Tie
  | up
  | toEven
  deriving DecidableEq, Repr

namespace Binary

variable {f : BinaryFormat}

/-- Whether the number below is nearer than the number above: at a power of two. -/
def narrowBelow (x : Binary f) : Bool :=
  x.exponent.toNat != 0 && x.fraction == 0

/-- The neighbour of a finite positive number on the grid of multiples of `10 ^ grid`, if one
rounds to the number. Interval ends count when the significand is even. -/
def gridPoint? (tie : Tie) (x : Binary f) (grid : Int) : Option Decimal :=
  let up := 2 ^ x.power.toNat * 10 ^ (-grid).toNat
  let unit := 4 * 2 ^ (-x.power).toNat * 10 ^ grid.toNat
  let value := 4 * x.significand * up
  let gapUp := 2 * up
  let gapDown := if x.narrowBelow then up else 2 * up
  let below := value / unit
  let above := value % unit
  let under := unit - above
  let closed := x.significand % 2 = 0
  let down : Bool := above < gapDown || (above = gapDown && closed) || above = 0
  let up : Bool := under < gapUp || (under = gapUp && closed)
  let nearerDown : Bool :=
    2 * above < unit || (2 * above = unit && tie = .toEven && below % 2 = 0)
  if down && (!up || nearerDown) then some ⟨below, grid⟩
  else if up then some ⟨below + 1, grid⟩
  else none

/-- The first hit on `steps` grids, from `grid` down. -/
def firstGridPoint (tie : Tie) (x : Binary f) (grid : Int) : (steps : Nat) → Decimal
  | 0 => ⟨0, grid⟩
  | steps + 1 =>
    match x.gridPoint? tie grid with
    | some d => d
    | none => firstGridPoint tie x (grid - 1) steps

/-- A power of ten above a finite number: `log₁₀ 2` is a little less than `30103 / 100000`. -/
def topGrid (x : Binary f) : Int :=
  ((x.significand.log2 : Int) + 1 + x.power) * 30103 / 100000 + 1

/-- The shortest decimal that rounds to a finite number, the number's sign aside. Its number of
digits is at most a third of the bits of the significand, and two. -/
def shortest (tie : Tie) (x : Binary f) : Decimal :=
  if x.isZero then ⟨0, 0⟩ else x.firstGridPoint tie x.topGrid (f.fractionBits / 3 + 5)

end Binary

/-- A decimal in plain notation: no exponent, and no point in a whole number. -/
def Decimal.plain (d : Decimal) : List Char :=
  let digits := Nat.toDigits 10 d.digits
  if 0 ≤ d.exponent then
    if d.digits = 0 then digits else digits ++ List.replicate d.exponent.toNat '0'
  else
    let places := (-d.exponent).toNat
    let filled := List.replicate (places + 1 - digits.length) '0' ++ digits
    filled.take (filled.length - places) ++ '.' :: filled.drop (filled.length - places)

/-- A binary number in words or in the shortest plain notation, ties up; a zero keeps its sign. -/
def Binary.plainText {f : BinaryFormat} (x : Binary f) : String :=
  if x.isNaN then "NaN"
  else
    let sign := if x.negative then ['-'] else []
    let body := if x.isFinite then (x.shortest .up).plain else ['i', 'n', 'f']
    String.ofList (sign ++ body)

end Relmap.Number
