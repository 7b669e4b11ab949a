import Relmap.Number.Shortest

/-!
# Scaled decimals

Decimal numbers with a coefficient of ninety-six bits and at most twenty-eight places. The number
of places is part of the value's text (`1.10` is not written `1.1`) and no part of its magnitude.
A zero may carry a minus sign, which a binary number or an exponent leaves to it where all other
digits are rounded off.
-/

namespace Relmap.Number

/-- The bound of coefficients. -/
def Scaled.limit : Nat := unsignedBound 96

/-- The largest number of places. -/
def Scaled.maxScale : Nat := 28

/-- A decimal number: `coefficient / 10 ^ scale`, negated if `negative`. -/
structure Scaled where
  negative : Bool
  coefficient : Nat
  /-- How many of the digits are places after the point. -/
  scale : Nat
  coefficient_lt : coefficient < Scaled.limit
  scale_le : scale ≤ Scaled.maxScale
  deriving DecidableEq

namespace Scaled

/-- The number with the given parts, if they are in bounds. -/
def make? (negative : Bool) (coefficient scale : Nat) : Option Scaled :=
  if h : coefficient < limit ∧ scale ≤ maxScale then
    some ⟨negative, coefficient, scale, h.1, h.2⟩
  else none

/-- Zero without places. -/
def zero : Scaled := ⟨false, 0, 0, by decide, by decide⟩

/-- The coefficient with its sign. -/
def signed (d : Scaled) : Int := if d.negative then -d.coefficient else d.coefficient

/-- Equality of magnitudes: places and the sign of a zero do not count. -/
def same (a b : Scaled) : Bool := a.signed * 10 ^ b.scale == b.signed * 10 ^ a.scale

/-- The text of the number, all places written. -/
def text (d : Scaled) : String :=
  let sign := if d.negative then ['-'] else []
  String.ofList (sign ++ (Decimal.mk d.coefficient (-d.scale)).plain)

/-- The number of a word of sixty-four bits. -/
def ofLong (n : Word 64) : Scaled :=
  ⟨n.toInt < 0, n.toInt.natAbs, 0, by
    have h1 := BitVec.toInt_lt (x := n)
    have h2 := BitVec.le_toInt (x := n)
    simp only [limit, unsignedBound]
    simp at h1 h2
    omega, by decide⟩

/-! ### Reading -/

/-- A number read from a text: a zero is never negative. -/
def ofText? (negative : Bool) (coefficient scale : Nat) : Option Scaled :=
  make? (negative && coefficient != 0) coefficient scale

/-- The number whose further places are in `rest`, which may hold digits and underscores only: they
are cut off. A digit from five on at their front rounds away from zero, and a coefficient that then
no longer fits gives up its last place. -/
def cutOff? (negative : Bool) (coefficient scale : Nat) (rest : List Char) : Option Scaled :=
  if rest.all fun c => isDigit c || c = '_' then
    if rest.head?.any fun c => isDigit c && 5 ≤ digitValue c then
      if coefficient + 1 < limit then ofText? negative (coefficient + 1) scale
      else if scale = 0 then none
      else ofText? negative ((coefficient + 5) / 10) (scale - 1)
    else ofText? negative coefficient scale
  else none

/-- The bound of narrow coefficients: with one more digit they fit sixty-four bits, and a little
room is left. -/
def narrowBound : Nat := (unsignedBound 64 - 1) / 10 - 255

/-- The digits after the sign. Underscores may follow the first digit and there is at most one
point. Digits before the point have to fit. Places that do not fit, or that follow the last of the
places a number can have, are cut off. Underscores right after that last place are passed by, but
after a narrow coefficient they stand for a digit that does not round. -/
def readDigits? (negative : Bool) (coefficient scale : Nat) (point started : Bool) :
    List Char → Option Scaled
  | [] => if started then ofText? negative coefficient scale else none
  | c :: r =>
    if isDigit c then
      let next := 10 * coefficient + digitValue c
      let scale' := if point then scale + 1 else scale
      if limit ≤ next then
        if point then cutOff? negative coefficient scale (c :: r) else none
      else if point ∧ maxScale ≤ scale' then
        cutOff? negative next scale'
          (if coefficient < narrowBound then r else r.dropWhile (· == '_'))
      else readDigits? negative next scale' point true r
    else if c = '.' ∧ !point then readDigits? negative coefficient scale true started r
    else if c = '_' ∧ started then readDigits? negative coefficient scale point started r
    else none

/-- A number in plain notation with an optional sign. -/
def readPlain? (s : List Char) : Option Scaled :=
  let (negative, body) := Binary.splitSign s
  readDigits? negative 0 0 false false body

/-- The number with the point moved `places` to the right: places are used up first, then zeros are
added, which drops the places. -/
def shiftUp? (d : Scaled) (places : Nat) : Option Scaled :=
  if places ≤ d.scale then make? d.negative d.coefficient (d.scale - places)
  else if maxScale < places then none
  else make? d.negative (d.coefficient * 10 ^ (places - d.scale)) 0

/-- The number with the point moved `places` to the left: where that takes more than the largest
number of places, the last ones are rounded off, half away from zero. -/
def shiftDown? (d : Scaled) (places : Nat) : Option Scaled :=
  if maxScale < places then none
  else if d.scale + places ≤ maxScale then make? d.negative d.coefficient (d.scale + places)
  else
    let unit := 10 ^ (d.scale + places - maxScale)
    make? d.negative ((2 * d.coefficient + unit) / (2 * unit)) maxScale

/-- A number in exponent notation: plain notation, `e` or `E`, and an exponent. -/
def readScientific? (s : List Char) : Option Scaled :=
  let isMark (c : Char) : Bool := c = 'e' || c = 'E'
  match s.dropWhile fun c => !isMark c with
  | [] => none
  | _ :: e => do
    let d ← readPlain? (s.takeWhile fun c => !isMark c)
    match e with
    | '-' :: r => shiftDown? d (← readUnsigned? r)
    | r => shiftUp? d (← readUnsigned? r)

/-- A number in plain or exponent notation. -/
def read? (s : List Char) : Option Scaled := readPlain? s <|> readScientific? s

/-! ### From binary numbers -/

/-- Divides by `2 ^ n` in decimal: a factor two is cancelled where there is one, else a factor five
is added and a place with it; where the coefficient has no room left it is halved. -/
def divideByTwos : (n : Nat) → (coefficient : Nat) → (exponent : Int) → Nat × Int
  | 0, m, e => (m, e)
  | n + 1, m, e =>
    if m % 2 = 0 then divideByTwos n (m / 2) (e + 1)
    else if 5 * m < limit then divideByTwos n (5 * m) e
    else divideByTwos n (m / 2) (e + 1)

/-- One place less, the dropped digit rounding from five on. -/
def dropPlace (m : Nat) : Nat := if m % 10 < 5 then m / 10 else m / 10 + 1

/-- `n` places less, each rounding; nothing is left of a coefficient that runs out. -/
def dropPlaces : (n : Nat) → (coefficient : Nat) → Option Nat
  | 0, m => some m
  | n + 1, m => if m / 10 = 0 then none else dropPlaces n (dropPlace m)

/-- Drops places down to a coefficient below the bound, as long as there are places. -/
def dropExcess (bound : Nat) : (scale : Nat) → (coefficient : Nat) → Nat × Nat
  | 0, m => (m, 0)
  | s + 1, m => if bound ≤ m then dropExcess bound s (dropPlace m) else (m, s + 1)

/-- Drops zeros at the end, as long as there are places. -/
def dropZeros : (scale : Nat) → (coefficient : Nat) → Nat × Nat
  | 0, m => (m, 0)
  | s + 1, m => if m % 10 = 0 then dropZeros s (m / 10) else (m, s + 1)

/-- The bound of the coefficients kept of a binary number: twenty-four bits of single precision,
fifty-two of double precision. -/
def precisionBound (f : BinaryFormat) : Nat :=
  if f.fractionBits = 52 then 2 ^ f.fractionBits else 2 ^ (f.fractionBits + 1)

/-- The decimal of a binary number. A number without a fraction is exact, others are held to the
digits the format vouches for; `none` for a number that is not finite or too large. -/
def ofBinary? {f : BinaryFormat} (x : Binary f) : Option Scaled :=
  if !x.isFinite then none
  else if x.isZero then make? x.negative 0 0
  else if 0 ≤ x.power then make? x.negative (x.significand * 2 ^ x.power.toNat) 0
  else
    let (m, e) := divideByTwos (-x.power).toNat x.significand x.power
    let places := (-e).toNat
    let (m, scale) :=
      if maxScale < places then
        match dropPlaces (places - maxScale) m with
        | some m => (m, maxScale)
        | none => (0, 0)
      else (m, places)
    let (m, scale) := dropExcess (precisionBound f) scale m
    let (m, scale) := dropZeros scale m
    make? x.negative m scale

end Scaled

end Relmap.Number
