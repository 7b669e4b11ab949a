import Relmap.Json.Basic
import Relmap.Text.Hex

/-!
# The tokens of JSON

JSON text cut into brackets, commas, colons and scalar values; blanks, tabs and line ends between
them are skipped. A string is read up to its closing quote. Words and numbers are read as far as
their characters go, and then have to be one word or one number in full.
-/

namespace Relmap.Json

open Number (Binary BinaryFormat Double Word digitsValue isDigit)

/-- A token of JSON. -/
inductive Token
  | openArray
  | closeArray
  | openObject
  | closeObject
  | comma
  | colon
  | string (s : String)
  | scalar (v : Json)

/-! ### Numbers -/

/-- The bound of whole numbers from zero. -/
def naturalLimit : Nat := Number.unsignedBound 64

/-- Digits added to a whole number as long as it stays in bounds: the number, and how many digits
had no room. -/
def addDigits (n : Nat) : List Char → Nat × Nat
  | [] => (n, 0)
  | c :: r =>
    let next := 10 * n + (c.toNat - 48)
    if next < naturalLimit then addDigits next r else (n, r.length + 1)

/-- A power of ten from the table of those that are finite. -/
def powerOfTen (n : Nat) : Double := Binary.ofRatio .double false (10 ^ n) 1

/-- `x · 10 ^ exponent` for an exponent below zero, dividing by the largest power of ten of the
table as often as `steps` allows; that is often enough for nothing to be left. -/
def divideByPowers (x : Double) (exponent : Nat) : (steps : Nat) → Double
  | 0 => Binary.zero .double x.negative
  | steps + 1 =>
    if exponent ≤ 308 then x.div (powerOfTen exponent)
    else divideByPowers (x.div (powerOfTen 308)) (exponent - 308) steps

/-- `significand · 10 ^ exponent`, each factor and the result rounded by itself; `none` where that
is infinite. -/
def scale? (significand : Nat) (exponent : Int) : Option Double :=
  let x := Binary.ofInt .double significand
  if significand = 0 then some x
  else if exponent < 0 then some (divideByPowers x (-exponent).toNat 4)
  else if 308 < exponent then none
  else
    let y := x.mul (powerOfTen exponent.toNat)
    if y.isFinite then some y else none

/-- The exponent part of a number: nothing, or a mark, an optional sign and digits. -/
def readExponent? : List Char → Option (Option Int)
  | [] => some none
  | c :: r =>
    if c = 'e' ∨ c = 'E' then (Number.readInt? r).map some else none

/-- The parts of a number without its sign: digits before the point, which start with a zero only
if that is all, digits after it, and an exponent. -/
def splitNumber? (s : List Char) : Option (List Char × List Char × Option Int) :=
  let whole := s.takeWhile isDigit
  let wholeOk := whole = ['0'] ∨ (whole ≠ [] ∧ whole.head? ≠ some '0')
  if ¬ wholeOk then none
  else match s.dropWhile isDigit with
    | '.' :: r =>
      let places := r.takeWhile isDigit
      if places.isEmpty then none
      else (readExponent? (r.dropWhile isDigit)).map fun e => (whole, places, e)
    | r => (readExponent? r).map fun e => (whole, [], e)

/-- A number. Without point and exponent it stays whole where it fits; digits that have no room in
the significand only move the point. -/
def readNumber? (s : List Char) : Option JsonNumber :=
  let negative := s.head? = some '-'
  match splitNumber? (if negative then s.drop 1 else s) with
  | none => none
  | some (whole, places, exponent) =>
    let (n, dropped) := addDigits 0 whole
    let signed (x : Double) : JsonNumber := .fraction (if negative then x.negate else x)
    if places.isEmpty ∧ exponent.isNone ∧ dropped = 0 then
      if !negative then some (.natural n)
      else if 0 < n ∧ n ≤ Number.unsignedBound 63 then some (.negative (-(n : Int)))
      else some (signed (Binary.ofInt .double n))
    else
      let (m, unread) := addDigits n places
      let shift : Int := dropped - (places.length - unread : Nat) + exponent.getD 0
      (scale? m shift).map signed

/-! ### Strings -/

/-- The number of four hexadecimal digits. -/
def readUnit? (s : List Char) : Option Nat :=
  if s.length = 4 then Text.Hex.number? s else none

/-- What an escape of one letter stands for. -/
def unescape? (c : Char) : Option Char :=
  match c with
  | '"' => some '"'
  | '\\' => some '\\'
  | '/' => some '/'
  | 'b' => some '\x08'
  | 'f' => some '\x0c'
  | 'n' => some '\n'
  | 'r' => some '\r'
  | 't' => some '\t'
  | _ => none

/-- The characters up to the closing quote, and the rest after it. Control characters have to be
escaped; an escaped pair of surrogates is one character, and one without the other is refused. -/
def readString? : List Char → Option (List Char × List Char)
  | [] => none
  | '"' :: r => some ([], r)
  | '\\' :: 'u' :: a :: b :: c :: d :: r =>
    match readUnit? [a, b, c, d] with
    | none => none
    | some n =>
      if 0xDC00 ≤ n ∧ n < 0xE000 then none
      else if 0xD800 ≤ n ∧ n < 0xDC00 then
        match r with
        | '\\' :: 'u' :: a :: b :: c :: d :: r =>
          match readUnit? [a, b, c, d] with
          | none => none
          | some m =>
            if 0xDC00 ≤ m ∧ m < 0xE000 then
              (readString? r).map fun (s, rest) =>
                (Char.ofNat (0x10000 + (n - 0xD800) * 0x400 + (m - 0xDC00)) :: s, rest)
            else none
        | _ => none
      else (readString? r).map fun (s, rest) => (Char.ofNat n :: s, rest)
  | '\\' :: c :: r =>
    match unescape? c with
    | some c => (readString? r).map fun (s, rest) => (c :: s, rest)
    | none => none
  | c :: r =>
    if c.toNat < 0x20 ∨ c = '\\' then none
    else (readString? r).map fun (s, rest) => (c :: s, rest)

theorem length_of_readString? {s c r : List Char} (h : readString? s = some (c, r)) :
    r.length < s.length := by
  fun_induction readString? s generalizing c r <;> simp at h
  case case2 => simp [h.2]
  all_goals
    obtain ⟨_, h, _⟩ := h
    simp only [List.length_cons]
    grind

/-! ### Words -/

/-- The value of a word of letters. -/
def readWord? (s : List Char) : Option Json :=
  if s = ['t', 'r', 'u', 'e'] then some (.bool true)
  else if s = ['f', 'a', 'l', 's', 'e'] then some (.bool false)
  else if s = ['n', 'u', 'l', 'l'] then some .null
  else none

/-- Whether a character may be part of a number. -/
def isNumberChar (c : Char) : Bool := isDigit c || c = '-' || c = '+' || c = '.' || c = 'e' || c = 'E'

/-- The punctuation of JSON. -/
def punctuation? (c : Char) : Option Token :=
  match c with
  | '[' => some .openArray
  | ']' => some .closeArray
  | '\x7b' => some .openObject
  | '\x7d' => some .closeObject
  | ',' => some .comma
  | ':' => some .colon
  | _ => none

/-- Whether a character may stand between tokens. -/
def isSpace (c : Char) : Bool := c = ' ' || c = '\t' || c = '\n' || c = '\r'

/-- The tokens of a text. -/
def tokens? : List Char → Option (List Token)
  | [] => some []
  | c :: r =>
    if isSpace c then tokens? r
    else if c = '"' then
      match h : readString? r with
      | none => none
      | some (s, rest) =>
        have := length_of_readString? h
        (tokens? rest).map (.string (String.ofList s) :: ·)
    else match punctuation? c with
      | some t => (tokens? r).map (t :: ·)
      | none =>
        if c = '-' ∨ isDigit c then
          let run := r.takeWhile isNumberChar
          match readNumber? (c :: run) with
          | none => none
          | some n => (tokens? (r.drop run.length)).map (.scalar (.number n) :: ·)
        else
          let run := r.takeWhile Char.isAlpha
          match readWord? (c :: run) with
          | none => none
          | some v => (tokens? (r.drop run.length)).map (.scalar v :: ·)
  termination_by s => s.length
  decreasing_by all_goals grind

end Relmap.Json
