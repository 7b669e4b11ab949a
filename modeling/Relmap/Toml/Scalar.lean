import Relmap.Text.Hex
import Relmap.Toml.Basic
import Relmap.Toml.Moment

/-!
# The values of words in TOML

A word as a value is a boolean, a number or a moment. Numbers have no needless zero in front and
underscores only between their digits; whole numbers may be written in another base, but without a
sign then. The shape of a whole number promises less than its value needs: `0x` is a number that
has no value, which matters only where the value is asked for.
-/

namespace Relmap.Toml

open Number (isDigit)

/-- A text without the sign at its front. -/
def withoutSign : List Char → List Char
  | '+' :: r => r
  | '-' :: r => r
  | s => s

/-! ### Underscores -/

/-- Whether every underscore is followed by a digit and comes after one. `after` tells whether the
text comes after a digit. -/
def spaced (digit : Char → Bool) (after : Bool) : List Char → Bool
  | [] => true
  | c :: r =>
    if c = '_' then after && r.head?.any digit && spaced digit false r
    else spaced digit (digit c) r

/-- Whether the underscores of a word are in place. The first character, which may be a sign, counts
as a digit, but is no underscore. -/
def underscoresFit (digit : Char → Bool) : List Char → Bool
  | [] => true
  | c :: r => c != '_' && spaced digit true r

/-- A text without its underscores. -/
def withoutUnderscores (s : List Char) : List Char := s.filter (· != '_')

/-! ### Whole numbers -/

/-- A whole number with the value it may have. -/
def ofValue : Option Int → Toml
  | some n => .number n
  | none => .otherNumber

/-- The base that the letter after a zero tells. -/
def base? (c : Char) : Option Nat :=
  match c with
  | 'x' => some 16
  | 'o' => some 8
  | 'b' => some 2
  | _ => none

/-- Whether a character is a digit of a base. -/
def isDigitOf (base : Nat) (c : Char) : Bool := (Text.Hex.digit? c).any (· < base)

/-- The value of digits of a base; without digits there is none. -/
def digitsIn? (base : Nat) (digits : List Char) : Option Int :=
  if digits.isEmpty then none
  else some (digits.foldl (fun n c => n * base + (Text.Hex.digit? c).getD 0) 0 : Nat)

/-- A whole number in another base: a zero, the letter of the base, and digits. -/
def based? : List Char → Option Toml
  | '0' :: c :: r => do
    let base ← base? c
    let digits := withoutUnderscores r
    if digits.all (isDigitOf base) && underscoresFit (isDigitOf base) r then
      return ofValue (digitsIn? base digits)
    else none
  | _ => none

/-- A whole number in base ten. After an underscore a digit of any base is taken, and the rest for
granted; but without decimal digits alone there is no value. -/
def decimal? (s : List Char) : Option Toml :=
  let body := withoutSign s
  let rest := body.dropWhile isDigit
  let zero := body.head? == some '0'
  let value := ofValue (Number.readInt? (withoutUnderscores s))
  match rest with
  | [] => if body.isEmpty || (zero && body.length != 1) then none else some value
  | '_' :: _ =>
    if zero || rest.any ['.', 'e', 'E'].contains then none
    else if underscoresFit (isDigitOf 16) s then some value
    else none
  | _ => none

/-! ### Fractions -/

/-- What follows digits and underscores with at least one digit among them. -/
def afterDigits? (s : List Char) : Option (List Char) :=
  let run := s.takeWhile fun c => isDigit c || c == '_'
  if run.any isDigit then some (s.drop run.length) else none

/-- What follows the places of a fraction, which may be left out. -/
def afterPlaces? : List Char → Option (List Char)
  | '.' :: r => afterDigits? r
  | s => some s

/-- What follows an exponent, which may be left out. -/
def afterExponent? : List Char → Option (List Char)
  | [] => some []
  | c :: r => if c = 'e' ∨ c = 'E' then afterDigits? (withoutSign r) else some (c :: r)

/-- Whether a text starts with a zero that other digits follow. -/
def hasNeedlessZero (s : List Char) : Bool :=
  let run := s.takeWhile fun c => isDigit c || c == '_'
  s.head? == some '0' && 2 ≤ (withoutUnderscores run).length

/-- Whether a word is a number with places, an exponent or both. -/
def isFraction (s : List Char) : Bool :=
  let body := withoutSign s
  match afterDigits? body with
  | none | some [] => false
  | some r =>
    !hasNeedlessZero body && ((afterPlaces? r).bind afterExponent?) == some [] &&
      underscoresFit isDigit s

/-- Whether a word is an infinity or a NaN. -/
def isSpecial (s : List Char) : Bool :=
  let body := withoutSign s
  body == "inf".toList || body == "nan".toList

/-! ### Words -/

/-- The value of a word. -/
def word? (s : List Char) : Option Toml :=
  if s = "true".toList then some (.truth true)
  else if s = "false".toList then some (.truth false)
  else if isSpecial s || isFraction s then some .otherNumber
  else if isMoment s then some .moment
  else based? s <|> decimal? s

end Relmap.Toml
