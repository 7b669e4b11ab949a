import Relmap.Json.Basic
import Relmap.Number.Shortest
import Relmap.Text.Hex

/-!
# The compact text of JSON

JSON without blank characters. Fractions are written with the fewest digits that read back, ties
to the even digit; they always have a point or an exponent, and are positional while the point
stays within sixteen digits or five places in front of them. An exponent has a sign, also if it is
positive.
-/

namespace Relmap.Json

open Number (Decimal Double intText natText)

/-- The text of a positive decimal that is a fraction. -/
def decimalText (d : Decimal) : List Char :=
  let digits := Nat.toDigits 10 d.digits
  let zeros (n : Nat) := List.replicate n '0'
  /- Where the point stands, counted from the first digit. -/
  let point : Int := digits.length + d.exponent
  if 0 ≤ d.exponent ∧ point ≤ 16 then digits ++ zeros d.exponent.toNat ++ ['.', '0']
  else if 0 < point ∧ point ≤ 16 then
    digits.take point.toNat ++ '.' :: digits.drop point.toNat
  else if -5 < point ∧ point ≤ 0 then ['0', '.'] ++ zeros (-point).toNat ++ digits
  else
    let sign := if 0 < point then ['+'] else []
    let exponent := 'e' :: sign ++ (intText (point - 1)).toList
    match digits with
    | [c] => c :: exponent
    | _ => digits.take 1 ++ '.' :: digits.drop 1 ++ exponent

/-- The text of a fraction. -/
def fractionText (x : Double) : List Char :=
  let sign := if x.negative then ['-'] else []
  sign ++ if x.isZero then ['0', '.', '0'] else decimalText (x.shortest .toEven)

/-- The text of a number. -/
def numberText : JsonNumber → List Char
  | .natural n => (natText n).toList
  | .negative n => (intText n).toList
  | .fraction x => fractionText x

/-- A character inside a string: quotes, backslashes and control characters are escaped. -/
def escape (c : Char) : List Char :=
  match c with
  | '"' => ['\\', '"']
  | '\\' => ['\\', '\\']
  | '\x08' => ['\\', 'b']
  | '\x0c' => ['\\', 'f']
  | '\n' => ['\\', 'n']
  | '\r' => ['\\', 'r']
  | '\t' => ['\\', 't']
  | c => if c.toNat < 0x20 then ['\\', 'u'] ++ Text.Hex.fixed 4 c.toNat else [c]

/-- A string between quotes. -/
def stringText (s : String) : List Char := '"' :: s.toList.flatMap escape ++ ['"']

mutual

/-- The characters of a value. -/
def chars : Json → List Char
  | .null => ['n', 'u', 'l', 'l']
  | .bool true => ['t', 'r', 'u', 'e']
  | .bool false => ['f', 'a', 'l', 's', 'e']
  | .number n => numberText n
  | .string s => stringText s
  | .array items => '[' :: itemChars items ++ [']']
  | .object members => '\x7b' :: memberChars members ++ ['\x7d']

/-- The items of an array with commas between them. -/
def itemChars : List Json → List Char
  | [] => []
  | [a] => a.chars
  | a :: as => a.chars ++ ',' :: itemChars as

/-- The members of an object with commas between them. -/
def memberChars : List (String × Json) → List Char
  | [] => []
  | [(k, v)] => stringText k ++ ':' :: v.chars
  | (k, v) :: r => stringText k ++ ':' :: v.chars ++ ',' :: memberChars r

end

/-- The compact text of a value. -/
def text (j : Json) : String := String.ofList j.chars

end Relmap.Json
