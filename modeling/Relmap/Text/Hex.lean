/-!
# Hexadecimal text

Octets and numbers as hexadecimal digits, two to the octet, most significant first. Reading takes
either case.
-/

namespace Relmap.Text.Hex

/-- The digit of a number below sixteen, with small letters. -/
def lowerDigit (n : Nat) : Char :=
  if n < 10 then Char.ofNat (48 + n) else Char.ofNat (87 + n)

/-- The digit of a number below sixteen, with capitals. -/
def upperDigit (n : Nat) : Char :=
  if n < 10 then Char.ofNat (48 + n) else Char.ofNat (55 + n)

/-- The value of a hexadecimal digit of either case. -/
def digit? (c : Char) : Option Nat :=
  if '0' ≤ c ∧ c ≤ '9' then some (c.toNat - 48)
  else if 'a' ≤ c ∧ c ≤ 'f' then some (c.toNat - 87)
  else if 'A' ≤ c ∧ c ≤ 'F' then some (c.toNat - 55)
  else none

/-- The digits of octets, small letters. -/
def lower (bytes : List UInt8) : List Char :=
  bytes.flatMap fun b => [lowerDigit (b.toNat / 16), lowerDigit (b.toNat % 16)]

/-- The digits of octets, capitals. -/
def upper (bytes : List UInt8) : List Char :=
  bytes.flatMap fun b => [upperDigit (b.toNat / 16), upperDigit (b.toNat % 16)]

/-- The octets written by pairs of digits; `none` on any other character or an odd length. -/
def decode? : List Char → Option (List UInt8)
  | [] => some []
  | [_] => none
  | h :: l :: r => do
    let h ← digit? h
    let l ← digit? l
    return UInt8.ofNat (16 * h + l) :: (← decode? r)

/-- The number written by digits, at least one. -/
def number? (s : List Char) : Option Nat :=
  if s.isEmpty then none
  else s.foldl (fun n c => do return 16 * (← n) + (← digit? c)) (some 0)

/-- The number `n` in exactly `width` digits; higher digits are dropped. -/
def fixed : (width : Nat) → (n : Nat) → List Char
  | 0, _ => []
  | w + 1, n => fixed w (n / 16) ++ [lowerDigit (n % 16)]

end Relmap.Text.Hex
