import Relmap.Text.Caseless
import Relmap.Text.Hex

/-!
# Universally unique identifiers

Identifiers of 128 bits and their written forms: thirty-two hexadecimal digits, the same digits in
five groups parted by hyphens, and the grouped form in braces or after `urn:uuid:`. Writing always
gives the grouped form in small letters.
-/

namespace Relmap

/-- An identifier. -/
structure Uuid where
  value : BitVec 128
  deriving DecidableEq

namespace Uuid

/-- The lengths of the groups of digits. -/
def groups : List Nat := [8, 4, 4, 4, 12]

/-- Digits cut into groups with hyphens between them. -/
def hyphenate : List Nat → List Char → List Char
  | [], s => s
  | [_], s => s
  | n :: ns, s => s.take n ++ '-' :: hyphenate ns (s.drop n)

/-- Grouped digits without their hyphens; `none` where a hyphen is missing. -/
def dehyphenate? : List Nat → List Char → Option (List Char)
  | [], s => some s
  | [_], s => some s
  | n :: ns, s =>
    match s.drop n with
    | '-' :: r => (dehyphenate? ns r).map (s.take n ++ ·)
    | _ => none

/-- The grouped form. -/
def text (u : Uuid) : String := String.ofList (hyphenate groups (Text.Hex.fixed 32 u.value.toNat))

/-- Thirty-two digits. -/
def readDigits? (s : List Char) : Option Uuid :=
  if s.length = 32 then (Text.Hex.number? s).map fun n => ⟨BitVec.ofNat 128 n⟩ else none

/-- The grouped form, in either letter case. -/
def readGrouped? (s : List Char) : Option Uuid :=
  if s.length = 36 then (dehyphenate? groups s).bind readDigits? else none

/-- What stands before the grouped form in a uniform resource name, in any letter case. -/
def urnMark : String := "urn:uuid:"

/-- Any of the written forms. -/
def read? (s : List Char) : Option Uuid :=
  match s with
  | '{' :: r => if r.getLast? = some '}' then readGrouped? r.dropLast else none
  | _ =>
    if Text.sameName (String.ofList (s.take urnMark.length)) urnMark then
      readGrouped? (s.drop urnMark.length)
    else readDigits? s <|> readGrouped? s

/-- The identifier with the given octets, most significant first; `none` unless there are
sixteen. -/
def ofBytes? (bytes : List UInt8) : Option Uuid :=
  if bytes.length = 16 then
    some ⟨BitVec.ofNat 128 (bytes.foldl (fun n b => 256 * n + b.toNat) 0)⟩
  else none

end Uuid

end Relmap
