import Relmap.Calendar.Pattern.Read
import Relmap.Text.Blank
import Relmap.Value.Basic

/-!
# Reading a value as another kind

A stored value may be read as a kind of value other than its own: numbers narrow, text is read as
the number, date or identifier it writes, and null reads as the zero of the kind asked for. Each
function gives `none` where a value has no such reading.
-/

namespace Relmap.Value

open Number (Binary Double Scaled Word)
open Calendar (Timestamp)

/-- The characters of a text without blanks at its ends. -/
def trimmed (s : String) : List Char := Text.trim s.toList

/-- As a whole number of sixty-four bits: fractions lose their places and wide numbers their high
bits. -/
def toLong? : Value → Option (Word 64)
  | .null => some 0
  | .bool b => some (if b then 1 else 0)
  | .float x => some (x.toWordClamped 64)
  | .double x => some (x.toWordClamped 64)
  | .bigInteger n => some (n.setWidth 64)
  | .text s => Number.readWord? 64 (trimmed s)
  | v => v.integer?.map (BitVec.ofInt 64)

/-- As a number in double precision. -/
def toDouble? : Value → Option Double
  | .null => some (Binary.zero .double false)
  | .text s => Binary.read? .double (trimmed s)
  | v => v.double?

/-- As text. -/
def toText (v : Value) : String := v.display

/-- As a boolean: the words for it in any letter case, and a number by whether it is zero. -/
def toBool? : Value → Option Bool
  | .bool b => some b
  | .text s =>
    if Text.sameName s "true" then some true
    else if Text.sameName s "false" then some false
    else (toLong? (.text s)).map (· != 0)
  | v => v.toLong?.map (· != 0)

/-- The character with a given number, if there is one. -/
def charOfInt? (n : Int) : Option Char :=
  if 0 ≤ n ∧ n.toNat.isValidChar then some (Char.ofNat n.toNat) else none

/-- As a character: the first of a text, or the one a number stands for. -/
def toChar? : Value → Option Char
  | .null => some '\x00'
  | .char c => some c
  | .text s => s.toList.head?
  | v => v.integer?.bind charOfInt?

/-- As octets. -/
def toBytes? : Value → Option (List UInt8)
  | .null => some []
  | .bytes b => some b
  | .text s => some (Text.Utf8.encode s.toList)
  | _ => none

/-- As a timestamp: in the standard notation, or in milliseconds. -/
def toTimestamp? : Value → Option Timestamp
  | .timestamp t => some t
  | .text s => Calendar.readTimestamp? Calendar.standardItems (trimmed s)
  | .long n => Timestamp.ofMillis? n.toInt
  | _ => none

/-- As a decimal number. -/
def toDecimal? : Value → Option Scaled
  | .null => some Scaled.zero
  | .decimal d => some d
  | .text s => Scaled.read? (trimmed s)
  | .float x => Scaled.ofBinary? x
  | .double x => Scaled.ofBinary? x
  | v => v.integer?.map fun n => Scaled.ofLong (BitVec.ofInt 64 n)

/-- As an identifier. -/
def toUuid? : Value → Option Uuid
  | .uuid u => some u
  | .text s => Uuid.read? (trimmed s)
  | .bytes b => Uuid.ofBytes? b
  | _ => none

end Relmap.Value
