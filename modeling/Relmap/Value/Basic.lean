import Relmap.Calendar.Pattern.Write
import Relmap.Json.Write
import Relmap.Number.Scaled
import Relmap.SqlType
import Relmap.Text.Utf8
import Relmap.Uuid

/-!
# Values

One type for the values of the program and for the values that travel to and from the database.
Which kinds of values a field takes and gives is up to its converter.
-/

namespace Relmap

open Number (Double Scaled Single Word intText)
open Calendar (Timestamp)

/-- A constant of an enumeration: its name and its place in the order of declaration. -/
structure EnumConstant where
  name : String
  ordinal : Word 32
  deriving DecidableEq

/-- A value. -/
inductive Value
  | null
  | bool (b : Bool)
  | char (c : Char)
  | byte (n : Word 8)
  | short (n : Word 16)
  | int (n : Word 32)
  | long (n : Word 64)
  | float (x : Single)
  | double (x : Double)
  | text (s : String)
  | bytes (b : List UInt8)
  | bigInteger (n : Word 128)
  | decimal (d : Scaled)
  | uuid (u : Uuid)
  | timestamp (t : Timestamp)
  | json (j : Json)
  | enum (c : EnumConstant)

namespace Value

/-- Whether the value is null. -/
def isNull : Value → Bool
  | .null => true
  | _ => false

@[simp] theorem isNull_iff {v : Value} : v.isNull = true ↔ v = .null := by
  cases v <;> simp [isNull]

/-- The kind of the value in a word. -/
def kind : Value → String
  | .null => "null"
  | .bool _ => "bool"
  | .char _ => "char"
  | .byte _ => "byte"
  | .short _ => "short"
  | .int _ => "int"
  | .long _ => "long"
  | .float _ => "float"
  | .double _ => "double"
  | .text _ => "text"
  | .bytes _ => "bytes"
  | .bigInteger _ => "big integer"
  | .decimal _ => "decimal"
  | .uuid _ => "uuid"
  | .timestamp _ => "timestamp"
  | .json _ => "json"
  | .enum _ => "enum"

/-- The number of a whole number of up to sixty-four bits. -/
def integer? : Value → Option Int
  | .byte n => some n.toInt
  | .short n => some n.toInt
  | .int n => some n.toInt
  | .long n => some n.toInt
  | _ => none

/-- The number of a whole or binary number in double precision. -/
def double? : Value → Option Double
  | .float x => some (x.convert .double)
  | .double x => some x
  | v => v.integer?.map (Number.Binary.ofInt .double)

/-- The number of a whole or binary number in single precision. -/
def single? : Value → Option Single
  | .float x => some x
  | v => v.double?.map (·.convert .single)

/-- The boolean of a boolean value. -/
def bool? : Value → Option Bool
  | .bool b => some b
  | _ => none

/-- The character of a character value. -/
def char? : Value → Option Char
  | .char c => some c
  | _ => none

/-- The text of a text value. -/
def text? : Value → Option String
  | .text s => some s
  | _ => none

/-- The text of a text value or of a character. -/
def shortText? : Value → Option String
  | .text s => some s
  | .char c => some (String.ofList [c])
  | _ => none

/-- The octets of a value of octets. -/
def bytes? : Value → Option (List UInt8)
  | .bytes b => some b
  | _ => none

/-- The number of a decimal value. -/
def decimal? : Value → Option Scaled
  | .decimal d => some d
  | _ => none

/-- The number of a whole number of any width. -/
def wholeNumber? : Value → Option Int
  | .bigInteger n => some n.toInt
  | v => v.integer?

/-- The identifier of a value. -/
def uuid? : Value → Option Uuid
  | .uuid u => some u
  | _ => none

/-- The timestamp of a value. -/
def timestamp? : Value → Option Timestamp
  | .timestamp t => some t
  | _ => none

/-- The data tree of a value. -/
def json? : Value → Option Json
  | .json j => some j
  | _ => none

/-- The constant of a value. -/
def enum? : Value → Option EnumConstant
  | .enum c => some c
  | _ => none

/-- The value as text: nothing for null, and U+FFFD for faulty runs of octets. -/
def display : Value → String
  | .null => ""
  | .bool b => if b then "true" else "false"
  | .char c => String.ofList [c]
  | .byte n => intText n.toInt
  | .short n => intText n.toInt
  | .int n => intText n.toInt
  | .long n => intText n.toInt
  | .float x => x.plainText
  | .double x => x.plainText
  | .text s => s
  | .bytes b => String.ofList (Text.Utf8.decodeLossy b)
  | .bigInteger n => intText n.toInt
  | .decimal d => d.text
  | .uuid u => u.text
  | .timestamp t => t.text
  | .json j => j.text
  | .enum c => c.name

/-- Equality of values of one kind; a NaN differs from itself, and places of a decimal do not
count. -/
def same : Value → Value → Bool
  | .null, .null => true
  | .bool a, .bool b => a = b
  | .char a, .char b => a = b
  | .byte a, .byte b => a = b
  | .short a, .short b => a = b
  | .int a, .int b => a = b
  | .long a, .long b => a = b
  | .float a, .float b => a.same b
  | .double a, .double b => a.same b
  | .text a, .text b => a = b
  | .bytes a, .bytes b => a = b
  | .bigInteger a, .bigInteger b => a = b
  | .decimal a, .decimal b => a.same b
  | .uuid a, .uuid b => a = b
  | .timestamp a, .timestamp b => a = b
  | .json a, .json b => a.same b
  | .enum a, .enum b => a = b
  | _, _ => false

/-- The type a value has in the database. -/
def sqlType : Value → SqlType
  | .null => .unknown
  | .bool _ => .boolean
  | .char _ => .char
  | .byte _ => .byte
  | .short _ => .short
  | .int _ => .integer
  | .long _ => .long
  | .float _ => .float
  | .double _ => .double
  | .text _ => .string
  | .enum _ => .string
  | .bytes _ => .byteArray
  | .bigInteger _ => .bigDecimal
  | .decimal _ => .bigDecimal
  | .uuid _ => .uuid
  | .timestamp _ => .date
  | .json _ => .other

end Value

end Relmap
