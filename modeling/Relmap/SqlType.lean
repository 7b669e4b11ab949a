import Relmap.Text.Caseless

/-!
# Types of column values

The types a value has on its way to and from the database, whatever the dialect and whatever the
value means to the program.
-/

namespace Relmap

/-- The type of a column's value. -/
inductive SqlType
  | string
  | longString
  | date
  | boolean
  | char
  | byte
  | byteArray
  | short
  | integer
  | long
  | float
  | double
  | serializable
  | blob
  | bigDecimal
  | uuid
  | other
  | unknown
  deriving DecidableEq, Repr, Inhabited

namespace SqlType

/-- Every type, in the order of declaration. -/
def all : List SqlType :=
  [.string, .longString, .date, .boolean, .char, .byte, .byteArray, .short, .integer, .long, .float,
    .double, .serializable, .blob, .bigDecimal, .uuid, .other, .unknown]

/-- Every type is listed. -/
theorem mem_all (t : SqlType) : t ∈ all := by cases t <;> decide

/-- The type taken where none is given. -/
def standard : SqlType := .unknown

/-- The name of a type, in capitals. -/
def name : SqlType → String
  | .string => "STRING"
  | .longString => "LONG_STRING"
  | .date => "DATE"
  | .boolean => "BOOLEAN"
  | .char => "CHAR"
  | .byte => "BYTE"
  | .byteArray => "BYTE_ARRAY"
  | .short => "SHORT"
  | .integer => "INTEGER"
  | .long => "LONG"
  | .float => "FLOAT"
  | .double => "DOUBLE"
  | .serializable => "SERIALIZABLE"
  | .blob => "BLOB"
  | .bigDecimal => "BIG_DECIMAL"
  | .uuid => "UUID"
  | .other => "OTHER"
  | .unknown => "UNKNOWN"

/-- The type with a name, in any letter case. -/
def ofName? (s : String) : Option SqlType := all.find? fun t => Text.sameName t.name s

/-- The type with exactly this name, as written in data files. -/
def ofExactName? (s : String) : Option SqlType := all.find? fun t => t.name = s

/-- The place of a type in the order of declaration. -/
def index (t : SqlType) : Nat := all.idxOf t

/-- Whether values of the type are octets. -/
def isBinary : SqlType → Bool
  | .byteArray | .serializable | .blob => true
  | _ => false

/-- Whether values of the type are whole numbers. -/
def isIntegral : SqlType → Bool
  | .byte | .short | .integer | .long => true
  | _ => false

end SqlType

end Relmap
