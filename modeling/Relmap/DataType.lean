import Relmap.SqlType

/-!
# Types of field values

The types that a field can be declared with. A type says what the program's values are and how
they are kept in the database; several types may share one of the two.
-/

namespace Relmap

/-- The declared type of a field. -/
inductive DataType
  | string
  | longString
  | stringBytes
  | boolean
  | booleanObj
  | booleanChar
  | booleanInteger
  | date
  | dateLong
  | dateInteger
  | dateString
  | char
  | charObj
  | byte
  | byteObj
  | byteArray
  | short
  | shortObj
  | integer
  | integerObj
  | long
  | longObj
  | float
  | floatObj
  | double
  | doubleObj
  | serializable
  | enumString
  | enumInteger
  | uuid
  | uuidNative
  | bigInteger
  | bigDecimal
  | bigDecimalNumeric
  | unknown
  deriving DecidableEq, Repr, Inhabited

namespace DataType

/-- Every type, in the order of declaration. -/
def all : List DataType :=
  [.string, .longString, .stringBytes, .boolean, .booleanObj, .booleanChar, .booleanInteger, .date,
    .dateLong, .dateInteger, .dateString, .char, .charObj, .byte, .byteObj, .byteArray, .short,
    .shortObj, .integer, .integerObj, .long, .longObj, .float, .floatObj, .double, .doubleObj,
    .serializable, .enumString, .enumInteger, .uuid, .uuidNative, .bigInteger, .bigDecimal,
    .bigDecimalNumeric, .unknown]

/-- Every type is listed. -/
theorem mem_all (t : DataType) : t ∈ all := by cases t <;> decide

/-- The type taken where none is given. -/
def standard : DataType := .unknown

/-- The name of a type, in capitals. -/
def name : DataType → String
  | .string => "STRING"
  | .longString => "LONG_STRING"
  | .stringBytes => "STRING_BYTES"
  | .boolean => "BOOLEAN"
  | .booleanObj => "BOOLEAN_OBJ"
  | .booleanChar => "BOOLEAN_CHAR"
  | .booleanInteger => "BOOLEAN_INTEGER"
  | .date => "DATE"
  | .dateLong => "DATE_LONG"
  | .dateInteger => "DATE_INTEGER"
  | .dateString => "DATE_STRING"
  | .char => "CHAR"
  | .charObj => "CHAR_OBJ"
  | .byte => "BYTE"
  | .byteObj => "BYTE_OBJ"
  | .byteArray => "BYTE_ARRAY"
  | .short => "SHORT"
  | .shortObj => "SHORT_OBJ"
  | .integer => "INTEGER"
  | .integerObj => "INTEGER_OBJ"
  | .long => "LONG"
  | .longObj => "LONG_OBJ"
  | .float => "FLOAT"
  | .floatObj => "FLOAT_OBJ"
  | .double => "DOUBLE"
  | .doubleObj => "DOUBLE_OBJ"
  | .serializable => "SERIALIZABLE"
  | .enumString => "ENUM_STRING"
  | .enumInteger => "ENUM_INTEGER"
  | .uuid => "UUID"
  | .uuidNative => "UUID_NATIVE"
  | .bigInteger => "BIG_INTEGER"
  | .bigDecimal => "BIG_DECIMAL"
  | .bigDecimalNumeric => "BIG_DECIMAL_NUMERIC"
  | .unknown => "UNKNOWN"

/-- The type with a name, in any letter case. -/
def ofName? (s : String) : Option DataType := all.find? fun t => Text.sameName t.name s

/-- The place of a type in the order of declaration. -/
def index (t : DataType) : Nat := all.idxOf t

/-- Whether fields of the type list the constants of an enumeration. -/
def isEnum : DataType → Bool
  | .enumString | .enumInteger => true
  | _ => false

end DataType

end Relmap
