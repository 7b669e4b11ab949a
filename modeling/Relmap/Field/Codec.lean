import Relmap.DataType
import Relmap.Number.Binary

/-!
# Codecs

A codec is one way to keep values of the program in the database. Types that differ only in whether
their values can be missing share a codec. Here are the codecs and what can be told about each of
them without looking at a value; their conversions are in the modules on binding and on fetching.
-/

namespace Relmap

/-- The widths of whole numbers. -/
inductive Width
  | byte
  | short
  | int
  | long
  deriving DecidableEq, Repr

namespace Width

/-- The number of bits. -/
def bits : Width → Nat
  | .byte => 8
  | .short => 16
  | .int => 32
  | .long => 64

/-- The name of the signed type of this width in messages. -/
def typeName : Width → String
  | .byte => "i8"
  | .short => "i16"
  | .int => "i32"
  | .long => "i64"

/-- The column type of this width. -/
def sqlType : Width → SqlType
  | .byte => .byte
  | .short => .short
  | .int => .integer
  | .long => .long

end Width

/-- A way to keep values. Where it is shared, `primitive` tells the type whose values cannot be
missing. -/
inductive Codec
  | string
  | longString
  /-- Text as octets. -/
  | stringBytes
  | byteArray
  | character (primitive : Bool)
  | boolean (primitive : Bool)
  /-- Booleans as one of two characters. -/
  | booleanChar
  /-- Booleans as one or zero. -/
  | booleanInteger
  | integral (width : Width) (primitive : Bool)
  | single (primitive : Bool)
  | double (primitive : Bool)
  | date
  /-- Dates as milliseconds since 1970. -/
  | dateLong
  /-- Dates as seconds since 1970. -/
  | dateInteger
  /-- Dates as text by the pattern of the field. -/
  | dateString
  /-- Data trees as the octets of their text. -/
  | serializable
  | enumString
  | enumInteger
  /-- Identifiers as text. -/
  | uuid
  | uuidNative
  | bigInteger
  | bigDecimal
  | bigDecimalNumeric
  deriving DecidableEq, Repr

/-- The codec of a type. -/
def DataType.codec? : DataType → Option Codec
  | .string => some .string
  | .longString => some .longString
  | .stringBytes => some .stringBytes
  | .boolean => some (.boolean true)
  | .booleanObj => some (.boolean false)
  | .booleanChar => some .booleanChar
  | .booleanInteger => some .booleanInteger
  | .date => some .date
  | .dateLong => some .dateLong
  | .dateInteger => some .dateInteger
  | .dateString => some .dateString
  | .char => some (.character true)
  | .charObj => some (.character false)
  | .byte => some (.integral .byte true)
  | .byteObj => some (.integral .byte false)
  | .byteArray => some .byteArray
  | .short => some (.integral .short true)
  | .shortObj => some (.integral .short false)
  | .integer => some (.integral .int true)
  | .integerObj => some (.integral .int false)
  | .long => some (.integral .long true)
  | .longObj => some (.integral .long false)
  | .float => some (.single true)
  | .floatObj => some (.single false)
  | .double => some (.double true)
  | .doubleObj => some (.double false)
  | .serializable => some .serializable
  | .enumString => some .enumString
  | .enumInteger => some .enumInteger
  | .uuid => some .uuid
  | .uuidNative => some .uuidNative
  | .bigInteger => some .bigInteger
  | .bigDecimal => some .bigDecimal
  | .bigDecimalNumeric => some .bigDecimalNumeric
  | .unknown => none

namespace Codec

/-- The type a codec belongs to. -/
def type : Codec → DataType
  | .string => .string
  | .longString => .longString
  | .stringBytes => .stringBytes
  | .byteArray => .byteArray
  | .character primitive => if primitive then .char else .charObj
  | .boolean primitive => if primitive then .boolean else .booleanObj
  | .booleanChar => .booleanChar
  | .booleanInteger => .booleanInteger
  | .integral .byte primitive => if primitive then .byte else .byteObj
  | .integral .short primitive => if primitive then .short else .shortObj
  | .integral .int primitive => if primitive then .integer else .integerObj
  | .integral .long primitive => if primitive then .long else .longObj
  | .single primitive => if primitive then .float else .floatObj
  | .double primitive => if primitive then .double else .doubleObj
  | .date => .date
  | .dateLong => .dateLong
  | .dateInteger => .dateInteger
  | .dateString => .dateString
  | .serializable => .serializable
  | .enumString => .enumString
  | .enumInteger => .enumInteger
  | .uuid => .uuid
  | .uuidNative => .uuidNative
  | .bigInteger => .bigInteger
  | .bigDecimal => .bigDecimal
  | .bigDecimalNumeric => .bigDecimalNumeric

/-- Types and codecs name each other. -/
theorem codec?_eq_some_iff {t : DataType} {c : Codec} : t.codec? = some c ↔ c.type = t := by
  constructor
  · cases t <;> simp only [DataType.codec?, Option.some.injEq, reduceCtorEq, false_implies] <;>
      rintro rfl <;> rfl
  · rintro rfl
    match c with
    | .character p | .boolean p | .single p | .double p => cases p <;> rfl
    | .integral w p => cases w <;> cases p <;> rfl
    | .string | .longString | .stringBytes | .byteArray | .booleanChar | .booleanInteger | .date
    | .dateLong | .dateInteger | .dateString | .serializable | .enumString | .enumInteger | .uuid
    | .uuidNative | .bigInteger | .bigDecimal | .bigDecimalNumeric => rfl

/-- The name of a codec, which is that of its type. -/
def name (c : Codec) : String := c.type.name

/-- The type of the stored values. -/
def sqlType : Codec → SqlType
  | .string => .string
  | .longString => .longString
  | .stringBytes | .byteArray => .byteArray
  | .character _ | .booleanChar => .char
  | .boolean _ => .boolean
  | .booleanInteger | .dateInteger | .enumInteger => .integer
  | .integral width _ => width.sqlType
  | .single _ => .float
  | .double _ => .double
  | .date => .date
  | .dateLong => .long
  | .dateString | .enumString | .uuid | .bigInteger | .bigDecimal => .string
  | .serializable => .serializable
  | .uuidNative => .uuid
  | .bigDecimalNumeric => .bigDecimal

/-- Whether the values of the program cannot be missing. -/
def isPrimitive : Codec → Bool
  | .character primitive | .boolean primitive | .integral _ primitive | .single primitive
  | .double primitive => primitive
  | .booleanChar | .booleanInteger => true
  | _ => false

/-- Whether the literal of a stored value is written between quotes. -/
def isQuoted : Codec → Bool
  | .string | .longString | .character _ | .booleanChar | .date | .dateString | .enumString | .uuid
  | .uuidNative | .bigInteger | .bigDecimal => true
  | _ => false

/-- Whether stored values can be compared with each other. -/
def isComparable : Codec → Bool
  | .stringBytes | .byteArray | .serializable => false
  | _ => true

/-- Whether a field can be the id of its table. -/
def fitsId : Codec → Bool
  | .string | .integral .. | .uuid | .uuidNative | .bigInteger => true
  | _ => false

/-- Whether a field can be the version of its table. -/
def fitsVersion : Codec → Bool
  | .integral .. | .date | .dateLong | .dateInteger => true
  | _ => false

/-- Whether keys given by the database can become ids. -/
def takesKeys : Codec → Bool
  | .integral .. | .bigInteger => true
  | _ => false

/-- Whether the program makes the ids itself. -/
def makesIds : Codec → Bool
  | .uuid | .uuidNative => true
  | _ => false

end Codec

end Relmap
