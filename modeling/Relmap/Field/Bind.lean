import Relmap.Field.Basic
import Relmap.Number.Scaled

/-!
# From the program to the database

A value of the program becomes the value that is stored, and the text of a default becomes the
stored default. Layers change the stored values: a byte for a boolean, a text for a character.
-/

namespace Relmap

open Number (Word readWord? toWord?)

/-- The value that holds a word of a width. -/
def Width.value : (w : Width) → Word w.bits → Value
  | .byte, n => .byte n
  | .short, n => .short n
  | .int, n => .int n
  | .long, n => .long n

/-- The stored form of a boolean as a number. -/
def boolByte (b : Bool) : Value := .byte (if b then 1 else 0)

/-- The stored form of a boolean as an integer. -/
def boolInt (b : Bool) : Value := .int (if b then 1 else 0)

namespace Field

/-- The word of a whole number, which has to fit the width. -/
def expectWord (f : Field) (w : Width) (v : Value) : Except Failure (Word w.bits) :=
  match v.integer? with
  | none => .error (f.unexpected w.typeName v)
  | some n =>
    match toWord? w.bits n with
    | some m => .ok m
    | none => .error (.conversion (.outOfRange f.name v.kind v.display w.typeName))

/-- The seconds of a timestamp, which have to fit thirty-two bits. -/
def secondsWord (f : Field) (t : Calendar.Timestamp) : Except Failure (Word 32) :=
  match toWord? 32 t.seconds with
  | some n => .ok n
  | none => .error (.conversion (.secondsTooWide f.name t.seconds))

/-- The constant that a text names. -/
def parseConstant (f : Field) (s : String) : Except Failure EnumConstant := do
  match (← f.enumeration).byName? s with
  | some c => return c
  | none => throw (f.unreadable "enum name" s)

/-- The constant whose ordinal a text tells. -/
def parseOrdinal (f : Field) (s : String) : Except Failure EnumConstant := do
  let n ← f.parse "enum ordinal" (readWord? 32) s
  match (← f.enumeration).byOrdinal? n with
  | some c => return c
  | none => throw (f.unreadable "enum ordinal" s)

end Field

namespace Codec

/-- The stored form of a value. -/
def toStored (c : Codec) (f : Field) (v : Value) : Except Failure Value :=
  match c with
  | .string | .longString => .text <$> f.expect "text" Value.shortText? v
  | .stringBytes => (fun s => .bytes (Text.Utf8.encode s.toList)) <$> f.expect "text" Value.text? v
  | .byteArray => .bytes <$> f.expect "bytes" Value.bytes? v
  | .character _ => .char <$> f.expect "char" Value.char? v
  | .boolean _ => .bool <$> f.expect "bool" Value.bool? v
  | .booleanChar => (fun b => .char (f.boolChar b)) <$> f.expect "bool" Value.bool? v
  | .booleanInteger => boolInt <$> f.expect "bool" Value.bool? v
  | .integral w _ => w.value <$> f.expectWord w v
  | .single _ => .float <$> f.expect "f32" Value.single? v
  | .double _ => .double <$> f.expect "f64" Value.double? v
  | .date => .timestamp <$> f.expect "timestamp" Value.timestamp? v
  | .dateLong =>
    (fun t => .long (BitVec.ofInt 64 t.millis)) <$> f.expect "timestamp" Value.timestamp? v
  | .dateInteger => do return .int (← f.secondsWord (← f.expect "timestamp" Value.timestamp? v))
  | .dateString => do return .text (← f.timeText (← f.expect "timestamp" Value.timestamp? v))
  | .serializable =>
    (fun j => .bytes (Text.Utf8.encode j.text.toList)) <$> f.expect "json" Value.json? v
  | .enumString => (fun k => .text k.name) <$> f.expect "enum" Value.enum? v
  | .enumInteger => (fun k => .int k.ordinal) <$> f.expect "enum" Value.enum? v
  | .uuid => (fun u => .text u.text) <$> f.expect "uuid" Value.uuid? v
  | .uuidNative => .uuid <$> f.expect "uuid" Value.uuid? v
  | .bigInteger =>
    (fun n => .text (Number.intText n)) <$> f.expect "big integer" Value.wholeNumber? v
  | .bigDecimal => (fun d => .text d.text) <$> f.expect "decimal" Value.decimal? v
  | .bigDecimalNumeric => .decimal <$> f.expect "decimal" Value.decimal? v

/-- The stored form of a default, from its text. -/
def parseDefault (c : Codec) (f : Field) (s : String) : Except Failure Value :=
  match c with
  | .string | .longString => .ok (.text s)
  | .stringBytes => .error (.statement (.defaultRefused f.name f.type))
  | .byteArray => .ok (.bytes (Text.Utf8.encode s.toList))
  | .character _ => .char <$> f.parseChar s
  | .boolean _ => .bool <$> f.parseBool s
  | .booleanChar => (fun b => .char (f.boolChar b)) <$> f.parseBool s
  | .booleanInteger => boolInt <$> f.parseBool s
  | .integral w _ => w.value <$> f.parse w.typeName (readWord? w.bits) s
  | .single _ => .float <$> f.parse "f32" (Number.Binary.read? .single) s
  | .double _ => .double <$> f.parse "f64" (Number.Binary.read? .double) s
  | .date => .timestamp <$> f.parseTime s
  | .dateLong => .long <$> f.parse "epoch milliseconds" (readWord? 64) s
  | .dateInteger => .int <$> f.parse "epoch seconds" (readWord? 32) s
  | .dateString => do return .text (← f.timeText (← f.parseTime s))
  | .serializable => .error (.statement (.defaultUnsupported f.name f.type))
  | .enumString => (fun k => .text k.name) <$> f.parseConstant s
  | .enumInteger => (fun k => .int k.ordinal) <$> f.parseOrdinal s
  | .uuid => (fun u => .text u.text) <$> f.parse "uuid" Uuid.read? s
  | .uuidNative => .uuid <$> f.parse "uuid" Uuid.read? s
  | .bigInteger =>
    (fun n => .text (Number.intText n.toInt)) <$> f.parse "big integer" (readWord? 128) s
  | .bigDecimal => (fun d => .text d.text) <$> f.parse "decimal" Number.Scaled.read? s
  | .bigDecimalNumeric => .decimal <$> f.parse "decimal" Number.Scaled.read? s

end Codec

/-- A value with a character made a text of one character. -/
def charAsText : Value → Value
  | .char c => .text (String.ofList [c])
  | v => v

namespace Converter

/-- The stored form of a value, through the layers around a codec. -/
def toStoredThrough (c : Codec) (f : Field) (v : Value) : List Adapter → Except Failure Value
  | [] => c.toStored f v
  | .booleanNumber :: _ => boolByte <$> f.expect "bool" Value.bool? v
  | .characterCompat :: inner => charAsText <$> toStoredThrough c f v inner
  | .forwarding _ :: inner | .retyped _ _ :: inner => toStoredThrough c f v inner

/-- The stored form of a value. -/
def toStored (c : Converter) (f : Field) (v : Value) : Except Failure Value :=
  toStoredThrough c.codec f v c.layers

/-- The stored form of a default, through the layers around a codec. -/
def parseDefaultThrough (c : Codec) (f : Field) (s : String) : List Adapter → Except Failure Value
  | [] => c.parseDefault f s
  | .booleanNumber :: inner => do
    return boolByte (← f.expect "bool" Value.bool? (← parseDefaultThrough c f s inner))
  | .characterCompat :: inner | .forwarding _ :: inner | .retyped _ _ :: inner =>
    parseDefaultThrough c f s inner

/-- The stored form of a default, from its text. -/
def parseDefault (c : Converter) (f : Field) (s : String) : Except Failure Value :=
  parseDefaultThrough c.codec f s c.layers

end Converter

/-- The stored form of a value of the field. Null is stored as null where the field allows it. -/
def Field.toStored (f : Field) (v : Value) : Except Failure Value :=
  if v.isNull then
    if f.nullable then .ok .null else .error (.conversion (.nullValue f.name))
  else f.converter.toStored f v

end Relmap
