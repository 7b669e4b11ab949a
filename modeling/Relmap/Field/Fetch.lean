import Relmap.Field.Bind
import Relmap.Json.Read
import Relmap.Results.Read

/-!
# From the database to the program

A stored value becomes a value of the program again. It comes as a value that was stored, from a
column of a result row, which is first read as the kind that is stored, or as the text of a column.
-/

namespace Relmap

open Number (Scaled Word readWord? toWord?)
open Calendar (Timestamp)

namespace Field

/-- The timestamp of a count of milliseconds. -/
def ofMillis (f : Field) (millis : Int) : Except Failure Value :=
  match Timestamp.ofMillis? millis with
  | some t => .ok (.timestamp t)
  | none => .error (.conversion (.millisOutOfRange f.name millis))

/-- The timestamp of a count of seconds. -/
def ofSeconds (f : Field) (seconds : Int) : Except Failure Value :=
  match Timestamp.ofSeconds? seconds with
  | some t => .ok (.timestamp t)
  | none => .error (.conversion (.secondsOutOfRange f.name seconds))

/-- The constant that was found, or the one for unknown constants. -/
def resolve (f : Field) (e : Enumeration) (found : Option EnumConstant) (stored : String) :
    Except Failure Value :=
  match found <|> f.unknownEnum.bind e.byName? with
  | some c => .ok (.enum c)
  | none => .error (.conversion (.unknownConstant f.name stored))

/-- The constant of a stored name. -/
def ofConstantName (f : Field) (s : String) : Except Failure Value := do
  let e ← f.enumeration
  f.resolve e (e.byName? s) s

/-- The constant of a stored ordinal. -/
def ofOrdinal (f : Field) (n : Word 32) : Except Failure Value := do
  let e ← f.enumeration
  f.resolve e (e.byOrdinal? n) (Number.intText n.toInt)

/-- The text of octets. -/
def ofOctets (f : Field) (b : List UInt8) : Except Failure Value :=
  match Text.Utf8.decode b with
  | .ok s => .ok (.text (String.ofList s))
  | .error fault => .error (.conversion (.bytesNotText f.name fault))

/-- The data tree whose text the octets are. -/
def ofSerialized (f : Field) (position : Nat) (b : List UInt8) : Except Failure Value :=
  match Json.readBytes? b with
  | some j => .ok (.json j)
  | none => .error (.conversion (.bytesNotJson f.name position))

end Field

/-- The identifier of an identifier value or of a text that writes one. -/
def Field.ofUuidOrText (f : Field) : Value → Except Failure Value
  | .uuid u => .ok (.uuid u)
  | .text s => .uuid <$> f.parse "uuid" Uuid.read? s
  | v => .error (f.unexpected "uuid" v)

/-- The boolean of a stored character, which may come as a text of one character. -/
def Field.ofCharOrText (f : Field) : Value → Except Failure Value
  | .char c => .ok (.bool (c = f.trueChar))
  | .text s => (fun c => .bool (c = f.trueChar)) <$> f.parseChar s
  | v => .error (f.unexpected "char" v)

/-- Whether a number has the low octet one. -/
def isOneByte (n : Int) : Bool := BitVec.ofInt 8 n = 1

/-- The boolean of a stored number; a boolean stays as it is. -/
def Field.ofBoolOrByte (f : Field) : Value → Except Failure Value
  | .bool b => .ok (.bool b)
  | v => (fun n => .bool (isOneByte n)) <$> f.expect "byte" Value.integer? v

namespace Codec

/-- The value of a stored value. The position is that of its column, for messages. -/
def ofStored (c : Codec) (f : Field) (v : Value) (position : Nat) : Except Failure Value :=
  match c with
  | .string | .longString => .text <$> f.expect "text" Value.text? v
  | .stringBytes => do f.ofOctets (← f.expect "bytes" Value.bytes? v)
  | .byteArray => .bytes <$> f.expect "bytes" Value.bytes? v
  | .character _ => .char <$> f.expect "char" Value.char? v
  | .boolean _ => .bool <$> f.expect "bool" Value.bool? v
  | .booleanChar => f.ofCharOrText v
  | .booleanInteger => (fun n => .bool (n = 1)) <$> f.expect "integer" Value.integer? v
  | .integral w _ => w.value <$> f.expectWord w v
  | .single _ => .float <$> f.expect "f32" Value.single? v
  | .double _ => .double <$> f.expect "f64" Value.double? v
  | .date => .timestamp <$> f.expect "timestamp" Value.timestamp? v
  | .dateLong => do f.ofMillis (← f.expect "long" Value.integer? v)
  | .dateInteger => do f.ofSeconds (← f.expect "integer" Value.integer? v)
  | .dateString => do return .timestamp (← f.parseTime (← f.expect "text" Value.text? v))
  | .serializable => do f.ofSerialized position (← f.expect "bytes" Value.bytes? v)
  | .enumString => do f.ofConstantName (← f.expect "text" Value.text? v)
  | .enumInteger => do
    f.ofOrdinal (← f.expect "integer" (fun v => v.integer?.bind (toWord? 32)) v)
  | .uuid => do return .uuid (← f.parse "uuid" Uuid.read? (← f.expect "text" Value.text? v))
  | .uuidNative => f.ofUuidOrText v
  | .bigInteger => do
    return .bigInteger (← f.parse "big integer" (readWord? 128) (← f.expect "text" Value.text? v))
  | .bigDecimal => do
    return .decimal (← f.parse "decimal" Scaled.read? (← f.expect "text" Value.text? v))
  | .bigDecimalNumeric => .decimal <$> f.expect "decimal" Value.decimal? v

/-- The value of a column read as text. -/
def ofText (c : Codec) (f : Field) (s : String) : Except Failure Value :=
  match c with
  | .string | .longString | .stringBytes => .ok (.text s)
  | .byteArray => .ok (.bytes (Text.Utf8.encode s.toList))
  | .character _ => .char <$> f.parseChar s
  | .boolean _ => .bool <$> f.parseBool s
  | .booleanChar => (fun c => .bool (c = f.trueChar)) <$> f.parseChar s
  | .booleanInteger => (fun n => .bool (n = 1)) <$> f.parse "integer" (readWord? 32) s
  | .integral w _ => w.value <$> f.parse w.typeName (readWord? w.bits) s
  | .single _ => .float <$> f.parse "f32" (Number.Binary.read? .single) s
  | .double _ => .double <$> f.parse "f64" (Number.Binary.read? .double) s
  | .date | .dateString => .timestamp <$> f.parseTime s
  | .dateLong => do f.ofMillis (← f.parse "epoch milliseconds" (readWord? 64) s).toInt
  | .dateInteger => do f.ofSeconds (← f.parse "epoch seconds" (readWord? 32) s).toInt
  | .serializable => .error (.statement (.textUnsupported f.name f.type))
  | .enumString => f.ofConstantName s
  | .enumInteger => do f.ofOrdinal (← f.parse "enum ordinal" (readWord? 32) s)
  | .uuid | .uuidNative => .uuid <$> f.parse "uuid" Uuid.read? s
  | .bigInteger => .bigInteger <$> f.parse "big integer" (readWord? 128) s
  | .bigDecimal | .bigDecimalNumeric => .decimal <$> f.parse "decimal" Scaled.read? s

/-- The stored value of a column, read as the kind that the codec stores. -/
def readStored (c : Codec) (r : Results) (position : Nat) : Except Failure Value :=
  match c with
  | .string | .longString | .dateString | .enumString | .uuid | .bigInteger | .bigDecimal =>
    .text <$> r.getString position
  | .stringBytes | .byteArray | .serializable => .bytes <$> r.getBytes position
  | .character _ | .booleanChar => .char <$> r.getChar position
  | .boolean _ => .bool <$> r.getBoolean position
  | .integral .byte _ => .byte <$> r.getByte position
  | .integral .short _ => .short <$> r.getShort position
  | .booleanInteger | .integral .int _ | .dateInteger | .enumInteger => .int <$> r.getInt position
  | .integral .long _ | .dateLong => .long <$> r.getLong position
  | .single _ => .float <$> r.getFloat position
  | .double _ => .double <$> r.getDouble position
  | .date => .timestamp <$> r.getTimestamp position
  | .uuidNative => .uuid <$> r.getUuid position
  | .bigDecimalNumeric => .decimal <$> r.getDecimal position

end Codec

namespace Converter

/-- The value of a stored value, through the layers around a codec. -/
def ofStoredThrough (c : Codec) (f : Field) (v : Value) (position : Nat) :
    List Adapter → Except Failure Value
  | [] => c.ofStored f v position
  | .booleanNumber :: _ => f.ofBoolOrByte v
  | .characterCompat :: inner =>
    match v with
    | .text s => do ofStoredThrough c f (.char (← f.parseChar s)) position inner
    | _ => ofStoredThrough c f v position inner
  | .forwarding _ :: inner | .retyped _ _ :: inner => ofStoredThrough c f v position inner

/-- The value of a stored value. -/
def ofStored (c : Converter) (f : Field) (v : Value) (position : Nat) : Except Failure Value :=
  ofStoredThrough c.codec f v position c.layers

/-- The value of a column read as text, through the layers around a codec. -/
def ofTextThrough (c : Codec) (f : Field) (s : String) : List Adapter → Except Failure Value
  | [] => c.ofText f s
  | .booleanNumber :: _ => do
    f.ofBoolOrByte (.byte (← f.parse "byte" (readWord? 8) s))
  | .characterCompat :: inner | .forwarding _ :: inner | .retyped _ _ :: inner =>
    ofTextThrough c f s inner

/-- The value of a column read as text. -/
def ofText (c : Converter) (f : Field) (s : String) : Except Failure Value :=
  ofTextThrough c.codec f s c.layers

/-- The stored value of a column, through the layers around a codec. -/
def readStoredThrough (c : Codec) (r : Results) (position : Nat) :
    List Adapter → Except Failure Value
  | [] => c.readStored r position
  | .booleanNumber :: _ => .byte <$> r.getByte position
  | .characterCompat :: inner => charAsText <$> readStoredThrough c r position inner
  | .forwarding _ :: inner | .retyped _ _ :: inner => readStoredThrough c r position inner

/-- The stored value of a column, read as the kind that the converter stores. -/
def readStored (c : Converter) (r : Results) (position : Nat) : Except Failure Value :=
  readStoredThrough c.codec r position c.layers

/-- The value of a column; a null column is null. -/
def ofColumn (c : Converter) (f : Field) (r : Results) (position : Nat) : Except Failure Value := do
  if ← r.isNull position then return .null
  c.ofStored f (← c.readStored r position) position

end Converter

namespace Field

/-- The value of a stored value. Null stays null. -/
def ofStored (f : Field) (v : Value) (position : Nat) : Except Failure Value :=
  if v.isNull then .ok .null else f.converter.ofStored f v position

/-- The value of a column. Null is a failure for a field of a primitive type that asks for it. -/
def ofColumn (f : Field) (r : Results) (position : Nat) : Except Failure Value := do
  let v ← f.converter.ofColumn f r position
  if v.isNull && f.throwIfNull && f.converter.codec.isPrimitive then
    throw (.conversion (.nullColumn f.name f.column))
  return v

/-- The value of a column read as text. -/
def ofText (f : Field) (s : String) : Except Failure Value := f.converter.ofText f s

/-- The default value of the program, if there is a default. -/
def nativeDefault (f : Field) : Except Failure (Option Value) :=
  f.defaultValue.mapM fun v => f.converter.ofStored f v 0

end Field

end Relmap
