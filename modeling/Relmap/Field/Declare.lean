import Relmap.Field.Bind
import Relmap.Text.Caseless

/-!
# Making a field from its declaration

A declaration is checked against what its codec allows, its format is worked out, and then its
default is read. The first thing wrong is the failure. Every failure is one of configuration but
for a default that the format of the field reads and cannot write.
-/

namespace Relmap

/-- Fails when a condition holds. -/
def refuseIf (b : Bool) (cause : ConfigFailure) : Except Failure Unit :=
  if b then .error (.config cause) else .ok ()

/-- The two characters of a format for booleans, which have to differ. -/
def readBoolChars? (s : String) : Option (Char × Char) :=
  match s.toList with
  | [t, u] => if t ≠ u then some (t, u) else none
  | _ => none

/-- The only character set of text kept as octets. -/
def octetCharset : String := "UTF-8"

/-- The names of that character set. -/
def octetCharsetNames : List String := ["utf-8", "utf8"]

namespace FieldDecl

/-- The pattern of dates. -/
def readPattern (d : FieldDecl) : Except Failure FieldFormat :=
  match d.format with
  | none => .ok (.date .standard)
  | some text =>
    match Calendar.Pattern.ofText? text with
    | some p => .ok (.date p)
    | none => .error (.config (.dateFormat d.name text))

/-- The characters of booleans. -/
def readBoolChars (d : FieldDecl) : Except Failure FieldFormat :=
  match d.format with
  | none => .ok (.booleanChars '1' '0')
  | some text =>
    match readBoolChars? text with
    | some (t, u) => .ok (.booleanChars t u)
    | none => .error (.config (.booleanChars d.name text))

/-- The character set of text kept as octets. -/
def readCharset (d : FieldDecl) : Except Failure FieldFormat :=
  match d.format with
  | none => .ok (.charset octetCharset)
  | some text =>
    if octetCharsetNames.any (Text.sameName text) then .ok (.charset octetCharset)
    else .error (.config (.charset d.name text))

/-- The constants of an enumeration: at least one, as many ordinals as constants, and among them
the one for unknown constants. -/
def readConstants (d : FieldDecl) : Except Failure FieldFormat := do
  let e : Enumeration := ⟨d.enumConstants⟩
  refuseIf e.isEmpty (.noConstants d.name)
  refuseIf (e.size != d.enumConstants.length) (.repeatedConstants d.name)
  if let some name := d.unknownEnum then
    refuseIf (e.byName? name).isNone (.unknownFallback d.name name)
  return .constants e

/-- What the format of a field comes to under a codec; `none` for a codec without formats. -/
def readFormat (d : FieldDecl) (c : Codec) : Except Failure (Option FieldFormat) :=
  match c with
  | .date | .dateString => some <$> d.readPattern
  | .booleanChar => some <$> d.readBoolChars
  | .stringBytes => some <$> d.readCharset
  | .enumString | .enumInteger => some <$> d.readConstants
  | _ => .ok none

/-- Checks that the codec allows what is declared. -/
def check (d : FieldDecl) (c : Codec) : Except Failure Unit := do
  refuseIf (d.id && d.generatedId) (.idTwice d.name)
  refuseIf (d.isId && !c.fitsId) (.notId d.name d.type)
  refuseIf (d.generatedId && !c.takesKeys && !c.makesIds) (.notGeneratedId d.name d.type)
  refuseIf (d.generatedId && d.defaultText.isSome) (.generatedIdDefault d.name)
  refuseIf (d.version && !c.fitsVersion) (.notVersion d.name d.type)
  refuseIf (d.throwIfNull && !c.isPrimitive) (.nullCheckOnBoxed d.name)
  refuseIf (d.unknownEnum.isSome && !d.type.isEnum) (.fallbackOnNonEnum d.name)

/-- A failure to read a default as a failure of configuration. -/
def defaultFailure : Failure → Failure
  | .parse cause => .config (.unreadableDefault cause)
  | .statement cause => .config (.unsupportedDefault cause)
  | e => e

/-- The field of a declaration under a dialect. -/
def toField (d : FieldDecl) (dialect : Dialect) : Except Failure Field := do
  let some codec := d.type.codec? | throw (.config (.noConverter d.name d.type))
  d.check codec
  let formatting ← d.readFormat codec
  let field : Field :=
    { d with converter := dialect.converter codec, formatting, defaultValue := none }
  match d.defaultText with
  | none => return field
  | some text =>
    let v ← (field.converter.parseDefault field text).mapError defaultFailure
    return { field with defaultValue := some v }

end FieldDecl

end Relmap
