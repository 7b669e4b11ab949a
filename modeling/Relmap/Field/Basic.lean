import Relmap.Calendar.Pattern.Read
import Relmap.Failure
import Relmap.Field.Converter
import Relmap.Field.Enumeration
import Relmap.Text.Blank

/-!
# Fields

A field as it is declared, and the field it becomes under a dialect: the declaration with its
converter, what its format comes to, and its default value as it is stored.
-/

namespace Relmap

open Calendar (Pattern Timestamp)

/-- The declaration of a field. -/
structure FieldDecl where
  name : String
  type : DataType
  /-- The column, if it is not called as the field. -/
  column? : Option String := none
  nullable : Bool := true
  defaultText : Option String := none
  id : Bool := false
  /-- Whether the field is an id that is made when a row is stored. -/
  generatedId : Bool := false
  version : Bool := false
  /-- Whether a missing value of a primitive type is a failure. -/
  throwIfNull : Bool := false
  format : Option String := none
  width : Option Nat := none
  /-- The names of the constants of an enumeration. -/
  enumConstants : List String := []
  /-- The constant that stands for every unknown one. -/
  unknownEnum : Option String := none
  deriving DecidableEq

namespace FieldDecl

/-- The column of a field. -/
def column (d : FieldDecl) : String := d.column?.getD d.name

/-- Whether the field is an id. -/
def isId (d : FieldDecl) : Bool := d.id || d.generatedId

end FieldDecl

/-- What the format of a field comes to. -/
inductive FieldFormat
  | date (pattern : Pattern)
  /-- The characters stored for true and for false. -/
  | booleanChars (whenTrue whenFalse : Char)
  | constants (enumeration : Enumeration)
  | charset (name : String)
  deriving DecidableEq

/-- A field under a dialect. -/
structure Field extends FieldDecl where
  converter : Converter
  formatting : Option FieldFormat
  /-- The default value as it is stored. -/
  defaultValue : Option Value

namespace Field

/-! ### Formats -/

/-- The pattern of dates. -/
def datePattern (f : Field) : Pattern :=
  match f.formatting with
  | some (.date pattern) => pattern
  | _ => .standard

/-- The character stored for true. -/
def trueChar (f : Field) : Char :=
  match f.formatting with
  | some (.booleanChars t _) => t
  | _ => '1'

/-- The character stored for a boolean. -/
def boolChar (f : Field) (b : Bool) : Char :=
  match f.formatting with
  | some (.booleanChars t u) => if b then t else u
  | _ => if b then '1' else '0'

/-- The constants of the field's enumeration. -/
def enumeration (f : Field) : Except Failure Enumeration :=
  match f.formatting with
  | some (.constants e) => .ok e
  | _ => .error (.statement (.noConstants f.name))

/-! ### Values and texts of a kind -/

/-- The failure of a value that is not of the expected kind. -/
def unexpected (f : Field) (expected : String) (v : Value) : Failure :=
  .conversion (.unexpectedKind f.name expected v.kind)

/-- What `pick?` takes from a value, which has to be of the expected kind. -/
def expect {α : Type} (f : Field) (expected : String) (pick? : Value → Option α) (v : Value) :
    Except Failure α :=
  match pick? v with
  | some a => .ok a
  | none => .error (f.unexpected expected v)

/-- The failure of a text that cannot be read. -/
def unreadable (f : Field) (expected : String) (s : String) : Failure :=
  .parse (.unreadable f.name s expected)

/-- What a text says between blanks. -/
def parse {α : Type} (f : Field) (expected : String) (read? : List Char → Option α) (s : String) :
    Except Failure α :=
  match read? (Text.trim s.toList) with
  | some a => .ok a
  | none => .error (f.unreadable expected s)

/-- The boolean of a text: one of two words in any letter case. -/
def readBool? (s : List Char) : Option Bool :=
  if Text.sameName (String.ofList s) "true" then some true
  else if Text.sameName (String.ofList s) "false" then some false
  else none

/-- The boolean of a text. -/
def parseBool (f : Field) (s : String) : Except Failure Bool := f.parse "boolean" readBool? s

/-- The only character of a text. -/
def parseChar (f : Field) (s : String) : Except Failure Char :=
  match s.toList with
  | [c] => .ok c
  | _ => .error (.parse (.notOneCharacter f.name s))

/-- The timestamp of a text by a list of pieces; a text that gives a day only means its start. -/
def readTime? (items : List Calendar.PatternItem) (s : List Char) : Option Timestamp :=
  Calendar.readTimestamp? items s <|> (Calendar.readDay? items s).bind Timestamp.midnight?

/-- The timestamp of a text by the field's pattern. -/
def parseTime (f : Field) (s : String) : Except Failure Timestamp :=
  f.parse ("date '" ++ f.datePattern.text ++ "'") (readTime? f.datePattern.items) s

/-- The text of a timestamp by the field's pattern. -/
def timeText (f : Field) (t : Timestamp) : Except Failure String :=
  match f.datePattern.write? t with
  | some s => .ok s
  | none => .error (.conversion (.dateNotWritable f.name f.datePattern.text))

end Field

end Relmap
