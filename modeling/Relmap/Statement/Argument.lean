import Relmap.Field.Bind
import Relmap.Value.Literal

/-!
# Arguments of statements

An argument belongs to a field, whose converter makes its stored value, or it is raw and holds a
stored value as given. Its value may be left open until the statement is prepared.
-/

namespace Relmap

/-- What an argument belongs to. -/
inductive ArgumentTarget
  | field (f : Field)
  /-- No field, with the type of the stored value. -/
  | raw (type : SqlType)

/-- An argument of a statement. -/
structure Argument where
  target : ArgumentTarget
  /-- The stored value, once there is one. -/
  value : Option Value
  /-- Whether the argument is meant to be set later. -/
  late : Bool

namespace Argument

/-- A raw argument with its stored value. -/
def raw (v : Value) : Argument := ⟨.raw v.sqlType, some v, false⟩

/-- A raw argument to be set later. -/
def rawLate (type : SqlType) : Argument := ⟨.raw type, none, true⟩

/-- An argument of a field with its value. -/
def ofField (f : Field) (v : Value) : Except Failure Argument :=
  return ⟨.field f, some (← f.toStored v), false⟩

/-- An argument of a field to be set later, perhaps with a value for the time being. -/
def ofFieldLate (f : Field) (v : Option Value) : Except Failure Argument :=
  return ⟨.field f, ← v.mapM f.toStored, true⟩

/-- The column of the argument's field. -/
def column? (a : Argument) : Option String :=
  match a.target with
  | .field f => some f.column
  | .raw _ => none

/-- The type of the stored value. -/
def sqlType (a : Argument) : SqlType :=
  match a.target with
  | .field f => f.converter.sqlType
  | .raw type => type

/-- Whether there is a value. -/
def isSet (a : Argument) : Bool := a.value.isSome

/-- The argument with a value, which its field converts. -/
def set (a : Argument) (v : Value) : Except Failure Argument :=
  match a.target with
  | .field f => return { a with value := some (← f.toStored v) }
  | .raw _ => .ok { a with value := some v }

/-- The stored value. -/
def stored (a : Argument) : Except Failure Value :=
  match a.value with
  | some v => .ok v
  | none => .error (.statement (.argumentUnset a.column?))

/-- Whether the literal of the value is written between quotes. -/
def isQuoted (a : Argument) : Bool :=
  match a.target with
  | .field f => f.converter.codec.isQuoted
  | .raw _ => a.value.any Value.quotedByItself

/-- The literal of the value. -/
def literal (a : Argument) : Except Failure String :=
  return (← a.stored).literal a.isQuoted

end Argument

end Relmap
