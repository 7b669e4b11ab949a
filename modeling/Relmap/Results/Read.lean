import Relmap.Results.Basic
import Relmap.Value.Coerce

/-!
# Typed reads of a column

Each read takes the value of a column in the current row and gives it as the kind asked for; a
value without such a reading is a failure that names the column and both kinds.
-/

namespace Relmap.Results

open Number (Double Scaled Single Word toWord?)
open Calendar (Timestamp)

/-- Reads a column by a coercion. -/
def read {α : Type} (r : Results) (position : Nat) (target : String)
    (coerce? : Value → Option α) : Except Failure α := do
  let v ← r.get position
  match coerce? v with
  | some a => return a
  | none => throw (.access (.unreadableColumn position v.kind target))

/-- Reads text. -/
def getString (r : Results) (position : Nat) : Except Failure String :=
  return (← r.get position).toText

/-- Reads a boolean. -/
def getBoolean (r : Results) (position : Nat) : Except Failure Bool :=
  r.read position "boolean" Value.toBool?

/-- Reads a character. -/
def getChar (r : Results) (position : Nat) : Except Failure Char :=
  r.read position "char" Value.toChar?

/-- Reads the low eight bits of a whole number. -/
def getByte (r : Results) (position : Nat) : Except Failure (Word 8) :=
  return (← r.read position "byte" Value.toLong?).setWidth 8

/-- Reads the low sixteen bits of a whole number. -/
def getShort (r : Results) (position : Nat) : Except Failure (Word 16) :=
  return (← r.read position "short" Value.toLong?).setWidth 16

/-- Reads a whole number, which has to fit thirty-two bits. -/
def getInt (r : Results) (position : Nat) : Except Failure (Word 32) := do
  let n ← r.read position "int" Value.toLong?
  match toWord? 32 n.toInt with
  | some m => return m
  | none => throw (.conversion (.columnTooWide position n.toInt))

/-- Reads a whole number of sixty-four bits. -/
def getLong (r : Results) (position : Nat) : Except Failure (Word 64) :=
  r.read position "long" Value.toLong?

/-- Reads a number in single precision, by way of double precision. -/
def getFloat (r : Results) (position : Nat) : Except Failure Single :=
  return (← r.read position "float" Value.toDouble?).convert .single

/-- Reads a number in double precision. -/
def getDouble (r : Results) (position : Nat) : Except Failure Double :=
  r.read position "double" Value.toDouble?

/-- Reads octets. -/
def getBytes (r : Results) (position : Nat) : Except Failure (List UInt8) :=
  r.read position "bytes" Value.toBytes?

/-- Reads a timestamp. -/
def getTimestamp (r : Results) (position : Nat) : Except Failure Timestamp :=
  r.read position "timestamp" Value.toTimestamp?

/-- Reads a decimal number. -/
def getDecimal (r : Results) (position : Nat) : Except Failure Scaled :=
  r.read position "decimal" Value.toDecimal?

/-- Reads an identifier. -/
def getUuid (r : Results) (position : Nat) : Except Failure Uuid :=
  r.read position "uuid" Value.toUuid?

end Relmap.Results
