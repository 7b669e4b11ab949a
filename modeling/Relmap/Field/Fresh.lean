import Relmap.Field.Bind

/-!
# Fresh values

Values that a field gets without the program giving them: the id of a new row and the next version
of a row. Some of them come from outside, the current time and a random identifier; they are told
here and filled in by whoever has a clock or a source of randomness.
-/

namespace Relmap

open Number (Word)

/-- A value, or where to take it from. -/
inductive Fresh
  | value (v : Value)
  | currentTime
  | randomUuid

/-- The value, with the outside supplied. -/
def Fresh.resolve (now : Calendar.Timestamp) (random : Uuid) : Fresh → Value
  | .value v => v
  | .currentTime => .timestamp now
  | .randomUuid => .uuid random

/-- The word after the one a value of this width holds, around the end; one after anything else. -/
def Width.next : (w : Width) → Value → Value
  | .byte, .byte n => .byte (n + 1)
  | .short, .short n => .short (n + 1)
  | .int, .int n => .int (n + 1)
  | .long, .long n => .long (n + 1)
  | w, _ => w.value (BitVec.ofNat _ 1)

namespace Codec

/-- The id for a key given by the database: the low bits of the key. -/
def ofKey? (c : Codec) (key : Word 64) : Option Value :=
  match c with
  | .integral w _ => some (w.value (BitVec.ofInt _ key.toInt))
  | .bigInteger => some (.bigInteger (BitVec.ofInt _ key.toInt))
  | _ => none

/-- The version after a given one. -/
def next? (c : Codec) (current : Value) : Option Fresh :=
  match c with
  | .integral w _ => some (.value (w.next current))
  | .date | .dateLong | .dateInteger => some .currentTime
  | _ => none

/-- An id that the program makes itself. -/
def freshId? : Codec → Option Fresh
  | .uuid | .uuidNative => some .randomUuid
  | _ => none

theorem isSome_ofKey? (c : Codec) (key : Word 64) : (c.ofKey? key).isSome = c.takesKeys := by
  cases c <;> rfl

end Codec

namespace Field

/-- The id for a key given by the database. -/
def ofKey (f : Field) (key : Word 64) : Except Failure Value :=
  match f.converter.codec.ofKey? key with
  | some v => .ok v
  | none => .error (.statement (.noGeneratedId f.name f.type))

/-- The version after a given one. -/
def next (f : Field) (current : Value) : Except Failure Fresh :=
  match f.converter.codec.next? current with
  | some v => .ok v
  | none => .error (.statement (.noVersion f.name f.type))

/-- The id of a new row, where the program makes it. -/
def freshId? (f : Field) : Option Fresh :=
  if f.generatedId then f.converter.codec.freshId? else none

end Field

end Relmap
