import Relmap.Dialect.Basic
import Relmap.Field.Codec

/-!
# Converters

A converter is a codec with layers around it that change how its values travel. A layer that says
nothing about a conversion passes it on, and what is told about the codec holds for the converter,
except for its name and the type of its stored values. A dialect puts one layer around the codecs
whose values it cannot bind.
-/

namespace Relmap

/-- A layer around a codec. -/
inductive Adapter
  /-- Booleans travel as a byte. -/
  | booleanNumber
  /-- Single characters travel as text. -/
  | characterCompat
  /-- Everything is passed on. -/
  | forwarding (name : String)
  /-- Everything is passed on but the type of the stored values. -/
  | retyped (name : String) (type : SqlType)
  deriving DecidableEq, Repr

namespace Adapter

/-- The name of a layer. -/
def name : Adapter → String
  | .booleanNumber => "BOOLEAN_NUMBER"
  | .characterCompat => "CHARACTER_COMPAT"
  | .forwarding name => name
  | .retyped name _ => name

/-- The type a layer gives to the stored values; `none` where it leaves the type alone. -/
def sqlType? : Adapter → Option SqlType
  | .retyped _ type => some type
  | _ => none

end Adapter

/-- A codec in its layers. -/
structure Converter where
  codec : Codec
  /-- The layers, outermost first. -/
  layers : List Adapter
  deriving DecidableEq, Repr

namespace Converter

/-- A codec without layers. -/
def plain (c : Codec) : Converter := ⟨c, []⟩

/-- The converter inside one more layer. -/
def adapt (c : Converter) (a : Adapter) : Converter := { c with layers := a :: c.layers }

/-- The name of a converter, which is that of its outermost part. -/
def name (c : Converter) : String :=
  match c.layers with
  | [] => c.codec.name
  | a :: _ => a.name

/-- The type of the stored values, as the outermost layer with an opinion has it. -/
def sqlType (c : Converter) : SqlType := (c.layers.findSome? Adapter.sqlType?).getD c.codec.sqlType

end Converter

/-- The converter of a codec under a dialect. -/
def Dialect.converter (d : Dialect) (c : Codec) : Converter :=
  match c with
  | .boolean _ => if d.lacksBoolean then ⟨c, [.booleanNumber]⟩ else .plain c
  | .character _ => if d.lacksCharacter then ⟨c, [.characterCompat]⟩ else .plain c
  | _ => .plain c

end Relmap
