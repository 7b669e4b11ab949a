import Relmap.Value.Basic

/-!
# Enumerations

The constants of an enumeration in the order of declaration, found by name or by ordinal. A name
that is declared twice means the later constant; ordinals are places in the list, so both constants
keep theirs.
-/

namespace Relmap

open Number (Word)

/-- The names of the constants of an enumeration. -/
structure Enumeration where
  names : List String
  deriving DecidableEq

namespace Enumeration

/-- The constants, in order. -/
def constants (e : Enumeration) : List EnumConstant :=
  e.names.mapIdx fun i name => ⟨name, BitVec.ofNat 32 i⟩

/-- The number of ordinals in use. An ordinal has thirty-two bits, so that of more constants than
that some share one. -/
def size (e : Enumeration) : Nat := (e.constants.map (·.ordinal)).eraseDups.length

/-- Whether there are no constants. -/
def isEmpty (e : Enumeration) : Bool := e.constants.isEmpty

/-- The constant with a name, the last of several. -/
def byName? (e : Enumeration) (name : String) : Option EnumConstant :=
  e.constants.reverse.find? (·.name = name)

/-- The constant with an ordinal. -/
def byOrdinal? (e : Enumeration) (ordinal : Word 32) : Option EnumConstant :=
  e.constants.reverse.find? (·.ordinal = ordinal)

end Enumeration

end Relmap
