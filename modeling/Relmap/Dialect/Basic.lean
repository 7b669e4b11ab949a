import Relmap.Number.Word
import Relmap.Text.Caseless

/-!
# Dialects

The dialects of SQL and what sets them apart: how placeholders and quoted names are written, and
which values cannot be bound.
-/

namespace Relmap

/-- A dialect of SQL. -/
inductive Dialect
  | sqlite
  | postgresql
  | mysql
  | derby
  | h2
  deriving DecidableEq, Repr, Inhabited

namespace Dialect

/-- Every dialect, in the order of declaration. -/
def all : List Dialect := [.sqlite, .postgresql, .mysql, .derby, .h2]

/-- The dialect taken where none is given. -/
def standard : Dialect := .sqlite

/-- The name of a dialect. -/
def name : Dialect → String
  | .sqlite => "sqlite"
  | .postgresql => "postgresql"
  | .mysql => "mysql"
  | .derby => "derby"
  | .h2 => "h2"

/-- The names a dialect goes by. -/
def aliases : Dialect → List String
  | .sqlite => ["sqlite", "android"]
  | .postgresql => ["postgresql", "postgres", "pg"]
  | .mysql => ["mysql", "mariadb"]
  | .derby => ["derby"]
  | .h2 => ["h2"]

/-- The dialect that goes by a name, in any letter case. -/
def ofName? (s : String) : Option Dialect :=
  all.find? fun d => d.aliases.any (Text.sameName · s)

/-- The dialect with exactly this name, as written in data files. -/
def ofExactName? (s : String) : Option Dialect := all.find? fun d => d.name = s

/-- Whether placeholders carry the number of their argument. -/
def isNumbered : Dialect → Bool
  | .postgresql => true
  | _ => false

/-- Whether there is no type for booleans, so that they travel as a byte. -/
def lacksBoolean : Dialect → Bool
  | .sqlite | .mysql | .derby => true
  | _ => false

/-- Whether a single character cannot be bound, so that it travels as text. -/
def lacksCharacter : Dialect → Bool
  | .derby => true
  | _ => false

/-- The character around names. -/
def nameQuote : Dialect → Char
  | .mysql => '\x60'
  | _ => '"'

/-- The placeholder of an argument, by its number from one. -/
def placeholder (d : Dialect) (number : Nat) : String :=
  if d.isNumbered then "$" ++ Number.natText number else "?"

end Dialect

end Relmap
