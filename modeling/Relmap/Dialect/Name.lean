import Relmap.Dialect.Basic
import Relmap.Text.Quoted

/-!
# Names of tables and columns in SQL

A name is written between quotes, a quote inside it twice. A name with points is a path: each of
its parts is quoted by itself and the points stand between them.
-/

namespace Relmap

/-- The parts of a name between its points. -/
def nameParts (name : String) : List (List Char) := name.toList.splitOn '.'

namespace Dialect

/-- A name, part by part between quotes. -/
def quotedName (d : Dialect) (name : String) : String :=
  String.ofList <| ['.'].intercalate ((nameParts name).map (Text.Quoted.wrap d.nameQuote))

/-- A column, after its table if one is given. -/
def column (d : Dialect) (table : Option String) (column : String) : String :=
  match table with
  | some t => d.quotedName t ++ "." ++ d.quotedName column
  | none => d.quotedName column

end Dialect

end Relmap
