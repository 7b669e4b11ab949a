import Relmap.Text.Caseless
import Relmap.Value.Basic

/-!
# Rows

The columns of a row of a table with their values, in order. Columns are found by name in any letter
case, the first of several. Appending does not look for a column of that name; setting does.
-/

namespace Relmap

/-- The columns of a row. -/
structure Row where
  columns : List (String × Value)

namespace Row

/-- The row without columns. -/
def empty : Row := ⟨[]⟩

/-- The number of columns. -/
def size (r : Row) : Nat := r.columns.length

/-- Whether there are no columns. -/
def isEmpty (r : Row) : Bool := r.columns.isEmpty

/-- The row with one more column. -/
def push (r : Row) (column : String) (v : Value) : Row := ⟨r.columns ++ [(column, v)]⟩

/-- The value of the first column of a name. -/
def get? (r : Row) (column : String) : Option Value :=
  (r.columns.find? fun c => Text.sameName c.1 column).map (·.2)

/-- The columns with the first one of a name given a value, or with one more column. -/
def setIn (column : String) (v : Value) : List (String × Value) → List (String × Value)
  | [] => [(column, v)]
  | c :: cs => if Text.sameName c.1 column then (c.1, v) :: cs else c :: setIn column v cs

/-- The row with the first column of a name given a value; the column is appended if there is
none. -/
def set (r : Row) (column : String) (v : Value) : Row := ⟨setIn column v r.columns⟩

end Row

end Relmap
