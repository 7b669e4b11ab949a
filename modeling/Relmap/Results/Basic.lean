import Relmap.Failure
import Relmap.Value.Basic

/-!
# Result rows and their cursor

The rows of a query in memory, with a cursor that stands before the first row, on a row, or after
the last one. Columns are counted from zero and found by name in any letter case, the first of
several. Closing is for good.
-/

namespace Relmap

/-- The rows of a query. -/
structure Results where
  columns : List String
  rows : List (List Value)
  /-- The row the cursor is on; `none` before the first one. -/
  cursor : Option Nat := none
  closed : Bool := false

namespace Results

/-- Rows with the cursor before the first of them. -/
def ofRows (columns : List String) (rows : List (List Value)) : Results := { columns, rows }

/-- A single row with the cursor on it. -/
def ofRow (row : List (String × Value)) : Results :=
  { columns := row.map (·.1), rows := [row.map (·.2)], cursor := some 0 }

/-- The number of rows. -/
def size (r : Results) : Nat := r.rows.length

/-- Whether there are no rows. -/
def isEmpty (r : Results) : Bool := r.rows.isEmpty

/-- Fails once the results are closed. -/
def checkOpen (r : Results) : Except Failure Unit :=
  if r.closed then .error (.access .closed) else .ok ()

/-- Moves the cursor to the first row; tells whether there is one. -/
def first (r : Results) : Except Failure (Bool × Results) := do
  r.checkOpen
  if r.rows.isEmpty then return (false, { r with cursor := none })
  else return (true, { r with cursor := some 0 })

/-- Moves the cursor to the next row; tells whether there is one. After the last row it stays. -/
def next (r : Results) : Except Failure (Bool × Results) := do
  r.checkOpen
  let i := match r.cursor with
    | none => 0
    | some c => c + 1
  if i < r.rows.length then return (true, { r with cursor := some i })
  else return (false, { r with cursor := some r.rows.length })

/-- Ends all reading. -/
def close (r : Results) : Results := { r with closed := true }

/-- The position of the first column of a name. -/
def findColumn (r : Results) (name : String) : Except Failure (Option Nat) := do
  r.checkOpen
  return r.columns.findIdx? fun c => Text.sameName c name

/-- The row the cursor is on. -/
def currentRow (r : Results) : Except Failure (List Value) := do
  r.checkOpen
  match r.cursor.bind (r.rows[·]?) with
  | some row => return row
  | none => throw (.access .noRow)

/-- The value of a column in the row the cursor is on. -/
def get (r : Results) (position : Nat) : Except Failure Value := do
  let row ← r.currentRow
  match row[position]? with
  | some v => return v
  | none => throw (.access (.positionOutOfRange position row.length))

/-- Whether the column is null. -/
def isNull (r : Results) (position : Nat) : Except Failure Bool :=
  return (← r.get position).isNull

end Results

end Relmap
