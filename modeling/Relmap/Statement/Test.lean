import Relmap.Statement.Clause

/-!
# Tests of columns

A test names a column of a table and what it is tested against. The column is looked up, a value is
converted by its field, and columns whose values cannot be compared are refused. In the condition
the column is written as the test spells it.
-/

namespace Relmap

/-- What a column is tested against or set to. -/
inductive Operand
  | value (v : Value)
  /-- A value to be set later, perhaps with one for the time being. -/
  | late (v : Option Value)
  | column (c : ColumnRef)

/-- A test before it is checked against a table. -/
inductive Test
  | compare (op : CompareOp) (column : String) (operand : Operand)
  /-- Equality of the table's id. -/
  | idEquals (operand : Operand)
  | between (column : String) (low high : Operand)
  | inList (column : String) (operands : List Operand) (negated : Bool)
  | inQuery (column : String) (query : SubQuery) (negated : Bool)
  | null (column : String) (negated : Bool)
  | nonempty (query : SubQuery) (negated : Bool)
  | raw (sql : String) (args : List Argument)
  /-- A comparison with an operator in SQL, of a column that is not looked up. -/
  | compareRaw (column operator : String) (v : Value)

/-- The argument of a field for an operand that has to be a value. -/
def Operand.argument (o : Operand) (f : Field) : Except Failure Argument :=
  match o with
  | .value v =>
    if v.isNull then .error (.statement (.nullArgument f.column)) else Argument.ofField f v
  | .late v => Argument.ofFieldLate f v
  | .column c => .error (.statement (.columnAsValue c.column f.column))

namespace Table

/-- The field of a column whose values can be compared. -/
def comparable (t : Table) (column : String) : Except Failure Field := do
  let f ← t.field column
  if f.converter.codec.isComparable then return f
  else throw (.statement (.notComparable column f.type))

/-- The right side of a comparison with a field. A column without a table has to be known. -/
def rhs (t : Table) (f : Field) : Operand → Except Failure Rhs
  | .column c => do
    if c.table.isNone then discard (t.field c.column)
    return .column c
  | o => return .argument (← o.argument f)

/-- A comparison of a column. -/
def compare (t : Table) (op : CompareOp) (column : String) (o : Operand) :
    Except Failure Clause := do
  let f ← t.comparable column
  return .compare column op (← t.rhs f o)

/-- The condition of a test. -/
def clause (t : Table) : Test → Except Failure Clause
  | .compare op column o => t.compare op column o
  | .idEquals o =>
    match t.idField? with
    | some f => t.compare .eq f.column o
    | none => .error (.statement (.tableWithoutId t.name))
  | .between column low high => do
    let f ← t.comparable column
    return .leaf (.between column (← low.argument f) (← high.argument f))
  | .inList column operands negated => do
    let f ← t.comparable column
    Clause.inList column negated (← operands.mapM fun o => o.argument f)
  | .inQuery column query negated => do
    discard (t.field column)
    Clause.ofQuery column query negated
  | .null column negated => do
    discard (t.field column)
    return .leaf (.null column negated)
  | .nonempty query negated => .ok (if negated then .not (.nonempty query) else .nonempty query)
  | .raw sql args => .ok (.leaf (.raw sql args))
  | .compareRaw column operator v =>
    .ok (.leaf (.compare column operator (.argument (.raw v))))

end Table

end Relmap
