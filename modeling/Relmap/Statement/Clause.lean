import Relmap.Statement.Template
import Relmap.Table

/-!
# Conditions as trees

A condition is a tree: tests of columns at the leaves, connectives with at least two operands,
negations, and queries inside the statement. A query inside is the declaration of a SELECT with its
own condition, or a template made elsewhere.
-/

namespace Relmap

/-- A connective of conditions. -/
inductive Connective
  | and
  | or
  deriving DecidableEq, Repr

/-- The name of a connective in messages. -/
def Connective.name : Connective → String
  | .and => "And"
  | .or => "Or"

/-- The operators of comparisons. -/
inductive CompareOp
  | eq
  | ne
  | gt
  | ge
  | lt
  | le
  | like
  deriving DecidableEq, Repr

/-- An operator in SQL. -/
def CompareOp.symbol : CompareOp → String
  | .eq => "="
  | .ne => "<>"
  | .gt => ">"
  | .ge => ">="
  | .lt => "<"
  | .le => "<="
  | .like => "LIKE"

/-- A column, perhaps of a table that is named. -/
structure ColumnRef where
  table : Option String := none
  column : String
  deriving DecidableEq, Repr

/-- The right side of a comparison. -/
inductive Rhs
  | argument (a : Argument)
  | column (c : ColumnRef)

/-- A test without a query inside. -/
inductive Leaf
  | compare (column operator : String) (rhs : Rhs)
  | between (column : String) (low high : Argument)
  /-- Membership in a list, which is never empty. -/
  | inList (column : String) (first : Argument) (rest : List Argument) (negated : Bool)
  | null (column : String) (negated : Bool)
  /-- A piece of SQL with placeholders and their arguments. -/
  | raw (sql : String) (args : List Argument)

/-- A key that rows are sorted by. -/
inductive SortKey
  | column (name : String) (ascending : Bool)
  | expression (sql : String)
  deriving DecidableEq, Repr

/-- A SELECT but for its condition. -/
structure SelectShape where
  dialect : Dialect
  table : Table
  /-- The columns to select; all of them where none is named. -/
  columns : List String := []
  distinct : Bool := false
  /-- The expression to count instead of selecting columns. -/
  count : Option String := none
  groupBy : List String := []
  having : Option String := none
  orderBy : List SortKey := []
  limit : Option Nat := none
  offset : Option Nat := none
  /-- Whether columns are written with their table. -/
  qualified : Bool := false
  /-- The first thing that went wrong while the query was put together. -/
  fault : Option Failure := none

mutual

/-- A condition. -/
inductive Clause
  | leaf (l : Leaf)
  /-- Membership in the only column of a query. -/
  | inQuery (column : String) (query : SubQuery) (negated : Bool)
  | many (op : Connective) (first second : Clause) (rest : List Clause)
  | not (operand : Clause)
  /-- Whether a query has a row. -/
  | nonempty (query : SubQuery)

/-- A query inside a statement. -/
inductive SubQuery
  | select (shape : SelectShape) (condition : Condition)
  /-- A query made elsewhere: its template, or why there is none, and the number of its columns. -/
  | outside (outcome : Except Failure Template) (columns : Nat)

/-- The condition of a query. -/
inductive Condition
  | absent
  /-- A condition that was not put together well. -/
  | broken (cause : Failure)
  | holds (dialect : Dialect) (clause : Clause)

end

/-- What kind of node a condition is at its root. -/
inductive ClauseKind
  | leaf
  | connective (op : Connective)
  | not
  | nonempty
  deriving DecidableEq, Repr

namespace Clause

/-- The kind of a condition. -/
def kind : Clause → ClauseKind
  | .leaf _ | .inQuery .. => .leaf
  | .many op .. => .connective op
  | .not _ => .not
  | .nonempty _ => .nonempty

/-- A comparison. -/
def compare (column : String) (op : CompareOp) (rhs : Rhs) : Clause :=
  .leaf (.compare column op.symbol rhs)

/-- Membership in a list, which needs a member. -/
def inList (column : String) (negated : Bool) : List Argument → Except Failure Clause
  | [] => .error (.statement (.emptyList column))
  | a :: rest => .ok (.leaf (.inList column a rest negated))

/-- Conditions under a connective, which needs two. -/
def connected (op : Connective) : List Clause → Except Failure Clause
  | a :: b :: rest => .ok (.many op a b rest)
  | few => .error (.statement (.tooFewOperands op.name few.length))

end Clause

/-- The number of columns of a query. -/
def SelectShape.width (s : SelectShape) : Nat :=
  if s.count.isSome then 1
  else if s.columns.isEmpty then s.table.fields.length
  else s.columns.length

/-- A query made elsewhere of a text and arguments. -/
def SubQuery.given (outcome : Except Failure (String × List Argument)) (columns : Nat) : SubQuery :=
  .outside (outcome.map fun (sql, args) => .fixed sql args) columns

/-- The number of columns of a query inside a statement. -/
def SubQuery.width : SubQuery → Nat
  | .select shape _ => shape.width
  | .outside _ columns => columns

/-- Membership in a query, which needs exactly one column. -/
def Clause.ofQuery (column : String) (query : SubQuery) (negated : Bool) : Except Failure Clause :=
  if query.width = 1 then .ok (.inQuery column query negated)
  else .error (.statement (.subqueryColumns column query.width))

end Relmap
