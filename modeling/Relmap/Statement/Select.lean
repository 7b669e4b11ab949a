import Relmap.Statement.Prepared
import Relmap.Statement.Where

/-!
# SELECT

A query over one table, put together by calls in any order. Columns are looked up as they are named
and written as the table declares them. The first failure is kept and found when the query is
prepared.
-/

namespace Relmap

/-- A call while a query is put together. -/
inductive SelectCall
  | columns (names : List String)
  | distinct
  /-- Count rows by an expression instead of selecting columns. -/
  | count (expression : String)
  /-- Start an empty condition, unless there is one. -/
  | startWhere
  /-- Add to the condition, which is started if there is none. -/
  | restrict (call : WhereCall)
  /-- Replace the condition. -/
  | setWhere (w : Where)
  | groupBy (column : String)
  | having (expression : String)
  | orderBy (column : String) (ascending : Bool)
  | orderByExpression (expression : String)
  | limit (count : Nat)
  | offset (count : Nat)
  | qualifyColumns (b : Bool)

/-- A query. -/
structure Select where
  shape : SelectShape
  condition : Option Where := none

/-- The condition of a statement, started if there is none. -/
def Where.started (dialect : Dialect) (table : Table) (w : Option Where) : Where :=
  w.getD { dialect, table }

namespace Select

/-- A query over a table. -/
def new (dialect : Dialect) (table : Table) : Select := ⟨{ dialect, table }, none⟩

/-- Changes the query by a field of its table, or keeps that there is none, if it is the first
failure. -/
def withField (s : SelectShape) (column : String) (change : String → SelectShape) : SelectShape :=
  match s.table.field column with
  | .ok f => change f.column
  | .error e => { s with fault := s.fault <|> some e }

/-- Adds a column to select. -/
def addColumn (s : SelectShape) (column : String) : SelectShape :=
  withField s column fun name => { s with columns := s.columns ++ [name] }

/-- The condition, started if there is none. -/
def startedWhere (s : Select) : Where :=
  Where.started s.shape.dialect s.shape.table s.condition

/-- The query after a call. -/
def apply (s : Select) : SelectCall → Select
  | .columns names => { s with shape := names.foldl addColumn s.shape }
  | .distinct => { s with shape := { s.shape with distinct := true } }
  | .count expression => { s with shape := { s.shape with count := some expression } }
  | .startWhere => { s with condition := some s.startedWhere }
  | .restrict call => { s with condition := some (s.startedWhere.apply call) }
  | .setWhere w => { s with condition := some w }
  | .groupBy column =>
    { s with shape := withField s.shape column fun name =>
        { s.shape with groupBy := s.shape.groupBy ++ [name] } }
  | .having expression => { s with shape := { s.shape with having := some expression } }
  | .orderBy column ascending =>
    { s with shape := withField s.shape column fun name =>
        { s.shape with orderBy := s.shape.orderBy ++ [.column name ascending] } }
  | .orderByExpression expression =>
    { s with shape := { s.shape with orderBy := s.shape.orderBy ++ [.expression expression] } }
  | .limit count => { s with shape := { s.shape with limit := some count } }
  | .offset count => { s with shape := { s.shape with offset := some count } }
  | .qualifyColumns b => { s with shape := { s.shape with qualified := b } }

/-- The query after calls, in order. -/
def run (s : Select) (calls : List SelectCall) : Select := calls.foldl apply s

/-- What the query does. -/
def kind (s : Select) : StatementKind :=
  if s.shape.count.isSome then .selectLong else .select

/-- The query as a part of another statement. -/
def subQuery (s : Select) : SubQuery := .select s.shape (.ofWhere? s.condition)

/-- Writes the query. -/
def render (s : Select) : Draft → Except Failure Draft :=
  s.shape.render ((Condition.ofWhere? s.condition).render s.shape.qualifier)

/-- The query, written. -/
def prepare (s : Select) : Except Failure Prepared :=
  return .ofDraft (← s.render {}) s.kind s.shape.dialect s.shape.table

end Select

end Relmap
