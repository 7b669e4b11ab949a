import Relmap.Statement.Select

/-!
# UPDATE and DELETE

Statements that change the rows of one table which satisfy a condition, or all rows where there is
no condition. Their columns are never written with the table.
-/

namespace Relmap

/-- What a column is set to. -/
inductive Assignment
  | value (a : Argument)
  | expression (sql : String)

/-- A call while an UPDATE is put together. -/
inductive UpdateCall
  | set (column : String) (operand : Operand)
  | setExpression (column expression : String)
  /-- Start an empty condition, unless there is one. -/
  | startWhere
  /-- Add to the condition, which is started if there is none. -/
  | restrict (call : WhereCall)

/-- An UPDATE. -/
structure Update where
  dialect : Dialect
  table : Table
  /-- The columns that are set, in order. -/
  assignments : List (String × Assignment) := []
  condition : Option Where := none
  /-- The first thing that went wrong while the statement was put together. -/
  fault : Option Failure := none

/-- The argument of a field that is set to an operand; null is a value here. -/
def Operand.assigned (o : Operand) (column : String) (f : Field) : Except Failure Argument :=
  match o with
  | .value v => Argument.ofField f v
  | .late v => Argument.ofFieldLate f v
  | .column c => .error (.statement (.columnAssigned c.column column))

namespace Update

/-- Adds an assignment, or keeps the failure, if it is the first one. -/
def assign (u : Update) (a : Except Failure (String × Assignment)) : Update :=
  match a with
  | .ok a => { u with assignments := u.assignments ++ [a] }
  | .error e => { u with fault := u.fault <|> some e }

/-- The condition, started if there is none. -/
def startedWhere (u : Update) : Where := Where.started u.dialect u.table u.condition

/-- The statement after a call. -/
def apply (u : Update) : UpdateCall → Update
  | .set column o => u.assign do
    let f ← u.table.field column
    return (f.column, .value (← o.assigned column f))
  | .setExpression column expression => u.assign do
    let f ← u.table.field column
    return (f.column, .expression expression)
  | .startWhere => { u with condition := some u.startedWhere }
  | .restrict call => { u with condition := some (u.startedWhere.apply call) }

/-- The statement after calls, in order. -/
def run (u : Update) (calls : List UpdateCall) : Update := calls.foldl apply u

/-- Writes an assignment. -/
def renderAssignment (d : Dialect) (draft : Draft) (a : String × Assignment) : Draft :=
  let draft := draft.write (d.quotedName a.1 ++ " = ")
  match a.2 with
  | .value v => draft.ask d v
  | .expression sql => draft.write sql

/-- Writes further assignments. -/
def renderMore (d : Dialect) (draft : Draft) : List (String × Assignment) → Draft
  | [] => draft
  | a :: rest => renderMore d (renderAssignment d (draft.write ", ") a) rest

/-- Writes the statement. -/
def render (u : Update) : Except Failure Draft :=
  match u.fault, u.assignments with
  | some e, _ => .error e
  | none, [] => .error (.statement (.noAssignments u.table.name))
  | none, a :: rest =>
    let opened := Draft.write {} ("UPDATE " ++ u.dialect.quotedName u.table.name ++ " SET ")
    let draft := (renderMore u.dialect (renderAssignment u.dialect opened a) rest).write " "
    (Condition.ofWhere? u.condition).render none draft

/-- The statement, written. -/
def prepare (u : Update) : Except Failure Prepared :=
  return .ofDraft (← u.render) .update u.dialect u.table

end Update

/-- A DELETE. -/
structure Delete where
  dialect : Dialect
  table : Table
  condition : Option Where := none

/-- A call while a DELETE is put together. -/
inductive DeleteCall
  /-- Start an empty condition, unless there is one. -/
  | startWhere
  /-- Add to the condition, which is started if there is none. -/
  | restrict (call : WhereCall)

namespace Delete

/-- The condition, started if there is none. -/
def startedWhere (s : Delete) : Where := Where.started s.dialect s.table s.condition

/-- The statement after a call. -/
def apply (s : Delete) : DeleteCall → Delete
  | .startWhere => { s with condition := some s.startedWhere }
  | .restrict call => { s with condition := some (s.startedWhere.apply call) }

/-- The statement after calls, in order. -/
def run (s : Delete) (calls : List DeleteCall) : Delete := calls.foldl apply s

/-- Writes the statement. -/
def render (s : Delete) : Except Failure Draft :=
  (Condition.ofWhere? s.condition).render none
    (Draft.write {} ("DELETE FROM " ++ s.dialect.quotedName s.table.name ++ " "))

/-- The statement, written. -/
def prepare (s : Delete) : Except Failure Prepared :=
  return .ofDraft (← s.render) .delete s.dialect s.table

end Delete

end Relmap
