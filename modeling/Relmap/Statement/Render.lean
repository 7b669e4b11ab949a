import Relmap.Dialect.Name
import Relmap.Statement.Clause
import Relmap.Statement.Draft
import Relmap.Statement.Quoting
import Relmap.Statement.Window

/-!
# Writing conditions and queries

Every part of a condition writes its text with one blank after it and asks for its arguments as
their placeholders are written; nothing looks at what was written before. Operands under the other
connective stand in parentheses, operands under the same one do not. Columns are written with a
table where one is given.
-/

namespace Relmap

/-! ### Leaves -/

/-- Writes the right side of a comparison. -/
def Rhs.render (d : Dialect) (table : Option String) (draft : Draft) : Rhs → Draft
  | .argument a => draft.ask d a
  | .column c => draft.write (d.column (c.table <|> table) c.column)

/-- Writes a test. -/
def Leaf.render (d : Dialect) (table : Option String) (draft : Draft) : Leaf → Draft
  | .compare column operator rhs =>
    (rhs.render d table (draft.write (d.column table column ++ " " ++ operator ++ " "))).write " "
  | .between column low high =>
    let draft := (draft.write (d.column table column ++ " BETWEEN ")).ask d low
    ((draft.write " AND ").ask d high).write " "
  | .inList column first rest negated =>
    let draft := draft.write (d.column table column ++ if negated then " NOT IN (" else " IN (")
    ((draft.ask d first).askMore d rest).write ") "
  | .null column negated =>
    draft.write (d.column table column ++ if negated then " IS NOT NULL " else " IS NULL ")
  | .raw sql args =>
    { text := draft.text ++ String.ofList (d.renumber draft.args.length none sql.toList) ++ " "
      args := draft.args ++ args }

/-! ### Queries around a condition -/

namespace SelectShape

/-- The table that columns are written with. -/
def qualifier (s : SelectShape) : Option String := if s.qualified then some s.table.name else none

/-- Columns with commas between them. -/
def columnList (s : SelectShape) (columns : List String) : String :=
  ", ".intercalate (columns.map (s.dialect.column s.qualifier))

/-- What is selected. -/
def selection (s : SelectShape) : String :=
  let distinct := if s.distinct then "DISTINCT " else ""
  match s.count with
  | some e => "COUNT(" ++ distinct ++ e ++ ") "
  | none => distinct ++ (if s.columns.isEmpty then "*" else s.columnList s.columns) ++ " "

/-- The query up to its condition. -/
def opening (s : SelectShape) : String :=
  "SELECT " ++ s.selection ++ "FROM " ++ s.dialect.quotedName s.table.name ++ " "

/-- A key that rows are sorted by. -/
def sortKey (s : SelectShape) : SortKey → String
  | .column name ascending =>
    s.dialect.column s.qualifier name ++ if ascending then "" else " DESC"
  | .expression sql => sql

/-- Grouping and sorting. -/
def grouping (s : SelectShape) : String :=
  (if s.groupBy.isEmpty then "" else "GROUP BY " ++ s.columnList s.groupBy ++ " ") ++
    (match s.having with
      | some e => "HAVING " ++ e ++ " "
      | none => "") ++
    (if s.orderBy.isEmpty then ""
      else "ORDER BY " ++ ", ".intercalate (s.orderBy.map s.sortKey) ++ " ")

/-- Writes the query, given how its condition is written. -/
def render (s : SelectShape) (condition : Draft → Except Failure Draft) (draft : Draft) :
    Except Failure Draft :=
  match s.fault with
  | some e => .error e
  | none => do
    let draft ← condition (draft.write s.opening)
    return draft.write (s.grouping ++ (← s.dialect.window s.limit s.offset))

end SelectShape

/-! ### Trees -/

/-- A connective between two operands. -/
def Connective.separator : Connective → String
  | .and => "AND "
  | .or => "OR "

/-- Writes an operand of a connective: in parentheses if it is under the other connective. -/
def Draft.operand (draft : Draft) (op : Connective) (kind : ClauseKind)
    (part : Draft → Except Failure Draft) : Except Failure Draft :=
  match kind with
  | .connective inner =>
    if inner = op then part draft
    else return (← (draft.write "(").trimmed part).write ") "
  | _ => part draft

/-- Writes the negation of an operand. -/
def Draft.negation (draft : Draft) (kind : ClauseKind) (part : Draft → Except Failure Draft) :
    Except Failure Draft :=
  match kind with
  | .nonempty => part (draft.write "NOT ")
  | .connective _ => return (← (draft.write "(NOT (").trimmed part).write ")) "
  | .leaf | .not => return (← (draft.write "(NOT ").trimmed part).write ") "

mutual

/-- Writes a condition. -/
def Clause.render (d : Dialect) (table : Option String) : Clause → Draft → Except Failure Draft
  | .leaf l, draft => .ok (l.render d table draft)
  | .inQuery column query negated, draft => do
    let opened := draft.write (d.column table column ++ if negated then " NOT IN (" else " IN (")
    return (← SubQuery.render query opened).write ") "
  | .many op first second rest, draft => do
    let draft ← draft.operand op first.kind fun x => Clause.render d table first x
    let draft ← (draft.write op.separator).operand op second.kind
      fun x => Clause.render d table second x
    Clause.renderRest d table op rest draft
  | .not operand, draft => draft.negation operand.kind fun x => Clause.render d table operand x
  | .nonempty query, draft => return (← SubQuery.render query (draft.write "EXISTS (")).write ") "

/-- Writes further operands of a connective. -/
def Clause.renderRest (d : Dialect) (table : Option String) (op : Connective) :
    List Clause → Draft → Except Failure Draft
  | [], draft => .ok draft
  | c :: rest, draft => do
    let draft ← (draft.write op.separator).operand op c.kind fun x => Clause.render d table c x
    Clause.renderRest d table op rest draft

/-- Writes a query inside a statement, without blanks at its end. -/
def SubQuery.render : SubQuery → Draft → Except Failure Draft
  | .select shape condition, draft =>
    draft.trimmed (shape.render fun x => Condition.render shape.qualifier condition x)
  | .outside (.ok template) _, draft => .ok (draft.fill template)
  | .outside (.error e) _, _ => .error e

/-- Writes the condition of a query. -/
def Condition.render (table : Option String) : Condition → Draft → Except Failure Draft
  | .absent, draft => .ok draft
  | .broken cause, _ => .error cause
  | .holds dialect clause, draft => Clause.render dialect table clause (draft.write "WHERE ")

end

end Relmap
