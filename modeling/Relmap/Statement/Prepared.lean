import Relmap.Statement.Clause
import Relmap.Statement.Draft
import Relmap.Statement.Quoting

/-!
# Prepared statements

A statement that is written: its text and the arguments of its placeholders. Arguments can be set
and changed; the text stays. For logs the placeholders can be replaced by the literals of their
arguments.
-/

namespace Relmap

open Number (isDigit digitsValue)

/-- What a statement does, and so how its results are read. -/
inductive StatementKind
  | select
  /-- A query for a single number. -/
  | selectLong
  | update
  | delete
  deriving DecidableEq, Repr

/-- Whether the statement gives rows. -/
def StatementKind.isQuery : StatementKind → Bool
  | .select | .selectLong => true
  | .update | .delete => false

/-- A statement with the arguments of its placeholders, in order. -/
structure Prepared where
  sql : String
  kind : StatementKind
  args : List Argument
  dialect : Dialect
  table : Table

namespace Prepared

/-- The statement of a finished draft: blanks at the end of its text do not count. -/
def ofDraft (d : Draft) (kind : StatementKind) (dialect : Dialect) (table : Table) : Prepared where
  sql := Text.trimTail d.text
  kind := kind
  args := d.args
  dialect := dialect
  table := table

/-- The statement with an argument set, by its position from zero. -/
def setArgument (p : Prepared) (index : Nat) (v : Value) : Except Failure Prepared :=
  match p.args[index]? with
  | some a => return { p with args := p.args.set index (← a.set v) }
  | none => .error (.statement (.argumentIndex index p.args.length))

/-- The stored values of the arguments, all of which have to be set. -/
def bindValues (p : Prepared) : Except Failure (List Value) := p.args.mapM Argument.stored

/-! ### Text with literals -/

/-- The bound of the numbers of placeholders. -/
def numberLimit : Nat := Number.unsignedBound 64

/-- The literal of an argument, by its position from zero. -/
def literal (args : List Argument) (index : Nat) : Except Failure (List Char) :=
  match args[index]? with
  | some a => return (← a.literal).toList
  | none => .error (.statement (.placeholderUnmatched (index + 1) args.length))

/-- The position that the digits of a placeholder stand for. -/
def placeholderIndex (digits : List Char) : Except Failure Nat :=
  if numberLimit ≤ digitsValue digits then .error (.statement .placeholderTooLarge)
  else if digitsValue digits = 0 then .error (.statement .placeholderZero)
  else .ok (digitsValue digits - 1)

/-- The rest of a text with literals for its placeholders, which count only outside of quotes.
`next` is the position of the argument for the next placeholder without a number. -/
def inlineFrom (dialect : Dialect) (args : List Argument) (quote : Option Char) (next : Nat) :
    List Char → Except Failure (List Char)
  | [] => .ok []
  | c :: r =>
    if quote = none ∧ c = '?' ∧ !dialect.isNumbered then do
      let value ← literal args next
      return value ++ (← inlineFrom dialect args none (next + 1) r)
    else
      let digits := r.takeWhile isDigit
      if quote = none ∧ c = '$' ∧ dialect.isNumbered ∧ digits ≠ [] then do
        let value ← literal args (← placeholderIndex digits)
        return value ++ (← inlineFrom dialect args none next (r.drop digits.length))
      else return c :: (← inlineFrom dialect args (quoteAfter quote c) next r)
  termination_by s => s.length
  decreasing_by all_goals grind

/-- The text with the literals of the arguments in the places of their placeholders. -/
def inlineSql (p : Prepared) : Except Failure String :=
  String.ofList <$> inlineFrom p.dialect p.args none 0 p.sql.toList

end Prepared

end Relmap
