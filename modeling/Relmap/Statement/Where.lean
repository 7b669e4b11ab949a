import Relmap.Statement.Render
import Relmap.Statement.Test

/-!
# Putting a condition together

Conditions are kept on a stack. A connective takes the last condition as its left operand and waits
for the next one, a negation waits for the next one too, and the last so many conditions can be
put under a connective at once. The first failure is kept, and then the condition is that failure
whatever comes after.
-/

namespace Relmap

/-- What waits for the next condition. -/
inductive Pending
  | connective (op : Connective) (left : Clause)
  | not

/-- The condition that a waiting part and the next condition make. -/
def Pending.join (next : Clause) : Pending → Clause
  | .connective op left => .many op left next []
  | .not => .not next

/-- A call while a condition is put together. -/
inductive WhereCall
  | test (t : Test)
  | connect (op : Connective)
  | not
  | combine (op : Connective) (count : Nat)

/-- A condition while it is put together. -/
structure Where where
  dialect : Dialect
  table : Table
  /-- The conditions, the last one first. -/
  clauses : List Clause := []
  /-- What waits for the next condition, the last one first. -/
  pending : List Pending := []
  fault : Option Failure := none

/-- The name of the call for a connective in messages. -/
def Connective.call : Connective → String
  | .and => "and"
  | .or => "or"

namespace Where

/-- Whether nothing was added. -/
def isEmpty (w : Where) : Bool := w.clauses.isEmpty && w.pending.isEmpty

/-- Keeps a failure, if it is the first one. -/
def fail (w : Where) (e : Failure) : Where := { w with fault := w.fault <|> some e }

/-- Adds a condition, which everything that waits takes up. -/
def add (w : Where) (c : Clause) : Where :=
  { w with clauses := w.pending.foldl Pending.join c :: w.clauses, pending := [] }

/-- Makes the last condition the left operand of a connective. -/
def connect (w : Where) (op : Connective) : Where :=
  match w.clauses with
  | left :: rest =>
    { w with clauses := rest, pending := .connective op left :: w.pending }
  | [] => w.fail (.statement (.nothingBefore op.call))

/-- Negates the next condition. -/
def not (w : Where) : Where := { w with pending := .not :: w.pending }

/-- Puts the last so many conditions under a connective, in the order they were added. -/
def combine (w : Where) (op : Connective) (count : Nat) : Where :=
  if count < 2 ∨ w.clauses.length < count then
    w.fail (.statement (.cannotCombine count w.clauses.length))
  else
    match Clause.connected op (w.clauses.take count).reverse with
    | .ok c => { w with clauses := w.clauses.drop count }.add c
    | .error e => w.fail e

/-- Adds the condition of a test. -/
def test (w : Where) (t : Test) : Where :=
  match w.table.clause t with
  | .ok c => w.add c
  | .error e => w.fail e

/-- The condition after a call. -/
def apply (w : Where) : WhereCall → Where
  | .test t => w.test t
  | .connect op => w.connect op
  | .not => w.not
  | .combine op count => w.combine op count

/-- The condition after calls, in order. -/
def run (w : Where) (calls : List WhereCall) : Where := calls.foldl apply w

/-- The finished condition: nothing went wrong, nothing waits, and there is exactly one. -/
def clause (w : Where) : Except Failure Clause :=
  match w.fault, w.pending, w.clauses with
  | some e, _, _ => .error e
  | none, _ :: _, _ => .error (.statement .nothingAfter)
  | none, [], [c] => .ok c
  | none, [], [] => .error (.statement .noClauses)
  | none, [], more => .error (.statement (.unconnected more.length))

/-- Writes the finished condition, without the word in front of it. -/
def render (w : Where) (table : Option String) (draft : Draft) : Except Failure Draft := do
  (← w.clause).render w.dialect table draft

/-- The condition as a part of a query. -/
def condition (w : Where) : Condition :=
  match w.clause with
  | .ok c => .holds w.dialect c
  | .error e => .broken e

end Where

/-- The condition of a statement, where it has one. -/
def Condition.ofWhere? : Option Where → Condition
  | some w => w.condition
  | none => .absent

end Relmap
