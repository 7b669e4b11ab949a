import Relmap.Statement.Prepared

/-!
# Running statements

A connection runs the text of a statement with the stored values of its arguments. What a
connection keeps and does is its own; here is how a prepared statement is put to it.
-/

namespace Relmap

open Number (Word)

/-- A computation on a connection with the state `σ`. The state is kept when it fails. -/
abbrev Session (σ α : Type) := ExceptT Failure (StateM σ) α

/-- A result that needs no connection. -/
def Session.ofExcept {σ α : Type} (x : Except Failure α) : Session σ α := ExceptT.mk (pure x)

/-- A connection with the state `σ`. -/
structure Connection (σ : Type) where
  /-- Runs a query for its rows. -/
  query : String → List Value → Session σ Results
  /-- Runs a statement for the number of rows that it changed. -/
  update : String → List Value → Session σ Nat

/-- What running a statement gives. -/
inductive Outcome
  | rows (r : Results)
  | changed (count : Nat)

/-- The keys given by the database, in the order of the rows they belong to. -/
structure Keys where
  all : List (Word 64) := []

namespace Keys

/-- The keys with one more. -/
def add (k : Keys) (key : Word 64) : Keys := ⟨k.all ++ [key]⟩

/-- The first key, which is usually the only one. -/
def first? (k : Keys) : Option (Word 64) := k.all.head?

end Keys

namespace Connection

variable {σ : Type}

/-- Runs a statement according to its kind. All its arguments have to be set. -/
def execute (c : Connection σ) (p : Prepared) : Session σ Outcome := do
  let values ← Session.ofExcept p.bindValues
  if p.kind.isQuery then return .rows (← c.query p.sql values)
  else return .changed (← c.update p.sql values)

/-- Runs a query for the number in the first column of its first row. -/
def queryForLong (c : Connection σ) (p : Prepared) : Session σ (Word 64) := do
  let values ← Session.ofExcept p.bindValues
  let results ← c.query p.sql values
  let (found, results) ← Session.ofExcept results.first
  if found then Session.ofExcept (results.getLong 0)
  else throw (.access (.noResult p.sql))

end Connection

end Relmap
