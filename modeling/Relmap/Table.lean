import Relmap.Field.Declare
import Relmap.Field.Fetch
import Relmap.Field.Fresh
import Relmap.Row

/-!
# Tables

A table is a list of fields with distinct columns, at most one id and at most one version. Columns
are found by name in any letter case. A result row becomes a row of the table by taking the columns
that the table knows, in the order of the table.
-/

namespace Relmap

open Number (Word)

/-- What is wrong with the fields of a table, looked at in order after some earlier ones. -/
def tableFault? (table : String) : (before : List Field) → List Field → Option ConfigFailure
  | _, [] => none
  | before, f :: rest =>
    if before.any fun g => Text.sameName g.column f.column then
      some (.duplicateColumn table f.column)
    else if f.isId && before.any (·.isId) then some (.manyIds table)
    else if f.version && before.any (·.version) then some (.manyVersions table)
    else tableFault? table (f :: before) rest

/-- A table. -/
structure Table where
  name : String
  fields : List Field
  sound : tableFault? name [] fields = none

/-- The declaration of a table. -/
structure TableDecl where
  name : String
  fields : List FieldDecl
  deriving DecidableEq

namespace Table

/-- The table of a name and fields, or the first fault of the fields. -/
def make (name : String) (fields : List Field) : Except Failure Table :=
  match h : tableFault? name [] fields with
  | none => .ok ⟨name, fields, h⟩
  | some cause => .error (.config cause)

/-- The field with a column, if there is one. -/
def field? (t : Table) (column : String) : Option Field :=
  t.fields.find? fun f => Text.sameName f.column column

/-- The field with a column. -/
def field (t : Table) (column : String) : Except Failure Field :=
  match t.field? column with
  | some f => .ok f
  | none => .error (.statement (.unknownColumn column t.name))

/-- Whether there is a field with a column. -/
def hasColumn (t : Table) (column : String) : Bool := (t.field? column).isSome

/-- The id of the table. -/
def idField? (t : Table) : Option Field := t.fields.find? (·.isId)

/-- The version of the table. -/
def versionField? (t : Table) : Option Field := t.fields.find? (·.version)

/-- The row of the fields that have a column in the results, after the columns so far. -/
def mapFields (r : Results) : List Field → Row → Except Failure Row
  | [], row => .ok row
  | f :: rest, row => do
    match ← r.findColumn f.column with
    | none => mapFields r rest row
    | some position => mapFields r rest (row.push f.column (← f.ofColumn r position))

/-- The row that the results stand on. -/
def mapRow (t : Table) (r : Results) : Except Failure Row := mapFields r t.fields .empty

/-- The row with its id from a key given by the database. -/
def assignId (t : Table) (row : Row) (key : Word 64) : Except Failure Row :=
  match t.idField? with
  | some f =>
    if f.generatedId then return row.set f.column (← f.ofKey key)
    else throw (.statement (.tableWithoutGeneratedId t.name))
  | none => throw (.statement (.tableWithoutGeneratedId t.name))

end Table

/-- The table of a declaration under a dialect. -/
def TableDecl.toTable (d : TableDecl) (dialect : Dialect) : Except Failure Table := do
  Table.make d.name (← d.fields.mapM fun f => f.toField dialect)

end Relmap
