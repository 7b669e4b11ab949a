import Relmap.Toml.Key
import Relmap.Toml.Scalar

/-!
# Reading a configuration in TOML

A configuration is a list of settings, one to a line, and then sections of settings that each start
with a name in double brackets. Lists and tables may be written as values; in them lines may end
anywhere but within a key. No path of a table leads to another or into it, and a section cannot have
the name of a setting. Other kinds of sections are no part of any configuration.
-/

namespace Relmap.Toml

/-- The settings of a configuration. -/
structure Document where
  settings : List (Path × Toml) := []
  /-- The sections by name, in order. -/
  sections : List (String × List (Path × Toml)) := []

namespace Document

/-- Adds a setting to the last section, or to the settings before all sections. -/
def add? (d : Document) (path : Path) (v : Toml) : Option Document :=
  match d.sections.getLast? with
  | none => (addSetting? path v d.settings).map fun s => { d with settings := s }
  | some (name, last) =>
    (addSetting? path v last).map fun s =>
      { d with sections := d.sections.dropLast ++ [(name, s)] }

/-- Starts a section. -/
def start? (d : Document) (name : String) : Option Document :=
  if d.settings.any (·.1.head? = some name) then none
  else some { d with sections := d.sections ++ [(name, [])] }

end Document

/-- How deep lists and tables may be nested. -/
def maxDepth : Nat := 80

/-- A list or table that is still open: what it holds so far, and for a table the path of the value
that comes next. -/
inductive Frame
  | list (items : List Toml)
  | table (settings : List (Path × Toml)) (path : Path)

/-- What may come next. -/
inductive Expect
  /-- A key, a section or an empty line. -/
  | line
  | lineEnd
  /-- The second of two opening brackets. -/
  | secondOpen
  | sectionName
  /-- The first of two closing brackets. -/
  | sectionEnd (name : String)
  /-- The second of two closing brackets. -/
  | secondClose (name : String)
  /-- More of a key or the equals sign after it. -/
  | key (pieces : List KeyPiece)
  | value (path : Path)
  /-- An item of a list or its end. -/
  | itemOrClose
  /-- A key of a table or its end. -/
  | keyOrClose (settings : List (Path × Toml))
  /-- More of a key in a table or the equals sign after it. -/
  | keyIn (settings : List (Path × Toml)) (pieces : List KeyPiece)
  /-- The equals sign after a key in a table that a line end has followed. -/
  | equalsIn (settings : List (Path × Toml)) (path : Path)
  | valueIn
  /-- A comma or the end of the innermost list. -/
  | listComma
  /-- A comma or the end of the innermost table. -/
  | tableComma (settings : List (Path × Toml))

/-- How far reading has come. -/
structure Progress where
  document : Document := {}
  /-- The path of the setting whose value is read. -/
  path : Path := []
  stack : List Frame := []
  expect : Expect := .line

namespace Progress

/-- Takes a complete value. -/
def complete? (p : Progress) (v : Toml) : Option Progress :=
  match p.stack with
  | [] => (p.document.add? p.path v).map fun d => { p with document := d, expect := .lineEnd }
  | .list items :: st =>
    some { p with stack := .list (items ++ [v]) :: st, expect := .listComma }
  | .table settings path :: st =>
    (addSetting? path v settings).map fun s => { p with stack := st, expect := .tableComma s }

/-- Takes the first token of a value. -/
def value? (p : Progress) : Token → Option Progress
  | .string s => p.complete? (.text s)
  | .longString s => p.complete? (.text s)
  | .word s => (word? s).bind p.complete?
  | .openList _ =>
    if p.stack.length < maxDepth then
      some { p with stack := .list [] :: p.stack, expect := .itemOrClose }
    else none
  | .openTable =>
    if p.stack.length < maxDepth then some { p with expect := .keyOrClose [] } else none
  | _ => none

/-- Ends the innermost list. -/
def closeList? (p : Progress) : Option Progress :=
  match p.stack with
  | .list items :: st => { p with stack := st }.complete? (.list items)
  | _ => none

/-- Takes the equals sign after a key in a table. -/
def openSetting (p : Progress) (settings : List (Path × Toml)) (path : Path) : Progress :=
  { p with stack := .table settings path :: p.stack, expect := .valueIn }

/-- Takes a token. -/
def step? (p : Progress) (t : Token) : Option Progress :=
  match p.expect, t with
  | .line, .newline => some p
  | .line, .openList doubled => if doubled then some { p with expect := .secondOpen } else none
  | .line, t => (keyPieces? t).map fun ps => { p with expect := .key ps }
  | .lineEnd, .newline => some { p with expect := .line }
  | .secondOpen, .openList _ => some { p with expect := .sectionName }
  | .sectionName, t => (keyName? t).map fun k => { p with expect := .sectionEnd k }
  | .sectionEnd name, .closeList doubled =>
    if doubled then some { p with expect := .secondClose name } else none
  | .secondClose name, .closeList _ =>
    (p.document.start? name).map fun d => { p with document := d, expect := .lineEnd }
  | .key ps, .equals => (path? ps).map fun k => { p with expect := .value k }
  | .key ps, t => (keyPieces? t).map fun qs => { p with expect := .key (ps ++ qs) }
  | .value k, t => { p with path := k }.value? t
  | .itemOrClose, .newline => some p
  | .itemOrClose, .closeList _ => p.closeList?
  | .itemOrClose, t => p.value? t
  | .listComma, .newline => some p
  | .listComma, .comma => some { p with expect := .itemOrClose }
  | .listComma, .closeList _ => p.closeList?
  | .keyOrClose _, .newline => some p
  | .keyOrClose settings, .closeTable => p.complete? (.table settings)
  | .keyOrClose settings, t =>
    (keyPieces? t).map fun ps => { p with expect := .keyIn settings ps }
  | .keyIn settings ps, .equals => (path? ps).map (p.openSetting settings)
  | .keyIn settings ps, .newline =>
    (path? ps).map fun k => { p with expect := .equalsIn settings k }
  | .keyIn settings ps, t =>
    (keyPieces? t).map fun qs => { p with expect := .keyIn settings (ps ++ qs) }
  | .equalsIn _ _, .newline => some p
  | .equalsIn settings k, .equals => some (p.openSetting settings k)
  | .valueIn, .newline => some p
  | .valueIn, t => p.value? t
  | .tableComma _, .newline => some p
  | .tableComma settings, .comma => some { p with expect := .keyOrClose settings }
  | .tableComma settings, .closeTable => p.complete? (.table settings)
  | _, _ => none

/-- Takes tokens to the end. -/
def run? (p : Progress) : List Token → Option Document
  | [] =>
    match p.expect with
    | .line | .lineEnd => some p.document
    | _ => none
  | t :: ts => (p.step? t).bind (run? · ts)

end Progress

/-- The text without a byte order mark at its front. -/
def withoutMark : List Char → List Char
  | '\uFEFF' :: r => r
  | s => s

/-- The configuration of a text. -/
def read? (s : List Char) : Option Document := (tokens? (withoutMark s)).bind (Progress.run? {})

end Relmap.Toml
