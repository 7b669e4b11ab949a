import Relmap.Statement.Argument
import Relmap.Text.Blank

/-!
# Drafts of statements

A statement is written from left to right into a draft: its text so far and the arguments of the
placeholders so far. The number of a placeholder is the count of the arguments up to its own.
-/

namespace Relmap

/-- A statement while it is being written. -/
structure Draft where
  text : String := ""
  /-- The arguments, in the order of their placeholders. -/
  args : List Argument := []

namespace Draft

/-- The draft with more text. -/
def write (d : Draft) (s : String) : Draft := { d with text := d.text ++ s }

/-- The draft with a placeholder and its argument. -/
def ask (d : Draft) (dialect : Dialect) (a : Argument) : Draft where
  text := d.text ++ dialect.placeholder (d.args.length + 1)
  args := d.args ++ [a]

/-- The draft with placeholders after commas, one to an argument. -/
def askMore (d : Draft) (dialect : Dialect) : List Argument → Draft
  | [] => d
  | a :: rest => ((d.write ",").ask dialect a).askMore dialect rest

/-- The draft with what a part writes, less the blanks at the end of it. -/
def trimmed (d : Draft) (part : Draft → Except Failure Draft) : Except Failure Draft := do
  let inner ← part { d with text := "" }
  return { inner with text := d.text ++ Text.trimTail inner.text }

end Draft

end Relmap
