import Relmap.Statement.Draft
import Relmap.Text.Marked

/-!
# Templates of statements

A part of a statement made ahead of its place: its text with slots for the placeholders, and its
arguments. The slots are numbered when the part is written into a draft, on from the arguments that
the draft has by then.
-/

namespace Relmap

/-- A placeholder that is not numbered yet. -/
structure Slot where
  /-- The dialect that writes the placeholder. -/
  dialect : Dialect
  /-- The number of the placeholder, from one, where no arguments come before. -/
  offset : Nat
  deriving DecidableEq, Repr

/-- The placeholder of a slot after so many arguments. -/
def Slot.placeholder (before : Nat) (s : Slot) : List Char :=
  (s.dialect.placeholder (before + s.offset)).toList

/-- A part of a statement, wherever it is going to stand. -/
structure Template where
  signs : List (Text.Sign Slot)
  args : List Argument

namespace Template

/-- A text with arguments whose placeholders, if it has any, are written out in it. -/
def fixed (sql : String) (args : List Argument) : Template := ⟨Text.unmarked sql.toList, args⟩

/-- The text after so many arguments. -/
def text (t : Template) (before : Nat) : List Char := Text.expand (Slot.placeholder before) t.signs

end Template

/-- The draft with a template. -/
def Draft.fill (d : Draft) (t : Template) : Draft where
  text := d.text ++ String.ofList (t.text d.args.length)
  args := d.args ++ t.args

end Relmap
