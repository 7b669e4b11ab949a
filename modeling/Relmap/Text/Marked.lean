/-!
# Marked texts

A text in which some places are left open: each of its signs is a character or a mark. Once it is
said what every mark stands for, a marked text is a text.
-/

namespace Relmap.Text

/-- A sign of a marked text. -/
inductive Sign (α : Type)
  | char (c : Char)
  | mark (a : α)
  deriving DecidableEq, Repr

/-- What a sign stands for, given what the marks stand for. -/
def Sign.text {α : Type} (f : α → List Char) : Sign α → List Char
  | .char c => [c]
  | .mark a => f a

/-- The text of a marked text, given what the marks stand for. -/
def expand {α : Type} (f : α → List Char) (s : List (Sign α)) : List Char := s.flatMap (Sign.text f)

/-- A text without marks. -/
def unmarked {α : Type} (s : List Char) : List (Sign α) := s.map .char

/-- The marks, in order. -/
def marks {α : Type} (s : List (Sign α)) : List α :=
  s.filterMap fun
    | .char _ => none
    | .mark a => some a

end Relmap.Text
