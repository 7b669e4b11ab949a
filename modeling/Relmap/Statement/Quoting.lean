import Relmap.Dialect.Basic

/-!
# Quoted text in SQL

A piece of SQL read from left to right is inside a quoted text or outside of all of them. Three
characters open a quoted text, and the next same character closes it; a doubled character closes
and opens again, which comes to the same. Placeholders count only outside.
-/

namespace Relmap

/-- Whether a character opens a quoted text. -/
def isQuote (c : Char) : Bool := c = '\'' || c = '"' || c = '\x60'

/-- The quote that is open after a character, if any, from the one that was open before it. -/
def quoteAfter (quote : Option Char) (c : Char) : Option Char :=
  match quote with
  | some q => if c = q then none else some q
  | none => if isQuote c then some c else none

/-- The text with its placeholders outside of quotes numbered on from `count`. A dialect without
numbers leaves the text as it is. -/
def Dialect.renumber (d : Dialect) (count : Nat) (quote : Option Char) : List Char → List Char
  | [] => []
  | c :: r =>
    if quote = none ∧ c = '?' then (d.placeholder (count + 1)).toList ++ renumber d (count + 1) none r
    else c :: renumber d count (quoteAfter quote c) r

end Relmap
