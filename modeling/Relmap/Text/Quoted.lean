/-!
# Doubled quotes

Inside a quoted text a quote character is written twice. Identifiers, string literals and the
reading of SQL fragments all rest on this one rule.
-/

namespace Relmap.Text.Quoted

/-- The inside of a quoted text: each quote character twice, all else once. -/
def double (quote : Char) : List Char → List Char
  | [] => []
  | c :: r => if c = quote then quote :: quote :: double quote r else c :: double quote r

/-- The text between quote characters. -/
def wrap (quote : Char) (s : List Char) : List Char := quote :: double quote s ++ [quote]

end Relmap.Text.Quoted
