import Relmap.Text.Quoted
import Relmap.Value.Basic

/-!
# Literals of SQL

A value written into SQL text: null as a word, octets in hexadecimal, and everything else as its
text, between quotes where the caller says so.
-/

namespace Relmap.Value

/-- Whether a value that belongs to no field is written between quotes. -/
def quotedByItself : Value → Bool
  | .text _ | .char _ | .uuid _ | .timestamp _ | .json _ | .enum _ => true
  | _ => false

/-- The literal of a value. -/
def literal (quoted : Bool) : Value → String
  | .null => "NULL"
  | .bytes b => String.ofList ('X' :: '\'' :: Text.Hex.upper b ++ ['\''])
  | v =>
    if quoted then String.ofList (Text.Quoted.wrap '\'' v.display.toList) else v.display

end Relmap.Value
