import Relmap.Toml.Basic
import Relmap.Toml.Token

/-!
# Keys of TOML

A key is a path of names with dots between them. A name is a string on one line, or a word of
letters, digits, dashes and underscores. Blanks around a dot do not count, and words hold the dots
that have none, so that a key is first taken apart into names and dots.
-/

namespace Relmap.Toml

/-- A piece of a key. -/
inductive KeyPiece
  | name (s : List Char)
  | dot
  deriving DecidableEq, Repr

/-- Whether a character may stand in a name without quotes. -/
def isKeyChar (c : Char) : Bool := c.isAlphanum || c = '_' || c = '-'

/-- The pieces of a word. -/
def wordPieces : List Char → List KeyPiece
  | [] => []
  | c :: r =>
    if c = '.' then .dot :: wordPieces r
    else match wordPieces r with
      | .name s :: ps => .name (c :: s) :: ps
      | ps => .name [c] :: ps

/-- The pieces of a token, if it can be part of a key. -/
def keyPieces? : Token → Option (List KeyPiece)
  | .string s => some [.name s.toList]
  | .word s => if s.all fun c => isKeyChar c || c = '.' then some (wordPieces s) else none
  | _ => none

/-- The names of a key: names and dots take turns. -/
def names? : List KeyPiece → Option (List String)
  | [.name s] => some [String.ofList s]
  | .name s :: .dot :: ps => (names? ps).map (String.ofList s :: ·)
  | _ => none

/-- How many names a path may have. -/
def maxNames : Nat := 80

/-- The path of a key. -/
def path? (ps : List KeyPiece) : Option Path := (names? ps).filter (·.length ≤ maxNames)

/-- The name that a token is a key of. -/
def keyName? (t : Token) : Option String :=
  match (keyPieces? t).bind path? with
  | some [name] => some name
  | _ => none

end Relmap.Toml
