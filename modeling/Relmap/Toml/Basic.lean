/-!
# Settings in TOML

The values of TOML: texts, booleans, numbers, moments, lists, and tables of settings. A setting is
named by a path, and no path of a table leads to another one or into it. Of moments and of numbers
other than whole ones only the kind is kept, since no configuration has a use for them.
-/

namespace Relmap

/-- What names a setting: the names that lead to it from its table. -/
abbrev Toml.Path := List String

/-- A value in TOML. -/
inductive Toml
  | text (s : String)
  | truth (b : Bool)
  | number (n : Int)
  /-- A number with a fraction or an exponent, an infinity, a NaN, or a whole number written without
  a value. -/
  | otherNumber
  /-- A day, a time of day, or both. -/
  | moment
  | list (items : List Toml)
  | table (settings : List (Toml.Path × Toml))

namespace Toml

/-- The text of a value. -/
def text? : Toml → Option String
  | .text s => some s
  | _ => none

/-- The boolean of a value. -/
def truth? : Toml → Option Bool
  | .truth b => some b
  | _ => none

/-- The whole number of a value. -/
def whole? : Toml → Option Int
  | .number n => some n
  | _ => none

/-- The items of a list. -/
def items? : Toml → Option (List Toml)
  | .list items => some items
  | _ => none

/-- Whether one of two paths leads to the other or into it. -/
def Path.clash (p q : Path) : Bool := p.isPrefixOf q || q.isPrefixOf p

/-- Settings with one more; `none` if its path clashes with the path of another. -/
def addSetting? (path : Path) (v : Toml) (settings : List (Path × Toml)) :
    Option (List (Path × Toml)) :=
  if settings.any (path.clash ·.1) then none else some (settings ++ [(path, v)])

end Toml

end Relmap
