import Relmap.Text.Hex

/-!
# The tokens of TOML

TOML text cut into line ends, punctuation, strings and words. Blanks and comments are dropped. A
string between single quotes stands for itself; between double quotes a backslash escapes the next
characters. Strings between triple quotes may hold line ends, of which one right at the start does
not count. A word is any run of other characters, and what it means depends on its place; only a
day may have a time behind a blank.
-/

namespace Relmap.Toml

/-- A token of TOML. -/
inductive Token
  | newline
  | equals
  | comma
  /-- An opening bracket, and whether another one follows at once. -/
  | openList (doubled : Bool)
  /-- A closing bracket, and whether another one follows at once. -/
  | closeList (doubled : Bool)
  | openTable
  | closeTable
  /-- A string on one line. -/
  | string (s : String)
  /-- A string between triple quotes. -/
  | longString (s : String)
  | word (s : List Char)
  deriving DecidableEq, Repr

/-! ### Characters -/

/-- Whether a character is blank within a line. -/
def isGap (c : Char) : Bool := c = ' ' || c = '\t'

/-- Whether a character may stand in a string or a comment: not a control character, but a tab is
fine. -/
def isPlain (c : Char) : Bool := c = '\t' || (0x20 ≤ c.toNat && c.toNat ≠ 0x7F)

/-- Whether a character ends a word. -/
def endsWord (c : Char) : Bool :=
  isGap c || ['\n', '\r', '=', ',', '[', ']', '\x7b', '\x7d', '#', '"', '\''].contains c

/-- The text after a line end at its front. -/
def afterNewline? : List Char → Option (List Char)
  | '\n' :: r => some r
  | '\r' :: '\n' :: r => some r
  | _ => none

/-! ### Strings -/

/-- The character of a number in hexadecimal digits, if there is one. -/
def charOfHex? (digits : List Char) : Option Char := do
  let n ← Text.Hex.number? digits
  if n.isValidChar then some (Char.ofNat n) else none

/-- The number of digits after an escape that tells a character by its number. -/
def escapeDigits? (c : Char) : Option Nat :=
  match c with
  | 'x' => some 2
  | 'u' => some 4
  | 'U' => some 8
  | _ => none

/-- The character of an escape of one letter. -/
def escapeChar? (c : Char) : Option Char :=
  match c with
  | 'b' => some '\x08'
  | 't' => some '\t'
  | 'n' => some '\n'
  | 'f' => some '\x0c'
  | 'r' => some '\r'
  | 'e' => some '\x1b'
  | '"' => some '"'
  | '\\' => some '\\'
  | _ => none

/-- The character of the escape after a backslash, and how many characters it takes. -/
def escape? : List Char → Option (Char × Nat)
  | [] => none
  | c :: r =>
    match escapeDigits? c with
    | some n => if r.length < n then none else (charOfHex? (r.take n)).map (·, n + 1)
    | none => (escapeChar? c).map (·, 1)

/-- The text without the blanks and line ends at its front. -/
def afterBlanks : List Char → List Char
  | '\r' :: '\n' :: r => afterBlanks r
  | c :: r => if isGap c || c = '\n' then afterBlanks r else c :: r
  | [] => []

/-- The blanks and line ends after a backslash that ends a line, and how many characters they are;
`none` unless there is a line end. -/
def lineJoin? (s : List Char) : Option Nat :=
  (afterNewline? (s.dropWhile isGap)).map fun r => s.length - (afterBlanks r).length

/-- How many quotes are at the front of the text. -/
def quoteRun (quote : Char) (s : List Char) : Nat := (s.takeWhile (· == quote)).length

/-- The rest of a string on one line, without its quotes, and how many characters it takes. -/
def shortString? (quote : Char) : List Char → Option (List Char × Nat)
  | [] => none
  | c :: r =>
    if c = quote then some ([], 1)
    else if c = '\\' ∧ quote = '"' then
      match escape? r with
      | some (d, n) => (shortString? quote (r.drop n)).map fun (s, m) => (d :: s, n + m + 1)
      | none => none
    else if isPlain c then (shortString? quote r).map fun (s, m) => (c :: s, m + 1)
    else none
  termination_by s => s.length
  decreasing_by all_goals grind

/-- The rest of a string between triple quotes, and how many characters it takes. Of the quotes at
its end all but three belong to the string, at most two. -/
def longString? (quote : Char) : List Char → Option (List Char × Nat)
  | [] => none
  | c :: r =>
    if c = quote then
      let run := quoteRun quote r + 1
      if 3 ≤ run then
        let inside := min (run - 3) 2
        some (List.replicate inside quote, inside + 3)
      else (longString? quote r).map fun (s, m) => (c :: s, m + 1)
    else if c = '\\' ∧ quote = '"' then
      match lineJoin? r with
      | some n => (longString? quote (r.drop n)).map fun (s, m) => (s, n + m + 1)
      | none =>
        match escape? r with
        | some (d, n) => (longString? quote (r.drop n)).map fun (s, m) => (d :: s, n + m + 1)
        | none => none
    else if isPlain c ∨ c = '\n' ∨ (c = '\r' ∧ r.head? = some '\n') then
      (longString? quote r).map fun (s, m) => (c :: s, m + 1)
    else none
  termination_by s => s.length
  decreasing_by all_goals grind

/-- The string after its first quote, and how many characters it takes. -/
def string? (quote : Char) (s : List Char) : Option (Token × Nat) :=
  if 2 ≤ quoteRun quote s then
    let body := s.drop 2
    let skipped := match afterNewline? body with
      | some r => body.length - r.length
      | none => 0
    (longString? quote (body.drop skipped)).map fun (t, n) =>
      (.longString (String.ofList t), skipped + n + 2)
  else (shortString? quote s).map fun (t, n) => (.string (String.ofList t), n)

/-! ### Words -/

/-- Whether a word has the shape of a day. -/
def isDayShape : List Char → Bool
  | [a, b, c, d, '-', e, f, '-', g, h] => [a, b, c, d, e, f, g, h].all (·.isDigit)
  | _ => false

/-- The rest of a word that starts with `c`. A day goes on past one blank if a digit follows, which
can only be a time. -/
def wordRest (c : Char) (s : List Char) : List Char :=
  let word := s.takeWhile (!endsWord ·)
  match s.drop word.length with
  | ' ' :: d :: r =>
    if isDayShape (c :: word) && d.isDigit then
      word ++ ' ' :: (d :: r).takeWhile (!endsWord ·)
    else word
  | _ => word

/-! ### Tokens -/

/-- The token of a punctuation mark, given what follows it. -/
def mark? (c : Char) (rest : List Char) : Option Token :=
  match c with
  | '\n' => some .newline
  | '=' => some .equals
  | ',' => some .comma
  | '[' => some (.openList (rest.head? = some '['))
  | ']' => some (.closeList (rest.head? = some ']'))
  | '\x7b' => some .openTable
  | '\x7d' => some .closeTable
  | _ => none

/-- The tokens of a text; `none` at a character that is out of place. -/
def tokens? : List Char → Option (List Token)
  | [] => some []
  | c :: r =>
    if isGap c then tokens? r
    else if c = '#' then
      let comment := r.takeWhile fun d => d != '\n' && d != '\r'
      if comment.all isPlain then tokens? (r.drop comment.length) else none
    else if c = '\r' then
      match r with
      | '\n' :: r => (tokens? r).map (.newline :: ·)
      | _ => none
    else if c = '"' ∨ c = '\'' then
      match string? c r with
      | some (t, n) => (tokens? (r.drop n)).map (t :: ·)
      | none => none
    else match mark? c r with
      | some t => (tokens? r).map (t :: ·)
      | none =>
        let word := wordRest c r
        (tokens? (r.drop word.length)).map (.word (c :: word) :: ·)
  termination_by s => s.length
  decreasing_by all_goals grind

end Relmap.Toml
