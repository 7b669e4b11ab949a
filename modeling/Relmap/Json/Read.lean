import Relmap.Json.Token
import Relmap.Text.Utf8

/-!
# Reading JSON

The tokens of a text are taken one by one with the open arrays and objects kept on a stack, so
that reading is one pass over the tokens. Arrays and objects may be open within each other up to a
fixed depth.
-/

namespace Relmap.Json

/-- An array or object that is still open: what it holds so far, the last item first, and for an
object the key whose value comes next. -/
inductive Frame
  | array (items : List Json)
  | object (members : List (String × Json)) (key : Option String)

/-- What may come next. -/
inductive Expect
  | value
  /-- A value or the end of the array. -/
  | itemOrClose
  | key
  /-- A key or the end of the object. -/
  | keyOrClose
  | colon
  /-- A comma or the end of the innermost array or object. -/
  | commaOrClose
  /-- Nothing: the value is complete. -/
  | done (v : Json)

/-- How far reading has come. -/
structure Progress where
  stack : List Frame
  expect : Expect

/-- The number of arrays and objects that may be open at once. -/
def depthLimit : Nat := 127

namespace Progress

/-- Takes a complete value. -/
def complete? (v : Json) : List Frame → Option Progress
  | [] => some ⟨[], .done v⟩
  | .array items :: st => some ⟨.array (v :: items) :: st, .commaOrClose⟩
  | .object members (some k) :: st =>
    some ⟨.object (insertMember k v members) none :: st, .commaOrClose⟩
  | .object _ none :: _ => none

/-- Opens an array or object. -/
def open? (f : Frame) (expect : Expect) (st : List Frame) : Option Progress :=
  if st.length < depthLimit then some ⟨f :: st, expect⟩ else none

/-- Takes the first token of a value. -/
def value? (t : Token) (st : List Frame) : Option Progress :=
  match t with
  | .openArray => open? (.array []) .itemOrClose st
  | .openObject => open? (.object [] none) .keyOrClose st
  | .string s => complete? (.string s) st
  | .scalar v => complete? v st
  | _ => none

/-- Takes a token. -/
def step? (p : Progress) (t : Token) : Option Progress :=
  match p.expect, t, p.stack with
  | .value, t, st => value? t st
  | .itemOrClose, .closeArray, .array items :: st => complete? (.array items.reverse) st
  | .itemOrClose, t, st => value? t st
  | .key, .string k, .object members _ :: st => some ⟨.object members (some k) :: st, .colon⟩
  | .keyOrClose, .string k, .object members _ :: st => some ⟨.object members (some k) :: st, .colon⟩
  | .keyOrClose, .closeObject, .object members _ :: st => complete? (.object members) st
  | .colon, .colon, st => some ⟨st, .value⟩
  | .commaOrClose, .comma, .array items :: st => some ⟨.array items :: st, .value⟩
  | .commaOrClose, .comma, .object members _ :: st => some ⟨.object members none :: st, .key⟩
  | .commaOrClose, .closeArray, .array items :: st => complete? (.array items.reverse) st
  | .commaOrClose, .closeObject, .object members _ :: st => complete? (.object members) st
  | _, _, _ => none

/-- Takes tokens to the end. -/
def run? (p : Progress) : List Token → Option Json
  | [] =>
    match p.expect with
    | .done v => some v
    | _ => none
  | t :: ts => (p.step? t).bind (run? · ts)

end Progress

/-- The value of a text. -/
def read? (s : List Char) : Option Json :=
  (tokens? s).bind (Progress.run? ⟨[], .value⟩)

/-- The value of the octets of a text. -/
def readBytes? (bytes : List UInt8) : Option Json :=
  match Text.Utf8.decode bytes with
  | .ok s => read? s
  | .error _ => none

end Relmap.Json
