import Relmap.Failure
import Relmap.Value.Basic

/-!
# Values in the storage of SQLite

The storage knows five classes of values. Binding a value folds it into one of them; what is read
back comes as the value that stands for its class.
-/

namespace Relmap

open Number (Double Word)

/-- A value in storage. -/
inductive Stored
  | null
  | integer (n : Word 64)
  | real (x : Double)
  /-- The octets of a text, which need not be sound. -/
  | text (b : List UInt8)
  | blob (b : List UInt8)
  deriving DecidableEq

namespace Stored

/-- The stored form of a text. -/
def ofString (s : String) : Stored := .text (Relmap.Text.Utf8.encode s.toList)

/-- The stored form of a value. -/
def bind : Value → Stored
  | .null => .null
  | .bool b => .integer (if b then 1 else 0)
  | .byte n => .integer (BitVec.ofInt 64 n.toInt)
  | .short n => .integer (BitVec.ofInt 64 n.toInt)
  | .int n => .integer (BitVec.ofInt 64 n.toInt)
  | .long n => .integer n
  | .float x => .real (x.convert .double)
  | .double x => .real x
  | .text s => ofString s
  | .bytes b => .blob b
  | .enum c => ofString c.name
  | .char c => ofString (String.ofList [c])
  | .bigInteger n => ofString (Number.intText n.toInt)
  | .decimal d => ofString d.text
  | .uuid u => ofString u.text
  | .timestamp t => ofString t.text
  | .json j => ofString j.text

/-- The value of what is read from storage. -/
def read : Stored → Except Failure Value
  | .null => .ok .null
  | .integer n => .ok (.long n)
  | .real x => .ok (.double x)
  | .text b =>
    match Relmap.Text.Utf8.decode b with
    | .ok s => .ok (.text (String.ofList s))
    | .error fault => .error (.conversion (.storedTextNotText fault))
  | .blob b => .ok (.bytes b)

end Stored

end Relmap
