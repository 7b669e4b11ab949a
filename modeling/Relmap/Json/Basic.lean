import Relmap.Number.Binary

/-!
# JSON values

Values of JSON as the database layer keeps them. Whole numbers of up to sixty-four bits stay
whole, every other number is a binary fraction. Objects list their members by key in ascending
order, each key once; a member said again replaces the earlier one.
-/

namespace Relmap

open Number (Double)

/-- A number in JSON. -/
inductive JsonNumber
  /-- A whole number from zero, below `2 ^ 64`. -/
  | natural (n : Nat)
  /-- A whole number below zero, from `-2 ^ 63`. -/
  | negative (n : Int)
  | fraction (x : Double)
  deriving DecidableEq

/-- A JSON value. -/
inductive Json
  | null
  | bool (b : Bool)
  | number (n : JsonNumber)
  | string (s : String)
  | array (items : List Json)
  | object (members : List (String × Json))

namespace Json

/-- The members with one more: in its place in the order of keys, or in the place of a member of
the same key. -/
def insertMember (key : String) (v : Json) : List (String × Json) → List (String × Json)
  | [] => [(key, v)]
  | (k, w) :: r =>
    if key < k then (key, v) :: (k, w) :: r
    else if key = k then (key, v) :: r
    else (k, w) :: insertMember key v r

/-- Equality of numbers: a whole number never equals a fraction. -/
def sameNumber : JsonNumber → JsonNumber → Bool
  | .natural m, .natural n => m = n
  | .negative m, .negative n => m = n
  | .fraction x, .fraction y => x.same y
  | _, _ => false

mutual

/-- Equality of values. -/
def same : Json → Json → Bool
  | .null, .null => true
  | .bool a, .bool b => a = b
  | .number m, .number n => sameNumber m n
  | .string s, .string t => s = t
  | .array a, .array b => sameItems a b
  | .object a, .object b => sameMembers a b
  | _, _ => false

/-- Equality of the items of arrays. -/
def sameItems : List Json → List Json → Bool
  | [], [] => true
  | a :: as, b :: bs => same a b && sameItems as bs
  | _, _ => false

/-- Equality of the members of objects. -/
def sameMembers : List (String × Json) → List (String × Json) → Bool
  | [], [] => true
  | (j, a) :: as, (k, b) :: bs => j = k && same a b && sameMembers as bs
  | _, _ => false

end

end Json

end Relmap
