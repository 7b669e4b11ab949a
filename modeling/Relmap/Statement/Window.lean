import Relmap.Failure

/-!
# Windows on the rows of a query

The part of a statement that limits how many rows come and skips the first of them, as each dialect
writes it. Some dialects cannot skip rows without a limit.
-/

namespace Relmap

open Number (natText)

namespace Dialect

/-- A number between two words, or nothing where there is no number. -/
def counted (before : String) (n : Option Nat) (after : String) : String :=
  match n with
  | some n => before ++ natText n ++ after
  | none => ""

/-- Whether rows can be skipped without a limit. -/
def skipsWithoutLimit : Dialect → Bool
  | .sqlite | .mysql => false
  | _ => true

/-- The window of a query. -/
def window (d : Dialect) (limit offset : Option Nat) : Except Failure String :=
  match d with
  | .derby => .ok (counted "OFFSET " offset " ROWS " ++ counted "FETCH NEXT " limit " ROWS ONLY ")
  | _ =>
    if offset.isSome && limit.isNone && !d.skipsWithoutLimit then
      .error (.statement (.offsetWithoutLimit d))
    else .ok (counted "LIMIT " limit " " ++ counted "OFFSET " offset " ")

end Dialect

end Relmap
