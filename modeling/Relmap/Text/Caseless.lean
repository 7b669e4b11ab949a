/-!
# Names compared without letter case

Column, dialect and type names are the same when they agree up to the case of their ASCII letters;
letters outside ASCII keep their case. The comparison is equality of the folded names, so it is an
equivalence.
-/

namespace Relmap.Text

/-- The characters of a name with ASCII capitals made small. -/
def foldCase (s : String) : List Char := s.toList.map Char.toLower

/-- Whether two names agree up to ASCII letter case. -/
def sameName (a b : String) : Bool := foldCase a == foldCase b

theorem sameName_iff {a b : String} : sameName a b = true ↔ foldCase a = foldCase b := by
  simp [sameName]

@[simp] theorem sameName_self (a : String) : sameName a a = true := by simp [sameName]

theorem sameName_comm (a b : String) : sameName a b = sameName b a := by
  simp [sameName, Bool.beq_comm]

end Relmap.Text
