import Relmap.Calendar.Pattern.Write

/-!
# Patterns that cannot be written

A timestamp knows no time zone. A pattern that asks for one can be read, the zone being passed over,
but not written, whatever the timestamp (`writeItems?_eq_none_iff`).
-/

namespace Relmap.Calendar

/-- Whether a piece of a pattern asks for a time zone. -/
def PatternItem.asksZone : PatternItem → Bool
  | .text .zoneName | .text .zoneOffset | .text .looseZoneOffset | .text .internetTime => true
  | _ => false

/-- Whether a pattern asks for a time zone. -/
def Pattern.asksZone (p : Pattern) : Bool := p.items.any PatternItem.asksZone

theorem PatternItem.write?_eq_none_iff {t : Timestamp} {i : PatternItem} :
    i.write? t = none ↔ i.asksZone = true := by
  cases i with
  | text f => cases f <;> simp [write?, TextField.write?, asksZone]
  | literal _ | blank _ | number _ _ => simp [write?, asksZone]

theorem writeItems?_eq_none_iff {t : Timestamp} {items : List PatternItem} :
    writeItems? t items = none ↔ items.any PatternItem.asksZone = true := by
  induction items with
  | nil => simp [writeItems?]
  | cons i items ih =>
    rw [List.any_cons, Bool.or_eq_true, ← PatternItem.write?_eq_none_iff (t := t), ← ih, writeItems?]
    cases i.write? t with
    | none => simp
    | some s => cases writeItems? t items <;> simp

/-- A pattern cannot write a timestamp exactly if it asks for a time zone. -/
theorem Pattern.write?_eq_none_iff {p : Pattern} {t : Timestamp} :
    p.write? t = none ↔ p.asksZone = true := by
  rw [write?, Option.map_eq_none_iff, writeItems?_eq_none_iff, asksZone]

end Relmap.Calendar
