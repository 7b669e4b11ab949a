import Relmap.Field.Bind
import Relmap.Proofs.Outcome

/-!
# What cannot be stored

Storing a value fails in one way only: the value cannot be converted. It is so for every codec
(`Codec.failsOnly_toStored`), hence in any layers, and for every field (`Field.failsOnly_toStored`).
-/

namespace Relmap

open Outcome

/-- Whether a failure is one of a conversion. -/
def Failure.isConversion : Failure → Bool
  | .conversion _ => true
  | _ => false

theorem Failure.exists_of_isConversion {e : Failure} (h : e.isConversion = true) :
    ∃ cause, e = .conversion cause := by
  cases e with
  | conversion cause => exact ⟨cause, rfl⟩
  | _ => cases h

namespace Field

variable (f : Field) (v : Value)

theorem failsOnly_expect {α : Type} (expected : String) (pick? : Value → Option α) :
    FailsOnly (·.isConversion = true) (f.expect expected pick? v) := by
  unfold expect
  split
  · exact .ok _
  · exact .error rfl

theorem failsOnly_expectWord (w : Width) :
    FailsOnly (·.isConversion = true) (f.expectWord w v) := by
  unfold expectWord
  split
  · exact .error rfl
  · split
    · exact .ok _
    · exact .error rfl

theorem failsOnly_secondsWord (t : Calendar.Timestamp) :
    FailsOnly (·.isConversion = true) (f.secondsWord t) := by
  unfold secondsWord
  split
  · exact .ok _
  · exact .error rfl

theorem failsOnly_timeText (t : Calendar.Timestamp) :
    FailsOnly (·.isConversion = true) (f.timeText t) := by
  unfold timeText
  split
  · exact .ok _
  · exact .error rfl

end Field

theorem Codec.failsOnly_toStored (c : Codec) (f : Field) (v : Value) :
    FailsOnly (·.isConversion = true) (c.toStored f v) := by
  cases c with
  | integral w _ => exact .map (f.failsOnly_expectWord v w)
  | dateInteger =>
    exact .bind (f.failsOnly_expect v _ _) fun t _ => .map (f.failsOnly_secondsWord t)
  | dateString => exact .bind (f.failsOnly_expect v _ _) fun t _ => .map (f.failsOnly_timeText t)
  | _ => exact .map (f.failsOnly_expect v _ _)

/-- What cannot be stored is a failure of a conversion, whatever the layers. -/
theorem Converter.failsOnly_toStored (c : Converter) (f : Field) (v : Value) :
    FailsOnly (·.isConversion = true) (c.toStored f v) := by
  obtain ⟨codec, layers⟩ := c
  show FailsOnly _ (toStoredThrough codec f v layers)
  induction layers with
  | nil => exact codec.failsOnly_toStored f v
  | cons a inner ih =>
    cases a with
    | booleanNumber => exact .map (f.failsOnly_expect v _ _)
    | characterCompat => exact .map ih
    | forwarding _ | retyped _ _ => exact ih

theorem Field.failsOnly_toStored (f : Field) (v : Value) :
    FailsOnly (·.isConversion = true) (f.toStored v) := by
  unfold toStored
  split
  · split
    · exact .ok _
    · exact .error rfl
  · exact f.converter.failsOnly_toStored f v

end Relmap
