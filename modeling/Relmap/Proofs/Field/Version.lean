import Mathlib.Logic.Function.Iterate
import Relmap.Field.Fresh
import Relmap.Proofs.Field.Bindable
import Relmap.Proofs.Field.Column

/-!
# The next version of a row

A field of whole numbers stores every number that fits its width, in whatever kind of value it comes
(`Codec.toStored_integral`). The next version is told by the value as it comes. A value of the
field's own kind is moved forward by one, around the end (`Width.next_value`), so that a row whose
versions all come from the field counts them (`Width.next_iterate`). A value of any other kind is
taken for none, and the versions start again at one (`Width.next_of_foreign`).

The main statement is `Field.next_version_iff`.
-/

namespace Relmap

open Number (Word)
open Outcome (map_eq_ok)

/-! ### Words -/

namespace Width

variable {w : Width} {v : Value}

theorem value_injective (w : Width) : Function.Injective w.value := by
  intro m n same
  have numbers := congrArg Value.integer? same
  rw [integer?_value, integer?_value] at numbers
  exact BitVec.eq_of_toInt_eq (Option.some.inj numbers)

theorem bits_pos (w : Width) : 0 < w.bits := by cases w <;> decide

theorem next_value (n : Word w.bits) : w.next (w.value n) = w.value (n + 1) := by
  cases w <;> rfl

theorem next_of_foreign (foreign : ∀ n, v ≠ w.value n) : w.next v = w.value 1 := by
  unfold next
  split
  · exact absurd rfl (foreign _)
  · exact absurd rfl (foreign _)
  · exact absurd rfl (foreign _)
  · exact absurd rfl (foreign _)
  · rfl

/-- After so many moves from nothing the version is that number, around the end. -/
theorem next_iterate (w : Width) (moves : Nat) :
    w.next^[moves + 1] .null = w.value (BitVec.ofNat _ (moves + 1)) := by
  induction moves with
  | zero => cases w <;> rfl
  | succ moves ih =>
    rw [Function.iterate_succ_apply', ih, next_value, BitVec.ofNat_add (moves + 1) 1]
    rfl

/-- Another kind of value with the same number is not moved forward. -/
theorem next_of_other {n : Word w.bits} (number : v.integer? = some n.toInt)
    (other : v ≠ w.value n) : w.next v = w.value 1 := by
  refine next_of_foreign fun m same => other ?_
  rw [same, integer?_value] at number
  rw [same, BitVec.eq_of_toInt_eq (Option.some.inj number)]

/-- The next of a number is the number after it if the number is of the width's own kind. It happens
to be so for zero of another kind, because the number after zero is one. -/
theorem next_eq_iff {n : Word w.bits} (number : v.integer? = some n.toInt) :
    w.next v = w.value (n + 1) ↔ v = w.value n ∨ n = 0 := by
  by_cases own : v = w.value n
  · rw [own, next_value]
    exact ⟨fun _ => .inl rfl, fun _ => rfl⟩
  · have restarts : (1 : Word w.bits) = n + 1 ↔ n = 0 := calc
      (1 : Word w.bits) = n + 1 ↔ 0#w.bits + 1 = n + 1 := by rw [BitVec.zero_add]
      _ ↔ 0#w.bits = n := BitVec.add_left_inj 1
      _ ↔ n = 0 := eq_comm
    rw [next_of_other number own, w.value_injective.eq_iff, restarts]
    exact ⟨.inr, fun h => h.resolve_left own⟩

end Width

/-! ### Fields of whole numbers -/

/-- A field of whole numbers stores the word of its width that has the number of the value. -/
theorem Codec.toStored_integral {f : Field} {w : Width} {p : Bool} {v u : Value} :
    (Codec.integral w p).toStored f v = .ok u ↔
      ∃ n, v.integer? = some n.toInt ∧ u = w.value n := by
  refine map_eq_ok.trans ⟨?_, ?_⟩
  · rintro ⟨n, word, rfl⟩
    obtain ⟨k, number, fits⟩ := Field.expectWord_eq_ok.mp word
    rw [← Number.toInt_of_toWord? w.bits_pos fits] at number
    exact ⟨n, number, rfl⟩
  · rintro ⟨n, number, rfl⟩
    exact ⟨n, Field.expectWord_eq_ok.mpr ⟨_, number, Number.toWord?_toInt n⟩, rfl⟩

namespace Field

variable {d : FieldDecl} {dialect : Dialect} {f : Field} {w : Width} {p : Bool}

theorem converter_of_integral (built : d.toField dialect = .ok f)
    (type : d.type.codec? = some (.integral w p)) : f.converter = .plain (.integral w p) :=
  FieldDecl.converter_of_toField built type

theorem next_of_integral (built : d.toField dialect = .ok f)
    (type : d.type.codec? = some (.integral w p)) (v : Value) :
    f.next v = .ok (.value (w.next v)) := by
  rw [next, converter_of_integral built type]
  rfl

/-- **When a version moves forward.** Null starts at one. A value that the field stores as the
number `n` is followed by `n + 1`, around the end, if it is a value of the field's own kind. If it
is a number of another width, it is followed by one, which is `n + 1` for zero only. -/
theorem next_version_iff (built : d.toField dialect = .ok f)
    (type : d.type.codec? = some (.integral w p)) :
    f.next .null = .ok (.value (w.value 1)) ∧
      ∀ v u, f.toStored v = .ok u → u.isNull = false →
        ∃ n : Word w.bits, u = w.value n ∧ v.integer? = some n.toInt ∧
          (v = u → f.next v = .ok (.value (w.value (n + 1)))) ∧
          (v ≠ u → f.next v = .ok (.value (w.value 1))) ∧
          (f.next v = .ok (.value (w.value (n + 1))) ↔ v = u ∨ n = 0) := by
  refine ⟨?_, fun v u stored nonnull => ?_⟩
  · rw [next_of_integral built type]
    cases w <;> rfl
  · rcases toStored_cases stored with ⟨-, rfl⟩ | ⟨-, stored⟩
    · cases nonnull
    · rw [converter_of_integral built type] at stored
      obtain ⟨n, number, rfl⟩ := Codec.toStored_integral (p := p) |>.mp stored
      rw [next_of_integral built type]
      refine ⟨n, rfl, number, fun own => ?_, fun other => ?_, ?_⟩
      · rw [own, Width.next_value]
      · rw [Width.next_of_other number other]
      · simp only [Except.ok.injEq, Fresh.value.injEq]
        exact Width.next_eq_iff number

/-- The last byte is followed by the first one, and a zero of another width by one. -/
theorem last_byte_followed_by_first : ∃ f,
    FieldDecl.toField { name := "version", type := .byteObj, version := true } .derby = .ok f ∧
      f.toStored (.byte 127) = .ok (.byte 127) ∧
      f.next (.byte 127) = .ok (.value (.byte (-128))) ∧
      f.toStored (.long 0) = .ok (.byte 0) ∧ f.next (.long 0) = .ok (.value (.byte (0 + 1))) := by
  obtain ⟨f, built, last, zero⟩ : ∃ f,
      FieldDecl.toField { name := "version", type := .byteObj, version := true } .derby = .ok f ∧
        f.toStored (.byte 127) = .ok (.byte 127) ∧ f.toStored (.long 0) = .ok (.byte 0) :=
    ⟨_, rfl, rfl, rfl⟩
  obtain ⟨-, moves⟩ := next_version_iff built (w := .byte) (p := false) rfl
  refine ⟨f, built, last, ?_, zero, ?_⟩
  · obtain ⟨n, same, -, own, -⟩ := moves _ _ last rfl
    obtain rfl : (127 : Word 8) = n := Width.byte.value_injective same
    exact own rfl
  · obtain ⟨n, same, -, -, -, forward⟩ := moves _ _ zero rfl
    obtain rfl : (0 : Word 8) = n := Width.byte.value_injective same
    exact forward.mpr (.inr rfl)

/-- A LONG column binds the int five as five, and gives one as the version after it. -/
theorem version_starts_again : ∃ f,
    FieldDecl.toField { name := "version", type := .long, version := true } .sqlite = .ok f ∧
      f.toStored (.int 5) = .ok (.long 5) ∧ f.next (.int 5) = .ok (.value (.long 1)) ∧
      f.next (.int 5) ≠ .ok (.value (.long (5 + 1))) := by
  refine ⟨_, rfl, rfl, rfl, fun same => ?_⟩
  have versions : (1 : Word 64) = 5 + 1 :=
    Width.long.value_injective (Fresh.value.inj (Except.ok.inj same))
  exact absurd versions (by decide)

end Field

end Relmap
