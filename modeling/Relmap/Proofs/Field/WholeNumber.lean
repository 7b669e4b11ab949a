import Relmap.Proofs.Field.Readable
import Relmap.Proofs.Field.Storing
import Relmap.Proofs.Field.Version

/-!
# Whole numbers keep their number

A field of whole numbers takes a value of any width on the way to the database and on the way back.
What it gives is of its own width and has the same number, or there is none: a number is never cut
to fit (`Field.keepsNumber_expectWord`). A big integer travels as decimal text, in which every
number of whatever width is written in full (`Codec.bigInteger_kept`).

The main statement is `Field.number_kept`.
-/

namespace Relmap

open Number (Fits Word readWord? toWord?)
open Outcome (bind_eq_ok map_eq_ok FailsOnly)

/-! ### Values that are whole numbers -/

/-- The value is the whole number `n`, in one of the four widths. -/
inductive Value.Whole : Value → Int → Prop
  | word (w : Width) (m : Word w.bits) : Whole (w.value m) m.toInt

/-- The value is the whole number `n`, in one of the four widths or as a big integer. -/
inductive Value.WholeOrBig : Value → Int → Prop
  | whole {v : Value} {n : Int} (h : v.Whole n) : WholeOrBig v n
  | big (m : Word 128) : WholeOrBig (.bigInteger m) m.toInt

namespace Value

variable {v : Value} {n : Int}

theorem integer?_eq_some_iff : v.integer? = some n ↔ v.Whole n := by
  constructor
  · intro h
    cases v with
    | byte m => exact Option.some.inj h ▸ .word .byte m
    | short m => exact Option.some.inj h ▸ .word .short m
    | int m => exact Option.some.inj h ▸ .word .int m
    | long m => exact Option.some.inj h ▸ .word .long m
    | _ => cases h
  · rintro ⟨w, m⟩
    exact w.integer?_value m

theorem wholeNumber?_eq_some_iff : v.wholeNumber? = some n ↔ v.WholeOrBig n := by
  constructor
  · intro h
    cases v with
    | bigInteger m => exact Option.some.inj h ▸ .big m
    | _ => exact .whole (integer?_eq_some_iff.mp h)
  · rintro (⟨⟨w, m⟩⟩ | m)
    · cases w <;> rfl
    · rfl

end Value

/-! ### One width -/

/-- Exactly the whole numbers that fit a width come through, each as the same number in that width.
Everything else is a failure of the conversion. -/
structure Width.KeepsNumber (w : Width) (v : Value) (outcome : Except Failure Value) : Prop where
  succeeds : (∃ x, outcome = .ok x) ↔ ∃ n, v.Whole n ∧ Fits w.bits n
  kept : ∀ x, outcome = .ok x → ∃ m : Word w.bits, x = w.value m ∧ v.Whole m.toInt
  fails : ∀ e, outcome = .error e → ∃ cause, e = .conversion cause

/-- **A number is widened or narrowed without a change, or not at all.** -/
theorem Field.keepsNumber_expectWord (f : Field) (w : Width) (v : Value) :
    w.KeepsNumber v (w.value <$> f.expectWord w v) := by
  have word {x : Value} : w.value <$> f.expectWord w v = .ok x ↔
      ∃ m : Word w.bits, v.Whole m.toInt ∧ x = w.value m := by
    simp only [← Value.integer?_eq_some_iff]
    exact Codec.toStored_integral (f := f) (w := w) (p := true)
  refine ⟨⟨?_, ?_⟩, fun x h => ?_, fun e h => ?_⟩
  · rintro ⟨x, h⟩
    obtain ⟨m, whole, -⟩ := word.mp h
    exact ⟨m.toInt, whole, Number.fits_toInt m⟩
  · rintro ⟨n, whole, fits⟩
    refine ⟨_, word.mpr ⟨BitVec.ofInt w.bits n, ?_, rfl⟩⟩
    rwa [Number.toInt_ofInt_of_fits w.bits_pos fits]
  · obtain ⟨m, whole, rfl⟩ := word.mp h
    exact ⟨m, rfl, whole⟩
  · have conversion : FailsOnly (·.isConversion = true) (w.value <$> f.expectWord w v) :=
      .map (f.failsOnly_expectWord v w)
    exact Failure.exists_of_isConversion (conversion e h)

/-! ### Big integers -/

/-- **A number of whatever width comes back from its decimal text as a big integer.** -/
theorem Codec.bigInteger_kept (f : Field) {v : Value} {n : Int} (h : v.WholeOrBig n)
    (position : Nat) : ∃ (s : String) (m : Word 128),
      Codec.bigInteger.toStored f v = .ok (.text s) ∧
      Codec.bigInteger.ofStored f (.text s) position = .ok (.bigInteger m) ∧ m.toInt = n := by
  have number := Value.wholeNumber?_eq_some_iff.mpr h
  have fits := Codec.fits_wholeNumber? number
  have same : (BitVec.ofInt 128 n).toInt = n := Number.toInt_ofInt_of_fits (by decide) fits
  have back := (keeps_bigInteger (f := f) (BitVec.ofInt 128 n)).gives position
  rw [same] at back
  exact ⟨_, _, map_eq_ok.mpr ⟨n, Field.expect_some number, rfl⟩, back, same⟩

theorem Codec.bigInteger_refused (f : Field) {v : Value} (h : ∀ n, ¬v.WholeOrBig n) :
    ∃ cause, Codec.bigInteger.toStored f v = .error (.conversion cause) := by
  have none : v.wholeNumber? = none :=
    Option.eq_none_iff_forall_ne_some.mpr fun n number =>
      h n (Value.wholeNumber?_eq_some_iff.mp number)
  refine ⟨.unexpectedKind f.name "big integer" v.kind, ?_⟩
  show (fun n => Value.text (Number.intText n)) <$> f.expect "big integer" Value.wholeNumber? v = _
  rw [Field.expect, none]
  rfl

/-! ### Fields -/

namespace Field

variable {d : FieldDecl} {dialect : Dialect} {f : Field} {v : Value}

/-- **Storing and reading a whole number never changes it.** A field of whole numbers stores and
reads exactly the values of the four widths whose number fits its own, each as the same number in
its own width; every other value is a failure of the conversion. A field of big integers stores the
values of the four widths and big integers, nothing else, and what it has stored is read as the same
number. -/
theorem number_kept (built : d.toField dialect = .ok f) (nonnull : v ≠ .null) (position : Nat) :
    (∀ w p, d.type.codec? = some (.integral w p) →
      w.KeepsNumber v (f.toStored v) ∧ w.KeepsNumber v (f.ofStored v position)) ∧
    (d.type = .bigInteger →
      (∀ n, v.WholeOrBig n → ∃ (u : Value) (m : Word 128), f.toStored v = .ok u ∧
        f.ofStored u position = .ok (.bigInteger m) ∧ m.toInt = n) ∧
      ((∀ n, ¬v.WholeOrBig n) → ∃ cause, f.toStored v = .error (.conversion cause))) := by
  have filled : v.isNull = false := Bool.eq_false_iff.mpr (mt Value.isNull_iff.mp nonnull)
  refine ⟨fun w p type => ?_, fun type => ?_⟩
  · rw [toStored_of_nonnull filled, ofStored_of_nonnull filled, converter_of_integral built type]
    exact ⟨f.keepsNumber_expectWord w v, f.keepsNumber_expectWord w v⟩
  · have codec : d.type.codec? = some .bigInteger := by rw [type]; rfl
    have plain : f.converter = .plain .bigInteger := FieldDecl.converter_of_toField built codec
    rw [toStored_of_nonnull filled, plain]
    refine ⟨fun n whole => ?_, Codec.bigInteger_refused f⟩
    obtain ⟨s, m, stored, back, same⟩ := Codec.bigInteger_kept f whole position
    refine ⟨.text s, m, stored, ?_, same⟩
    rw [ofStored_of_nonnull rfl, plain]
    exact back

/-- A byte takes the number 127 from a long and refuses 128; a big integer takes the least number of
sixty-four bits from a long. -/
theorem least_long_kept :
    (∃ f m, FieldDecl.toField { name := "level", type := .byteObj } .derby = .ok f ∧
      f.toStored (.long 127) = .ok (.byte m) ∧ (Value.long 127).Whole m.toInt ∧
      ∀ x, f.ofStored (.long 128) 0 ≠ .ok x) ∧
    ∃ f u m, FieldDecl.toField { name := "key", type := .bigInteger } .sqlite = .ok f ∧
      f.toStored (.long (BitVec.intMin 64)) = .ok u ∧ f.ofStored u 0 = .ok (.bigInteger m) ∧
      m.toInt = -9223372036854775808 := by
  constructor
  · obtain ⟨f, built⟩ : ∃ f,
        FieldDecl.toField { name := "level", type := .byteObj } .derby = .ok f := ⟨_, rfl⟩
    obtain ⟨stored, -⟩ := (number_kept built (v := .long 127) (nofun) 0).1 .byte false rfl
    obtain ⟨-, read⟩ := (number_kept built (v := .long 128) (nofun) 0).1 .byte false rfl
    obtain ⟨x, hx⟩ := stored.succeeds.mpr ⟨127, .word .long 127, by decide⟩
    obtain ⟨m, rfl, same⟩ := stored.kept x hx
    refine ⟨f, m, built, hx, same, fun x hx => ?_⟩
    obtain ⟨m, -, whole⟩ := read.kept x hx
    have number : some 128 = some m.toInt := Value.integer?_eq_some_iff.mpr whole
    have bound := BitVec.two_mul_toInt_lt (x := m)
    rw [← Option.some.inj number] at bound
    exact absurd bound (by decide)
  · obtain ⟨f, built⟩ : ∃ f,
        FieldDecl.toField { name := "key", type := .bigInteger } .sqlite = .ok f := ⟨_, rfl⟩
    have whole : (Value.long (BitVec.intMin 64)).WholeOrBig (-9223372036854775808) :=
      .whole (.word .long (BitVec.intMin 64))
    obtain ⟨u, m, stored, back, same⟩ :=
      ((number_kept built (v := .long (BitVec.intMin 64)) (nofun) 0).2 rfl).1 _ whole
    exact ⟨f, u, m, built, stored, back, same⟩

end Field

end Relmap
